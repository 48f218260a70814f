import HookGuard.Console.Batcher
import HookGuard.Lib.Asyncio
import HookGuard.Lib.Runs

/- The batcher as it runs (`hookguard_console/batcher.py`): the task that drains the queue
   on a tick, calls of `flush`, and the worker threads that write the batches.

   A `State` says where the task and each call of `flush` is; an `Action` is a call from
   outside, a worker that has written its batch, or one of the coroutines running up to its
   next `await`, in any order. `Job` is a batch handed to `_persist`. Every event is queued,
   discarded or in one batch (`conservation`). -/
namespace HookGuard
open Py Asyncio

namespace ticker

section Batcher
variable {maxsize : Int} {Event : Type}

/-- A batch handed to a worker, and whether `_persist` has returned. -/
structure Job (Event : Type) where
  pending : List Event
  written : Bool := false

/-- Where `_run` is: not begun, waiting for the tick or the stop event, waiting for a worker
    of the loop or of the `finally`, or over. `last` is whether the wait saw the stop event. -/
inductive Task where
  | created
  | ticking
  | writing (job : Nat) (last : Bool)
  | closing (job : Nat)
  | finished
  deriving DecidableEq

/-- A call of `flush` that waits for its worker, and what was enqueued before it. -/
structure Flush (Event : Type) where
  job : Nat
  before : List Event

/-- `Batcher`, with its coroutines, its workers and its history. -/
structure State (maxsize : Int) (Event : Type) where
  queue : Queue maxsize Event := .empty
  dropped : Nat := 0
  task : Option Task := none
  /-- The stop event is set. -/
  stopping : Bool := false
  /-- The task that waits for the stop event is done. -/
  stopped : Bool := false
  jobs : List (Job Event) := []
  flushes : List (Flush Event) := []
  enqueued : List Event := []
  discarded : List Event := []
  /-- What was enqueued when `aclose` was called. -/
  closing : Option (List Event) := none
  returned : Bool := false

/-- `start`. -/
def State.start (σ : State maxsize Event) : State maxsize Event :=
  if σ.task.isSome then σ else { σ with stopping := false, task := some .created }

/-- `enqueue`. -/
def State.enqueue (σ : State maxsize Event) (event : Event) : State maxsize Event :=
  { σ with
    queue := (σ.queue.putDropping event).1
    dropped := σ.dropped + (σ.queue.putDropping event).2.length
    enqueued := σ.enqueued ++ [event]
    discarded := σ.discarded ++ (σ.queue.putDropping event).2 }

/-- What is queued handed to a worker. -/
def State.handed (σ : State maxsize Event) : State maxsize Event :=
  { σ with queue := σ.queue.drain.2, jobs := σ.jobs ++ [{ pending := σ.queue.drain.1 }] }

/-- `_drain_and_persist`, up to where it awaits the worker: the batch it hands over, if the
    queue is not empty. -/
def State.handOff (σ : State maxsize Event) : Option Nat × State maxsize Event :=
  match σ.queue.drain.1 with
  | [] => (none, σ)
  | _ => (some σ.jobs.length, σ.handed)

/-- The `finally` of `_run`. -/
def State.finish (σ : State maxsize Event) : State maxsize Event :=
  match σ.handOff with
  | (none, σ) => { σ with task := some .finished }
  | (some job, σ) => { σ with task := some (.closing job) }

/-- `while not self._stopping.is_set()`. -/
def State.loop (σ : State maxsize Event) : State maxsize Event :=
  if σ.stopping then σ.finish else { σ with task := some .ticking }

def State.isWritten (σ : State maxsize Event) (job : Nat) : Bool :=
  (σ.jobs[job]?.map Job.written).getD false

/-- `_run` runs up to its next `await`. -/
def State.resume (σ : State maxsize Event) : State maxsize Event :=
  match σ.task with
  | some .created => σ.loop
  | some .ticking =>
    match σ.handOff with
    | (none, σ) => if σ.stopped then σ.finish else σ.loop
    | (some job, σ) => { σ with task := some (.writing job σ.stopped) }
  | some (.writing job last) =>
    if !σ.isWritten job then σ
    else if last then σ.finish
    else σ.loop
  | some (.closing job) =>
    if !σ.isWritten job then σ else { σ with task := some .finished }
  | some .finished | none => σ

/-- `flush` is called: it returns at once where the queue is empty. -/
def State.flush (σ : State maxsize Event) : State maxsize Event :=
  match σ.handOff with
  | (none, σ) => σ
  | (some job, σ) => { σ with flushes := σ.flushes ++ [⟨job, σ.enqueued⟩] }

/-- A call of `flush` goes on after its worker, and returns. -/
def State.flushed (σ : State maxsize Event) (i : Nat) : State maxsize Event :=
  match σ.flushes[i]? with
  | none => σ
  | some f => if !σ.isWritten f.job then σ else { σ with flushes := σ.flushes.eraseIdx i }

/-- A worker has run `_persist` on its batch. -/
def State.write (σ : State maxsize Event) (job : Nat) : State maxsize Event :=
  { σ with jobs := σ.jobs.modify job fun j => { j with written := true } }

/-- `aclose`, up to where it awaits the task. -/
def State.aclose (σ : State maxsize Event) : State maxsize Event :=
  if σ.closing.isSome then σ
  else if σ.task.isNone then { σ with closing := some σ.enqueued, returned := true }
  else { σ with stopping := true, closing := some σ.enqueued }

/-- A call from outside, a worker, or a coroutine that runs up to its next `await`. -/
inductive Action (Event : Type) where
  | enqueue (event : Event)
  | stopWaiter
  | resume
  | flush
  | flushed (i : Nat)
  | write (job : Nat)
  | aclose
  /-- `aclose` goes on after the task. -/
  | closed

/-- What the step enqueues. -/
def Action.events : Action Event → List Event
  | .enqueue event => [event]
  | _ => []

/-- What the steps enqueue, in turn. -/
def entered (actions : List (Action Event)) : List Event := actions.flatMap Action.events

def step (σ : State maxsize Event) : Action Event → State maxsize Event
  | .enqueue event => σ.enqueue event
  | .stopWaiter => if σ.stopping then { σ with stopped := true } else σ
  | .resume => σ.resume
  | .flush => σ.flush
  | .flushed i => σ.flushed i
  | .write job => σ.write job
  | .aclose => σ.aclose
  | .closed =>
    match σ.task with
    | some .finished => { σ with task := none, returned := true }
    | _ => σ

/-- The state after a run of a batcher that was started. -/
def run (actions : List (Action Event)) : State maxsize Event :=
  actions.foldl step (State.start {})

/-- The batches handed to `_persist`, in turn. -/
def State.batches (σ : State maxsize Event) : List (List Event) := σ.jobs.map Job.pending

/-- The account of the events that were enqueued. -/
def State.flow (σ : State maxsize Event) : Flow Event :=
  ⟨σ.enqueued, σ.batches.flatten, σ.discarded⟩

/-- Nothing that was enqueued before `aclose` is queued. -/
def State.Clear (σ : State maxsize Event) : Prop :=
  ∃ before, σ.closing = some before ∧ σ.queue.items.Sublist (σ.enqueued.drop before.length)

/-- What every state of a run satisfies. -/
structure Kept (σ : State maxsize Event) : Prop where
  flow : σ.flow.Holds σ.queue.items
  counted : σ.dropped = σ.discarded.length
  /-- What `aclose` saw was enqueued first. -/
  initial : ∀ before, σ.closing = some before → before <+: σ.enqueued
  stopped : σ.stopped = true → σ.stopping = true
  stopping : σ.stopping = true → σ.closing.isSome = true
  last : ∀ job, σ.task = some (.writing job true) → σ.closing.isSome = true
  closing : ∀ job, σ.task = some (.closing job) → σ.Clear
  finished : σ.task = some .finished → σ.Clear
  ended : σ.task = none → σ.returned = true
  returned : σ.returned = true → σ.Clear

variable {σ : State maxsize Event}

/-! ## One step -/

theorem handOff_cases (σ : State maxsize Event) :
    (σ.queue.items = [] ∧ σ.handOff = (none, σ)) ∨
    (σ.queue.items ≠ [] ∧ σ.handOff = (some σ.jobs.length, σ.handed)) := by
  unfold State.handOff Queue.drain
  cases h : σ.queue.items with
  | nil => exact .inl ⟨rfl, rfl⟩
  | cons x rest => exact .inr ⟨by simp, rfl⟩

theorem handed_flow (h : σ.flow.Holds σ.queue.items) : σ.handed.flow.Holds [] := by
  simpa [State.flow, State.batches, State.handed, Queue.drain] using h.drain

theorem handed_clear (h : σ.closing.isSome = true) : σ.handed.Clear := by
  obtain ⟨before, hbefore⟩ := Option.isSome_iff_exists.mp h
  exact ⟨before, hbefore, List.nil_sublist _⟩

theorem State.Clear.closing (h : σ.Clear) : σ.closing.isSome = true := by
  obtain ⟨before, hbefore, -⟩ := h
  rw [hbefore]
  rfl

theorem Kept.withTask (h : Kept σ) {task : Task}
    (hlast : ∀ job, task = .writing job true → σ.closing.isSome = true)
    (hclosing : ∀ job, task = .closing job → σ.Clear) (hfinished : task = .finished → σ.Clear) :
    Kept { σ with task := some task } where
  flow := h.flow
  counted := h.counted
  initial := h.initial
  stopped := h.stopped
  stopping := h.stopping
  last job htask := hlast job (Option.some.inj htask)
  closing job htask := hclosing job (Option.some.inj htask)
  finished htask := hfinished (Option.some.inj htask)
  ended htask := by cases htask
  returned := h.returned

theorem handed_kept (h : Kept σ) : Kept σ.handed where
  flow := handed_flow h.flow
  counted := h.counted
  initial := h.initial
  stopped := h.stopped
  stopping := h.stopping
  last := h.last
  closing job htask := handed_clear (h.closing job htask).closing
  finished htask := handed_clear (h.finished htask).closing
  ended := h.ended
  returned hreturned := handed_clear (h.returned hreturned).closing

/-- The `finally` is entered once `aclose` was called, and leaves nothing queued. -/
theorem finish_kept (h : Kept σ) (hclosing : σ.closing.isSome = true) : Kept σ.finish := by
  unfold State.finish
  rcases handOff_cases σ with ⟨hnil, heq⟩ | ⟨-, heq⟩
  · rw [heq]
    refine h.withTask (fun _ htask => by cases htask) (fun _ htask => by cases htask) ?_
    intro _
    obtain ⟨before, hbefore⟩ := Option.isSome_iff_exists.mp hclosing
    exact ⟨before, hbefore, by rw [hnil]; exact List.nil_sublist _⟩
  · rw [heq]
    exact (handed_kept h).withTask (fun _ htask => by cases htask)
      (fun _ _ => handed_clear hclosing) (fun htask => by cases htask)

theorem loop_kept (h : Kept σ) : Kept σ.loop := by
  unfold State.loop
  split
  · next hstopping => exact finish_kept h (h.stopping hstopping)
  · exact h.withTask (fun _ htask => by cases htask) (fun _ htask => by cases htask)
      (fun htask => by cases htask)

theorem resume_kept (h : Kept σ) : Kept σ.resume := by
  unfold State.resume
  split
  · exact loop_kept h
  · -- the tick
    rcases handOff_cases σ with ⟨-, heq⟩ | ⟨-, heq⟩
    · simp only [heq]
      split
      · next hstopped => exact finish_kept h (h.stopping (h.stopped hstopped))
      · exact loop_kept h
    · simp only [heq]
      refine (handed_kept h).withTask ?_ (fun _ htask => by cases htask)
        (fun htask => by cases htask)
      intro job htask
      obtain ⟨-, hlast⟩ : σ.jobs.length = job ∧ σ.handed.stopped = true := by simpa using htask
      exact h.stopping (h.stopped hlast)
  · next job last htask =>
    split
    · exact h
    · split
      · next hlast =>
        rw [hlast] at htask
        exact finish_kept h (h.last job htask)
      · exact loop_kept h
  · next job htask =>
    split
    · exact h
    · exact h.withTask (fun _ htask => by cases htask) (fun _ htask => by cases htask)
        (fun _ => h.closing job htask)
  · exact h
  · exact h

theorem enqueue_kept (h : Kept σ) (event : Event) : Kept (σ.enqueue event) := by
  have hclear : σ.Clear → (σ.enqueue event).Clear := by
    intro hclear
    obtain ⟨before, hbefore, hsub⟩ := hclear
    refine ⟨before, hbefore, ?_⟩
    have hlen : before.length ≤ σ.enqueued.length := (h.initial before hbefore).length_le
    rcases σ.queue.putDropping_cases event with
      ⟨-, hitems, -⟩ | ⟨oldest, rest, -, hqueue, hitems, -⟩
    · simpa only [State.enqueue, hitems] using Flow.sublist_drop_put hlen hsub event
    · have hrest : rest.Sublist (σ.enqueued.drop before.length) := by
        rw [hqueue] at hsub
        exact (List.sublist_cons_self oldest rest).trans hsub
      simpa only [State.enqueue, hitems] using Flow.sublist_drop_put hlen hrest event
  refine ⟨?_, ?_, ?_, h.stopped, h.stopping, h.last, fun job htask => hclear (h.closing job htask),
    fun htask => hclear (h.finished htask), h.ended, fun hreturned => hclear (h.returned hreturned)⟩
  · have hflow := h.flow
    unfold State.flow at hflow ⊢
    rcases σ.queue.putDropping_cases event with
      ⟨-, hitems, hdropped⟩ | ⟨oldest, rest, -, hqueue, hitems, hdropped⟩
    · simpa only [State.enqueue, State.batches, hitems, hdropped, List.append_nil] using
        hflow.put event
    · -- the oldest event makes room
      rw [hqueue] at hflow
      simpa only [State.enqueue, State.batches, hitems, hdropped] using hflow.putDropping event
  · have hcounted := h.counted
    simp only [State.enqueue, List.length_append]
    omega
  · intro before hbefore
    exact (h.initial before hbefore).trans (List.prefix_append _ _)

theorem Kept.withFlushes (h : Kept σ) (flushes : List (Flush Event)) : Kept { σ with flushes } :=
  ⟨h.flow, h.counted, h.initial, h.stopped, h.stopping, h.last, h.closing, h.finished, h.ended,
    h.returned⟩

theorem handFlush_kept (h : Kept σ) : Kept σ.flush := by
  unfold State.flush
  rcases handOff_cases σ with ⟨-, heq⟩ | ⟨-, heq⟩
  · rw [heq]
    exact h
  · rw [heq]
    exact (handed_kept h).withFlushes _

theorem flushed_kept (h : Kept σ) (i : Nat) : Kept (σ.flushed i) := by
  unfold State.flushed
  split
  · exact h
  · split
    · exact h
    · exact h.withFlushes _

theorem write_batches (σ : State maxsize Event) (job : Nat) :
    (σ.write job).batches = σ.batches := by
  unfold State.batches State.write
  apply List.ext_getElem?
  intro i
  simp only [List.getElem?_map, List.getElem?_modify]
  cases σ.jobs[i]? with
  | none => rfl
  | some j =>
    by_cases hi : job = i <;> simp [hi]

theorem write_kept (h : Kept σ) (job : Nat) : Kept (σ.write job) := by
  refine ⟨?_, h.counted, h.initial, h.stopped, h.stopping, h.last, h.closing, h.finished, h.ended,
    h.returned⟩
  have hflow := h.flow
  unfold State.flow at hflow ⊢
  rw [write_batches]
  exact hflow

theorem aclose_kept (h : Kept σ) : Kept σ.aclose := by
  unfold State.aclose
  split
  · exact h
  · next hclosing =>
    have hunclear : ¬ σ.Clear := fun hclear => hclosing hclear.closing
    split
    · next htask =>
      -- a task that is over was closed before
      exact absurd (h.returned (h.ended (by simpa using htask))) hunclear
    · refine ⟨h.flow, h.counted, ?_, fun _ => rfl, fun _ => rfl, fun _ _ => rfl, ?_, ?_,
        h.ended, ?_⟩
      · intro before hbefore
        obtain rfl := Option.some.inj hbefore
        exact List.prefix_rfl
      · intro job htask
        exact absurd (h.closing job htask) hunclear
      · intro htask
        exact absurd (h.finished htask) hunclear
      · intro hreturned
        exact absurd (h.returned hreturned) hunclear

theorem step_kept (h : Kept σ) (a : Action Event) : Kept (step σ a) := by
  cases a with
  | enqueue event => exact enqueue_kept h event
  | stopWaiter =>
    simp only [step]
    split
    · next hstopping =>
      exact ⟨h.flow, h.counted, h.initial, fun _ => hstopping, h.stopping, h.last, h.closing,
        h.finished, h.ended, h.returned⟩
    · exact h
  | resume => exact resume_kept h
  | flush => exact handFlush_kept h
  | flushed i => exact flushed_kept h i
  | write job => exact write_kept h job
  | aclose => exact aclose_kept h
  | closed =>
    simp only [step]
    split
    · next htask =>
      exact ⟨h.flow, h.counted, h.initial, h.stopped, h.stopping, (fun _ htask => by cases htask),
        (fun _ htask => by cases htask), (fun htask => by cases htask), fun _ => rfl,
        fun _ => h.finished htask⟩
    · exact h

/-- `_run` moves on, and may have handed over what is queued. -/
def State.Moves (σ σ' : State maxsize Event) : Prop :=
  σ' = σ ∨ ∃ task, σ' = { σ with task := some task } ∨ σ' = { σ.handed with task := some task }

theorem finish_moves (σ : State maxsize Event) : σ.Moves σ.finish := by
  unfold State.finish
  rcases handOff_cases σ with ⟨-, heq⟩ | ⟨-, heq⟩
  · rw [heq]
    exact .inr ⟨_, .inl rfl⟩
  · rw [heq]
    exact .inr ⟨_, .inr rfl⟩

theorem loop_moves (σ : State maxsize Event) : σ.Moves σ.loop := by
  unfold State.loop
  split
  · exact finish_moves σ
  · exact .inr ⟨_, .inl rfl⟩

theorem resume_moves (σ : State maxsize Event) : σ.Moves σ.resume := by
  unfold State.resume
  split
  · exact loop_moves σ
  · rcases handOff_cases σ with ⟨-, heq⟩ | ⟨-, heq⟩
    · simp only [heq]
      split
      · exact finish_moves σ
      · exact loop_moves σ
    · simp only [heq]
      exact .inr ⟨_, .inr rfl⟩
  · split
    · exact .inl rfl
    · split
      · exact finish_moves σ
      · exact loop_moves σ
  · split
    · exact .inl rfl
    · exact .inr ⟨_, .inl rfl⟩
  · exact .inl rfl
  · exact .inl rfl

/-- What a step discards: nothing, or the oldest of a full queue, for an event that is
    enqueued. -/
theorem step_discarded (σ : State maxsize Event) (a : Action Event) :
    (step σ a).discarded = σ.discarded ∨
    ∃ event oldest rest, a = .enqueue event ∧ σ.queue.full = true ∧
      σ.queue.items = oldest :: rest ∧ (step σ a).queue.items = rest ++ [event] ∧
      (step σ a).discarded = σ.discarded ++ [oldest] := by
  cases a with
  | enqueue event =>
    simp only [step, State.enqueue]
    rcases σ.queue.putDropping_cases event with
      ⟨-, -, hdropped⟩ | ⟨oldest, rest, hfull, hqueue, hitems, hdropped⟩
    · left
      rw [hdropped, List.append_nil]
    · right
      exact ⟨event, oldest, rest, rfl, hfull, hqueue, hitems, by rw [hdropped]⟩
  | stopWaiter =>
    left
    simp only [step]
    split <;> rfl
  | resume =>
    left
    rcases resume_moves σ with heq | ⟨task, heq | heq⟩
    · rw [step, heq]
    · rw [step, heq]
    · rw [step, heq]
      rfl
  | flush =>
    left
    simp only [step, State.flush]
    rcases handOff_cases σ with ⟨-, heq⟩ | ⟨-, heq⟩
    · simp only [heq]
    · simp only [heq]
      rfl
  | flushed i =>
    left
    simp only [step, State.flushed]
    split
    · rfl
    · split <;> rfl
  | write job => exact .inl rfl
  | aclose =>
    left
    simp only [step, State.aclose]
    split
    · rfl
    · split <;> rfl
  | closed =>
    left
    simp only [step]
    split <;> rfl

/-- What is queued was handed over, or nothing was. -/
def State.Hands (σ σ' : State maxsize Event) : Prop :=
  σ'.jobs = σ.jobs ∨ σ'.jobs = σ.jobs ++ [{ pending := σ.queue.items }]

/-- A step writes a batch, or hands over at most what is queued. -/
theorem step_hands (σ : State maxsize Event) {a : Action Event} (h : ∀ job, a ≠ .write job) :
    σ.Hands (step σ a) := by
  cases a with
  | write job => exact absurd rfl (h job)
  | resume =>
    unfold State.Hands
    rcases resume_moves σ with heq | ⟨task, heq | heq⟩
    · exact .inl (by rw [step, heq])
    · exact .inl (by rw [step, heq])
    · exact .inr (by rw [step, heq]; rfl)
  | flush =>
    simp only [step, State.flush]
    rcases handOff_cases σ with ⟨-, heq⟩ | ⟨-, heq⟩
    · rw [heq]
      exact .inl rfl
    · rw [heq]
      exact .inr rfl
  | enqueue event => exact .inl rfl
  | flushed i =>
    simp only [step, State.flushed]
    split
    · exact .inl rfl
    · split <;> exact .inl rfl
  | stopWaiter =>
    simp only [step]
    split <;> exact .inl rfl
  | aclose =>
    simp only [step, State.aclose]
    split
    · exact .inl rfl
    · split <;> exact .inl rfl
  | closed =>
    simp only [step]
    split <;> exact .inl rfl

/-- Only a call from outside enqueues, and only `aclose` notes what was enqueued by then. -/
theorem step_history (σ : State maxsize Event) (a : Action Event) :
    (step σ a).enqueued = σ.enqueued ++ a.events ∧
      ((step σ a).closing = σ.closing ∨
        a = .aclose ∧ (step σ a).closing = some σ.enqueued) := by
  cases a with
  | enqueue event => exact ⟨rfl, .inl rfl⟩
  | aclose =>
    simp only [step, State.aclose, Action.events, List.append_nil]
    split
    · exact ⟨rfl, .inl rfl⟩
    · split <;> exact ⟨rfl, .inr ⟨trivial, rfl⟩⟩
  | resume =>
    simp only [step, Action.events, List.append_nil]
    rcases resume_moves σ with heq | ⟨task, heq | heq⟩
    · rw [heq]
      exact ⟨rfl, .inl rfl⟩
    · rw [heq]
      exact ⟨rfl, .inl rfl⟩
    · rw [heq]
      exact ⟨rfl, .inl rfl⟩
  | flush =>
    simp only [step, State.flush, Action.events, List.append_nil]
    rcases handOff_cases σ with ⟨-, heq⟩ | ⟨-, heq⟩
    · rw [heq]
      exact ⟨rfl, .inl rfl⟩
    · rw [heq]
      exact ⟨rfl, .inl rfl⟩
  | flushed i =>
    simp only [step, State.flushed, Action.events, List.append_nil]
    split
    · exact ⟨rfl, .inl rfl⟩
    · split <;> exact ⟨rfl, .inl rfl⟩
  | write job => exact ⟨(List.append_nil _).symm, .inl rfl⟩
  | stopWaiter =>
    simp only [step, Action.events, List.append_nil]
    split <;> exact ⟨rfl, .inl rfl⟩
  | closed =>
    simp only [step, Action.events, List.append_nil]
    split <;> exact ⟨rfl, .inl rfl⟩

theorem step_enqueued (σ : State maxsize Event) {a : Action Event}
    (h : ∀ event, a ≠ .enqueue event) : (step σ a).enqueued = σ.enqueued := by
  have hhistory := (step_history σ a).1
  cases a with
  | enqueue event => exact absurd rfl (h event)
  | _ => exact hhistory.trans (List.append_nil _)

theorem step_batches (σ : State maxsize Event) (a : Action Event) :
    σ.batches <+: (step σ a).batches := by
  by_cases h : ∃ job, a = .write job
  · obtain ⟨job, rfl⟩ := h
    exact (write_batches σ job).symm ▸ List.prefix_rfl
  · rcases step_hands σ (not_exists.mp h) with heq | heq
    · have hsame : (step σ a).batches = σ.batches := congrArg (List.map Job.pending) heq
      exact hsame.symm ▸ List.prefix_rfl
    · unfold State.batches
      rw [heq, List.map_append]
      exact List.prefix_append _ _

theorem step_flushes (σ : State maxsize Event) (a : Action Event) :
    ∀ f ∈ (step σ a).flushes, f ∈ σ.flushes ∨
      (a = .flush ∧ f = ⟨σ.jobs.length, σ.enqueued⟩ ∧ (step σ a).jobs = σ.handed.jobs ∧
        (step σ a).queue.items = [] ∧ (step σ a).enqueued = σ.enqueued) := by
  intro f hf
  cases a with
  | flush =>
    simp only [step, State.flush] at hf ⊢
    rcases handOff_cases σ with ⟨-, heq⟩ | ⟨-, heq⟩
    · rw [heq] at hf
      exact .inl hf
    · rw [heq] at hf ⊢
      rcases List.mem_append.mp hf with hf | hf
      · exact .inl hf
      · exact .inr ⟨trivial, List.mem_singleton.mp hf, rfl, rfl, rfl⟩
  | resume =>
    rcases resume_moves σ with heq | ⟨task, heq | heq⟩ <;> rw [step, heq] at hf <;> exact .inl hf
  | flushed i =>
    left
    simp only [step, State.flushed] at hf
    split at hf
    · exact hf
    · split at hf
      · exact hf
      · exact (List.eraseIdx_sublist _ _).subset hf
  | enqueue event => exact .inl hf
  | write job => exact .inl hf
  | stopWaiter =>
    left
    simp only [step] at hf
    split at hf <;> exact hf
  | aclose =>
    left
    simp only [step, State.aclose] at hf
    split at hf
    · exact hf
    · split at hf <;> exact hf
  | closed =>
    left
    simp only [step] at hf
    split at hf <;> exact hf

/-! ## Runs -/

theorem run_kept (actions : List (Action Event)) :
    Kept (run actions : State maxsize Event) := by
  unfold run
  induction actions using List.reverseRecOn with
  | nil =>
    refine ⟨⟨.slnil, .nil⟩, rfl, ?_, ?_, ?_, ?_, ?_, ?_, ?_, ?_⟩ <;> simp [State.start]
  | append_singleton actions a ih =>
    rw [List.foldl_append]
    exact step_kept ih a

theorem run_enqueued (actions : List (Action Event)) :
    (run actions : State maxsize Event).enqueued = entered actions :=
  Runs.history_foldl (fun _ => True) (fun _ _ _ => trivial) (fun σ a _ => (step_history σ a).1)
    trivial

theorem run_closing {actions : List (Action Event)} {before : List Event}
    (h : (run actions : State maxsize Event).closing = some before) :
    ∃ earlier later, actions = earlier ++ .aclose :: later ∧ before = entered earlier := by
  obtain ⟨earlier, a, later, rfl, hnot, hturn⟩ :=
    Runs.exists_turn (Q := fun σ : State maxsize Event => σ.closing = some before)
      (by simp [State.start]) h
  rcases (step_history (earlier.foldl step (State.start {})) a).2 with hsame | ⟨rfl, hnoted⟩
  · exact absurd (hsame.symm.trans hturn) hnot
  · rw [hnoted] at hturn
    exact ⟨earlier, later, rfl, (Option.some.inj hturn).symm.trans (run_enqueued earlier)⟩

/-- Conservation: of the events that the actions enqueue, every one is queued, discarded or
    in one batch, each once; `dropped` counts the discarded; a step discards an event only
    where one is enqueued into a full queue, and then the oldest; a batch lists events in the
    order they were enqueued; the queue is bounded; and when `aclose` returns, nothing
    enqueued before it is queued. -/
structure Conserved (actions : List (Action Event)) (σ : State maxsize Event) : Prop where
  entered : σ.enqueued = entered actions
  once : σ.enqueued.Perm (σ.batches.flatten ++ (σ.queue.items ++ σ.discarded))
  counted : σ.dropped = σ.discarded.length
  discards : ∀ a, (step σ a).discarded = σ.discarded ∨
    ∃ event oldest rest, a = .enqueue event ∧ σ.queue.full = true ∧
      σ.queue.items = oldest :: rest ∧ (step σ a).queue.items = rest ++ [event] ∧
      (step σ a).discarded = σ.discarded ++ [oldest]
  order : ∀ batch ∈ σ.batches, batch.Sublist σ.enqueued
  bounded : 0 < maxsize → (σ.queue.items.length : Int) ≤ maxsize
  closed : σ.returned = true → ∃ earlier later, actions = earlier ++ .aclose :: later ∧
    σ.closing = some (ticker.entered earlier) ∧
    σ.queue.items.Sublist (σ.enqueued.drop (ticker.entered earlier).length)

/-- Every run of a batcher that was started conserves its events. -/
theorem conservation (actions : List (Action Event)) :
    Conserved actions (run actions : State maxsize Event) := by
  have hkept : Kept (run actions : State maxsize Event) := run_kept actions
  refine ⟨run_enqueued actions, hkept.flow.once, hkept.counted, step_discarded _, ?_,
    (run actions).queue.bounded, ?_⟩
  · intro batch hbatch
    have hflat : batch.Sublist (run actions : State maxsize Event).batches.flatten :=
      List.sublist_flatten_of_mem hbatch
    exact (hflat.trans (List.sublist_append_left _ _)).trans hkept.flow.order
  · intro hreturned
    obtain ⟨before, hbefore, hsub⟩ := hkept.returned hreturned
    obtain ⟨earlier, later, hactions, rfl⟩ := run_closing hbefore
    exact ⟨earlier, later, hactions, hbefore, hsub⟩

end Batcher

/-- Three events for a queue of two, of which the ticker takes what is left, and a fourth
    that `aclose` finds queued. -/
theorem conservation_four :
    let actions : List (Action Nat) := [.enqueue 1, .enqueue 2, .enqueue 3, .resume, .resume,
      .enqueue 4, .aclose, .stopWaiter, .write 0, .resume, .write 1, .resume, .closed]
    let σ : State 2 Nat := run actions
    Conserved actions σ ∧ σ.batches = [[2, 3], [4]] ∧ σ.discarded = [1] ∧ σ.returned = true :=
  ⟨conservation _, by decide, by decide, by decide⟩

/-! ## The queue of the batcher -/

theorem enqueue_batcher (σ : State batcher.QUEUE_SIZE store.Event) (event : store.Event) :
    (batcher.Batcher.mk σ.queue.items σ.dropped).enqueue event =
      ⟨(σ.enqueue event).queue.items, (σ.enqueue event).dropped⟩ := by
  unfold batcher.Batcher.enqueue
  rcases σ.queue.putDropping_cases event with
    ⟨hfull, hitems, hdropped⟩ | ⟨oldest, rest, hfull, hqueue, hitems, hdropped⟩
  · have hroom : σ.queue.items.length < batcher.QUEUE_SIZE := by
      simp only [Queue.full, Bool.and_eq_false_iff, decide_eq_false_iff_not] at hfull
      have hpos : (0 : Int) < batcher.QUEUE_SIZE := by decide
      omega
    simp [State.enqueue, hroom, hitems, hdropped]
  · have hnot : ¬ σ.queue.items.length < batcher.QUEUE_SIZE := by
      simp only [Queue.full, Bool.and_eq_true, decide_eq_true_eq] at hfull
      omega
    rw [if_neg hnot]
    simp [State.enqueue, hqueue, hitems, hdropped]

end ticker
end HookGuard
