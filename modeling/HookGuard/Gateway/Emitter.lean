import HookGuard.Lib.Asyncio
import HookGuard.Lib.Runs
import HookGuard.Lib.Text

/- The emitter of verdict events (`hookguard_gateway/emitter.py`): a bounded queue that
   drops its oldest entry, and one task that takes events off it and posts them.

   The task waits for whichever is first: a `queue.get()` that it runs as a task of its
   own, or the stop event. A `State` says where each of the three is; an `Action` is a call
   from outside or one of them running up to its next `await`, in any order. A getter that
   is cancelled has taken nothing off the queue, and one that is done holds its event until
   the delivery task sees it (`State.hand`). The account of the events, `Flow.Holds`, is
   kept by every step (`step_kept`); what follows for whole runs is
   `queue_discipline`. -/
namespace HookGuard
open Py Asyncio

namespace emitter

def QUEUE_SIZE : Int := 256

section Emitter
variable {Event : Type}

/-- The task that runs `queue.get()`: not begun, parked until a put, woken by one, or done. -/
inductive Getter (Event : Type) where
  | created
  | parked
  | woken
  | done (event : Event)

/-- `put_nowait` wakes a getter that is parked. -/
def Getter.wake : Getter Event → Getter Event
  | .parked => .woken
  | g => g

/-- Where `_run` is: not begun, waiting for the getter or the stop event, in a POST of the
    main loop, in one of the drain after it, or over. -/
inductive Task (Event : Type) where
  | created
  | waiting (getter : Getter Event)
  | posting (event : Event)
  | draining (event : Event)
  | finished

def Task.wake : Task Event → Task Event
  | .waiting getter => .waiting getter.wake
  | task => task

/-- The event a getter holds that `_run` has not seen. -/
def Task.hand : Task Event → List Event
  | .waiting (.done event) => [event]
  | _ => []

/-- `EventEmitter`, and its history. -/
structure State (Event : Type) where
  url : Str
  queue : Queue QUEUE_SIZE Event := .empty
  task : Option (Task Event) := none
  /-- The stop event is set. -/
  stopping : Bool := false
  /-- The task that waits for the stop event is done. -/
  stopped : Bool := false
  recorded : List Event := []
  attempted : List Event := []
  discarded : List Event := []
  /-- The events recorded when `aclose` was called. -/
  closing : Option (List Event) := none
  returned : Bool := false

def State.enabled (σ : State Event) : Bool := σ.url ≠ []

/-- `start`. -/
def State.start (σ : State Event) : State Event :=
  if !σ.enabled || σ.task.isSome then σ else { σ with task := some .created }

/-- `record`, once the event is built, with `_emit`. -/
def State.record (σ : State Event) (event : Event) : State Event :=
  if !σ.enabled then σ
  else
    { σ with
      queue := (σ.queue.putDropping event).1
      task := σ.task.map Task.wake
      recorded := σ.recorded ++ [event]
      discarded := σ.discarded ++ (σ.queue.putDropping event).2 }

/-- The getter runs: `while self.empty()` it parks, else it takes the oldest event. -/
def State.runGetter (σ : State Event) : State Event :=
  match σ.task with
  | some (.waiting .created) | some (.waiting .woken) =>
    match σ.queue.getNowait with
    | none => { σ with task := some (.waiting .parked) }
    | some (event, queue) => { σ with queue, task := some (.waiting (.done event)) }
  | _ => σ

/-- The drain after the main loop: the next POST, or the end of the task. -/
def State.deliverQueued (σ : State Event) : State Event :=
  match σ.queue.getNowait with
  | none => { σ with task := some .finished }
  | some (event, queue) =>
    { σ with queue, task := some (.draining event), attempted := σ.attempted ++ [event] }

/-- `_run` runs up to its next `await`. A POST is over when it was answered or raised
    `httpx.HTTPError`: both are only logged. -/
def State.resume (σ : State Event) : State Event :=
  match σ.task with
  | some .created => { σ with task := some (.waiting .created) }
  | some (.waiting (.done event)) =>
    { σ with task := some (.posting event), attempted := σ.attempted ++ [event] }
  | some (.waiting _) => if σ.stopped then σ.deliverQueued else σ
  | some (.posting _) => { σ with task := some (.waiting .created) }
  | some (.draining _) => σ.deliverQueued
  | some .finished | none => σ

/-- `aclose`, up to where it awaits the task. -/
def State.aclose (σ : State Event) : State Event :=
  if σ.closing.isSome then σ
  else if σ.task.isNone then { σ with closing := some σ.recorded, returned := true }
  else { σ with stopping := true, closing := some σ.recorded }

/-- A call from outside, or a task that runs up to its next `await`. -/
inductive Action (Event : Type) where
  | record (event : Event)
  | getter
  | stopWaiter
  | resume
  | aclose
  /-- `aclose` goes on after the task. -/
  | closed

/-- What the step records. -/
def Action.events : Action Event → List Event
  | .record event => [event]
  | _ => []

def step (σ : State Event) : Action Event → State Event
  | .record event => σ.record event
  | .getter => σ.runGetter
  | .stopWaiter => if σ.stopping then { σ with stopped := true } else σ
  | .resume => σ.resume
  | .aclose => σ.aclose
  | .closed =>
    match σ.task with
    | some .finished => { σ with task := none, returned := true }
    | _ => σ

/-- The state after a run of an emitter that was started. -/
def run (url : Str) (actions : List (Action Event)) : State Event :=
  actions.foldl step (State.start { url })

/-- The account of the events that were recorded. -/
def State.flow (σ : State Event) : Flow Event where
  entered := σ.recorded
  taken := σ.attempted ++ (σ.task.map Task.hand).getD []
  discarded := σ.discarded

/-- The events recorded before `aclose` were attempted, or made room for others. -/
def State.Delivered (σ : State Event) : Prop :=
  ∃ before, σ.closing = some before ∧ before.Subperm (σ.attempted ++ σ.discarded)

/-- What every state of a run satisfies. -/
structure Kept (σ : State Event) : Prop where
  enabled : σ.enabled = true
  flow : σ.flow.Holds σ.queue.items
  /-- What `aclose` saw was recorded first. -/
  initial : ∀ before, σ.closing = some before → before <+: σ.recorded
  stopped : σ.stopped = true → σ.stopping = true
  stopping : σ.stopping = true → σ.closing.isSome = true
  draining : ∀ event, σ.task = some (.draining event) → σ.closing.isSome = true
  finished : σ.task = some .finished → σ.Delivered
  ended : σ.task = none → σ.returned = true
  returned : σ.returned = true → σ.Delivered

variable {σ : State Event}

/-! ## One step -/

@[simp] theorem Task.hand_wake (task : Task Event) : task.wake.hand = task.hand := by
  cases task with
  | waiting getter => cases getter <;> rfl
  | _ => rfl

theorem Task.wake_eq_draining {task : Task Event} {event : Event} :
    task.wake = .draining event ↔ task = .draining event := by
  cases task <;> simp [Task.wake]

theorem Task.wake_eq_finished {task : Task Event} : task.wake = .finished ↔ task = .finished := by
  cases task <;> simp [Task.wake]

theorem State.Delivered.mono {σ' : State Event} (h : σ.Delivered)
    (hclosing : σ'.closing = σ.closing) (hattempted : σ.attempted.Sublist σ'.attempted)
    (hdiscarded : σ.discarded.Sublist σ'.discarded) : σ'.Delivered := by
  obtain ⟨before, hbefore, hsub⟩ := h
  refine ⟨before, hclosing.trans hbefore, hsub.trans ?_⟩
  exact (hattempted.append hdiscarded).subperm

theorem record_kept (h : Kept σ) (event : Event) : Kept (σ.record event) := by
  have hflow := h.flow
  have hmore : σ.discarded.Sublist (σ.discarded ++ (σ.queue.putDropping event).2) :=
    List.sublist_append_left _ _
  unfold State.record
  rw [h.enabled, Bool.not_true, if_neg (by simp)]
  refine ⟨h.enabled, ?_, ?_, h.stopped, h.stopping, ?_, ?_, ?_, ?_⟩
  · have hhand : (σ.task.map Task.wake).map Task.hand = σ.task.map Task.hand := by
      cases σ.task <;> simp
    unfold State.flow at hflow ⊢
    simp only [hhand]
    rcases σ.queue.putDropping_cases event with
      ⟨-, hitems, hdropped⟩ | ⟨oldest, rest, -, hqueue, hitems, hdropped⟩
    · simpa only [hitems, hdropped, List.append_nil] using hflow.put event
    · -- the oldest event makes room
      rw [hqueue] at hflow
      simpa only [hitems, hdropped] using hflow.putDropping event
  · intro before hbefore
    exact (h.initial before hbefore).trans (List.prefix_append _ _)
  · intro event' htask
    obtain ⟨task, htask, hwake⟩ := Option.map_eq_some_iff.mp htask
    rw [Task.wake_eq_draining.mp hwake] at htask
    exact h.draining event' htask
  · intro htask
    obtain ⟨task, htask, hwake⟩ := Option.map_eq_some_iff.mp htask
    rw [Task.wake_eq_finished.mp hwake] at htask
    exact (h.finished htask).mono rfl (List.Sublist.refl _) hmore
  · intro htask
    exact h.ended (Option.map_eq_none_iff.mp htask)
  · intro hreturned
    exact (h.returned hreturned).mono rfl (List.Sublist.refl _) hmore

/-- A step of the task that neither ends it nor begins its drain. -/
theorem Kept.move (h : Kept σ) {queue : Queue QUEUE_SIZE Event} {task : Task Event}
    {attempted : List Event} (hattempted : σ.attempted.Sublist attempted)
    (hflow : Flow.Holds ⟨σ.recorded, attempted ++ task.hand, σ.discarded⟩ queue.items)
    (hdraining : ∀ event, task = .draining event → σ.closing.isSome = true)
    (hfinished : task = .finished → State.Delivered { σ with attempted }) :
    Kept { σ with queue, task := some task, attempted } where
  enabled := h.enabled
  flow := hflow
  initial := h.initial
  stopped := h.stopped
  stopping := h.stopping
  draining event htask := hdraining event (Option.some.inj htask)
  finished htask := (hfinished (Option.some.inj htask)).mono rfl (List.Sublist.refl _)
    (List.Sublist.refl _)
  ended htask := by cases htask
  returned hreturned := (h.returned hreturned).mono rfl hattempted (List.Sublist.refl _)

theorem getter_kept (h : Kept σ) {getter : Getter Event}
    (htask : σ.task = some (.waiting getter)) (hhand : (Task.waiting getter).hand = []) :
    Kept (match σ.queue.getNowait with
      | none => { σ with task := some (.waiting .parked) }
      | some (event, queue) => { σ with queue, task := some (.waiting (.done event)) }) := by
  have hflow := h.flow
  unfold State.flow at hflow
  rw [htask, Option.map_some, Option.getD_some, hhand, List.append_nil] at hflow
  rcases σ.queue.getNowait_cases with ⟨-, hget⟩ | ⟨event, queue, hitems, hget⟩
  · rw [hget]
    refine h.move (List.Sublist.refl _) ?_ (fun _ htask => by cases htask)
      (fun htask => by cases htask)
    simpa [Task.hand] using hflow
  · rw [hget]
    rw [hitems] at hflow
    refine h.move (List.Sublist.refl _) ?_ (fun _ htask => by cases htask)
      (fun htask => by cases htask)
    simpa [Task.hand] using hflow.take

theorem runGetter_kept (h : Kept σ) : Kept σ.runGetter := by
  unfold State.runGetter
  split
  · next htask => exact getter_kept h htask rfl
  · next htask => exact getter_kept h htask rfl
  · exact h

/-- The drain: the task ends when nothing is queued, and then what `aclose` saw is dealt
    with. -/
theorem deliverQueued_kept (h : Kept σ) {task : Task Event} (htask : σ.task = some task)
    (hhand : task.hand = []) (hclosing : σ.closing.isSome = true) : Kept σ.deliverQueued := by
  have hflow := h.flow
  unfold State.flow at hflow
  rw [htask, Option.map_some, Option.getD_some, hhand, List.append_nil] at hflow
  unfold State.deliverQueued
  rcases σ.queue.getNowait_cases with ⟨hnil, hget⟩ | ⟨event, queue, hitems, hget⟩
  · rw [hget]
    have hall : State.Delivered σ := by
      obtain ⟨before, hbefore⟩ := Option.isSome_iff_exists.mp hclosing
      refine ⟨before, hbefore, ?_⟩
      have honce := hflow.once
      rw [hnil, List.nil_append] at honce
      exact (h.initial before hbefore).sublist.subperm.trans honce.subperm
    refine h.move (List.Sublist.refl _) ?_ ?_ ?_
    · simpa [Task.hand] using hflow
    · intro event htask
      cases htask
    · intro _
      exact hall
  · rw [hget]
    rw [hitems] at hflow
    refine h.move (List.sublist_append_left _ _) ?_ (fun _ _ => hclosing) ?_
    · simpa [Task.hand] using hflow.take
    · intro htask
      cases htask

theorem resume_kept (h : Kept σ) : Kept σ.resume := by
  have hflow := h.flow
  unfold State.flow at hflow
  unfold State.resume
  split
  · next htask =>
    -- the task begins
    rw [htask] at hflow
    exact h.move (List.Sublist.refl _) (by simpa [Task.hand] using hflow)
      (fun _ htask => by cases htask) (fun htask => by cases htask)
  · next event htask =>
    -- the getter's event is posted
    rw [htask] at hflow
    exact h.move (List.sublist_append_left _ _) (by simpa [Task.hand] using hflow)
      (fun _ htask => by cases htask) (fun htask => by cases htask)
  · next getter hnot htask =>
    -- the stop event is first: the getter is cancelled, and has taken nothing
    split
    · next hstopped =>
      have hhand : (Task.waiting getter).hand = [] := by
        cases getter with
        | done event => exact absurd rfl (hnot event)
        | _ => rfl
      exact deliverQueued_kept h htask hhand (h.stopping (h.stopped hstopped))
    · exact h
  · next event htask =>
    rw [htask] at hflow
    exact h.move (List.Sublist.refl _) (by simpa [Task.hand] using hflow)
      (fun _ htask => by cases htask) (fun htask => by cases htask)
  · next event htask => exact deliverQueued_kept h htask rfl (h.draining event htask)
  · exact h
  · exact h

theorem aclose_kept (h : Kept σ) : Kept σ.aclose := by
  unfold State.aclose
  split
  · exact h
  · next hclosing =>
    have hnot : σ.closing = none := by simpa using hclosing
    have hundelivered : ¬ σ.Delivered := by
      intro hdelivered
      obtain ⟨before, hbefore, -⟩ := hdelivered
      rw [hnot] at hbefore
      cases hbefore
    split
    · next htask =>
      -- a task that is over was closed before
      have hended := h.ended (by simpa using htask)
      exact absurd (h.returned hended) hundelivered
    · refine ⟨h.enabled, h.flow, ?_, fun _ => rfl, fun _ => rfl, fun _ _ => rfl, ?_, h.ended, ?_⟩
      · intro before hbefore
        obtain rfl := Option.some.inj hbefore
        exact List.prefix_rfl
      · intro htask
        exact absurd (h.finished htask) hundelivered
      · intro hreturned
        exact absurd (h.returned hreturned) hundelivered

theorem step_kept (h : Kept σ) (a : Action Event) : Kept (step σ a) := by
  cases a with
  | record event => exact record_kept h event
  | getter => exact runGetter_kept h
  | stopWaiter =>
    simp only [step]
    split
    · next hstopping =>
      exact ⟨h.enabled, h.flow, h.initial, fun _ => hstopping, h.stopping, h.draining, h.finished,
        h.ended, h.returned⟩
    · exact h
  | resume => exact resume_kept h
  | aclose => exact aclose_kept h
  | closed =>
    simp only [step]
    split
    · next htask =>
      have hflow := h.flow
      unfold State.flow at hflow
      rw [htask] at hflow
      exact ⟨h.enabled, hflow, h.initial, h.stopped, h.stopping, (fun _ htask => by cases htask),
        (fun htask => by cases htask), fun _ => rfl, fun _ => h.finished htask⟩
    · exact h

/-- What a step discards: nothing, or the oldest of a full queue, for an event that is
    recorded. -/
theorem step_discarded (σ : State Event) (a : Action Event) :
    (step σ a).discarded = σ.discarded ∨
    ∃ event oldest rest, a = .record event ∧ σ.queue.full = true ∧
      σ.queue.items = oldest :: rest ∧ (step σ a).queue.items = rest ++ [event] ∧
      (step σ a).discarded = σ.discarded ++ [oldest] := by
  have hdeliver : σ.deliverQueued.discarded = σ.discarded := by
    unfold State.deliverQueued
    split <;> rfl
  cases a with
  | record event =>
    simp only [step, State.record]
    split
    · exact .inl rfl
    · rcases σ.queue.putDropping_cases event with
        ⟨-, -, hdropped⟩ | ⟨oldest, rest, hfull, hqueue, hitems, hdropped⟩
      · left
        simp [hdropped]
      · right
        exact ⟨event, oldest, rest, rfl, hfull, hqueue, hitems, by rw [hdropped]⟩
  | getter =>
    left
    simp only [step, State.runGetter]
    split
    · split <;> rfl
    · split <;> rfl
    · rfl
  | stopWaiter =>
    left
    simp only [step]
    split <;> rfl
  | resume =>
    left
    simp only [step, State.resume]
    split
    · rfl
    · rfl
    · split
      · exact hdeliver
      · rfl
    · rfl
    · exact hdeliver
    · rfl
    · rfl
  | aclose =>
    left
    simp only [step, State.aclose]
    split
    · rfl
    · split <;> rfl
  | closed =>
    left
    simp only [step]
    split <;> rfl

/-- The attempts are in the order of the steps. -/
theorem step_attempted (σ : State Event) (a : Action Event) :
    ∃ events, (step σ a).attempted = σ.attempted ++ events := by
  have hdeliver : ∃ events, σ.deliverQueued.attempted = σ.attempted ++ events := by
    unfold State.deliverQueued
    split
    · exact ⟨[], (List.append_nil _).symm⟩
    · exact ⟨_, rfl⟩
  have hsame : ∃ events, σ.attempted = σ.attempted ++ events := ⟨[], (List.append_nil _).symm⟩
  cases a with
  | record event =>
    simp only [step, State.record]
    split <;> exact hsame
  | getter =>
    simp only [step, State.runGetter]
    split
    · split <;> exact hsame
    · split <;> exact hsame
    · exact hsame
  | stopWaiter =>
    simp only [step]
    split <;> exact hsame
  | resume =>
    simp only [step, State.resume]
    split
    · exact hsame
    · exact ⟨_, rfl⟩
    · split
      · exact hdeliver
      · exact hsame
    · exact hsame
    · exact hdeliver
    · exact hsame
    · exact hsame
  | aclose =>
    simp only [step, State.aclose]
    split
    · exact hsame
    · split <;> exact hsame
  | closed =>
    simp only [step]
    split <;> exact hsame

theorem record_attempted (σ : State Event) (event : Event) :
    (σ.record event).attempted = σ.attempted := by
  unfold State.record
  split <;> rfl

theorem mem_record {event e : Event} (h : e ∈ (σ.record event).recorded) :
    e ∈ σ.recorded ∨ e = event := by
  unfold State.record at h
  split at h
  · exact .inl h
  · exact (List.mem_append.mp h).imp_right List.mem_singleton.mp

theorem step_recorded (σ : State Event) {a : Action Event} (ha : ∀ event, a ≠ .record event) :
    (step σ a).recorded = σ.recorded := by
  have hdeliver : σ.deliverQueued.recorded = σ.recorded := by
    unfold State.deliverQueued
    split <;> rfl
  cases a with
  | record event => exact absurd rfl (ha event)
  | getter =>
    simp only [step, State.runGetter]
    split
    · split <;> rfl
    · split <;> rfl
    · rfl
  | stopWaiter =>
    simp only [step]
    split <;> rfl
  | resume =>
    simp only [step, State.resume]
    split
    · rfl
    · rfl
    · split
      · exact hdeliver
      · rfl
    · rfl
    · exact hdeliver
    · rfl
    · rfl
  | aclose =>
    simp only [step, State.aclose]
    split
    · rfl
    · split <;> rfl
  | closed =>
    simp only [step]
    split <;> rfl

/-! ## Runs -/

theorem run_kept {url : Str} (h : url ≠ []) (actions : List (Action Event)) :
    Kept (run url actions) := by
  have hinitial : Kept (State.start ({ url } : State Event)) := by
    have henabled : State.enabled ({ url } : State Event) = true := by simp [State.enabled, h]
    have hstart : State.start ({ url } : State Event) = { url, task := some .created } := by
      simp [State.start, henabled]
    rw [hstart]
    refine ⟨henabled, ⟨.slnil, .nil⟩, ?_, ?_, ?_, ?_, ?_, ?_, ?_⟩ <;> simp
  unfold run
  induction actions using List.reverseRecOn with
  | nil => exact hinitial
  | append_singleton actions a ih =>
    rw [List.foldl_append]
    exact step_kept ih a

theorem start_recorded (url : Str) : (State.start ({ url } : State Event)).recorded = [] := by
  unfold State.start
  split <;> rfl

theorem run_recorded {url : Str} (h : url ≠ []) (actions : List (Action Event)) :
    (run url actions).recorded = actions.flatMap Action.events := by
  calc (run url actions).recorded
      = (State.start ({ url } : State Event)).recorded ++ actions.flatMap Action.events := by
        refine Runs.history_foldl Kept (fun _ a hkept => step_kept hkept a) ?_ (run_kept h [])
        intro σ a hkept
        cases a with
        | record event =>
          simp only [step, State.record, hkept.enabled, Bool.not_true]
          rfl
        | _ => exact (step_recorded σ (fun _ ha => by cases ha)).trans (List.append_nil _).symm
    _ = actions.flatMap Action.events := by
        rw [start_recorded, List.nil_append]

/-- The emitter without an address: it has no task, and takes nothing. -/
structure Quiet (σ : State Event) : Prop where
  enabled : σ.enabled = false
  task : σ.task = none
  recorded : σ.recorded = []
  attempted : σ.attempted = []

theorem Quiet.step (h : Quiet σ) (a : Action Event) :
    Quiet (emitter.step σ a) := by
  cases a with
  | record event =>
    simp only [emitter.step, State.record, h.enabled, Bool.not_false, if_true]
    exact h
  | getter => simpa only [emitter.step, State.runGetter, h.task] using h
  | stopWaiter =>
    simp only [emitter.step]
    split
    · exact ⟨h.enabled, h.task, h.recorded, h.attempted⟩
    · exact h
  | resume => simpa only [emitter.step, State.resume, h.task] using h
  | aclose =>
    simp only [emitter.step, State.aclose]
    split
    · exact h
    · split
      · exact ⟨h.enabled, h.task, h.recorded, h.attempted⟩
      · exact ⟨h.enabled, h.task, h.recorded, h.attempted⟩
  | closed => simpa only [emitter.step, h.task] using h

/-- The emitter, with an address or without. -/
def Runs (σ : State Event) : Prop := Kept σ ∨ Quiet σ

theorem Runs.step (h : Runs σ) (a : Action Event) : Runs (emitter.step σ a) :=
  h.imp (fun h => step_kept h a) (fun h => h.step a)

theorem start_quiet {url : Str} (h : url = []) : Quiet (State.start ({ url } : State Event)) := by
  rw [h]
  exact ⟨rfl, rfl, rfl, rfl⟩

theorem runs_start (url : Str) : Runs (State.start ({ url } : State Event)) := by
  by_cases h : url = []
  · exact .inr (start_quiet h)
  · exact .inl (run_kept h [])

theorem Runs.attempted (h : Runs σ) : ∀ e ∈ σ.attempted, e ∈ σ.recorded := by
  intro e he
  rcases h with h | h
  · refine h.flow.once.mem_iff.mpr ?_
    simp [State.flow, he]
  · rw [h.attempted] at he
    cases he

/-- What a run promises: the history is of what the actions record; the queue is bounded; the
    events a POST was attempted for are among the recorded ones, in their order and each once;
    a step discards an event only where one is recorded into a full queue, and then the
    oldest; and when `aclose` returns, what was recorded before it was attempted or so
    discarded. -/
structure Discipline (actions : List (Action Event)) (σ : State Event) : Prop where
  recorded : σ.recorded = actions.flatMap Action.events
  bounded : (σ.queue.items.length : Int) ≤ QUEUE_SIZE
  order : σ.attempted.Sublist σ.recorded
  once : σ.recorded.Perm
    (σ.attempted ++ (σ.task.map Task.hand).getD [] ++ (σ.queue.items ++ σ.discarded))
  discards : ∀ a, (step σ a).discarded = σ.discarded ∨
    ∃ event oldest rest, a = .record event ∧ σ.queue.full = true ∧
      σ.queue.items = oldest :: rest ∧ (step σ a).queue.items = rest ++ [event] ∧
      (step σ a).discarded = σ.discarded ++ [oldest]
  closed : σ.returned = true →
    ∃ before, σ.closing = some before ∧ before.Subperm (σ.attempted ++ σ.discarded)

/-- Every run of an emitter that is enabled and was started keeps the discipline. -/
theorem queue_discipline {url : Str} (h : url ≠ []) (actions : List (Action Event)) :
    Discipline actions (run url actions) := by
  have hkept := run_kept h actions
  have horder : ((run url actions).flow.taken ++ (run url actions).queue.items).Sublist
      (run url actions).recorded := hkept.flow.order
  have htaken : (run url actions).attempted.Sublist (run url actions).flow.taken :=
    List.sublist_append_left _ _
  exact ⟨run_recorded h actions, (run url actions).queue.bounded (by decide),
    (htaken.trans (List.sublist_append_left _ _)).trans horder, hkept.flow.once,
    step_discarded _, hkept.returned⟩

end Emitter

/-- Two events, one of them posted before `aclose` and one in its drain. -/
theorem queue_discipline_two :
    let actions := [.record 1, .resume, .getter, .resume, .record 2, .resume, .aclose,
      .stopWaiter, .resume, .resume, .closed]
    let σ : State Nat := run (lit "http://console") actions
    Discipline actions σ ∧ σ.attempted = [1, 2] ∧ σ.returned = true :=
  ⟨queue_discipline (by decide) _, by decide, by decide⟩

end emitter
end HookGuard
