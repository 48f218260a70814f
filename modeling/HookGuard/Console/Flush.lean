import HookGuard.Console.Ticker
import HookGuard.Lib.Runs
import Mathlib.Data.List.Flatten

/- What `Batcher.flush` promises, with the store the workers write to.

   A call of `flush` drains the queue and waits for its own worker. What the ticker, or
   another call, drained before it is neither in the queue nor waited for. So the events
   enqueued before the call are in the table when it returns as long as every batch handed
   over before the call is written by then (`flush_kept`). What was enqueued before a call is
   what the actions before it enqueue (`Called`). -/
namespace HookGuard
open Py Asyncio Runs

namespace flush
open store batcher ticker

section Runs
variable (eng : Engine)

/-- A step of the batcher; the database's own refusals, where it writes a batch. -/
structure Action where
  act : ticker.Action Event
  busy : Busy := {}

structure State where
  loop : ticker.State QUEUE_SIZE Event := ticker.State.start {}
  store : Store := connect {}

/-- The batch a step writes. -/
def State.writes (σ : State) (a : Action) : Option (List Event) :=
  match a.act with
  | .write job => (σ.loop.jobs[job]?.filter (fun j => !j.written)).map Job.pending
  | _ => none

def step (σ : State) (a : Action) : State where
  loop := ticker.step σ.loop a.act
  store := match σ.writes a with
    | none => σ.store
    | some pending => persist eng a.busy σ.store pending

/-- The call of `flush` that returns with a step: one that finds the queue empty, or one
    whose worker is done. `job` counts the batches handed over before the call. -/
def State.returns (σ : State) (a : Action) : Option (ticker.Flush Event) :=
  match a.act with
  | .flush =>
    match σ.loop.handOff.1 with
    | none => some ⟨σ.loop.jobs.length, σ.loop.enqueued⟩
    | some _ => none
  | .flushed i => σ.loop.flushes[i]?.filter (fun f => σ.loop.isWritten f.job)
  | _ => none

/-- The store accepts the batch that the step writes. -/
def Succeeds (σ : State) (a : Action) : Prop :=
  ∀ pending, σ.writes a = some pending →
    (insertEvents eng a.busy.insert σ.store pending).2 = .ok ()

/-- No batch handed over before a call of `flush` is unwritten when the call returns. -/
def Prompt (σ : State) (a : Action) : Prop :=
  ∀ f, σ.returns a = some f → ∀ job < f.job, σ.loop.isWritten job = true

/-- What was enqueued before the call is in the table, or was discarded. -/
def InTable (σ : State) (f : ticker.Flush Event) : Prop :=
  (f.before.map fun e => e.row eng 0).Subperm
    (σ.store.db.events.map EventRow.content ++ σ.loop.discarded.map fun e => e.row eng 0)

/-- When a call of `flush` returns, what was enqueued before it is in the table. -/
def Promise (σ : State) (a : Action) : Prop := ∀ f, σ.returns a = some f → InTable eng σ f

/-- The call is one of the actions, with the events that the actions before it enqueue and
    the batches that they hand over. -/
def Called (actions : List Action) (f : ticker.Flush Event) : Prop :=
  ∃ earlier call, earlier ++ [call] <+: actions ∧ call.act = .flush ∧
    f.before = entered (earlier.map Action.act) ∧
    f.job = (earlier.foldl (step eng) {}).loop.jobs.length

/-- The events of the batches that are written. -/
def written (jobs : List (Job Event)) : List Event :=
  ((jobs.filter Job.written).map Job.pending).flatten

/-- What every state of a run satisfies. -/
structure Kept (σ : State) : Prop where
  loop : ticker.Kept σ.loop
  /-- The table has the events of the batches that are written. -/
  table : (σ.store.db.events.map EventRow.content).Perm
    ((written σ.loop.jobs).map fun e => e.row eng 0)
  /-- What a call of `flush` found was handed over by then, or discarded. -/
  flushes : ∀ f ∈ σ.loop.flushes, f.job < σ.loop.jobs.length ∧ f.before.Subperm
    ((σ.loop.batches.take (f.job + 1)).flatten ++ σ.loop.discarded)

end Runs

section Steps
variable {eng : Engine} {σ : State}

/-! ## One step -/

theorem persist_accepted_content {busy : Busy} {s : Store} {pending : List Event}
    (h : (insertEvents eng busy.insert s pending).2 = .ok ()) :
    (persist eng busy s pending).db.events.map EventRow.content =
      s.db.events.map EventRow.content ++ pending.map fun e => e.row eng 0 := by
  have hall : admittedEvents eng busy.insert pending = pending :=
    Sqlite.admitted_eq_self_iff.mpr ((insertEvents_ok_iff _ _).mp h)
  rw [persist_events, insertEvents_content, hall]

theorem written_modify {jobs : List (Job Event)} {job : Nat} {j : Job Event}
    (hj : jobs[job]? = some j) (hnot : j.written = false) :
    (written (jobs.modify job fun j => { j with written := true })).Perm
      (written jobs ++ j.pending) := by
  induction jobs generalizing job with
  | nil => simp at hj
  | cons j₀ jobs ih =>
    cases job with
    | zero =>
      obtain rfl : j₀ = j := by simpa using hj
      simp only [List.modify_zero_cons, written, List.filter_cons, hnot, if_true, if_false,
        List.map_cons, List.flatten_cons, Bool.false_eq_true]
      exact List.perm_append_comm
    | succ job =>
      have hrest := ih (by simpa using hj)
      simp only [written] at hrest
      simp only [List.modify_succ_cons, written, List.filter_cons]
      split
      · simpa using hrest.append_left j₀.pending
      · exact hrest

theorem written_modify_written {jobs : List (Job Event)} {job : Nat}
    (h : jobs[job]?.filter (fun j => !j.written) = none) :
    jobs.modify job (fun j => { j with written := true }) = jobs := by
  apply List.ext_getElem?
  intro i
  rw [List.getElem?_modify]
  by_cases hi : job = i
  · subst hi
    cases hj : jobs[job]? with
    | none => rfl
    | some j =>
      have hw : j.written = true := by simpa [hj, Option.filter] using h
      cases j
      simp_all
  · simp [hi]

theorem step_grows (eng : Engine) (σ : State) (a : Action) :
    σ.loop.batches <+: (step eng σ a).loop.batches ∧
      σ.loop.discarded.Sublist (step eng σ a).loop.discarded := by
  refine ⟨step_batches σ.loop a.act, ?_⟩
  rcases step_discarded σ.loop a.act with heq | ⟨_, oldest, _, -, -, -, -, heq⟩
  · exact (List.Sublist.refl _).trans (by rw [step, heq])
  · rw [step, heq]
    exact List.sublist_append_left _ _

theorem step_table (h : Kept eng σ) {a : Action} (hsucceeds : Succeeds eng σ a) :
    ((step eng σ a).store.db.events.map EventRow.content).Perm
      ((written (step eng σ a).loop.jobs).map fun e => e.row eng 0) := by
  have htable := h.table
  by_cases hwrite : ∃ job, a.act = .write job
  · obtain ⟨job, hact⟩ := hwrite
    have hjobs : (step eng σ a).loop.jobs =
        σ.loop.jobs.modify job fun j => { j with written := true } := by
      rw [step, hact]
      rfl
    cases hj : σ.loop.jobs[job]?.filter (fun j => !j.written) with
    | none =>
      -- nothing to write
      have hnone : σ.writes a = none := by simp [State.writes, hact, hj]
      rw [hjobs, written_modify_written hj, step, hnone]
      exact htable
    | some j =>
      have hpending : σ.writes a = some j.pending := by simp [State.writes, hact, hj]
      obtain ⟨hget, hnot⟩ := Option.filter_eq_some_iff.mp hj
      have hmore := written_modify hget (by simpa using hnot)
      rw [hjobs, step, hpending]
      simp only [persist_accepted_content (hsucceeds _ hpending)]
      apply (htable.append_right _).trans
      rw [← List.map_append]
      exact (hmore.map _).symm
  · -- a batch that is handed over is not written yet
    have hnone : σ.writes a = none := by
      unfold State.writes
      split
      · next job hact => exact absurd ⟨job, hact⟩ hwrite
      · rfl
    have hjobs : written (step eng σ a).loop.jobs = written σ.loop.jobs := by
      rcases step_hands σ.loop (not_exists.mp hwrite) with heq | heq
      · rw [step, heq]
      · rw [step, heq, written, List.filter_append, written]
        simp
    rw [hjobs, step, hnone]
    exact htable

theorem step_kept (h : Kept eng σ) {a : Action} (hsucceeds : Succeeds eng σ a) :
    Kept eng (step eng σ a) where
  loop := ticker.step_kept h.loop a.act
  table := step_table h hsucceeds
  flushes f hf := by
    obtain ⟨hbatches, hdiscarded⟩ := step_grows eng σ a
    rcases step_flushes σ.loop a.act f hf with hf | ⟨hact, rfl, hjobs, hitems, henqueued⟩
    · obtain ⟨hjob, hsub⟩ := h.flushes f hf
      have hlen := hbatches.length_le
      simp only [State.batches, List.length_map] at hlen
      refine ⟨by omega, hsub.trans ?_⟩
      -- the batches handed over by then are the same
      obtain ⟨more, hmore⟩ := hbatches
      have htake : (step eng σ a).loop.batches.take (f.job + 1) =
          σ.loop.batches.take (f.job + 1) := by
        rw [← hmore]
        apply List.take_append_of_le_length
        simpa [State.batches] using Nat.succ_le_of_lt hjob
      rw [htake]
      exact (hdiscarded.append_left _).subperm
    · have hnext : (step eng σ a).loop.jobs = σ.loop.handed.jobs := hjobs
      have hlen : σ.loop.handed.jobs.length = σ.loop.jobs.length + 1 := by
        simp [State.handed]
      refine ⟨by rw [hnext, hlen]; exact Nat.lt_succ_self _, ?_⟩
      -- with this batch, all that was enqueued is handed over or discarded
      have honce := (ticker.step_kept h.loop a.act).flow.once
      rw [hitems, List.nil_append] at honce
      have hall : (step eng σ a).loop.batches.take (σ.loop.jobs.length + 1) =
          (step eng σ a).loop.batches := by
        apply List.take_of_length_le
        simp only [State.batches, List.length_map, hnext, hlen, Nat.le_refl]
      rw [hall]
      have hbefore : (ticker.step σ.loop a.act).flow.entered = σ.loop.enqueued := henqueued
      rw [hbefore] at honce
      exact honce.subperm

/-! ## When a call returns -/

theorem flatten_written {jobs : List (Job Event)} (h : ∀ j ∈ jobs, j.written = true)
    {all : List (Job Event)} (hsub : jobs.Sublist all) :
    (jobs.map Job.pending).flatten.Subperm (written all) := by
  have hfilter : jobs.filter Job.written = jobs := List.filter_eq_self.mpr h
  have hwritten : jobs.Sublist (all.filter Job.written) := by
    rw [← hfilter]
    exact hsub.filter Job.written
  exact (List.Sublist.flatten (hwritten.map Job.pending)).subperm

theorem written_of_isWritten {loop : ticker.State QUEUE_SIZE Event} {n : Nat}
    (h : ∀ job < n, loop.isWritten job = true) : ∀ j ∈ loop.jobs.take n, j.written = true := by
  intro j hj
  obtain ⟨i, hi, rfl⟩ := List.mem_take_iff_getElem.mp hj
  have hwritten := h i (by omega)
  rw [ticker.State.isWritten, List.getElem?_eq_getElem (by omega)] at hwritten
  exact hwritten

/-- What is in batches that are all written, or discarded, is in the table or discarded. -/
theorem inTable_of_written (h : Kept eng σ) {n : Nat} {f : ticker.Flush Event}
    (hwritten : ∀ job < n, σ.loop.isWritten job = true)
    (hsub : f.before.Subperm ((σ.loop.batches.take n).flatten ++ σ.loop.discarded)) :
    InTable eng σ f := by
  have htake : (σ.loop.batches.take n).flatten.Subperm (written σ.loop.jobs) := by
    rw [ticker.State.batches, ← List.map_take]
    exact flatten_written (written_of_isWritten hwritten) (List.take_sublist _ _)
  have hevents := hsub.trans (htake.append (List.Subperm.refl _))
  obtain ⟨events, hperm, hsublist⟩ := hevents
  have hrows : (f.before.map fun e => e.row eng 0).Subperm
      ((written σ.loop.jobs ++ σ.loop.discarded).map fun e => e.row eng 0) :=
    ⟨_, hperm.map _, hsublist.map _⟩
  rw [List.map_append] at hrows
  exact hrows.trans (h.table.symm.append_right _).subperm

/-- A call that returns once all that was handed over before it is written finds what was
    enqueued before it in the table. -/
theorem promise_of_prompt (h : Kept eng σ) {a : Action} (hprompt : Prompt σ a) :
    Promise eng σ a := by
  intro f hf
  have hwritten := hprompt f hf
  unfold State.returns at hf
  split at hf
  · -- the queue is empty: all that was enqueued is handed over or discarded
    rcases handOff_cases σ.loop with ⟨hnil, heq⟩ | ⟨-, heq⟩
    · rw [heq] at hf
      obtain rfl := Option.some.inj hf
      have honce := h.loop.flow.once
      rw [hnil, List.nil_append] at honce
      have hall : σ.loop.batches.take σ.loop.jobs.length = σ.loop.batches :=
        List.take_of_length_le (by simp [ticker.State.batches])
      exact inTable_of_written h hwritten (by rw [hall]; exact honce.subperm)
    · rw [heq] at hf
      cases hf
  · -- the call has waited for its own batch
    next i hact =>
    obtain ⟨hget, hown⟩ := Option.filter_eq_some_iff.mp hf
    obtain ⟨-, hsub⟩ := h.flushes f (List.mem_of_getElem? hget)
    refine inTable_of_written h ?_ hsub
    intro job hjob
    rcases Nat.lt_succ_iff_lt_or_eq.mp hjob with hlt | rfl
    · exact hwritten job hlt
    · exact hown
  · cases hf

theorem kept_start : Kept eng {} :=
  ⟨ticker.run_kept [], .nil, by simp [ticker.State.start]⟩

/-! ## The calls of a run -/

/-- The store has no part in how the batcher runs. -/
theorem run_loop (eng : Engine) (actions : List Action) :
    (actions.foldl (step eng) {}).loop = ticker.run (actions.map Action.act) := by
  induction actions using List.reverseRecOn with
  | nil => rfl
  | append_singleton actions a ih =>
    rw [List.foldl_append, List.map_append, ticker.run, List.foldl_append]
    show ticker.step (actions.foldl (step eng) {}).loop a.act = _
    rw [ih]
    rfl

theorem Called.mono {actions : List Action} {f : ticker.Flush Event} (h : Called eng actions f)
    (more : List Action) : Called eng (actions ++ more) f := by
  obtain ⟨earlier, call, hcall, hrest⟩ := h
  exact ⟨earlier, call, hcall.trans (List.prefix_append _ _), hrest⟩

theorem called_last (eng : Engine) (actions : List Action) {a : Action} (ha : a.act = .flush) :
    Called eng (actions ++ [a]) ⟨(actions.foldl (step eng) {}).loop.jobs.length,
      (actions.foldl (step eng) {}).loop.enqueued⟩ := by
  refine ⟨actions, a, List.prefix_rfl, ha, ?_, rfl⟩
  show (actions.foldl (step eng) {}).loop.enqueued = _
  rw [run_loop, ticker.run_enqueued]

theorem called_waiting {actions : List Action} :
    ∀ f ∈ (actions.foldl (step eng) {}).loop.flushes, Called eng actions f := by
  induction actions using List.reverseRecOn with
  | nil => simp [ticker.State.start]
  | append_singleton actions a ih =>
    intro f hf
    rw [List.foldl_append] at hf
    rcases step_flushes (actions.foldl (step eng) {}).loop a.act f hf with hf | ⟨hact, rfl, -⟩
    · exact (ih f hf).mono [a]
    · exact called_last eng actions hact

theorem called_returns {actions : List Action} {a : Action} {f : ticker.Flush Event}
    (h : (actions.foldl (step eng) {}).returns a = some f) : Called eng (actions ++ [a]) f := by
  unfold State.returns at h
  split at h
  · next hact =>
    split at h
    · obtain rfl := Option.some.inj h
      exact called_last eng actions hact
    · cases h
  · next i hact =>
    obtain ⟨hget, -⟩ := Option.filter_eq_some_iff.mp h
    exact (called_waiting f (List.mem_of_getElem? hget)).mono [a]
  · cases h

end Steps

/-- In a run whose writes all succeed, in which every call of `flush` returns once the
    batches handed over before it are written, every call finds what was enqueued before it
    in the table. -/
theorem flush_kept (eng : Engine) {actions : List Action}
    (h : Along (step eng) (fun σ a => Succeeds eng σ a ∧ Prompt σ a) {} actions) :
    Along (step eng) (Promise eng) {} actions ∧
      ∀ before a after f, actions = before ++ a :: after →
        (before.foldl (step eng) {}).returns a = some f → Called eng (before ++ [a]) f := by
  refine ⟨?_, fun _ _ _ _ _ => called_returns⟩
  exact h.of_invariant (Kept eng) (fun _ _ hkept hstep => step_kept hkept hstep.1)
    (fun _ _ hkept hstep => promise_of_prompt hkept hstep.2) kept_start

/-- A step that writes no batch, and from which no call of `flush` returns. -/
theorem idle {eng : Engine} {σ : State} {a : Action} (hwrites : σ.writes a = none)
    (hreturns : σ.returns a = none) : Succeeds eng σ a ∧ Prompt σ a := by
  refine ⟨?_, ?_⟩
  · intro pending h
    rw [hwrites] at h
    cases h
  · intro f h
    rw [hreturns] at h
    cases h

/-- The ticker takes the first event off the queue; `flush` is called for the second while
    that batch is unwritten, and returns once both workers are done. -/
theorem flush_kept_behind :
    let first := Event.ofVerdict (lit "accepted")
    let second := Event.ofVerdict (lit "rejected")
    let run := [Action.mk (.enqueue first) {}, ⟨.resume, {}⟩, ⟨.resume, {}⟩,
      ⟨.enqueue second, {}⟩, ⟨.flush, {}⟩, ⟨.write 0, {}⟩, ⟨.write 1, {}⟩]
    (run.foldl (step .plain) {}).returns ⟨.flushed 0, {}⟩ = some ⟨1, [first, second]⟩ ∧
      Along (step .plain) (Promise .plain) {} (run ++ [⟨.flushed 0, {}⟩]) := by
  refine ⟨rfl, (flush_kept .plain ?_).1⟩
  refine ⟨idle rfl rfl, idle rfl rfl, idle rfl rfl, idle rfl rfl, idle rfl rfl, ⟨?_, ?_⟩,
    ⟨?_, ?_⟩, ⟨?_, ?_⟩, trivial⟩
  · intro pending h
    obtain rfl : [Event.ofVerdict (lit "accepted")] = pending := Option.some.inj h
    rw [insertEvents_ok_iff]
    unfold Sqlite.NoneRefused
    decide
  · intro f h
    cases h
  · intro pending h
    obtain rfl : [Event.ofVerdict (lit "rejected")] = pending := Option.some.inj h
    rw [insertEvents_ok_iff]
    unfold Sqlite.NoneRefused
    decide
  · intro f h
    cases h
  · intro pending h
    cases h
  · -- the batch of the ticker is written by then
    intro f h job hjob
    obtain rfl : ⟨1, [Event.ofVerdict (lit "accepted"), Event.ofVerdict (lit "rejected")]⟩ = f :=
      Option.some.inj h
    obtain rfl : job = 0 := Nat.lt_one_iff.mp hjob
    decide

/-- The ticker takes the event off the queue, and `flush` returns before it is written. -/
theorem flush_overtakes :
    let run := [Action.mk (.enqueue (.ofVerdict (lit "accepted"))) {}, ⟨.resume, {}⟩,
      ⟨.resume, {}⟩, ⟨.flush, {}⟩]
    Along (step .plain) (Succeeds .plain) {} run ∧
      ¬ Along (step .plain) (Promise .plain) {} run := by
  refine ⟨⟨?_, ?_, ?_, ?_, trivial⟩, ?_⟩
  · intro pending h
    cases h
  · intro pending h
    cases h
  · intro pending h
    cases h
  · intro pending h
    cases h
  · intro h
    obtain ⟨-, -, -, hpromise, -⟩ := h
    have hin := (hpromise ⟨1, [.ofVerdict (lit "accepted")]⟩ rfl).length_le
    exact absurd hin (by decide)

end flush
end HookGuard
