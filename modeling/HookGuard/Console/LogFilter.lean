import HookGuard.Console.LiveTail
import HookGuard.Lib.Like
import HookGuard.Lib.Timestamp
import HookGuard.Lib.Url

/- The filter of the logs page (`hookguard_console/routes/logs.py`, `store/events.py`): how
   it is read from a request, and the two ways it is applied, in SQL to the list and in
   Python to the tail.

   What the tail shows the list shows, too (`whereClause_of_matches`), but not the other way
   around. LIKE takes the letters of ASCII for one another where `in` does not, and a bound
   before 1970 is no bound in SQL, where it is not positive, and one in Python, where it is
   not zero (`filters_agree_iff`). -/
namespace HookGuard
open Py

namespace tail
open store

/-! ## The filter of a request -/

/-- `FilterView`: the filter as the form redisplays it. -/
structure FilterView where
  provider : Str := []
  verdict : Str := []
  reason : Str := []
  path : Str := []
  fromValue : Str := []
  toValue : Str := []

/-- `query_params.get(key, "")`: the last of a name counts. -/
def queryParam (params : List (Str × Str)) (key : String) : Str :=
  (params.reverse.lookup (lit key)).getD []

section Request
variable (fromisoformat : Str → Option ReadDatetime)

/-- `_parse_local_datetime`: what the text reads is taken as UTC. -/
def parseLocalDatetime (value : Str) : Int :=
  if value = [] then 0
  else
    match fromisoformat value with
    | none => 0
    | some d => d.reading.unixMs

/-- `_filter_from_request`. -/
def filterFromRequest (params : List (Str × Str)) : EventFilter × FilterView :=
  let fromRaw := queryParam params "from"
  let toRaw := queryParam params "to"
  let f : EventFilter :=
    { provider := queryParam params "provider"
      verdict := queryParam params "verdict"
      reason := queryParam params "reason"
      path := queryParam params "path"
      fromMs := parseLocalDatetime fromisoformat fromRaw
      toMs := parseLocalDatetime fromisoformat toRaw }
  (f, { provider := f.provider, verdict := f.verdict, reason := f.reason, path := f.path
        fromValue := fromRaw, toValue := toRaw })

end Request

/-! ## The query -/

/-- `like_escape`. -/
def likeEscape (value : Str) : Str :=
  replace (replace (replace value (lit "\\") (lit "\\\\")) (lit "%") (lit "\\%")) (lit "_")
    (lit "\\_")

/-- Of the letters, LIKE folds those of ASCII. -/
def foldAscii (c : Nat) : Nat := if 65 ≤ c ∧ c ≤ 90 then c + 32 else c

/-- `LIKE ... ESCAPE '\'`. -/
def sqliteLike : Like.Syntax Nat := ⟨37, 95, 92, foldAscii, by decide⟩

/-- One condition of the `WHERE` clause, with its argument. -/
inductive Condition where
  | providerIs (provider : Str)
  | verdictIs (verdict : Str)
  | reasonLike (pattern : Str)
  | pathLike (pattern : Str)
  | receivedFrom (ms : Int)
  | receivedTo (ms : Int)

def Condition.argument : Condition → Value
  | providerIs s | verdictIs s | reasonLike s | pathLike s => .str s
  | receivedFrom ms | receivedTo ms => .int ms

def Condition.holds (r : EventRow) : Condition → Bool
  | providerIs s => r.provider == .text s
  | verdictIs s => r.verdict == .text s
  | reasonLike pattern => r.reason.asText.any fun s => sqliteLike.like s pattern
  | pathLike pattern => r.path.asText.any fun s => sqliteLike.like s pattern
  | receivedFrom ms => ms ≤ r.receivedAt
  | receivedTo ms => r.receivedAt ≤ ms

/-- The pattern of a substring. -/
def likePattern (value : Str) : Str := lit "%" ++ likeEscape value ++ lit "%"

/-- The conditions `list_events` puts into its query. -/
def conditions (f : EventFilter) : List Condition :=
  (if f.provider ≠ [] then [.providerIs f.provider] else []) ++
  (if f.verdict ≠ [] then [.verdictIs f.verdict] else []) ++
  (if f.reason ≠ [] then [.reasonLike (likePattern f.reason)] else []) ++
  (if f.path ≠ [] then [.pathLike (likePattern f.path)] else []) ++
  (if 0 < f.fromMs then [.receivedFrom f.fromMs] else []) ++
  (if 0 < f.toMs then [.receivedTo f.toMs] else [])

/-- A row satisfies the `WHERE` clause. -/
def whereClause (f : EventFilter) (r : EventRow) : Bool :=
  (conditions f).all fun c => c.holds r

/-- `list_events`. -/
def listEvents (db : Database) (f : EventFilter) (limit : Nat) : Except Exc (List EventRow) :=
  match ((conditions f).map Condition.argument ++ [Value.int limit]).findSome? bindError with
  | some e => .error e
  | none =>
    .ok (((db.events.filter (whereClause f)).insertionSort fun a b => b.id ≤ a.id).take limit)

theorem mem_listEvents {db : Database} {f : EventFilter} {limit : Nat} {rows : List EventRow}
    (h : listEvents db f limit = .ok rows)
    (hroom : (db.events.filter (whereClause f)).length ≤ limit) (r : EventRow) :
    r ∈ rows ↔ r ∈ db.events ∧ whereClause f r = true := by
  unfold listEvents at h
  split at h
  · cases h
  · rw [← Except.ok.inj h, List.take_of_length_le, List.mem_insertionSort, List.mem_filter]
    rwa [List.length_insertionSort]

/-! ## What the two ask of a row -/

section Tests
variable {f : EventFilter} {r : EventRow}

theorem likeEscape_eq (value : Str) : likeEscape value = sqliteLike.escaped value := by
  have hbackslash := replace_char value 92 (lit "\\\\")
  have hpercent := fun s => replace_char s 37 (lit "\\%")
  have hunderscore := fun s => replace_char s 95 (lit "\\_")
  unfold likeEscape Like.Syntax.escaped
  rw [show lit "\\" = [92] from rfl, show lit "%" = [37] from rfl, show lit "_" = [95] from rfl,
    hunderscore, hpercent, hbackslash]
  clear hbackslash hpercent hunderscore
  induction value with
  | nil => rfl
  | cons c value ih =>
    simp only [List.flatMap_cons, List.flatMap_append, ih]
    congr 1
    show _ = if c = 92 ∨ c = 37 ∨ c = 95 then [92, c] else [c]
    by_cases h92 : c = 92
    · subst h92
      rfl
    · by_cases h37 : c = 37
      · subst h37
        rfl
      · by_cases h95 : c = 95
        · subst h95
          rfl
        · simp [h92, h37, h95]

theorem like_pattern_iff {s value : Str} : sqliteLike.like s (likePattern value) = true ↔
    value.map foldAscii <:+: s.map foldAscii := by
  rw [likePattern, likeEscape_eq]
  exact Like.like_escaped value s

/-- A filter matches literally. Its pattern is read as the filter itself between two
    wildcards, so no character of it is a wildcard or an escape; and the pattern matches the
    texts in which the filter occurs, up to the case of ASCII. -/
theorem filter_literal (s t : Str) :
    sqliteLike.tokens (likePattern s) =
        some (.sequence :: (s.map .literal ++ [.sequence])) ∧
      (sqliteLike.like t (likePattern s) = true ↔
        ∃ u, u <:+: t ∧ u.map foldAscii = s.map foldAscii) := by
  constructor
  · rw [likePattern, likeEscape_eq]
    exact Like.tokens_between s
  · rw [like_pattern_iff, List.infix_map_iff]
    simp only [eq_comm]

example : sqliteLike.like (lit "99% SURE_\\") (likePattern (lit "% sure_\\")) = true := by decide
example : sqliteLike.like (lit "99 unsure") (likePattern (lit "%sure")) = false := by decide

theorem whereClause_iff : whereClause f r = true ↔
    (f.provider ≠ [] → r.provider = .text f.provider) ∧
    (f.verdict ≠ [] → r.verdict = .text f.verdict) ∧
    (f.reason ≠ [] → ∃ s, r.reason = .text s ∧ f.reason.map foldAscii <:+: s.map foldAscii) ∧
    (f.path ≠ [] → ∃ s, r.path = .text s ∧ f.path.map foldAscii <:+: s.map foldAscii) ∧
    (0 < f.fromMs → f.fromMs ≤ r.receivedAt) ∧ (0 < f.toMs → r.receivedAt ≤ f.toMs) := by
  have htext : ∀ (v : Sqlite.Value) (value : Str),
      (v.asText.any fun s => sqliteLike.like s (likePattern value)) = true ↔
        ∃ s, v = .text s ∧ value.map foldAscii <:+: s.map foldAscii := by
    intro v value
    cases v <;> simp [Sqlite.Value.asText, like_pattern_iff]
  have hite : ∀ (p : Prop) [Decidable p] (c : Condition),
      ((if p then [c] else []).all fun c => c.holds r) = true ↔ (p → c.holds r = true) := by
    intro p _ c
    by_cases hp : p <;> simp [hp]
  simp only [whereClause, conditions, List.all_append, Bool.and_eq_true, hite, and_assoc]
  simp only [Condition.holds, beq_iff_eq, htext, decide_eq_true_eq]

theorem eventMatches_iff : eventMatches r f = true ↔
    (f.provider ≠ [] → r.provider = .text f.provider) ∧
    (f.verdict ≠ [] → r.verdict = .text f.verdict) ∧
    (f.reason ≠ [] → f.reason <:+: r.reason.asText.getD []) ∧
    (f.path ≠ [] → f.path <:+: r.path.asText.getD []) ∧
    (f.fromMs ≠ 0 → f.fromMs ≤ r.receivedAt) ∧ (f.toMs ≠ 0 → r.receivedAt ≤ f.toMs) := by
  have hcontains : ∀ s needle : Str, contains s needle = false ↔ ¬ needle <:+: s := by
    intro s needle
    rw [← contains_iff, Bool.not_eq_true]
  unfold eventMatches
  simp only [hcontains]
  split
  · next h => simp [h]
  · split
    · next h => simp [h]
    · split
      · next h => simp [h]
      · split
        · next h => simp [h]
        · split
          · next h => simp [h]
          · simp_all [not_lt, or_iff_not_imp_left]

/-- What the tail lets through, the list does, too. -/
theorem whereClause_of_matches {reason path : Str} (hreason : r.reason = .text reason)
    (hpath : r.path = .text path) (h : eventMatches r f = true) : whereClause f r = true := by
  rw [eventMatches_iff, hreason, hpath] at h
  rw [whereClause_iff]
  obtain ⟨hprovider, hverdict, hreason', hpath', hfrom, hto⟩ := h
  refine ⟨hprovider, hverdict, ?_, ?_, ?_, ?_⟩
  · exact fun hne => ⟨reason, hreason, (hreason' hne).map foldAscii⟩
  · exact fun hne => ⟨path, hpath, (hpath' hne).map foldAscii⟩
  · exact fun hpos => hfrom (by omega)
  · exact fun hpos => hto (by omega)

end Tests

/-! ## Letters -/

/-- No letter of ASCII. -/
def CaseFree (s : Str) : Prop := ∀ c ∈ s, isAsciiAlpha c = false

instance (s : Str) : Decidable (CaseFree s) :=
  inferInstanceAs (Decidable (∀ c ∈ s, isAsciiAlpha c = false))

/-- A letter of ASCII in the other case. -/
def swapCase (c : Nat) : Nat :=
  if 65 ≤ c ∧ c ≤ 90 then c + 32 else if 97 ≤ c ∧ c ≤ 122 then c - 32 else c

theorem isAsciiAlpha_eq_false {c : Nat} :
    isAsciiAlpha c = false ↔ ¬ (65 ≤ c ∧ c ≤ 90) ∧ ¬ (97 ≤ c ∧ c ≤ 122) := by
  simp only [isAsciiAlpha, Bool.or_eq_false_iff, Bool.and_eq_false_iff, decide_eq_false_iff_not]
  omega

theorem foldAscii_eq {c d : Nat} (hc : isAsciiAlpha c = false) (h : foldAscii d = foldAscii c) :
    d = c := by
  rw [isAsciiAlpha_eq_false] at hc
  unfold foldAscii at h
  rw [if_neg hc.1] at h
  split at h
  · omega
  · exact h

theorem CaseFree.infix {value s : Str} (hfree : CaseFree value)
    (h : value.map foldAscii <:+: s.map foldAscii) : value <:+: s := by
  obtain ⟨front, back, heq⟩ := h
  have hmiddle : (s.drop front.length).take value.length = value := by
    apply List.ext_getElem?
    intro i
    have hi := congrArg (fun l => l[front.length + i]?) heq
    by_cases hlt : i < value.length
    · have hleft : (front ++ value.map foldAscii ++ back)[front.length + i]? =
          some (foldAscii value[i]) := by
        rw [List.append_assoc, List.getElem?_append_right (by omega), Nat.add_sub_cancel_left,
          List.getElem?_append_left (by simpa using hlt), List.getElem?_map,
          List.getElem?_eq_getElem hlt, Option.map_some]
      simp only [hleft, List.getElem?_map] at hi
      obtain ⟨d, hd, hfold⟩ := Option.map_eq_some_iff.mp hi.symm
      rw [List.getElem?_take_of_lt hlt, List.getElem?_drop, hd, List.getElem?_eq_getElem hlt,
        foldAscii_eq (hfree _ (List.getElem_mem hlt)) hfold]
    · rw [List.getElem?_eq_none (by simp; omega), List.getElem?_eq_none (by omega)]
  rw [← hmiddle]
  exact (List.take_prefix _ _).isInfix.trans (List.drop_suffix _ _).isInfix

theorem fold_swapCase (s : Str) : (s.map swapCase).map foldAscii = s.map foldAscii := by
  rw [List.map_map]
  apply List.map_congr_left
  intro c _
  simp only [Function.comp, swapCase, foldAscii]
  split <;> split <;> (try split) <;> omega

theorem not_infix_swapCase {value : Str} (h : ¬ CaseFree value) :
    ¬ value <:+: value.map swapCase := by
  intro hinfix
  have heq := hinfix.eq_of_length (by simp)
  apply h
  intro c hc
  obtain ⟨i, hi, rfl⟩ := List.getElem_of_mem hc
  have hget := congrArg (fun l => l[i]?) heq
  simp only [List.getElem?_map, List.getElem?_eq_getElem hi, Option.map_some,
    Option.some.injEq] at hget
  rw [isAsciiAlpha_eq_false]
  unfold swapCase at hget
  split at hget
  · omega
  · split at hget
    · omega
    · exact ⟨by assumption, by assumption⟩

theorem isScalar_swapCase {s : Str} (h : s.all isScalar = true) :
    (s.map swapCase).all isScalar = true := by
  rw [List.all_eq_true] at h ⊢
  intro c hc
  obtain ⟨c', hc', rfl⟩ := List.mem_map.mp hc
  have hscalar := h c' hc'
  unfold swapCase
  split
  · simp [isScalar]
    omega
  · split
    · simp [isScalar]
      omega
    · exact hscalar

/-! ## The rows of the table -/

/-- A row of an event that satisfies the table's constraints. -/
def Stored (eng : Engine) (r : EventRow) : Prop := ∃ e : Event, e.Storable ∧ r = e.row eng r.id

section Rows
variable {eng : Engine} {formats : Int → Bool} {f : EventFilter}

theorem stored_of_content {e : Event} {r : EventRow} (hstorable : e.Storable)
    (h : r.content = e.row eng 0) : Stored eng r := by
  refine ⟨e, hstorable, ?_⟩
  obtain ⟨id, receivedAt, path, provider, verdict, reason, upstreamStatus, latencyMs, bodyBytes,
    bodySha256, remoteIp⟩ := r
  simp only [EventRow.content, Event.row, EventRow.mk.injEq, true_and] at h ⊢
  exact h

theorem step_stored {σ : State} (h : ∀ r ∈ σ.store.db.events, Stored eng r) (a : Action) :
    ∀ r ∈ (step eng formats f σ a).store.db.events, Stored eng r := by
  cases a with
  | insert busy events =>
    intro r hr
    obtain hr | ⟨e, he, heq⟩ := mem_insertEvents hr
    · exact h r hr
    · -- a new row is that of an event that was not refused
      obtain ⟨i, hi⟩ := Sqlite.admitted_not_refused e he
      exact stored_of_content (eventRefusal_none_iff.mp hi).2 heq
  | sweep busy cutoffMs =>
    intro r hr
    exact h r ((deleteEventsOlderThan_sublist busy σ.store cutoffMs).subset hr)
  | connect =>
    unfold step
    simp only
    split <;> exact h
  | query =>
    unfold step
    simp only
    split <;> exact h
  | deliver =>
    unfold step
    simp only
    split
    · unfold State.deliver
      split
      · exact h
      · simp only
        split <;> exact h
    · exact h
  | leave => exact h

/-- In every run of the writers and a stream, every row is stored so. -/
theorem run_stored (actions : List Action) :
    ∀ r ∈ (actions.foldl (step eng formats f) {}).store.db.events, Stored eng r := by
  have hrun : ∀ σ : State, (∀ r ∈ σ.store.db.events, Stored eng r) →
      ∀ r ∈ (actions.foldl (step eng formats f) σ).store.db.events, Stored eng r := by
    induction actions with
    | nil => exact fun σ h => h
    | cons a actions ih => exact fun σ h => ih _ (step_stored h a)
  exact hrun {} (by simp [connect, Store.db])

theorem insert_stored {e : Event} (hstorable : e.Storable) :
    e.row eng 1 ∈ (step eng formats f {} (.insert (fun _ => none) [e])).store.db.events := by
  have hnone : eventRefusal eng none e = none := eventRefusal_none_iff.mpr ⟨rfl, hstorable⟩
  simp only [step, insertEvents_db]
  have hadmitted : admittedEvents eng (fun _ => none) [e] = [e] := by
    rw [admittedEvents, Sqlite.admitted_eq_self_iff]
    exact Sqlite.noneRefused_cons.mpr ⟨hnone, fun i hi => absurd hi (by simp)⟩
  rw [hadmitted]
  simp [appendEvents, connect, Store.db, Database.nextEventId]

theorem Stored.texts {r : EventRow} (h : Stored eng r) :
    (∃ reason, r.reason = .text reason) ∧ (∃ path, r.path = .text path) ∧
      (r.verdict = .text (lit "accepted") ∨ r.verdict = .text (lit "rejected")) := by
  obtain ⟨e, hstorable, hr⟩ := h
  have htext : ∀ v ∈ e.fields, ∃ s, eng.textAffinity (bound v) = .text s := by
    intro v hv
    have hne := hstorable.notNull v hv
    cases hb : bound v with
    | null => exact absurd hb hne
    | integer n => exact ⟨_, rfl⟩
    | real x => exact ⟨_, rfl⟩
    | text s => exact ⟨_, rfl⟩
  rw [hr]
  refine ⟨htext _ (by simp [Event.fields]), htext _ (by simp [Event.fields]), ?_⟩
  rcases hstorable.verdict with hv | hv
  · exact .inl (by simp [Event.row, hv, bound, Engine.textAffinity])
  · exact .inr (by simp [Event.row, hv, bound, Engine.textAffinity])

end Rows

/-! ## When the two are the same -/

/-- Some event passes the filter. -/
structure Passable (f : EventFilter) : Prop where
  verdict : f.verdict = [] ∨ f.verdict = lit "accepted" ∨ f.verdict = lit "rejected"
  bounds : 0 < f.toMs → f.fromMs ≤ f.toMs

/-- No letters to fold, and no bound before 1970. -/
structure Plain (f : EventFilter) : Prop where
  reason : CaseFree f.reason
  path : CaseFree f.path
  fromMs : 0 ≤ f.fromMs
  toMs : 0 ≤ f.toMs

/-- A filter whose texts are those of Unicode, and whose bounds are times. -/
structure Readable (f : EventFilter) : Prop where
  provider : f.provider.all isScalar = true
  reason : f.reason.all isScalar = true
  path : f.path.all isScalar = true
  fromMs : -2 ^ 62 ≤ f.fromMs ∧ f.fromMs < 2 ^ 62
  toMs : -2 ^ 62 ≤ f.toMs ∧ f.toMs < 2 ^ 62

section Agreement
variable {eng : Engine} {formats : Int → Bool} {f : EventFilter}

theorem passable_of_whereClause {r : EventRow} (hr : Stored eng r)
    (h : whereClause f r = true) : Passable f := by
  rw [whereClause_iff] at h
  obtain ⟨-, hverdict, -, -, hfrom, hto⟩ := h
  refine ⟨?_, ?_⟩
  · by_cases hne : f.verdict = []
    · exact .inl hne
    · have hchecked := hr.texts.2.2
      rw [hverdict hne] at hchecked
      exact .inr (hchecked.imp Sqlite.Value.text.inj Sqlite.Value.text.inj)
  · intro hpos
    have hle := hto hpos
    by_cases hf : 0 < f.fromMs
    · exact (hfrom hf).trans hle
    · omega

/-- An event that passes the provider and the verdict. -/
def passing (f : EventFilter) (reason path : Str) (receivedAt : Int) : Event where
  receivedAt
  path := .str path
  provider := .str f.provider
  verdict := .str (if f.verdict = [] then lit "accepted" else f.verdict)
  reason := .str reason
  upstreamStatus := .int 0
  latencyMs := .int 0
  bodyBytes := .int 0
  bodySha256 := .str []
  remoteIp := .str []

theorem passing_storable (hf : Readable f) (hverdict : Passable f) {reason path : Str}
    (hreason : reason.all isScalar = true) (hpath : path.all isScalar = true) {receivedAt : Int}
    (hreceived : isInt64 receivedAt = true) : (passing f reason path receivedAt).Storable := by
  have hchecked : (if f.verdict = [] then lit "accepted" else f.verdict) = lit "accepted" ∨
      (if f.verdict = [] then lit "accepted" else f.verdict) = lit "rejected" := by
    by_cases hne : f.verdict = []
    · exact .inl (if_pos hne)
    · rw [if_neg hne]
      exact hverdict.verdict.resolve_left hne
  have hscalar : (if f.verdict = [] then lit "accepted" else f.verdict).all isScalar = true := by
    rcases hchecked with h | h
    · rw [h]
      decide
    · rw [h]
      decide
  refine ⟨hreceived, ?_, ?_, hchecked.imp (congrArg Value.str) (congrArg Value.str)⟩
  · have hprovider := hf.provider
    simp only [List.all_eq_true] at hreason hpath hprovider hscalar
    simpa [passing, Event.fields, bindError, isInt64] using ⟨hpath, hprovider, hscalar, hreason⟩
  · simp [passing, Event.fields, bound]

/-- Where the two are the same for the events that are stored, they are so for those that
    pass the provider and the verdict. -/
theorem agree_on_passing (hf : Readable f) (hpassable : Passable f)
    (hagree : ∀ actions : List Action,
      ∀ r ∈ (actions.foldl (step eng formats f) {}).store.db.events,
        eventMatches r f = whereClause f r) {reason path : Str} (receivedAt : Int)
    (hreason : reason.all isScalar = true) (hpath : path.all isScalar = true)
    (hreceived : isInt64 receivedAt = true)
    (hfolded : f.reason.map foldAscii = reason.map foldAscii)
    (hfolded' : f.path.map foldAscii = path.map foldAscii)
    (hfrom : 0 < f.fromMs → f.fromMs ≤ receivedAt) (hto : 0 < f.toMs → receivedAt ≤ f.toMs) :
    f.reason <:+: reason ∧ f.path <:+: path ∧
      (f.fromMs ≠ 0 → f.fromMs ≤ receivedAt) ∧ (f.toMs ≠ 0 → receivedAt ≤ f.toMs) := by
  have hrow := @insert_stored eng formats f _
    (passing_storable hf hpassable hreason hpath hreceived)
  have hwhere : whereClause f ((passing f reason path receivedAt).row eng 1) = true := by
    rw [whereClause_iff]
    refine ⟨fun _ => rfl, ?_, fun _ => ⟨reason, rfl, ?_⟩, fun _ => ⟨path, rfl, ?_⟩, hfrom, hto⟩
    · intro hne
      simp [Event.row, passing, bound, Engine.textAffinity, hne]
    · rw [hfolded]
    · rw [hfolded']
  have hmatches := (hagree [.insert (fun _ => none) [passing f reason path receivedAt]] _
    hrow).trans hwhere
  rw [eventMatches_iff] at hmatches
  obtain ⟨-, -, hreason', hpath', hfrom', hto'⟩ := hmatches
  refine ⟨?_, ?_, hfrom', hto'⟩
  · by_cases hne : f.reason = []
    · rw [hne]
      exact List.nil_infix
    · exact hreason' hne
  · by_cases hne : f.path = []
    · rw [hne]
      exact List.nil_infix
    · exact hpath' hne

/-- A filter that is the same in both has neither letters nor bounds before 1970, if any
    event passes it. -/
theorem plain_of_agree (hf : Readable f) (hpassable : Passable f)
    (hagree : ∀ actions : List Action,
      ∀ r ∈ (actions.foldl (step eng formats f) {}).store.db.events,
        eventMatches r f = whereClause f r) : Plain f := by
  have hbounds := hpassable.bounds
  obtain ⟨hfrom, hfrom'⟩ := hf.fromMs
  obtain ⟨hto, hto'⟩ := hf.toMs
  -- a time between the bounds that are positive
  have hwithin : ∃ t, isInt64 t = true ∧ (0 < f.fromMs → f.fromMs ≤ t) ∧
      (0 < f.toMs → t ≤ f.toMs) := by
    refine ⟨if 0 < f.fromMs then f.fromMs else 0, isInt64_of_bounds ?_, ?_, ?_⟩
    · split <;> omega
    · intro hpos
      rw [if_pos hpos]
    · intro hpos
      split
      · exact hbounds hpos
      · exact hpos.le
  obtain ⟨t, ht, hft, htt⟩ := hwithin
  refine ⟨?_, ?_, ?_, ?_⟩
  · by_contra hletters
    have hboth := agree_on_passing hf hpassable hagree t (isScalar_swapCase hf.reason) hf.path
      ht (fold_swapCase f.reason).symm rfl hft htt
    exact not_infix_swapCase hletters hboth.1
  · by_contra hletters
    have hboth := agree_on_passing hf hpassable hagree t hf.reason (isScalar_swapCase hf.path)
      ht rfl (fold_swapCase f.path).symm hft htt
    exact not_infix_swapCase hletters hboth.2.1
  · -- an event before the bound
    by_contra hneg
    have hboth := agree_on_passing hf hpassable hagree (f.fromMs - 1) hf.reason
      hf.path (isInt64_of_bounds (by omega)) rfl rfl (by omega) (by omega)
    have hle := hboth.2.2.1 (by omega)
    omega
  · -- an event of 1970 or later
    by_contra hneg
    have hboth := agree_on_passing hf hpassable hagree (max f.fromMs 0) hf.reason
      hf.path (isInt64_of_bounds (by omega)) rfl rfl (by omega) (by omega)
    have hle := hboth.2.2.2 (by omega)
    omega

theorem Plain.agree (hf : Plain f) {r : EventRow} (hr : Stored eng r) :
    eventMatches r f = whereClause f r := by
  obtain ⟨⟨reason, hreason⟩, ⟨path, hpath⟩, -⟩ := hr.texts
  rw [Bool.eq_iff_iff]
  refine ⟨whereClause_of_matches hreason hpath, ?_⟩
  rw [whereClause_iff, eventMatches_iff, hreason, hpath]
  rintro ⟨hprovider, hverdict, hreason', hpath', hfrom, hto⟩
  have hfromMs := hf.fromMs
  have htoMs := hf.toMs
  refine ⟨hprovider, hverdict, ?_, ?_, fun hne => hfrom (by omega), fun hne => hto (by omega)⟩
  · intro hne
    obtain ⟨s, hs, hinfix⟩ := hreason' hne
    rw [← Sqlite.Value.text.inj hs] at hinfix
    exact hf.reason.infix hinfix
  · intro hne
    obtain ⟨s, hs, hinfix⟩ := hpath' hne
    rw [← Sqlite.Value.text.inj hs] at hinfix
    exact hf.path.infix hinfix

end Agreement

theorem queryParam_scalar {params : List (Str × Str)}
    (h : ∀ param ∈ params, param.2.all isScalar = true) (key : String) :
    (queryParam params key).all isScalar = true := by
  unfold queryParam
  cases hlookup : params.reverse.lookup (lit key) with
  | none => rfl
  | some value =>
    obtain ⟨before, after, heq, -⟩ := List.lookup_eq_some_iff.mp hlookup
    have hmem : (lit key, value) ∈ params.reverse := by simp [heq]
    exact h _ (List.mem_reverse.mp hmem)

theorem parseLocalDatetime_bounds (fromisoformat : Str → Option ReadDatetime) (value : Str) :
    -2 ^ 62 ≤ parseLocalDatetime fromisoformat value ∧
      parseLocalDatetime fromisoformat value < 2 ^ 62 := by
  unfold parseLocalDatetime
  split
  · decide
  · split
    · decide
    · next d _ =>
      have hbounds := d.reading.unixMs_bounds
      exact ⟨by omega, by omega⟩

/-- A filter that is read from a request is the same for the tail and for the list, of
    every event that is stored in any run, exactly when its reason and its path have no
    letter of ASCII and its bounds are not before 1970, or no event passes it at all. -/
theorem filters_agree_iff (eng : Engine) (formats : Int → Bool)
    (fromisoformat : Str → Option ReadDatetime) {params : List (Str × Str)}
    (hdecoded : ∀ param ∈ params, param.2.all isScalar = true) :
    let f := (filterFromRequest fromisoformat params).1
    (∀ actions : List Action, ∀ r ∈ (actions.foldl (step eng formats f) {}).store.db.events,
      eventMatches r f = whereClause f r) ↔ (Passable f → Plain f) := by
  intro f
  have hf : Readable f :=
    { provider := queryParam_scalar hdecoded "provider"
      reason := queryParam_scalar hdecoded "reason"
      path := queryParam_scalar hdecoded "path"
      fromMs := parseLocalDatetime_bounds fromisoformat _
      toMs := parseLocalDatetime_bounds fromisoformat _ }
  refine ⟨fun hagree hpassable => plain_of_agree hf hpassable hagree, ?_⟩
  intro hplain actions r hr
  have hstored := run_stored actions r hr
  by_cases hpassable : Passable f
  · exact (hplain hpassable).agree hstored
  · -- nothing passes either
    have hwhere : whereClause f r = false := by
      rw [← Bool.not_eq_true]
      exact fun h => hpassable (passable_of_whereClause hstored h)
    obtain ⟨⟨reason, hreason⟩, ⟨path, hpath⟩, -⟩ := hstored.texts
    rw [hwhere, ← Bool.not_eq_true]
    intro hmatches
    exact absurd ((whereClause_of_matches hreason hpath hmatches).symm.trans hwhere) (by decide)

/-! ## A filter with a letter -/

/-- The request `?reason=Stale`, and the event of a stale timestamp. -/
def staleParams : List (Str × Str) := [(lit "reason", lit "Stale")]

def staleEvent : Event :=
  { Event.ofVerdict (lit "rejected") with reason := .str (lit "stale timestamp") }

theorem filters_agree_stale :
    let f := (filterFromRequest (fun _ => none) [(lit "provider", lit "stripe")]).1
    ∀ r ∈ ([Action.insert (fun _ => none) [staleEvent]].foldl (step .plain (fun _ => true) f)
      {}).store.db.events, eventMatches r f = whereClause f r :=
  (@filters_agree_iff .plain (fun _ => true) (fun _ => none)
    [(lit "provider", lit "stripe")] (by decide)).mpr
    (fun _ => ⟨by decide, by decide, by decide, by decide⟩) _

/-- The list shows the event, and the tail does not. -/
theorem filters_differ :
    let f := (filterFromRequest (fun _ => none) staleParams).1
    ∃ r ∈ ([Action.insert (fun _ => none) [staleEvent]].foldl (step .plain (fun _ => true) f)
      {}).store.db.events, eventMatches r f = false ∧ whereClause f r = true :=
  ⟨staleEvent.row .plain 1, by decide +kernel, by decide +kernel, by decide +kernel⟩

end tail
end HookGuard
