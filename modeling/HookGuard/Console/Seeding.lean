import HookGuard.Console.ServedConfig

/- The import of a config.json into the table of endpoints (`__main__._seed_config`).

   Each row is committed on its own. None is refused: what `import_config` checked of a route
   implies the table's CHECK (`check_of_validate`), and a path that is there, from before or
   from earlier in the file, is skipped. So the rows that are added are the first of the file
   for each path that is not there, and a second run adds none (`seed_exact`). -/
namespace HookGuard
open Py store gwconfig

namespace console

/-- A row of the table has the path. -/
def hasPath (t : Tables) (path : Str) : Bool :=
  t.endpoints.rows.any fun r => r.2.path == path

/-- The endpoints with a path that the table has not, the first of each path. -/
def newEndpoints (t : Tables) (endpoints : List Endpoint) : List Endpoint :=
  (endpoints.filter fun e => !hasPath t e.path).eraseDupsBy fun e e' => e.path == e'.path

/-- The rows of endpoints that are created now. -/
def insertAll (nowMs : Int) (rows : Sqlite.Table Endpoint) (endpoints : List Endpoint) :
    Sqlite.Table Endpoint :=
  endpoints.foldl
    (fun rows e => rows.insert { e with createdAt := nowMs, updatedAt := nowMs }) rows

/-- A row that no constraint but that on its path refuses. -/
structure Insertable (e : Endpoint) : Prop where
  scalar : (e.path ++ e.provider ++ e.upstreamUrl ++ e.replayWindow ++ e.secretEnv ++
    e.webhookId).all isScalar = true
  check : e.check = none

section Routes
variable {route : Route}

/-- The rules of a route's provider imply the table's checks. -/
theorem check_of_validate (h : gwconfig.validate route = .ok ()) :
    (toEndpoint route).check = none := by
  have hprovider := validateProvider_of_validate h
  unfold validateProvider at hprovider
  split at hprovider
  · next hpaypal =>
    -- a webhook id, and no name of a secret
    split at hprovider
    · cases hprovider
    · next hwebhook =>
      split at hprovider
      · cases hprovider
      · next hsecret =>
        have hempty : route.secretEnv = [] := not_not.mp hsecret
        simp [Endpoint.check, toEndpoint, hpaypal, hwebhook, hempty]
  · next hother =>
    split at hprovider
    · next hmem =>
      split at hprovider
      · cases hprovider
      · next hsecret =>
        split at hprovider
        · cases hprovider
        · next hwebhook =>
          have hempty : route.webhookId = [] := not_not.mp hwebhook
          simp only [SECRET_ENV_PROVIDERS, List.contains_iff_mem, List.mem_cons,
            List.not_mem_nil, or_false] at hmem
          have hknown : route.provider ∈
              [lit "stripe", lit "github", lit "shopify", lit "paypal"] := by
            simp only [List.mem_cons, List.not_mem_nil, or_false]
            rcases hmem with h | h | h
            · exact .inl h
            · exact .inr (.inl h)
            · exact .inr (.inr (.inl h))
          simp [Endpoint.check, toEndpoint, hknown, hother, hsecret, hempty]
    · cases hprovider

theorem insertable_of_import {loads : Str → Except Exc Value} {text : Str}
    {endpoints : List Endpoint} (h : importConfig loads text = .ok endpoints) :
    ∀ e ∈ endpoints, Insertable e := by
  obtain ⟨config, -, hvalid, rfl⟩ := importConfig_eq_ok.mp h
  intro e he
  obtain ⟨route, hroute, rfl⟩ := List.mem_map.mp he
  exact ⟨route.scalar, check_of_validate (hvalid route hroute)⟩

end Routes

section Rows
variable {t : Tables} {e : Endpoint} {endpoints : List Endpoint} {nowMs : Int}

theorem find_path_isSome (t : Tables) (path : Str) :
    (t.endpoints.find fun e => e.path == path).isSome = hasPath t path := by
  unfold Sqlite.Table.find hasPath
  rw [List.isSome_find?]

theorem execute_create (now : Datetime) (h : Insertable e) (hnew : hasPath t e.path = false) :
    execute [.createEndpoint { e with createdAt := now.unixMs, updatedAt := now.unixMs }] t =
      { tables := { t with endpoints := insertAll now.unixMs t.endpoints [e] }
        executed := [.createEndpoint { e with createdAt := now.unixMs, updatedAt := now.unixMs }]
        refused := none } := by
  have hbind : (Endpoint.parameters { e with
      createdAt := now.unixMs, updatedAt := now.unixMs }).findSome? bindError = none := by
    have hscalar := h.scalar
    simp only [List.all_append, Bool.and_eq_true] at hscalar
    obtain ⟨⟨⟨⟨⟨hpath, hprovider⟩, hupstream⟩, hwindow⟩, hsecret⟩, hwebhook⟩ := hscalar
    have htext : ∀ s : Str, s.all isScalar = true → bindError (.str s) = none := fun s hs =>
      if_pos hs
    rw [List.findSome?_eq_none_iff]
    simp only [Endpoint.parameters, List.forall_mem_cons, htext _ hpath, htext _ hprovider,
      htext _ hupstream, htext _ hwindow, htext _ hsecret, htext _ hwebhook, bindError_unixMs,
      List.not_mem_nil, false_implies, implies_true, and_self]
  have hcheck : Endpoint.check { e with createdAt := now.unixMs, updatedAt := now.unixMs } =
      none := h.check
  have hunique : (t.endpoints.find fun e' => e'.path == e.path).isSome = false := by
    rw [find_path_isSome]
    exact hnew
  have haccepted : (Statement.createEndpoint
      { e with createdAt := now.unixMs, updatedAt := now.unixMs }).refusal t = none := by
    unfold Statement.refusal
    simp only [Statement.parameters, hbind, Statement.violation, hcheck, hunique,
      Bool.false_eq_true, if_false]
  rw [execute, haccepted]
  rfl

theorem hasPath_insertAll (nowMs : Int) (e : Endpoint) (path : Str) :
    hasPath { t with endpoints := insertAll nowMs t.endpoints [e] } path =
      (hasPath t path || e.path == path) := by
  unfold hasPath
  show (t.endpoints.rows ++ [_]).any _ = _
  rw [List.any_append]
  simp

/-- Of an endpoint under a path that is there, nothing is added; under another, it is, and
    after it no other of its path. -/
theorem newEndpoints_cons (t : Tables) (nowMs : Int) (e : Endpoint) (endpoints : List Endpoint) :
    newEndpoints t (e :: endpoints) =
      if hasPath t e.path then newEndpoints t endpoints
      else e :: newEndpoints { t with endpoints := insertAll nowMs t.endpoints [e] }
        endpoints := by
  unfold newEndpoints
  by_cases hthere : hasPath t e.path = true
  · rw [if_pos hthere, List.filter_cons_of_neg (by simp [hthere])]
  · rw [if_neg hthere, List.filter_cons_of_pos (by simp [hthere]), List.eraseDupsBy_cons,
      List.filter_filter]
    congr 2
    apply List.filter_congr
    intro e' _
    rw [hasPath_insertAll]
    by_cases hpath : e'.path = e.path
    · simp [hpath]
    · simp [hpath, Ne.symm hpath]

/-- The loop adds the new endpoints, and is not ended by a refusal. -/
theorem seedEndpoints_eq (now : Datetime) (h : ∀ e ∈ endpoints, Insertable e) :
    seedEndpoints now.unixMs endpoints t =
      ({ t with endpoints := insertAll now.unixMs t.endpoints (newEndpoints t endpoints) },
        none) := by
  induction endpoints generalizing t with
  | nil => rfl
  | cons e endpoints ih =>
    rw [List.forall_mem_cons] at h
    rw [newEndpoints_cons t now.unixMs, seedEndpoints, find_path_isSome]
    by_cases hthere : hasPath t e.path = true
    · rw [if_pos hthere, if_pos hthere]
      exact ih h.2
    · have hnew : hasPath t e.path = false := eq_false_of_ne_true hthere
      rw [if_neg hthere, if_neg hthere, execute_create now h.1 hnew]
      exact ih h.2

theorem newEndpoints_eq_nil (h : ∀ e ∈ endpoints, hasPath t e.path = true) :
    newEndpoints t endpoints = [] := by
  unfold newEndpoints
  rw [List.filter_eq_nil_iff.mpr fun e he => by simp [h e he]]
  rfl

theorem insertAll_rows (nowMs : Int) (rows : Sqlite.Table Endpoint) (endpoints : List Endpoint) :
    ∃ added, (insertAll nowMs rows endpoints).rows = rows.rows ++ added ∧
      added.map Prod.snd =
        endpoints.map fun e => { e with createdAt := nowMs, updatedAt := nowMs } := by
  induction endpoints generalizing rows with
  | nil => exact ⟨[], (List.append_nil _).symm, rfl⟩
  | cons e endpoints ih =>
    obtain ⟨added, hrows, hadded⟩ :=
      ih (rows.insert { e with createdAt := nowMs, updatedAt := nowMs })
    refine ⟨(rows.nextId, { e with createdAt := nowMs, updatedAt := nowMs }) :: added, ?_, ?_⟩
    · exact hrows.trans (by simp [Sqlite.Table.insert])
    · rw [List.map_cons, List.map_cons, hadded]

theorem hasPath_kept {path : Str} (h : hasPath t path = true) (nowMs : Int)
    (endpoints : List Endpoint) :
    hasPath { t with endpoints := insertAll nowMs t.endpoints endpoints } path = true := by
  obtain ⟨added, hrows, -⟩ := insertAll_rows nowMs t.endpoints endpoints
  unfold hasPath at h ⊢
  show (insertAll nowMs t.endpoints endpoints).rows.any _ = true
  rw [hrows, List.any_append, h, Bool.true_or]

theorem hasPath_seeded (nowMs : Int) (endpoints : List Endpoint) (t : Tables) :
    ∀ e ∈ endpoints, hasPath
      { t with endpoints := insertAll nowMs t.endpoints (newEndpoints t endpoints) } e.path := by
  induction endpoints generalizing t with
  | nil => exact fun e he => absurd he List.not_mem_nil
  | cons e endpoints ih =>
    rw [newEndpoints_cons t nowMs, List.forall_mem_cons]
    by_cases hthere : hasPath t e.path = true
    · rw [if_pos hthere]
      exact ⟨hasPath_kept hthere nowMs _, ih t⟩
    · rw [if_neg hthere]
      have hadded : hasPath { t with endpoints := insertAll nowMs t.endpoints [e] } e.path := by
        rw [hasPath_insertAll, beq_self_eq_true, Bool.or_true]
      exact ⟨hasPath_kept hadded nowMs _,
        ih { t with endpoints := insertAll nowMs t.endpoints [e] }⟩

end Rows

/-- **Seeding.** Of a file that is imported, no row is refused; the rows that were there
    stay, and behind them stand the first of the file for each path that was not there; and
    a second run of the file adds none. A file that is not imported adds none. -/
theorem seed_exact (loads : Str → Except Exc Value) (t : Tables) (text : Str) (now : Datetime) :
    (∀ endpoints, importConfig loads text = .ok endpoints →
      (seedEndpoints now.unixMs endpoints t).2 = none ∧
      (∃ rows added, seedConfig loads t text now = { t with endpoints := rows } ∧
        rows.rows = t.endpoints.rows ++ added ∧
        added.map Prod.snd = (newEndpoints t endpoints).map fun e =>
          { e with createdAt := now.unixMs, updatedAt := now.unixMs }) ∧
      ∀ again : Datetime, seedConfig loads (seedConfig loads t text now) text again =
        seedConfig loads t text now) ∧
    ∀ e, importConfig loads text = .error e → seedConfig loads t text now = t := by
  refine ⟨?_, ?_⟩
  · intro endpoints himport
    have hinsertable := insertable_of_import himport
    have hseeds : ∀ (t : Tables) (now : Datetime), seedConfig loads t text now =
        { t with endpoints := insertAll now.unixMs t.endpoints (newEndpoints t endpoints) } := by
      intro t now
      unfold seedConfig
      rw [himport]
      exact congrArg Prod.fst (seedEndpoints_eq now hinsertable)
    obtain ⟨added, hrows, hadded⟩ :=
      insertAll_rows now.unixMs t.endpoints (newEndpoints t endpoints)
    refine ⟨congrArg Prod.snd (seedEndpoints_eq now hinsertable),
      ⟨_, added, hseeds t now, hrows, hadded⟩, ?_⟩
    intro again
    rw [hseeds t now, hseeds _ again,
      newEndpoints_eq_nil (hasPath_seeded now.unixMs endpoints t)]
    rfl
  · intro e himport
    unfold seedConfig
    rw [himport]

/-! ## A path twice -/

/-- A route of Stripe's, to the upstream that is given. -/
def stripeRoute (upstream : String) : Value :=
  .dict [(lit "path", .str (lit "/stripe")), (lit "provider", .str (lit "stripe")),
    (lit "upstream", .str (lit upstream)), (lit "secret_env", .str (lit "S"))]

/-- A file that has the path twice. -/
def twiceLoaded (_ : Str) : Except Exc Value :=
  .ok (.dict [(lit "routes", .list [stripeRoute "http://first", stripeRoute "http://second"])])

/-- The first of the two is added, and by another run none. -/
theorem seed_exact_twice :
    ∃ rows, seedConfig twiceLoaded {} [] .epoch = { endpoints := rows } ∧
      rows.rows.map (fun r => r.2.upstreamUrl) = [lit "http://first"] ∧
      seedConfig twiceLoaded { endpoints := rows } [] .epoch = { endpoints := rows } := by
  have himport : importConfig twiceLoaded [] =
      .ok [⟨lit "/stripe", lit "stripe", lit "http://first", [], lit "S", [], true, 0, 0⟩,
        ⟨lit "/stripe", lit "stripe", lit "http://second", [], lit "S", [], true, 0, 0⟩] := rfl
  obtain ⟨-, ⟨rows, added, hseeded, hrows, hadded⟩, hagain⟩ :=
    (seed_exact twiceLoaded {} [] .epoch).1 _ himport
  refine ⟨rows, hseeded, ?_, ?_⟩
  · have hupstreams := congrArg (List.map Endpoint.upstreamUrl) hadded
    rw [List.map_map] at hupstreams
    have hall : rows.rows = added := hrows.trans (List.nil_append _)
    rw [hall]
    exact hupstreams.trans (by decide +kernel)
  · rw [← hseeded]
    exact hagain .epoch

end console
end HookGuard
