import HookGuard.Console.Seeding
import HookGuard.Core.JsonText

/- The routes of one Console, taken to a Gateway and to another Console by the exported file
   (`gwconfig.py`, `__main__._seed_config`), as CPython writes and reads it.

   Rows pass `gwconfig.validate` whichever way they came in, and the table has each path
   once. So the file is loaded as the routes that were exported, a Console with no routes is
   seeded with all of them, and it exports the same file again (`migrated`). -/
namespace HookGuard
open Py Json store auth gwconfig config

namespace console

/-! ## The table of endpoints -/

/-- A row that the Gateway's rules let through. -/
def Valid (e : Endpoint) : Prop :=
  ∃ route, fromEndpoint e = .ok route ∧ gwconfig.validate route = .ok ()

/-- What the table of endpoints keeps. -/
structure Exportable (t : Tables) : Prop where
  valid : ∀ r ∈ t.endpoints.rows, Valid r.2
  distinct : t.endpoints.rows.Pairwise fun r r' => r.2.path ≠ r'.2.path

/-- A statement whose rows are valid. -/
def WritesValid : Statement → Prop
  | .createEndpoint e | .updateEndpoint _ e => Valid e
  | _ => True

section Rows
variable {prim : Primitives} {t : Tables} {e e' : Endpoint} {st : Statement}

theorem Valid.congr (h : Valid e) (hsettings : settings e' = settings e) : Valid e' := by
  obtain ⟨path, provider, upstreamUrl, replayWindow, secretEnv, webhookId, _, _, _⟩ := e
  obtain ⟨path', provider', upstreamUrl', replayWindow', secretEnv', webhookId', _, _, _⟩ := e'
  simp only [settings, List.cons.injEq, and_true] at hsettings
  obtain ⟨rfl, rfl, rfl, rfl, rfl, rfl⟩ := hsettings
  exact h

theorem distinct_map {rows : List (Nat × Endpoint)} {f : Nat × Endpoint → Nat × Endpoint}
    (hids : (rows.map Prod.fst).Pairwise (· < ·))
    (h : rows.Pairwise fun r r' => r.2.path ≠ r'.2.path)
    (hf : ∀ r ∈ rows, ∀ r' ∈ rows, r.1 < r'.1 → r.2.path ≠ r'.2.path →
      (f r).2.path ≠ (f r').2.path) :
    (rows.map f).Pairwise fun r r' => r.2.path ≠ r'.2.path := by
  rw [List.pairwise_map] at hids ⊢
  refine (hids.and h).imp_of_mem ?_
  intro r r' hr hr' hboth
  exact hf r hr r' hr' hboth.1 hboth.2

theorem violation_of_accepted (h : st.refusal t = none) : st.violation t = none := by
  unfold Statement.refusal at h
  split at h
  · cases h
  · exact h

theorem createEndpoint_accepted (h : (Statement.createEndpoint e).violation t = none) :
    ∀ r ∈ t.endpoints.rows, r.2.path ≠ e.path := by
  simp only [Statement.violation] at h
  split at h
  · cases h
  · split at h
    · cases h
    · next hfind =>
      rw [find_path_isSome, hasPath, List.any_eq_true, not_exists] at hfind
      intro r hr hpath
      exact hfind r ⟨hr, beq_iff_eq.mpr hpath⟩

theorem updateEndpoint_accepted {id : Nat} (h : (Statement.updateEndpoint id e).violation t = none)
    {r r' : Nat × Endpoint} (hr : r ∈ t.endpoints.rows) (hr' : r' ∈ t.endpoints.rows)
    (hid : r.1 = id) (hne : r'.1 ≠ id) : r'.2.path ≠ e.path := by
  simp only [Statement.violation] at h
  intro hpath
  split at h
  · next hnone =>
    rw [Option.isNone_iff_eq_none, Sqlite.Table.get_eq_none] at hnone
    exact hnone r hr hid
  · split at h
    · cases h
    · split at h
      · cases h
      · next hany =>
        rw [List.any_eq_true, not_exists] at hany
        exact hany r' ⟨hr', by simp [hne, hpath]⟩

theorem Exportable.apply (h : Exportable t) (hst : WritesValid st)
    (haccepted : st.refusal t = none) :
    Exportable (st.apply t) := by
  have hviolation := violation_of_accepted haccepted
  cases st with
  | createEndpoint e =>
    refine ⟨?_, ?_⟩
    · intro r hr
      rcases List.mem_append.mp hr with hr | hr
      · exact h.valid r hr
      · rw [List.mem_singleton.mp hr]
        exact hst
    · refine List.pairwise_append.mpr ⟨h.distinct, List.pairwise_singleton _ _, ?_⟩
      intro r hr r' hr'
      rw [List.mem_singleton.mp hr']
      exact createEndpoint_accepted hviolation r hr
  | updateEndpoint id e =>
    refine ⟨?_, ?_⟩
    · intro r hr
      obtain ⟨old, hold, rfl⟩ := List.mem_map.mp hr
      split
      · exact Valid.congr hst rfl
      · exact h.valid old hold
    · refine distinct_map t.endpoints.increasing h.distinct ?_
      intro r hr r' hr' hlt hpath
      by_cases hid : r.1 = id
      · have hid' : r'.1 ≠ id := by omega
        simp only [hid, beq_self_eq_true, if_true, beq_eq_false_iff_ne.mpr hid', if_false,
          Bool.false_eq_true]
        exact (updateEndpoint_accepted hviolation hr hr' hid hid').symm
      · by_cases hid' : r'.1 = id
        · simp only [hid', beq_self_eq_true, if_true, beq_eq_false_iff_ne.mpr hid, if_false,
            Bool.false_eq_true]
          exact updateEndpoint_accepted hviolation hr' hr hid' hid
        · simp only [beq_eq_false_iff_ne.mpr hid, beq_eq_false_iff_ne.mpr hid', if_false,
            Bool.false_eq_true]
          exact hpath
  | setEndpointActive id active updatedAt =>
    have hpath : ∀ r : Nat × Endpoint,
        (if r.1 == id then (r.1, { r.2 with active, updatedAt }) else r).2.path = r.2.path := by
      intro r
      split <;> rfl
    refine ⟨?_, ?_⟩
    · intro r hr
      obtain ⟨old, hold, rfl⟩ := List.mem_map.mp hr
      split
      · exact (h.valid old hold).congr rfl
      · exact h.valid old hold
    · refine distinct_map t.endpoints.increasing h.distinct ?_
      intro r _ r' _ _ hne
      rwa [hpath, hpath]
  | deleteEndpoint id =>
    exact ⟨fun r hr => h.valid r (List.mem_of_mem_filter hr),
      h.distinct.sublist List.filter_sublist⟩
  | _ => exact ⟨h.valid, h.distinct⟩

theorem Exportable.execute {sts : List Statement} (h : Exportable t)
    (hsts : ∀ st ∈ sts, WritesValid st) : Exportable (execute sts t).tables :=
  execute_induction (fun st hst _ ht haccepted => ht.apply (hsts st hst) haccepted) h

theorem Configured.valid {form : Form} {input : Input} {h : Handler}
    (hst : Configured prim t form input h st) : WritesValid st := by
  cases hst with
  | created valid => exact Valid.congr (servable_of_form valid).valid rfl
  | updated found valid => exact Valid.congr (servable_of_form valid).valid rfl
  | retention days => exact trivial
  | toggled found => exact trivial
  | deleted => exact trivial

theorem Exportable.seed {endpoints : List Endpoint} (nowMs : Int) (hall : ∀ e ∈ endpoints, Valid e)
    (h : Exportable t) : Exportable (seedEndpoints nowMs endpoints t).1 := by
  induction endpoints generalizing t with
  | nil => exact h
  | cons e endpoints ih =>
    rw [List.forall_mem_cons] at hall
    have hcreated : Exportable (store.execute
        [.createEndpoint { e with createdAt := nowMs, updatedAt := nowMs }] t).tables := by
      apply h.execute
      rw [List.forall_mem_singleton]
      exact hall.1.congr rfl
    unfold seedEndpoints
    split
    · exact ih hall.2 h
    · simp only
      split
      · exact hcreated
      · exact ih hall.2 hcreated

end Rows

section Runs
variable {prim : Primitives} {allowSignup : Bool} {loads : Str → Except Exc Value} {σ : State}

theorem change_exportable (h : Exportable σ.tables) (c : Change) :
    Exportable (change prim allowSignup loads σ c).tables := by
  cases c with
  | request a =>
    obtain ⟨sts, htables, hsts⟩ := (step_stepped prim allowSignup σ a).statements
    show Exportable (step prim allowSignup σ a).tables
    rw [htables]
    apply h.execute
    intro st hst
    rcases hsts with hserves | ⟨i, form, input, p, -, -, rfl⟩
    · have hserve := hserves st hst
      cases st <;> first | exact trivial | exact hserve.elim
    · by_cases hconfigures : Configures st
      · exact (plan_configured prim σ.tables σ.loginLimiter p form input st hst hconfigures).valid
      · cases st <;> first | exact trivial | exact absurd trivial hconfigures
  | seed text now =>
    show Exportable (seedConfig loads σ.tables text now)
    unfold seedConfig
    split
    · exact h
    · next endpoints himport => exact h.seed _ (import_valid himport)

/-- In every run, every row is valid, and the paths of the rows are distinct. -/
theorem run_exportable (h : Exportable σ.tables) (changes : List Change) :
    Exportable (changes.foldl (change prim allowSignup loads) σ).tables := by
  induction changes generalizing σ with
  | nil => exact h
  | cons c changes ih => exact ih (change_exportable h c)

end Runs

/-! ## The file -/

section File
variable {config : Config}

theorem paired_scalar {s : Str} (h : s.all isScalar = true) : paired (.str s) = .str s := by
  refine congrArg Value.str (pairUp_of_not_high fun c hc => eq_false_of_ne_true ?_)
  have hscalar := List.all_eq_true.mp h c hc
  simp only [isScalar, Bool.or_eq_true, Bool.and_eq_true, decide_eq_true_eq] at hscalar
  rw [isHigh_iff]
  omega

theorem readable_scalar {s : Str} (h : s.all isScalar = true) (d : Nat) : Readable d (.str s) := by
  refine .str fun c hc => ?_
  have hscalar := List.all_eq_true.mp h c hc
  simp only [isScalar, Bool.or_eq_true, Bool.and_eq_true, decide_eq_true_eq] at hscalar
  omega

/-- A member whose name is ASCII and whose value is a text of scalars. -/
def TextMember (m : Str × Value) : Prop :=
  (∀ c ∈ m.1, c < 0x80) ∧ ∃ s : Str, m.2 = .str s ∧ s.all isScalar = true

theorem textMember_readable {members : List (Str × Value)} (h : ∀ m ∈ members, TextMember m) :
    Readable 1 (.dict members) ∧ paired (.dict members) = .dict members := by
  refine ⟨.dict ?_ ?_, congrArg Value.dict ?_⟩
  · intro m hm c hc
    exact Nat.lt_trans ((h m hm).1 c hc) (by decide)
  · intro m hm
    obtain ⟨-, s, hs, hscalar⟩ := h m hm
    rw [hs]
    exact readable_scalar hscalar 0
  · induction members with
    | nil => rfl
    | cons m members ih =>
      rw [List.forall_mem_cons] at h
      obtain ⟨⟨hname, s, hs, hscalar⟩, hrest⟩ := h
      obtain ⟨k, v⟩ := m
      have hk : pairUp k = k := by
        refine pairUp_of_not_high fun c hc => eq_false_of_ne_true ?_
        have hascii := hname c hc
        rw [isHigh_iff]
        omega
      obtain rfl : v = .str s := hs
      rw [pairedMembers, paired_scalar hscalar, hk, ih hrest]

theorem marshalRoute_text (route : Route) :
    ∃ members, marshalRoute route = .dict members ∧ ∀ m ∈ members, TextMember m := by
  refine ⟨_, rfl, ?_⟩
  have hscalar := route.scalar
  simp only [List.all_append, Bool.and_eq_true] at hscalar
  obtain ⟨⟨⟨⟨⟨hpath, hprovider⟩, hupstream⟩, hwindow⟩, hsecret⟩, hwebhook⟩ := hscalar
  have member : ∀ (name : String) (s : Str), (∀ c ∈ lit name, c < 0x80) → s.all isScalar = true →
      TextMember (lit name, .str s) := fun name s hname hs => ⟨hname, s, rfl, hs⟩
  rw [List.forall_mem_append]
  refine ⟨?_, ?_⟩
  · simp only [List.forall_mem_cons]
    exact ⟨member _ _ (by decide) hpath, member _ _ (by decide) hprovider,
      member _ _ (by decide) hupstream, member _ _ (by decide) hwindow,
      member _ _ (by decide) hsecret, nofun⟩
  · split
    · rw [List.forall_mem_singleton]
      exact member _ _ (by decide) hwebhook
    · exact nofun

theorem marshalDocument_readable (config : Config) :
    Readable 3 (marshalDocument config) ∧
      paired (marshalDocument config) = marshalDocument config := by
  have hroutes : ∀ v ∈ config.routes.map marshalRoute, Readable 1 v ∧ paired v = v := by
    intro v hv
    obtain ⟨route, -, rfl⟩ := List.mem_map.mp hv
    obtain ⟨members, hmembers, htext⟩ := marshalRoute_text route
    rw [hmembers]
    exact textMember_readable htext
  have hitems : ∀ items : List Value, (∀ v ∈ items, Readable 1 v ∧ paired v = v) →
      pairedItems items = items := by
    intro items h
    induction items with
    | nil => rfl
    | cons v items ih =>
      rw [List.forall_mem_cons] at h
      rw [pairedItems, h.1.2, ih h.2]
  have hascii : ∀ c ∈ lit "routes", c < 0x110000 := by decide
  refine ⟨.dict ?_ ?_, ?_⟩
  · rw [List.forall_mem_singleton]
    exact hascii
  · rw [List.forall_mem_singleton]
    exact .list fun v hv => (hroutes v hv).1
  · have hname : pairUp (lit "routes") = lit "routes" := pairUp_of_not_high (by decide)
    unfold marshalDocument
    rw [paired, pairedMembers, pairedMembers, hname, paired, hitems _ hroutes]

theorem loadsText_marshal (py : json.Interpreter) (hdepth : 3 ≤ py.depth) (config : Config) :
    json.loadsText py (marshal (dumps py.floats (.indented 2)) config) =
      .ok (marshalDocument config) := by
  obtain ⟨hreadable, hpaired⟩ := marshalDocument_readable config
  have hload := @json.loadsText_dumps py (.indented 2) 3 _ (lit "\n") hreadable hdepth (by decide)
  rwa [hpaired] at hload

end File

/-! ## Another Console -/

section Seeded
variable {t : Tables} {endpoints : List Endpoint}

/-- A row's path comes no later than another's. -/
def PathLe (a b : Endpoint) : Prop := a.path ≤ b.path

instance : DecidableRel PathLe := fun a b => inferInstanceAs (Decidable (a.path ≤ b.path))

instance : Std.Total PathLe := ⟨fun a b => le_total a.path b.path⟩

instance : IsTrans Endpoint PathLe := ⟨fun _ _ _ => le_trans⟩

theorem listActive_sorted (t : Tables) : (listActiveEndpoints t).Pairwise PathLe :=
  List.pairwise_insertionSort PathLe _

theorem listActive_distinct (h : Exportable t) :
    (listActiveEndpoints t).Pairwise fun e e' => e.path ≠ e'.path := by
  have hrows : (t.endpoints.rows.map Prod.snd).Pairwise fun e e' => e.path ≠ e'.path := by
    rw [List.pairwise_map]
    exact h.distinct
  have hactive := hrows.sublist (List.filter_sublist (p := Endpoint.active))
  exact (List.Perm.pairwise_iff (fun hne => Ne.symm hne)
    (List.perm_insertionSort PathLe _)).mpr hactive

theorem newEndpoints_eq_self (hdistinct : endpoints.Pairwise fun e e' => e.path ≠ e'.path)
    (h : ∀ e ∈ endpoints, hasPath t e.path = false) : newEndpoints t endpoints = endpoints := by
  induction endpoints generalizing t with
  | nil => rfl
  | cons e endpoints ih =>
    rw [List.forall_mem_cons] at h
    rw [List.pairwise_cons] at hdistinct
    rw [newEndpoints_cons t 0, if_neg (by simp [h.1]), ih hdistinct.2]
    intro e' he'
    rw [hasPath_insertAll, h.2 e' he', beq_eq_false_iff_ne.mpr (hdistinct.1 e' he')]
    rfl

/-- A table without rows, seeded with endpoints that are active and in the order of their
    paths, has those for its active endpoints. -/
theorem listActive_seeded {fresh : Tables} (hfresh : fresh.endpoints.rows = []) (now : Datetime)
    (hinsertable : ∀ e ∈ endpoints, Insertable e) (hactive : ∀ e ∈ endpoints, e.active = true)
    (hsorted : endpoints.Pairwise PathLe)
    (hdistinct : endpoints.Pairwise fun e e' => e.path ≠ e'.path) :
    listActiveEndpoints (seedEndpoints now.unixMs endpoints fresh).1 =
      endpoints.map fun e => { e with createdAt := now.unixMs, updatedAt := now.unixMs } := by
  have hnone : ∀ e ∈ endpoints, hasPath fresh e.path = false := by
    intro e _
    rw [hasPath, hfresh]
    rfl
  obtain ⟨added, hrows, hadded⟩ := insertAll_rows now.unixMs fresh.endpoints endpoints
  rw [hfresh, List.nil_append] at hrows
  rw [seedEndpoints_eq now hinsertable, newEndpoints_eq_self hdistinct hnone]
  show (((insertAll now.unixMs fresh.endpoints endpoints).rows.map Prod.snd).filter
    Endpoint.active).insertionSort PathLe = _
  rw [hrows, hadded, List.filter_eq_self.mpr ?_]
  · apply List.Pairwise.insertionSort_eq
    rw [List.pairwise_map]
    exact hsorted
  · intro e he
    obtain ⟨e', he', rfl⟩ := List.mem_map.mp he
    exact hactive e' he'

end Seeded

/-- **Migration.** In every state of every run from an empty table, by requests in any
    interleaving and by files that are seeded: the active endpoints are exported; the Gateway
    loads the file as the same routes in the same order; and a Console without routes that is
    seeded with the file has the same endpoints, in all that the file says, and exports the
    same configuration. -/
theorem migrated (prim : Primitives) (allowSignup : Bool) (py : json.Interpreter)
    (hdepth : 3 ≤ py.depth) {σ : State} (hempty : σ.tables.endpoints.rows = [])
    (changes : List Change) {fresh : Tables} (hfresh : fresh.endpoints.rows = [])
    (now : Datetime) :
    let loads := json.loadsText py
    let endpoints :=
      listActiveEndpoints (changes.foldl (change prim allowSignup loads) σ).tables
    ∃ config, exportConfig endpoints = .ok config ∧
      (config.routes.map toEndpoint).map settings = endpoints.map settings ∧
      loadConfig loads (marshal (dumps py.floats (.indented 2)) config) = .ok config ∧
      let seeded := listActiveEndpoints
        (seedConfig loads fresh (marshal (dumps py.floats (.indented 2)) config) now)
      seeded.map settings = endpoints.map settings ∧ exportConfig seeded = .ok config := by
  intro loads endpoints
  have hexportable : Exportable (changes.foldl (change prim allowSignup loads) σ).tables := by
    refine run_exportable ⟨?_, ?_⟩ changes
    · simp [hempty]
    · simp [hempty]
  have hall : ∀ e ∈ endpoints, Valid e := by
    intro e he
    have he := (List.mem_insertionSort _).mp he
    obtain ⟨r, hr, rfl⟩ := List.mem_map.mp (List.mem_of_mem_filter he)
    exact hexportable.valid r hr
  obtain ⟨config, hexport, hsettings, hfrom⟩ := exportConfig_ok fun e he =>
    (hall e he).imp fun route => And.left
  have hload : loadConfig loads (marshal (dumps py.floats (.indented 2)) config) = .ok config :=
    loadConfig_marshal (loadsText_marshal py hdepth config)
  have hvalid : ∀ route ∈ config.routes, gwconfig.validate route = .ok () := by
    intro route hroute
    obtain ⟨e, he, hfrom⟩ := hfrom route hroute
    obtain ⟨route', hfrom', hvalid⟩ := hall e he
    rwa [Except.ok.inj (hfrom.symm.trans hfrom')]
  have himport := importConfig_eq_ok.mpr ⟨config, hload, hvalid, rfl⟩
  -- the paths of the file are those of the rows, one by one
  have hpaths : (config.routes.map toEndpoint).map Endpoint.path = endpoints.map Endpoint.path := by
    have hpath : ∀ es : List Endpoint, (es.map settings).map (fun s => s.head?.getD []) =
        es.map Endpoint.path := by
      intro es
      rw [List.map_map]
      rfl
    rw [← hpath, ← hpath, hsettings]
  have hsorted : (config.routes.map toEndpoint).Pairwise PathLe := by
    have hrows : (endpoints.map Endpoint.path).Pairwise (· ≤ ·) := by
      rw [List.pairwise_map]
      exact listActive_sorted _
    rw [← hpaths, List.pairwise_map] at hrows
    exact hrows
  have hdistinct : (config.routes.map toEndpoint).Pairwise fun e e' => e.path ≠ e'.path := by
    have hrows : (endpoints.map Endpoint.path).Pairwise (· ≠ ·) := by
      rw [List.pairwise_map]
      exact listActive_distinct hexportable
    rw [← hpaths, List.pairwise_map] at hrows
    exact hrows
  have hactive : ∀ e ∈ config.routes.map toEndpoint, e.active = true := by
    intro e he
    obtain ⟨route, -, rfl⟩ := List.mem_map.mp he
    rfl
  refine ⟨config, hexport, hsettings, hload, ?_⟩
  have hseeded := listActive_seeded hfresh now (insertable_of_import himport) hactive hsorted
    hdistinct
  simp only [seedConfig, himport, hseeded]
  refine ⟨?_, ?_⟩
  · rw [← hsettings, List.map_map]
    rfl
  · rw [List.map_map]
    have hroutes : ∀ routes : List Route, (routes.map ((fun e : Endpoint =>
        { e with createdAt := now.unixMs, updatedAt := now.unixMs }) ∘ toEndpoint)).mapM
          fromEndpoint = .ok routes := by
      intro routes
      induction routes with
      | nil => rfl
      | cons route routes ih =>
        have hroute : fromEndpoint { toEndpoint route with
            createdAt := now.unixMs, updatedAt := now.unixMs } = .ok route := dif_pos route.scalar
        rw [List.map_cons, List.mapM_cons, ih]
        show (do let r ← fromEndpoint { toEndpoint route with
            createdAt := now.unixMs, updatedAt := now.unixMs }
                 let rs ← Except.ok routes
                 pure (r :: rs)) = _
        rw [hroute]
        rfl
    unfold exportConfig
    rw [hroutes]
    rfl

/-- A file of one Stripe route. -/
def stripeFile : Str :=
  lit "\x7b\"routes\": [\x7b\"path\": \"/stripe\", \"provider\": \"stripe\", " ++
  lit "\"upstream\": \"http://up\", \"secret_env\": \"S\"\x7d]\x7d"

/-- It is seeded, exported, and seeded elsewhere. -/
theorem migrated_stripe :
    ∃ config, exportConfig (listActiveEndpoints ([Change.seed stripeFile .epoch].foldl
        (change .plain false (json.loadsText .plain)) { tables := {} }).tables) = .ok config ∧
      config.routes.map Route.path = [lit "/stripe"] ∧
      exportConfig (listActiveEndpoints (seedConfig (json.loadsText .plain) {}
        (marshal (dumps json.Interpreter.plain.floats (.indented 2)) config) .epoch)) =
          .ok config := by
  obtain ⟨config, hexport, -, -, -, hagain⟩ := migrated .plain false .plain (by decide)
    (show ({ tables := {} } : State).tables.endpoints.rows = [] from rfl)
    [.seed stripeFile .epoch] (show ({} : Tables).endpoints.rows = [] from rfl) .epoch
  have hpaths : ((exportConfig (listActiveEndpoints ([Change.seed stripeFile .epoch].foldl
      (change .plain false (json.loadsText .plain)) { tables := {} }).tables)).map
        fun config => config.routes.map Route.path).toOption = some [lit "/stripe"] := by
    decide +kernel
  rw [hexport] at hpaths
  exact ⟨config, hexport, Option.some.inj hpaths, hagain⟩

end console
end HookGuard
