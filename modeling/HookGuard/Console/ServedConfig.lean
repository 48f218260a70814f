import HookGuard.Console.Configuring
import HookGuard.Console.GatewayConfig
import HookGuard.Console.Interleaving

/- What the Gateway makes of the Console's export (`gwconfig.py`, `__main__._seed_config`,
   `build_app` of `hookguard_gateway/app.py`).

   Rows enter the table of endpoints by the form and by the import of a file. Both check a
   route by `gwconfig.validate`, so that the Gateway loads what is exported and builds its
   verifiers. That a path begins with a slash is checked by the form alone: a file may
   bring in a route that no request can match (`seeded_unrooted`), and without such a file
   every route that is exported can be served (`export_served`). -/
namespace HookGuard
open Py store auth config gwconfig

namespace console

/-! ## The table and its doors -/

/-- `list_active_endpoints`. -/
def listActiveEndpoints (t : Tables) : List Endpoint :=
  ((t.endpoints.rows.map Prod.snd).filter Endpoint.active).insertionSort
    fun a b => a.path ≤ b.path

/-- The loop of `_seed_config`: a path that is there is skipped, and a row that is refused
    ends it, with the refusal. -/
def seedEndpoints (nowMs : Int) : List Endpoint → Tables → Tables × Option Refusal
  | [], t => (t, none)
  | e :: endpoints, t =>
    if (t.endpoints.find fun e' => e'.path == e.path).isSome then
      seedEndpoints nowMs endpoints t
    else
      let r := execute [.createEndpoint { e with createdAt := nowMs, updatedAt := nowMs }] t
      match r.refused with
      | some why => (r.tables, some why)
      | none => seedEndpoints nowMs endpoints r.tables

/-- `_seed_config`, of the text of the file. -/
def seedConfig (loads : Str → Except Exc Value) (t : Tables) (text : Str) (now : Datetime) :
    Tables :=
  match importConfig loads text with
  | .error _ => t
  | .ok endpoints => (seedEndpoints now.unixMs endpoints t).1

/-- A step of the Console's requests, or the operator seeds a file. -/
inductive Change where
  | request (a : Action)
  | seed (text : Str) (now : Datetime)

section System
variable (prim : Primitives) (allowSignup : Bool) (loads : Str → Except Exc Value)

def change (σ : State) : Change → State
  | .request a => step prim allowSignup σ a
  | .seed text now => { σ with tables := seedConfig loads σ.tables text now }

/-- A file that is imported has its paths begin with a slash. -/
def RootedSeed : Change → Prop
  | .request _ => True
  | .seed text _ => ∀ endpoints, importConfig loads text = .ok endpoints →
      ∀ e ∈ endpoints, startsWith e.path (lit "/") = true

end System

/-! ## What the rows are -/

/-- A row that the Gateway can serve. -/
structure Servable (e : Endpoint) : Prop where
  valid : ∃ route, fromEndpoint e = .ok route ∧ gwconfig.validate route = .ok ()
  rooted : startsWith e.path (lit "/") = true

def AllServable (t : Tables) : Prop := ∀ r ∈ t.endpoints.rows, Servable r.2

section Rows
variable {prim : Primitives} {t : Tables} {e e' : Endpoint} {st : Statement}

theorem Servable.congr (h : Servable e) (hsettings : settings e' = settings e) : Servable e' := by
  obtain ⟨path, provider, upstreamUrl, replayWindow, secretEnv, webhookId, _, _, _⟩ := e
  obtain ⟨path', provider', upstreamUrl', replayWindow', secretEnv', webhookId', _, _, _⟩ := e'
  simp only [settings, List.cons.injEq, and_true] at hsettings
  obtain ⟨rfl, rfl, rfl, rfl, rfl, rfl⟩ := hsettings
  exact ⟨h.valid, h.rooted⟩

/-- What the form lets through can be served. -/
theorem servable_of_form (h : validateEndpoint prim e = .ok none) : Servable e := by
  unfold validateEndpoint at h
  split at h
  · cases h
  · split at h
    · cases h
    · next hrooted =>
      split at h
      · cases h
      · split at h
        · cases h
        · next route hroute =>
          split at h
          · next hvalid => exact ⟨⟨route, hroute, hvalid⟩, eq_true_of_ne_false hrooted⟩
          · cases h
          · cases h

/-- A statement whose rows can be served. -/
def WritesServable : Statement → Prop
  | .createEndpoint e | .updateEndpoint _ e => Servable e
  | _ => True

theorem AllServable.apply (h : AllServable t) (hst : WritesServable st) :
    AllServable (st.apply t) := by
  intro r hr
  cases st with
  | createEndpoint e =>
    rcases List.mem_append.mp hr with hr | hr
    · exact h r hr
    · rw [List.mem_singleton.mp hr]
      exact hst
  | updateEndpoint id e =>
    obtain ⟨old, hold, rfl⟩ := List.mem_map.mp hr
    split
    · exact hst.congr rfl
    · exact h old hold
  | setEndpointActive id active updatedAt =>
    obtain ⟨old, hold, rfl⟩ := List.mem_map.mp hr
    split
    · exact (h old hold).congr rfl
    · exact h old hold
  | deleteEndpoint id => exact h r (List.mem_of_mem_filter hr)
  | _ => exact h r hr

theorem AllServable.execute {sts : List Statement} (h : AllServable t)
    (hsts : ∀ st ∈ sts, WritesServable st) : AllServable (execute sts t).tables :=
  execute_induction (P := AllServable) (fun st hst _ ht _ => ht.apply (hsts st hst)) h

theorem Configured.servable {form : Form} {input : Input} {h : Handler}
    (hst : Configured prim t form input h st) : WritesServable st := by
  cases hst with
  | created valid => exact (servable_of_form valid).congr rfl
  | updated found valid => exact (servable_of_form valid).congr rfl
  | retention days => exact trivial
  | toggled found => exact trivial
  | deleted => exact trivial

theorem writesServable_of_not_configures (h : ¬ Configures st) : WritesServable st := by
  cases st <;> first | exact trivial | exact absurd trivial h

theorem import_valid {loads : Str → Except Exc Value} {text : Str} {endpoints : List Endpoint}
    (h : importConfig loads text = .ok endpoints) :
    ∀ e ∈ endpoints, ∃ route, fromEndpoint e = .ok route ∧ gwconfig.validate route = .ok () := by
  obtain ⟨config, -, hvalid, rfl⟩ := importConfig_eq_ok.mp h
  intro e he
  obtain ⟨route, hroute, rfl⟩ := List.mem_map.mp he
  exact ⟨route, fromEndpoint_toEndpoint route, hvalid route hroute⟩

theorem AllServable.seed {endpoints : List Endpoint} (nowMs : Int)
    (hall : ∀ e ∈ endpoints, Servable e) (h : AllServable t) :
    AllServable (seedEndpoints nowMs endpoints t).1 := by
  induction endpoints generalizing t with
  | nil => exact h
  | cons e endpoints ih =>
    rw [List.forall_mem_cons] at hall
    have hcreated : AllServable (store.execute
        [.createEndpoint { e with createdAt := nowMs, updatedAt := nowMs }] t).tables := by
      apply h.execute
      rw [List.forall_mem_singleton]
      exact hall.1.congr rfl
    unfold seedEndpoints
    split
    · exact ih hall.2 h
    · simp only
      split
      · exact hcreated
      · exact ih hall.2 hcreated

end Rows

section Steps
variable {prim : Primitives} {allowSignup : Bool} {loads : Str → Except Exc Value} {σ : State}

theorem step_servable (h : AllServable σ.tables) (a : Action) :
    AllServable (step prim allowSignup σ a).tables := by
  obtain ⟨sts, htables, hsts⟩ := (step_stepped prim allowSignup σ a).statements
  rw [htables]
  apply h.execute
  intro st hst
  rcases hsts with hserves | ⟨i, form, input, p, -, -, rfl⟩
  · have hserve := hserves st hst
    cases st <;> first | exact trivial | exact hserve.elim
  · by_cases hconfigures : Configures st
    · exact (plan_configured prim σ.tables σ.loginLimiter p form input st hst
        hconfigures).servable
    · exact writesServable_of_not_configures hconfigures

theorem change_servable (h : AllServable σ.tables) {c : Change} (hc : RootedSeed loads c) :
    AllServable (change prim allowSignup loads σ c).tables := by
  cases c with
  | request a => exact step_servable h a
  | seed text now =>
    show AllServable (seedConfig loads σ.tables text now)
    unfold seedConfig
    split
    · exact h
    · next endpoints himport =>
      apply AllServable.seed _ _ h
      intro e he
      exact ⟨import_valid himport e he, hc endpoints himport e he⟩

/-- In every run whose files have their paths begin with a slash, every row can be served. -/
theorem run_servable {changes : List Change} (h : AllServable σ.tables)
    (hrooted : ∀ c ∈ changes, RootedSeed loads c) :
    AllServable (changes.foldl (change prim allowSignup loads) σ).tables := by
  induction changes generalizing σ with
  | nil => exact h
  | cons c changes ih =>
    rw [List.forall_mem_cons] at hrooted
    exact ih (change_servable h hrooted.1) hrooted.2

end Steps

/-! ## What the Gateway makes of it -/

section Gateway
variable {Certificate : Type} {route : Route} {secret : Str}

theorem validateProvider_of_validate (h : gwconfig.validate route = .ok ()) :
    validateProvider route = .ok () := by
  unfold gwconfig.validate at h
  split at h
  · cases h
  · split at h
    · cases h
    · split at h
      · cases h
      · next hprovider => exact hprovider

theorem validateProvider_cases (h : validateProvider route = .ok ()) :
    route.provider = lit "paypal" ∧ route.webhookId ≠ [] ∨
    route.provider ∈ SECRET_ENV_PROVIDERS ∧ (route.provider = lit "stripe" →
      route.replayWindow ≠ [] → ∃ w, goduration.parseGoDuration route.replayWindow = .ok w) := by
  unfold validateProvider at h
  split at h
  · next hpaypal =>
    split at h
    · cases h
    · next hwebhook => exact .inl ⟨hpaypal, hwebhook⟩
  · split at h
    · next hmem =>
      refine .inr ⟨List.contains_iff_mem.mp hmem, ?_⟩
      intro hstripe hwindow
      split at h
      · cases h
      · split at h
        · cases h
        · rw [if_pos ⟨hstripe, hwindow⟩] at h
          cases hparse : goduration.parseGoDuration route.replayWindow with
          | ok w => exact ⟨w, rfl⟩
          | error e =>
            rw [hparse] at h
            cases e <;> cases h
    · cases h

theorem exists_map_ok {α β : Type} (f : α → β) (r : Except Exc α) :
    (∃ b, r.map f = .ok b) ↔ ∃ a, r = .ok a := by
  cases r with
  | error e => simp [Except.map]
  | ok a => simp [Except.map]

theorem encodeSecret_ok_iff (hsecret : secret ≠ []) :
    (∃ b, encodeSecret secret = .ok b) ↔ secret.all isScalar = true := by
  rw [← encodeUtf8_isSome, encodeSecret, if_neg hsecret]
  cases encodeUtf8 secret <;> simp

theorem stripe_build_ok_iff (hsecret : secret ≠ []) (hwindow : route.replayWindow ≠ [] →
      ∃ w, goduration.parseGoDuration route.replayWindow = .ok w) :
    (∃ v, stripe.build route secret = .ok v) ↔ secret.all isScalar = true := by
  have hparsed : ∃ w, (if route.replayWindow ≠ [] then
      goduration.parseGoDuration route.replayWindow else .ok .zero) = .ok w := by
    split
    · next hne => exact hwindow hne
    · exact ⟨_, rfl⟩
  obtain ⟨w, hw⟩ := hparsed
  rw [← encodeUtf8_isSome, stripe.build, if_neg hsecret, hw]
  cases encodeUtf8 secret <;> simp

theorem buildVerifier_eq {provider : Str} (hprovider : route.provider = provider)
    {factory : Route → Str → Except Exc (Verifier Certificate)}
    (hfactory : REGISTRY.lookup provider = some factory) :
    buildVerifier route secret = factory route secret := by
  rw [buildVerifier, hprovider, hfactory]

/-- Of a valid route and a secret, the verifier is built where the secret encodes, or is not
    looked at. -/
theorem buildVerifier_ok_iff (hvalid : gwconfig.validate route = .ok ()) (hsecret : secret ≠ []) :
    (∃ v : Verifier Certificate, buildVerifier route secret = .ok v) ↔
      secret.all isScalar = true ∨ route.provider = lit "paypal" := by
  rcases validateProvider_cases (validateProvider_of_validate hvalid) with
    ⟨hpaypal, hwebhook⟩ | ⟨hmem, hwindow⟩
  · rw [buildVerifier_eq hpaypal rfl, exists_map_ok, paypal.build, if_neg hwebhook]
    exact iff_of_true ⟨_, rfl⟩ (.inr hpaypal)
  · have hnot : route.provider ≠ lit "paypal" := by
      intro hpaypal
      rw [hpaypal] at hmem
      exact absurd hmem (by decide)
    rw [or_iff_left hnot]
    simp only [SECRET_ENV_PROVIDERS, List.mem_cons, List.not_mem_nil, or_false] at hmem
    rcases hmem with hstripe | hgithub | hshopify
    · rw [buildVerifier_eq hstripe rfl, exists_map_ok]
      exact stripe_build_ok_iff hsecret (hwindow hstripe)
    · rw [buildVerifier_eq hgithub rfl, exists_map_ok, github.build, exists_map_ok]
      exact encodeSecret_ok_iff hsecret
    · rw [buildVerifier_eq hshopify rfl, exists_map_ok, shopify.build, exists_map_ok]
      exact encodeSecret_ok_iff hsecret

theorem listActive_servable {t : Tables} (h : AllServable t) :
    ∀ e ∈ listActiveEndpoints t, Servable e := by
  intro e he
  rw [listActiveEndpoints, List.mem_insertionSort] at he
  obtain ⟨r, hr, rfl⟩ := List.mem_map.mp (List.mem_of_mem_filter he)
  exact h r hr

/-- In every state of every run from an empty table, by requests in any interleaving and by
    files whose paths begin with a slash, the active endpoints are exported; the Gateway
    loads the export as the same routes in the same order; and of each of them the path
    begins with a slash, and the verifier is built under a secret that is not empty where
    the secret encodes or is not looked at. -/
theorem export_served (prim : Primitives) (allowSignup : Bool) (loads : Str → Except Exc Value)
    (dumps : Value → Str) {σ : State} (hempty : σ.tables.endpoints.rows = [])
    {changes : List Change} (hrooted : ∀ c ∈ changes, RootedSeed loads c) :
    let endpoints :=
      listActiveEndpoints (changes.foldl (change prim allowSignup loads) σ).tables
    ∃ config, exportConfig endpoints = .ok config ∧
      (config.routes.map toEndpoint).map settings = endpoints.map settings ∧
      (loads (marshal dumps config) = .ok (marshalDocument config) →
        loadConfig loads (marshal dumps config) = .ok config) ∧
      ∀ route ∈ config.routes, startsWith route.path (lit "/") = true ∧
        ∀ secret ≠ [], (∃ v : Verifier Certificate, buildVerifier route secret = .ok v) ↔
          secret.all isScalar = true ∨ route.provider = lit "paypal" := by
  intro endpoints
  have hservable : AllServable σ.tables := by simp [AllServable, hempty]
  have hall : ∀ e ∈ endpoints, Servable e :=
    listActive_servable (run_servable hservable hrooted)
  obtain ⟨config, hexport, hsettings, hfrom⟩ := exportConfig_ok fun e he =>
    (hall e he).valid.imp fun route => And.left
  refine ⟨config, hexport, hsettings, loadConfig_marshal, ?_⟩
  intro route hroute
  obtain ⟨e, he, hfrom⟩ := hfrom route hroute
  obtain ⟨route', hfrom', hvalid⟩ := (hall e he).valid
  obtain rfl := Except.ok.inj (hfrom.symm.trans hfrom')
  refine ⟨?_, fun secret hsecret => buildVerifier_ok_iff hvalid hsecret⟩
  rw [(settings_of_fromEndpoint hfrom).2]
  exact (hall e he).rooted

end Gateway

/-! ## Two files -/

/-- The document of one Stripe route. -/
def stripeDocument (path : String) : Value :=
  .dict [(lit "routes", .list [.dict [(lit "path", .str (lit path)),
    (lit "provider", .str (lit "stripe")), (lit "upstream", .str (lit "http://up")),
    (lit "secret_env", .str (lit "S"))]])]

theorem export_served_stripe :
    ∃ config, exportConfig (listActiveEndpoints
        ([Change.seed [] .epoch].foldl
          (change .plain false fun _ => .ok (stripeDocument "/stripe")) { tables := {} }).tables) =
        .ok config ∧
      ∀ route ∈ config.routes, startsWith route.path (lit "/") = true := by
  have hrooted : ∀ c ∈ [Change.seed [] .epoch],
      RootedSeed (fun _ => .ok (stripeDocument "/stripe")) c := by
    rw [List.forall_mem_singleton]
    intro endpoints himport
    have himported : importConfig (fun _ => .ok (stripeDocument "/stripe")) [] =
        .ok [⟨lit "/stripe", lit "stripe", lit "http://up", [], lit "S", [], true, 0, 0⟩] := rfl
    rw [← Except.ok.inj (himported.symm.trans himport), List.forall_mem_singleton]
    decide
  obtain ⟨config, hexport, -, -, hroutes⟩ := @export_served Unit .plain false
    (fun _ => .ok (stripeDocument "/stripe")) (fun _ => []) { tables := {} } rfl _ hrooted
  exact ⟨config, hexport, fun route hroute => (hroutes route hroute).1⟩

/-- A file whose path has no slash is imported, and exported. -/
theorem seeded_unrooted :
    ((exportConfig (listActiveEndpoints
      ([Change.seed [] .epoch].foldl
        (change .plain false fun _ => .ok (stripeDocument "stripe")) { tables := {} }).tables)).map
      fun config => config.routes.map Route.path).toOption = some [lit "stripe"] ∧
    startsWith (lit "stripe") (lit "/") = false := by
  decide +kernel

end console
end HookGuard
