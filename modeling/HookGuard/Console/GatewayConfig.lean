import HookGuard.Console.Endpoints
import HookGuard.Gateway.Config

/- Endpoints as the Gateway's config.json, and back (`hookguard_console/gwconfig.py`).

   What `marshal` writes, the Gateway's models read as the routes it was written from
   (`modelValidate_marshal`), and rows and routes differ in what is not written only. So the
   export of valid rows is imported as those rows, and what is imported is exported as what
   the Gateway reads in the original text (`config_round_trip`). -/
namespace HookGuard
open Py store config

namespace gwconfig

/-- `to_endpoint`. -/
def toEndpoint (route : Route) : Endpoint where
  path := route.path
  provider := route.provider
  upstreamUrl := route.upstream
  replayWindow := route.replayWindow
  secretEnv := route.secretEnv
  webhookId := route.webhookId
  active := true
  createdAt := 0
  updatedAt := 0

/-- `export`. -/
def exportConfig (endpoints : List Endpoint) : Except Exc Config :=
  (endpoints.mapM fromEndpoint).map Config.mk

/-- One route of the document; the webhook id is left out where it is empty. -/
def marshalRoute (route : Route) : Value :=
  .dict ([(lit "path", .str route.path), (lit "provider", .str route.provider),
    (lit "upstream", .str route.upstream), (lit "replay_window", .str route.replayWindow),
    (lit "secret_env", .str route.secretEnv)] ++
    if route.webhookId ≠ [] then [(lit "webhook_id", .str route.webhookId)] else [])

def marshalDocument (config : Config) : Value :=
  .dict [(lit "routes", .list (config.routes.map marshalRoute))]

/-- `marshal`; `dumps` is `json.dumps` with an indent of two. -/
def marshal (dumps : Value → Str) (config : Config) : Str :=
  dumps (marshalDocument config) ++ lit "\n"

/-- The routes of a document in turn, each valid. -/
def importRoutes : Nat → List Route → Except Exc (List Endpoint)
  | _, [] => .ok []
  | i, route :: routes =>
    match validate route with
    | .error (.configValidationError m) =>
      .error (.configValidationError
        (.text (lit "route " ++ intStr i ++ lit " (" ++ route.path ++ lit "): ") :: m))
    | .error e => .error e
    | .ok () => (importRoutes (i + 1) routes).map (toEndpoint route :: ·)

/-- `import_config`. -/
def importConfig (loads : Str → Except Exc Value) (data : Str) : Except Exc (List Endpoint) :=
  match loadConfig loads data with
  | .error e =>
    if e.isValueError then
      .error (.configValidationError (.text (lit "parse config: ") :: e.text))
    else .error e
  | .ok config => importRoutes 0 config.routes

/-! ## Rows and routes -/

section Rows
variable {endpoints : List Endpoint} {e : Endpoint} {route : Route}

/-- What the document says of a row. -/
def settings (e : Endpoint) : List Str :=
  [e.path, e.provider, e.upstreamUrl, e.replayWindow, e.secretEnv, e.webhookId]

theorem fromEndpoint_toEndpoint (route : Route) : fromEndpoint (toEndpoint route) = .ok route :=
  dif_pos route.scalar

theorem settings_of_fromEndpoint (h : fromEndpoint e = .ok route) :
    settings (toEndpoint route) = settings e ∧ route.path = e.path := by
  unfold fromEndpoint at h
  split at h
  · rw [← Except.ok.inj h]
    exact ⟨rfl, rfl⟩
  · cases h

theorem exportConfig_toEndpoint (routes : List Route) :
    exportConfig (routes.map toEndpoint) = .ok ⟨routes⟩ := by
  have hroutes : (routes.map toEndpoint).mapM fromEndpoint = .ok routes := by
    induction routes with
    | nil => rfl
    | cons route routes ih =>
      rw [List.map_cons, List.mapM_cons, fromEndpoint_toEndpoint, ih]
      rfl
  unfold exportConfig
  rw [hroutes]
  rfl

theorem exportConfig_ok (h : ∀ e ∈ endpoints, ∃ route, fromEndpoint e = .ok route) :
    ∃ config, exportConfig endpoints = .ok config ∧
      (config.routes.map toEndpoint).map settings = endpoints.map settings ∧
      ∀ route ∈ config.routes, ∃ e ∈ endpoints, fromEndpoint e = .ok route := by
  have hroutes : ∃ routes, endpoints.mapM fromEndpoint = .ok routes ∧
      (routes.map toEndpoint).map settings = endpoints.map settings ∧
      ∀ route ∈ routes, ∃ e ∈ endpoints, fromEndpoint e = .ok route := by
    induction endpoints with
    | nil => exact ⟨[], rfl, rfl, nofun⟩
    | cons e endpoints ih =>
      rw [List.forall_mem_cons] at h
      obtain ⟨route, hroute⟩ := h.1
      obtain ⟨routes, hmap, hsettings, hfrom⟩ := ih h.2
      refine ⟨route :: routes, ?_, ?_, ?_⟩
      · rw [List.mapM_cons, hroute, hmap]
        rfl
      · rw [List.map_cons, List.map_cons, List.map_cons, hsettings,
          (settings_of_fromEndpoint hroute).1]
      · rw [List.forall_mem_cons]
        refine ⟨⟨e, List.mem_cons_self, hroute⟩, ?_⟩
        intro route' hroute'
        obtain ⟨e', he', hfrom'⟩ := hfrom route' hroute'
        exact ⟨e', List.mem_cons_of_mem e he', hfrom'⟩
  obtain ⟨routes, hmap, hrest⟩ := hroutes
  refine ⟨⟨routes⟩, ?_, hrest⟩
  unfold exportConfig
  rw [hmap]
  rfl

end Rows

/-! ## The document -/

theorem validateRoute_marshal (route : Route) : validateRoute (marshalRoute route) = .ok route := by
  obtain ⟨path, provider, upstream, replayWindow, secretEnv, webhookId, scalar⟩ := route
  unfold marshalRoute
  by_cases hwebhook : webhookId = []
  · subst hwebhook
    show (if h : _ then _ else _ : Except Exc Route) = _
    rw [dif_pos scalar]
    rfl
  · simp only [ne_eq, hwebhook, not_false_eq_true, if_true]
    show (if h : _ then _ else _ : Except Exc Route) = _
    rw [dif_pos scalar]
    rfl

/-- What is written is read as the routes it was written from. -/
theorem modelValidate_marshal (config : Config) :
    modelValidate (marshalDocument config) = .ok config := by
  have hroutes : (config.routes.map marshalRoute).mapM validateRoute = .ok config.routes := by
    induction config.routes with
    | nil => rfl
    | cons route routes ih =>
      rw [List.map_cons, List.mapM_cons, validateRoute_marshal, ih]
      rfl
  have hitem : dictItem [(lit "routes", .list (config.routes.map marshalRoute))] (lit "routes") =
      some (.list (config.routes.map marshalRoute)) := rfl
  unfold marshalDocument modelValidate
  simp only [hitem, validateRoutes, hroutes]
  rfl

theorem loadConfig_marshal {loads : Str → Except Exc Value} {dumps : Value → Str}
    {config : Config} (h : loads (marshal dumps config) = .ok (marshalDocument config)) :
    loadConfig loads (marshal dumps config) = .ok config := by
  unfold loadConfig
  rw [h]
  exact modelValidate_marshal config

/-! ## The import -/

theorem importRoutes_eq_ok {i : Nat} {routes : List Route} {endpoints : List Endpoint} :
    importRoutes i routes = .ok endpoints ↔
      (∀ route ∈ routes, validate route = .ok ()) ∧ endpoints = routes.map toEndpoint := by
  induction routes generalizing i endpoints with
  | nil => simp [importRoutes, eq_comm]
  | cons route routes ih =>
    unfold importRoutes
    rw [List.forall_mem_cons]
    cases hvalid : validate route with
    | error e =>
      simp only [reduceCtorEq, false_and, iff_false]
      cases e <;> exact nofun
    | ok u =>
      simp only [true_and, List.map_cons]
      cases hrest : importRoutes (i + 1) routes with
      | error e =>
        have hnot : ¬ ∀ route ∈ routes, validate route = .ok () := fun h =>
          absurd (hrest.symm.trans (ih.mpr ⟨h, rfl⟩)) nofun
        simp [Except.map, hnot]
      | ok rest =>
        obtain ⟨hall, rfl⟩ := ih.mp hrest
        simp only [Except.map, Except.ok.injEq, eq_comm (b := endpoints), and_iff_right hall]

/-- A text is imported where the Gateway loads it and every route of it is valid. -/
theorem importConfig_eq_ok {loads : Str → Except Exc Value} {data : Str}
    {endpoints : List Endpoint} :
    importConfig loads data = .ok endpoints ↔ ∃ config, loadConfig loads data = .ok config ∧
      (∀ route ∈ config.routes, validate route = .ok ()) ∧
      endpoints = config.routes.map toEndpoint := by
  unfold importConfig
  cases loadConfig loads data with
  | error e =>
    simp only [reduceCtorEq, false_and, exists_false, iff_false]
    split <;> exact nofun
  | ok config =>
    simp only [Except.ok.injEq, exists_eq_left']
    exact importRoutes_eq_ok

/-- Where the document is loaded as it was dumped: the export of rows that are valid is
    imported as those rows, in their order, in all that the document says; and for a text
    that is imported, the export of its rows is loaded as the routes of the text. -/
theorem config_round_trip (loads : Str → Except Exc Value) (dumps : Value → Str) :
    (∀ endpoints : List Endpoint,
      (∀ e ∈ endpoints, ∃ route, fromEndpoint e = .ok route ∧ validate route = .ok ()) →
      ∃ config, exportConfig endpoints = .ok config ∧
        (loads (marshal dumps config) = .ok (marshalDocument config) →
          ∃ imported, importConfig loads (marshal dumps config) = .ok imported ∧
            imported.map settings = endpoints.map settings)) ∧
    ∀ text endpoints, importConfig loads text = .ok endpoints →
      ∃ original config, loadConfig loads text = .ok original ∧
        exportConfig endpoints = .ok config ∧
        (loads (marshal dumps config) = .ok (marshalDocument config) →
          ∃ again, loadConfig loads (marshal dumps config) = .ok again ∧
            again.routes = original.routes) := by
  refine ⟨?_, ?_⟩
  · intro endpoints hvalid
    obtain ⟨config, hexport, hsettings, hfrom⟩ := exportConfig_ok fun e he =>
      (hvalid e he).imp fun route => And.left
    refine ⟨config, hexport, ?_⟩
    intro hjson
    refine ⟨_, importConfig_eq_ok.mpr ⟨config, loadConfig_marshal hjson, ?_, rfl⟩, hsettings⟩
    intro route hroute
    obtain ⟨e, he, hfrom⟩ := hfrom route hroute
    obtain ⟨route', hfrom', hvalid⟩ := hvalid e he
    rwa [Except.ok.inj (hfrom.symm.trans hfrom')]
  · intro text endpoints himport
    obtain ⟨original, hload, -, rfl⟩ := importConfig_eq_ok.mp himport
    exact ⟨original, original, hload, exportConfig_toEndpoint original.routes,
      fun hjson => ⟨original, loadConfig_marshal hjson, rfl⟩⟩

/-! ## One route -/

/-- A route of PayPal's, as a row and as a text. -/
def paypalEndpoint : Endpoint where
  path := lit "/paypal"
  provider := lit "paypal"
  upstreamUrl := lit "http://up"
  replayWindow := []
  secretEnv := []
  webhookId := lit "w"
  active := true
  createdAt := 1
  updatedAt := 2

def paypalText : Str :=
  lit "\x7b\n  \"routes\": [\n    \x7b\n      \"path\": \"/paypal\",\n" ++
  lit "      \"provider\": \"paypal\",\n      \"upstream\": \"http://up\",\n" ++
  lit "      \"replay_window\": \"\",\n      \"secret_env\": \"\",\n" ++
  lit "      \"webhook_id\": \"w\"\n    \x7d\n  ]\n\x7d"

def paypalRoute : Route :=
  ⟨lit "/paypal", lit "paypal", lit "http://up", [], [], lit "w", by decide⟩

theorem config_round_trip_paypal :
    ∃ imported, importConfig (fun _ => .ok (marshalDocument ⟨[paypalRoute]⟩))
        (marshal (fun _ => paypalText) ⟨[paypalRoute]⟩) = .ok imported ∧
      imported.map settings = [paypalEndpoint].map settings := by
  have hvalid : ∀ e ∈ [paypalEndpoint], ∃ route, fromEndpoint e = .ok route ∧
      validate route = .ok () := by
    rw [List.forall_mem_singleton]
    exact ⟨paypalRoute, rfl, by decide +kernel⟩
  obtain ⟨config, hexport, himport⟩ := (config_round_trip
    (fun _ => .ok (marshalDocument ⟨[paypalRoute]⟩)) (fun _ => paypalText)).1 _ hvalid
  have hconfig : exportConfig [paypalEndpoint] = .ok ⟨[paypalRoute]⟩ := rfl
  obtain rfl := Except.ok.inj (hexport.symm.trans hconfig)
  exact himport rfl

end gwconfig
end HookGuard
