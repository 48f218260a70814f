import HookGuard.Console.Requests
import HookGuard.Gateway.Registry

/- The routes pages of the Console (`hookguard_console/gwconfig.py`, `routes/endpoints.py`):
   a submitted form is checked by the rules of the Gateway's factories before the database
   sees it, and what the database then refuses is answered with a message too. -/
namespace HookGuard
open Py store auth

namespace gwconfig

/-- `from_endpoint`; the error is the validation error of the Gateway's model. -/
def fromEndpoint (e : Endpoint) : Except Exc Route :=
  if h : (e.path ++ e.provider ++ e.upstreamUrl ++ e.replayWindow ++ e.secretEnv ++
      e.webhookId).all isScalar = true then
    .ok ⟨e.path, e.provider, e.upstreamUrl, e.replayWindow, e.secretEnv, e.webhookId, h⟩
  else .error (.valueError (msg "Input should be a valid string"))

/-- `_SECRET_ENV_PROVIDERS`. -/
def SECRET_ENV_PROVIDERS : List Str := [lit "stripe", lit "github", lit "shopify"]

/-- `known_providers`. -/
def knownProviders : List Str := (@REGISTRY Unit).map Prod.fst

def invalid (m : Msg) : Except Exc Unit := .error (.configValidationError m)

/-- The rules of the route's provider. -/
def validateProvider (route : Route) : Except Exc Unit :=
  if route.provider = lit "paypal" then
    if route.webhookId = [] then invalid (msg "paypal requires webhook_id")
    else if route.secretEnv ≠ [] then invalid (msg "paypal must not set secret_env")
    else .ok ()
  else if SECRET_ENV_PROVIDERS.contains route.provider then
    if route.secretEnv = [] then
      invalid [.text route.provider, .text (lit " requires secret_env")]
    else if route.webhookId ≠ [] then
      invalid [.text route.provider, .text (lit " must not set webhook_id")]
    else if route.provider = lit "stripe" ∧ route.replayWindow ≠ [] then
      match goduration.parseGoDuration route.replayWindow with
      | .ok _ => .ok ()
      | .error (.goDurationError m) => invalid (.text (lit "replay_window: ") :: m)
      | .error e => .error e
    else .ok ()
  else invalid [.text (lit "unknown provider "), .repr route.provider]

/-- `validate`. -/
def validate (route : Route) : Except Exc Unit :=
  if route.path = [] then invalid (msg "path is required")
  else if route.upstream = [] then invalid (msg "upstream is required")
  else
    match validateProvider route with
    | .error e => .error e
    | .ok () =>
      if knownProviders.contains route.provider then .ok ()
      else invalid [.text (lit "provider "), .repr route.provider, .text (lit " is not registered")]

end gwconfig

namespace console

/-- `_form_endpoint`. -/
def formEndpoint (form : Form) : Endpoint where
  path := strip (form.get (lit "path") [])
  provider := strip (form.get (lit "provider") [])
  upstreamUrl := strip (form.get (lit "upstream_url") [])
  replayWindow := strip (form.get (lit "replay_window") [])
  secretEnv := strip (form.get (lit "secret_env") [])
  webhookId := strip (form.get (lit "webhook_id") [])
  active := true
  createdAt := 0
  updatedAt := 0

/-- The message for a route that the Gateway could not build. -/
def validationMessage (prim : Primitives) (m : Msg) : Msg :=
  let message := m.render prim.printable
  if contains message (lit "requires secret_env") then
    msg "This provider requires the name of a secret environment variable."
  else if contains message (lit "requires webhook_id") then msg "PayPal requires a webhook ID."
  else if contains message (lit "replay_window") then
    msg "Replay window must be a Go duration like \"5m\" (or left blank)."
  else if contains message (lit "unknown provider") then msg "Unknown provider."
  else m

/-- `_validate`: the message for a route that is not usable. -/
def validateEndpoint (prim : Primitives) (e : Endpoint) : Except Exc (Option Msg) :=
  if e.path = [] then .ok (some (msg "Path is required."))
  else if startsWith e.path (lit "/") = false then .ok (some (msg "Path must start with /."))
  else if e.upstreamUrl = [] then .ok (some (msg "Upstream URL is required."))
  else
    match gwconfig.fromEndpoint e with
    | .error x => .error x
    | .ok route =>
      match gwconfig.validate route with
      | .ok () => .ok none
      | .error (.configValidationError m) => .ok (some (validationMessage prim m))
      | .error x => .error x

/-- `_db_error_message`. -/
def dbErrorMessage (prim : Primitives) (m : Msg) : Msg :=
  let text := prim.lower (m.render prim.printable)
  if contains text (lit "unique") && contains text (lit "path") then
    msg "A route with that path already exists."
  else if contains text (lit "check") then
    msg "That combination of provider and fields is not allowed."
  else msg "Could not save the route."

/-- `_render_form` with an error. -/
def formError (m : Msg) : Answer := .page "endpoint_form.html" 400 [("form_error", m)]

/-- `except sqlite3.Error`. -/
def caughtSaving (prim : Primitives) (why : Refusal) : Option Answer :=
  match why.exc with
  | .sqliteError m => some (formError (dbErrorMessage prim m))
  | _ => none

def notFound : Answer := .page "404.html" 404 []

def toEndpoints : Answer := .redirect (lit "/dashboard/endpoints") .keep

section Handlers
variable (prim : Primitives) (t : Tables) (request : Request) (snapshot : Option Snapshot)
  (form : Form) (input : Input)

/-- `handle_endpoint_create`, after the form. -/
def handleEndpointCreate : Plan :=
  requireCsrf request snapshot form fun _ =>
    match validateEndpoint prim (formEndpoint form) with
    | .error e => .raise e
    | .ok (some m) => .stop (formError m)
    | .ok none =>
      { statements := [.createEndpoint { formEndpoint form with
          createdAt := input.created.unixMs, updatedAt := input.created.unixMs }]
        answer := .ok toEndpoints
        caught := caughtSaving prim }

/-- `handle_endpoint_update`, after the form. -/
def handleEndpointUpdate (endpointId : Nat) : Plan :=
  requireCsrf request snapshot form fun _ =>
    Plan.lookUp (.int endpointId)
      (match t.endpoints.get endpointId with
      | none => .stop notFound
      | some existing =>
        match validateEndpoint prim (formEndpoint form) with
        | .error e => .raise e
        | .ok (some m) => .stop (formError m)
        | .ok none =>
          { statements := [.updateEndpoint endpointId { formEndpoint form with
              createdAt := existing.createdAt, active := existing.active
              updatedAt := input.created.unixMs }]
            answer := .ok toEndpoints
            caught := caughtSaving prim })

/-- `handle_endpoint_delete`, after the form, which is read of a POST only. -/
def handleEndpointDelete (endpointId : Nat) (post : Bool) : Plan :=
  requireCsrf request snapshot (if post then form else []) fun _ =>
    { statements := [.deleteEndpoint endpointId], answer := .ok toEndpoints }

/-- `handle_endpoint_toggle_active`, after the form. -/
def handleEndpointToggleActive (endpointId : Nat) : Plan :=
  requireCsrf request snapshot form fun _ =>
    Plan.lookUp (.int endpointId)
      (match t.endpoints.get endpointId with
      | none => .stop notFound
      | some endpoint =>
        { statements :=
            [.setEndpointActive endpointId (!endpoint.active) input.created.unixMs]
          answer := .ok toEndpoints })

end Handlers

end console
end HookGuard
