import HookGuard.Gateway.Verifier
import HookGuard.Lib.Value

/- The Gateway's routing table (`hookguard_gateway/config.py`): the models a decoded JSON
   document is validated by.

   Of the library's validation error, the first complaint is kept. A field is a text of
   Unicode scalars, one that is missing has its default, and a key that is no field is
   refused. -/
namespace HookGuard
open Py

namespace config

/-- `Config`. -/
structure Config where
  routes : List Route := []

def invalidModel (s : String) : Exc := .valueError (msg s)

/-- The fields of `Route`. -/
def ROUTE_FIELDS : List Str :=
  [lit "path", lit "provider", lit "upstream", lit "replay_window", lit "secret_env",
   lit "webhook_id"]

/-- A field of type `str`. -/
def stringField (data : List (Str × Value)) (name : String) (default : Option Str) :
    Except Exc Str :=
  match dictItem data (lit name), default with
  | none, none => .error (invalidModel "Field required")
  | none, some s => .ok s
  | some (.str s), _ => .ok s
  | some _, _ => .error (invalidModel "Input should be a valid string")

/-- `Route.model_validate`. -/
def validateRoute : Value → Except Exc Route
  | .dict data => do
    let path ← stringField data "path" none
    let provider ← stringField data "provider" none
    let upstream ← stringField data "upstream" none
    let replayWindow ← stringField data "replay_window" (some [])
    let secretEnv ← stringField data "secret_env" (some [])
    let webhookId ← stringField data "webhook_id" (some [])
    if h : (path ++ provider ++ upstream ++ replayWindow ++ secretEnv ++ webhookId).all
        isScalar = true then
      if data.all fun item => ROUTE_FIELDS.contains item.1 then
        .ok ⟨path, provider, upstream, replayWindow, secretEnv, webhookId, h⟩
      else .error (invalidModel "Extra inputs are not permitted")
    else .error (invalidModel "Input should be a valid string")
  | _ => .error (invalidModel "Input should be a valid dictionary or instance of Route")

/-- The field `routes`. -/
def validateRoutes : Option Value → Except Exc (List Route)
  | none => .ok []
  | some (.list items) => items.mapM validateRoute
  | some _ => .error (invalidModel "Input should be a valid list")

/-- `Config.model_validate`. -/
def modelValidate : Value → Except Exc Config
  | .dict data =>
    match validateRoutes (dictItem data (lit "routes")) with
    | .error e => .error e
    | .ok routes =>
      if data.all fun item => item.1 = lit "routes" then .ok ⟨routes⟩
      else .error (invalidModel "Extra inputs are not permitted")
  | _ => .error (invalidModel "Input should be a valid dictionary or instance of Config")

/-- `load_config`, of the text of the file. -/
def loadConfig (loads : Str → Except Exc Value) (raw : Str) : Except Exc Config :=
  match loads raw with
  | .error e => .error e
  | .ok data => modelValidate data

end config
end HookGuard
