import HookGuard.Core.Exceptions

/- Requests and answers, as far as the two services read them: header values arrive
   as Latin-1 text under names in lower case. -/
namespace HookGuard
open Py

/-- A request's headers, as received: names in lower case, octets for both. -/
abbrev Headers := List (Bytes × Bytes)

/-- `headers.get(key)`: the first of that name, decoded as Latin-1. -/
def Headers.get (headers : Headers) (key : Str) : Option Str :=
  (headers.find? (fun h => decodeLatin1 h.1 == lower key)).map (fun h => decodeLatin1 h.2)

theorem Headers.get_isLatin1 {headers : Headers} {key value : Str}
    (h : headers.get key = some value) : IsLatin1 value := by
  obtain ⟨e, -, rfl⟩ := Option.map_eq_some_iff.mp h
  exact decodeLatin1_isLatin1 e.2

theorem Headers.getD_isLatin1 {headers : Headers} {key : Str} :
    IsLatin1 ((headers.get key).getD []) := by
  cases h : headers.get key with
  | none => nofun
  | some value => exact Headers.get_isLatin1 h

/-- An HTTP answer, as far as it is read. -/
structure Response where
  statusCode : Nat
  content : Bytes
  mediaType : Option Str := none
  deriving DecidableEq

def plainText (statusCode : Nat) (content : String) : Response :=
  ⟨statusCode, bytesLit content, some (lit "text/plain")⟩

end HookGuard
