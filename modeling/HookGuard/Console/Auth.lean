import HookGuard.Core.Exceptions
import HookGuard.Lib.Sqlite
import HookGuard.Lib.Timestamp
import HookGuard.Lib.Utf8

/- The Console's authentication primitives (`hookguard_console/auth`, `middleware.safe_next`
   and `views.normalize_email`).

   `Primitives` is what they take from elsewhere: SHA-256, Argon2, `str.lower`, and which
   code points `repr` prints. Durations are in microseconds. -/
namespace HookGuard
open Py

namespace auth

structure Primitives where
  sha256 : Bytes → Bytes
  /-- `PasswordHasher.hash` of a password, with the salt it draws. -/
  hashPassword : Bytes → Str → Except Exc Str
  /-- `PasswordHasher.verify` of a password against a hash, a mismatch or a malformed hash
      being no match. -/
  verifyPassword : Str → Str → Except Exc Bool
  /-- `dummy_hash()`. -/
  dummyHash : Str
  /-- `str.lower`. -/
  lower : Str → Str
  printable : Nat → Bool

/-- Every text is its own hash, and in lower case the ASCII letters are. -/
def Primitives.plain : Primitives where
  sha256 b := b
  hashPassword _ password := .ok password
  verifyPassword password hash := .ok (password == hash)
  dummyHash := []
  lower s := s.map fun c => if 65 ≤ c ∧ c ≤ 90 then c + 32 else c
  printable _ := false

def MIN_PASSWORD_LEN : Nat := 12
def MAX_PASSWORD_LEN : Nat := 128

def SESSION_COOKIE_NAME : Str := lit "hg_session"
def CSRF_FORM_FIELD : Str := lit "csrf_token"

def SESSION_IDLE_TIMEOUT : Int := 7 * 86400 * 10 ^ 6
def SESSION_ABSOLUTE_TIMEOUT : Int := 30 * 86400 * 10 ^ 6
def TOUCH_INTERVAL : Int := 60 * 10 ^ 6
def RESET_TOKEN_TTL : Int := 3600 * 10 ^ 6

/-- `hash_token`. -/
def hashToken (prim : Primitives) (token : Str) : Except Exc Bytes :=
  match encodeUtf8 token with
  | none => .error .unicodeEncodeError
  | some b => .ok (prim.sha256 b)

/-- `validate_password`: the text of the `PasswordPolicyError`, if it raises one. -/
def validatePassword (password : Str) : Option Msg :=
  if password.length < MIN_PASSWORD_LEN then some (msg "password must be at least 12 characters")
  else if MAX_PASSWORD_LEN < password.length then
    some (msg "password must be at most 128 characters")
  else none

/-- `hmac.compare_digest` of two texts. -/
def compareDigest (a b : Str) : Except Exc Bool :=
  if isAscii a && isAscii b then .ok (a == b)
  else .error
    (.typeError (msg "comparing strings with non-ASCII characters is not supported"))

/-- `check_csrf`. -/
def checkCsrf (want got : Str) : Except Exc Bool :=
  if want = [] ∨ got = [] then .ok false else compareDigest want got

/-- `safe_next`. -/
def safeNext (nextPath : Str) : Str :=
  if nextPath = [] ∨ startsWith nextPath (lit "/") = false ∨ startsWith nextPath (lit "//") then
    lit "/dashboard"
  else if startsWith nextPath (lit "/\\") then lit "/dashboard"
  else nextPath

/-- `normalize_email`. -/
def normalizeEmail (prim : Primitives) (email : Str) : Str := prim.lower (strip email)

/-! ## Rate limiting -/

/-- The hits of each key, at most `maxHits` of which may lie within the window. -/
structure Limiter where
  maxHits : Nat
  positive : 0 < maxHits
  window : Int
  hits : Sqlite.Keyed Str (List Datetime)

namespace Limiter

/-- `allow`: whether the hit is within the limit and after how long another may be, and the
    limiter after it. -/
def allow (l : Limiter) (key : Str) (now : Datetime) : Except Exc ((Bool × Int) × Limiter) :=
  match now.add (-l.window) with
  | none => .error .overflowError
  | some cutoff =>
    match ((l.hits.get key).getD []).filter (fun t => cutoff.us < t.us) with
    | [] => .ok ((true, 0), { l with hits := l.hits.alter key (fun _ => [now]) })
    | oldest :: kept =>
      if l.maxHits ≤ kept.length + 1 then
        .ok ((false, l.window - (now.us - oldest.us)),
          { l with hits := l.hits.alter key (fun _ => oldest :: kept) })
      else
        .ok ((true, 0), { l with hits := l.hits.alter key (fun _ => oldest :: kept ++ [now]) })

/-- `prune`: the keys without a live hit are dropped. -/
def prune (l : Limiter) (now : Datetime) : Except Exc Limiter :=
  match now.add (-l.window) with
  | none => .error .overflowError
  | some cutoff =>
    .ok { l with hits := l.hits.filter fun _ hits => hits.any fun t => cutoff.us < t.us }

end Limiter

/-- `LOGIN_LIMIT`: ten attempts in a quarter of an hour. -/
def loginLimiter : Limiter := ⟨10, by decide, 15 * 60 * 10 ^ 6, .empty⟩

/-- `SIGNUP_LIMIT`: five in an hour. -/
def signupLimiter : Limiter := ⟨5, by decide, 3600 * 10 ^ 6, .empty⟩

end auth
end HookGuard
