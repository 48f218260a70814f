import HookGuard.Lib.Text

/- `urllib.parse.urlparse`, as far as the scheme and the host go. Leading control
   characters and spaces are dropped, tabs and line ends removed anywhere; the
   scheme is what stands before the first colon, where that is a scheme; the
   network location is what follows `//` up to a slash, a question mark or a
   hash. Brackets must come in pairs, and the syntax of what they hold is
   `bracketedHost`, a parameter: the complaint of `ipaddress`, if it has one. The
   check of a network location under NFKC is left out, for it refuses no Latin-1
   text. -/
namespace Py

structure ParseResult where
  scheme : Str
  netloc : Str
  deriving DecidableEq

def isAsciiAlpha (c : Nat) : Bool := (65 ≤ c && c ≤ 90) || (97 ≤ c && c ≤ 122)

def isSchemeChar (c : Nat) : Bool :=
  isAsciiAlpha c || isAsciiDigit c || c == 43 || c == 45 || c == 46

/-- The scheme, and what follows its colon; the scheme may be missing. -/
def splitScheme (url : Str) : Str × Str :=
  match partition 58 url with
  | (c :: s, some rest) =>
    if isAsciiAlpha c && (c :: s).all isSchemeChar then (lower (c :: s), rest) else ([], url)
  | _ => ([], url)

def splitNetloc (url : Str) : Str :=
  match url with
  | 47 :: 47 :: rest => rest.takeWhile (fun c => c != 47 && c != 63 && c != 35)
  | _ => []

/-- `urlparse(url)`; the error is the text of its `ValueError`. -/
def urlparse (bracketedHost : Str → Option Msg) (url : Str) : Except Msg ParseResult :=
  let url := (url.dropWhile (· ≤ 32)).filter (fun c => c != 9 && c != 10 && c != 13)
  let (scheme, rest) := splitScheme url
  let netloc := splitNetloc rest
  if 91 ∈ netloc ∧ 93 ∈ netloc then
    match bracketedHost netloc with
    | some m => .error m
    | none => .ok ⟨scheme, netloc⟩
  else if 91 ∈ netloc ∨ 93 ∈ netloc then .error (msg "Invalid IPv6 URL")
  else .ok ⟨scheme, netloc⟩

/-- `parsed.hostname`; the empty text is `None`. -/
def ParseResult.hostname (p : ParseResult) : Str :=
  let hostinfo := (p.netloc.reverse.takeWhile (· != 64)).reverse
  let host := match partition 91 hostinfo with
    | (_, some bracketed) => (partition 93 bracketed).1
    | (_, none) => (partition 58 hostinfo).1
  match partition 37 host with
  | (name, none) => lower name
  | (name, some zone) => lower name ++ 37 :: zone

example : (urlparse (fun _ => none) (lit " HTTPS://u@Api.PayPal.com:abc/x")).map
    (fun p => (p.scheme, p.hostname)) = .ok (lit "https", lit "api.paypal.com") := by decide

end Py
