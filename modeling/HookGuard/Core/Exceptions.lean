import HookGuard.Lib.Text

/- The exceptions the program raises or catches, each with its text where it has
   one. `except ValueError` catches the subclasses too: `isValueError`. -/
namespace HookGuard
open Py

inductive Exc where
  | valueError (m : Msg)
  | typeError (m : Msg)
  | keyError (m : Msg)
  | jsonDecodeError (m : Msg)
  | unicodeDecodeError (m : Msg)
  | goDurationError (m : Msg)
  | gatewaySignatureError (m : Msg)
  | verificationError (m : Msg)
  | ingestError (m : Msg)
  | configValidationError (m : Msg)
  | sqliteError (m : Msg)
  | httpError (m : Msg)
  | invalidURL (m : Msg)
  | unicodeEncodeError
  | overflowError
  | recursionError
  deriving DecidableEq, Repr

namespace Exc

def isValueError : Exc → Bool
  | valueError _ | unicodeEncodeError | unicodeDecodeError _ | jsonDecodeError _
  | goDurationError _ | configValidationError _ => true
  | _ => false

/-- `str(e)`. -/
def text : Exc → Msg
  | valueError m | typeError m | keyError m | unicodeDecodeError m | jsonDecodeError m
  | sqliteError m | httpError m | invalidURL m | goDurationError m | gatewaySignatureError m
  | verificationError m | ingestError m | configValidationError m => m
  | overflowError => msg "int too large to convert to float"
  | recursionError => msg "maximum recursion depth exceeded"
  | unicodeEncodeError => msg "codec can't encode character"

end Exc
end HookGuard
