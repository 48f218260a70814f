import HookGuard.Lib.Text
import Mathlib.Algebra.Order.Field.Rat

/- The Python values a decoded JSON document is made of, and what a dictionary
   compares its keys by: numbers by their value, whatever their type, so that
   `True`, `1` and `1.0` are one key. A float is a rational, an infinity, a negative
   zero or a NaN; the NaN of a decoded document is one object, equal to itself as a
   key. -/
namespace Py

inductive PyFloat where
  | nan
  | inf (negative : Bool)
  | negZero
  | num (q : ℚ)
  deriving DecidableEq

inductive Value where
  | none
  | bool (b : Bool)
  | int (n : Int)
  | float (x : PyFloat)
  | str (s : Str)
  | list (items : List Value)
  | dict (items : List (Str × Value))

/-- What a dictionary compares a key by. -/
inductive Key where
  | none
  | num (q : ℚ)
  | inf (negative : Bool)
  | nan
  | str (s : Str)
  | unhashable
  deriving DecidableEq

namespace Value

def key : Value → Key
  | none => .none
  | bool b => .num (if b then 1 else 0)
  | int n => .num n
  | float (.num q) => .num q
  | float .negZero => .num 0
  | float (.inf negative) => .inf negative
  | float .nan => .nan
  | str s => .str s
  | list _ | dict _ => .unhashable

example : (bool true).key = (float (.num 1)).key := by decide

end Value

/-- `data[key]`, where it is there; the last of the members of a name counts. -/
def dictItem (data : List (Str × Value)) (key : Str) : Option Value := data.reverse.lookup key

/-- `data.get(key, default)`. -/
def dictGet (data : List (Str × Value)) (key : Str) (default : Value) : Value :=
  (dictItem data key).getD default

end Py
