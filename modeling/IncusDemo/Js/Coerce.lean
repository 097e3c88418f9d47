/-
  IncusDemo.Js.Coerce

  What JavaScript makes of a value of JSON where a number, a truth value or a
  text is asked for, and of the members of an object.  `none` is `undefined`,
  and NaN among the numbers.

  The conversions of strings, arrays and objects to numbers, of arrays, objects
  and numbers that are no safe integers to texts, and `decodeURIComponent` are
  those of an `Engine`.
-/

import IncusDemo.Go.Json

namespace IncusDemo
namespace Js

/-- Functions of the language that are left open. -/
structure Engine where
  /-- `Number(v)` of a string, an array or an object. -/
  toNumber : Value → Option Number
  /-- `String(v)` of an array or an object. -/
  toText : Value → JsString
  /-- `String(q)` of a number that is no safe integer. -/
  toDecimal : ℚ → JsString
  /-- `decodeURIComponent`, which can throw. -/
  decodeURIComponent : JsString → Option JsString

/-- `v.k` of a value that is not `null`. -/
def Value.get (v : Value) (k : String) : Option Value :=
  match v with
  | .obj members => members.lookup (ofString k)
  | _ => none

/-- The condition `if (v)`. -/
def truthy : Option Value → Bool
  | none | some .null => false
  | some (.bool b) => b
  | some (.num n) => decide (n ≠ .finite 0)
  | some (.str s) => decide (s ≠ [])
  | some (.arr _) | some (.obj _) => true

namespace Engine

variable (E : Engine)

/-- `Number(v)`. -/
def number : Option Value → Option Number
  | none => none
  | some .null => some (.finite 0)
  | some (.bool b) => some (.finite (if b then 1 else 0))
  | some (.num n) => some n
  | some v => E.toNumber v

/-- `String(n)`. -/
def numberText : Option Number → JsString
  | none => ofString "NaN"
  | some (.infinite neg) => ofString (if neg then "-Infinity" else "Infinity")
  | some (.finite q) => if q.isInt ∧ |q| < 2 ^ 53 then Go.formatInt q.num else E.toDecimal q

/-- `v == n`. -/
def looseEq (v : Option Value) (n : ℚ) : Bool :=
  match v with
  | none | some .null => false
  | v => decide (E.number v = some (.finite n))

/-- `v == ""`. -/
def isEmptyText : Option Value → Bool
  | none | some .null => false
  | some (.bool b) => !b
  | some (.num n) => decide (n = .finite 0)
  | some (.str s) => decide (s = [])
  | some v => decide (E.toText v = [])

end Engine

end Js
end IncusDemo
