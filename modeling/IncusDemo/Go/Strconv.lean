/-
  IncusDemo.Go.Strconv

  `strconv.Atoi` on a machine with 64-bit integers.  It returns a value also
  when it fails: zero for what is no number, and the bound that was passed for a
  number that does not fit.
-/

import Mathlib.Algebra.Order.Ring.Int
import Mathlib.Data.List.Basic

namespace IncusDemo
namespace Go

/-- `strconv.ErrSyntax` and `strconv.ErrRange`. -/
inductive NumError where
  | errSyntax
  | errRange
  deriving DecidableEq

/-- The loop of `strconv.ParseUint`, which has read `n` so far. -/
def parseUint (n : Nat) : List Char → Except NumError Nat
  | [] => .ok n
  | c :: digits =>
    if c.isDigit then
      let n' := n * 10 + (c.toNat - '0'.toNat)
      if 2 ^ 64 ≤ n' then .error .errRange else parseUint n' digits
    else .error .errSyntax

/-- The value and the error of a number that is read as `result`, after its sign. -/
def signed (negative : Bool) (result : Except NumError Nat) : Int × Option NumError :=
  match result with
  | .error .errSyntax => (0, some .errSyntax)
  | .error .errRange => (if negative then -2 ^ 63 else 2 ^ 63 - 1, some .errRange)
  | .ok n =>
    if negative then
      if 2 ^ 63 < n then (-2 ^ 63, some .errRange) else (-n, none)
    else
      if 2 ^ 63 ≤ n then (2 ^ 63 - 1, some .errRange) else (n, none)

/-- A number without its sign; there must be something left. -/
def unsignedPart (digits : List Char) : Except NumError Nat :=
  if digits = [] then .error .errSyntax else parseUint 0 digits

/-- `strconv.Atoi`: the value, and the error if there is one. -/
def atoi (s : String) : Int × Option NumError :=
  match s.toList with
  | '-' :: digits => signed true (unsignedPart digits)
  | '+' :: digits => signed false (unsignedPart digits)
  | digits => signed false (unsignedPart digits)

/-- What is read without an error fits. -/
theorem atoi_range {s : String} {n : Int} (h : atoi s = (n, none)) : -2 ^ 63 ≤ n ∧ n < 2 ^ 63 := by
  have hsigned : ∀ negative result, signed negative result = (n, none) → -2 ^ 63 ≤ n ∧ n < 2 ^ 63 := by
    intro negative result h
    unfold signed at h
    split at h
    · cases h
    · cases h
    · split at h
      · split at h
        · cases h
        · cases h
          omega
      · split at h
        · cases h
        · cases h
          omega
  unfold atoi at h
  split at h <;> exact hsigned _ _ h

example : atoi "-20" = (-20, none) := by decide

example : atoi "9223372036854775808" = (9223372036854775807, some .errRange) := by decide

end Go
end IncusDemo
