/-
  IncusDemo.Go.Std

  The parts of the Go language and standard library the server computes with:
  64-bit integers, the wall clock, `time.ParseDuration` and a few functions of
  `strings`.
-/

import Mathlib.Algebra.Order.Ring.Int
import Mathlib.Data.List.DropRight

namespace IncusDemo
namespace Go

/-- A Go `error` that is not nil, by its text. -/
abbrev Error := String

/-! ## Integers and time -/

/-- The `int64` that an integer expression evaluates to: two's complement, wrapping. -/
def int64 (x : Int) : Int := Int.bmod x (2 ^ 64)

theorem int64_range (x : Int) : -2 ^ 63 ≤ int64 x ∧ int64 x < 2 ^ 63 := by
  unfold int64
  have hlo := Int.le_bmod (x := x) (m := 2 ^ 64) (by decide)
  have hhi := Int.bmod_lt (x := x) (m := 2 ^ 64) (by decide)
  omega

theorem int64_of_bounds {x : Int} (h1 : -2 ^ 63 ≤ x) (h2 : x < 2 ^ 63) : int64 x = x := by
  unfold int64
  rw [Int.bmod_eq_of_le (by omega) (by omega)]

/-- A number a little below the range of an `int64` comes out close to its upper end. -/
theorem int64_of_underflow {x : Int} (h1 : -2 ^ 64 ≤ x) (h2 : x < -2 ^ 63) :
    int64 x = x + 2 ^ 64 := by
  have hwrap : int64 (x + 2 ^ 64) = int64 x := Int.add_bmod_right x (2 ^ 64)
  rw [← hwrap]
  exact int64_of_bounds (by omega) (by omega)

/-- A reading of the wall clock: nanoseconds since the epoch, which fit an `int64`. -/
abbrev Time := Fin (2 ^ 63)

namespace Time

/-- Nanoseconds since the epoch. -/
def nano (t : Time) : Int := (t.val : Int)

/-- `t.Unix()`: whole seconds since the epoch. -/
def unix (t : Time) : Int := t.nano / 10 ^ 9

theorem nano_nonneg (t : Time) : 0 ≤ t.nano := Int.natCast_nonneg _

theorem nano_lt (t : Time) : t.nano < 2 ^ 63 := by
  have := t.isLt
  unfold nano
  omega

theorem unix_nonneg (t : Time) : 0 ≤ t.unix := by
  have := t.nano_nonneg
  unfold unix
  omega

theorem unix_lt (t : Time) : t.unix < 2 ^ 34 := by
  have := t.nano_lt
  unfold unix
  omega

theorem unix_le_nano (t : Time) : t.unix * 10 ^ 9 ≤ t.nano := by
  unfold unix
  omega

end Time

/-- The largest number of seconds that `time.ParseDuration` takes: more overflow
    the `int64` of nanoseconds behind a `time.Duration`. -/
def maxSeconds : Int := 9223372036

/-- `time.ParseDuration(fmt.Sprintf("%ds", n))`, in nanoseconds. -/
def parseDuration (n : Int) : Except Error Int :=
  if -maxSeconds ≤ n ∧ n ≤ maxSeconds then .ok (n * 10 ^ 9)
  else .error "time: invalid duration"

theorem parseDuration_ok {n d : Int} :
    parseDuration n = .ok d ↔ -maxSeconds ≤ n ∧ n ≤ maxSeconds ∧ d = n * 10 ^ 9 := by
  unfold parseDuration
  split
  · rename_i h
    simp only [Except.ok.injEq, h.1, h.2, true_and, eq_comm]
  · rename_i h
    simp only [reduceCtorEq, false_iff]
    rintro ⟨h1, h2, -⟩
    exact h ⟨h1, h2⟩

/-! ## Strings -/

/-- `strings.HasPrefix`. -/
def hasPrefix (s pre : String) : Bool := pre.toList.isPrefixOf s.toList

/-- `strings.Split(s, sep)[0]` for a separator of one character. -/
def splitFirst (s : String) (sep : Char) : String := String.ofList (s.toList.takeWhile (· != sep))

/-- `strings.TrimRight(s, cut)` for a cutset of one character. -/
def trimRight (s : String) (cut : Char) : String :=
  String.ofList (s.toList.rdropWhile (· == cut))

@[simp] theorem trimRight_empty (cut : Char) : trimRight "" cut = "" := rfl

theorem hasPrefix_append (pre s : String) : hasPrefix (pre ++ s) pre = true := by
  simp [hasPrefix]

theorem append_left_injective {pre s t : String} (h : pre ++ s = pre ++ t) : s = t := by
  have := congrArg String.toList h
  simp only [String.toList_append, List.append_cancel_left_eq] at this
  exact String.toList_injective this

end Go
end IncusDemo
