/-
  IncusDemo.Js.Number

  The numbers of JavaScript: what a rational number becomes as a double, which
  is the nearest one, and of two the one with an even significand; and the
  arithmetic of doubles, whose results are rounded so.
-/

import Mathlib.Data.Int.Log
import Mathlib.Data.Rat.Floor
import Mathlib.Algebra.Order.Field.Rat
import Mathlib.Tactic.NormNum

namespace IncusDemo
namespace Js

/-- A number; the two zeros, which compare as equal, are one here. -/
inductive Number where
  | finite (q : ℚ)
  | infinite (neg : Bool)
  deriving DecidableEq

/-- The nearest integer, and of two the even one. -/
def nearestEven (q : ℚ) : ℤ :=
  if q - ⌊q⌋ < 1 / 2 ∨ (q - ⌊q⌋ = 1 / 2 ∧ ⌊q⌋ % 2 = 0) then ⌊q⌋ else ⌊q⌋ + 1

@[simp] theorem nearestEven_intCast (n : ℤ) : nearestEven n = n := by
  unfold nearestEven
  rw [if_pos (.inl (by simp)), Int.floor_intCast]

/-- The exponent of the last bit of the significand, which has 53 bits; the least exponent is
    that of the subnormal numbers. -/
def lastBit (q : ℚ) : ℤ := max (Int.log 2 |q| - 52) (-1074)

/-- The nearest multiple of the last bit. -/
def rounded (q : ℚ) : ℚ := nearestEven (q / 2 ^ lastBit q) * 2 ^ lastBit q

/-- The double that stands for a rational number. -/
def Number.ofRat (q : ℚ) : Number :=
  if |rounded q| < 2 ^ 1024 then .finite (rounded q) else .infinite (decide (q < 0))

/-- The number is itself a double. -/
def Exact (q : ℚ) : Prop := Number.ofRat q = .finite q

instance (q : ℚ) : Decidable (Exact q) := inferInstanceAs (Decidable (_ = _))

theorem lastBit_le {q : ℚ} {k : ℕ} (hk : 0 < k) (h : |q| < 2 ^ k)
    (hnormal : (-1074 : ℤ) ≤ k - 53) : lastBit q ≤ k - 53 := by
  unfold lastBit
  refine max_le ?_ hnormal
  rcases (abs_nonneg q).eq_or_lt with hzero | hpos
  · rw [← hzero, Int.log_zero_right]
    omega
  · have hlt : |q| < ((2 : ℕ) : ℚ) ^ (k : ℤ) := by exact_mod_cast h
    have hlog := (Int.lt_zpow_iff_log_lt (by decide) hpos).mp hlt
    omega

theorem rounded_intCast {n : ℤ} (h : |(n : ℚ)| < 2 ^ 53) : rounded n = n := by
  obtain ⟨k, hk⟩ := Int.exists_eq_neg_ofNat (lastBit_le (k := 53) (by decide) h (by decide))
  have hscaled : (n : ℚ) / 2 ^ (-(k : ℤ)) = ((n * 2 ^ k : ℤ) : ℚ) := by simp
  unfold rounded
  rw [hk, hscaled, nearestEven_intCast]
  simp

/-- The nearest integer is at most a half away. -/
theorem abs_nearestEven_sub_le (q : ℚ) : |nearestEven q - q| ≤ 1 / 2 := by
  have hle := Int.floor_le q
  have hlt := Int.lt_floor_add_one q
  unfold nearestEven
  rw [abs_le]
  split
  · rename_i hnear
    have hhalf : q - ⌊q⌋ ≤ 1 / 2 := hnear.elim le_of_lt fun h => le_of_eq h.1
    constructor <;> linarith
  · rename_i hfar
    have hhalf : 1 / 2 ≤ q - ⌊q⌋ := by
      by_contra hsmall
      exact hfar (.inl (not_le.mp hsmall))
    push_cast
    constructor <;> linarith

/-- Rounding is off by half of the last bit at most. -/
theorem abs_rounded_sub_le (q : ℚ) : |rounded q - q| ≤ 2 ^ lastBit q / 2 := by
  have hpos : (0 : ℚ) < 2 ^ lastBit q := zpow_pos (by norm_num) _
  have hsplit : rounded q - q =
      (nearestEven (q / 2 ^ lastBit q) - q / 2 ^ lastBit q) * 2 ^ lastBit q := by
    unfold rounded
    field_simp
  rw [hsplit, abs_mul, abs_of_pos hpos]
  calc |(nearestEven (q / 2 ^ lastBit q) : ℚ) - q / 2 ^ lastBit q| * 2 ^ lastBit q
      ≤ 1 / 2 * 2 ^ lastBit q :=
        mul_le_mul_of_nonneg_right (abs_nearestEven_sub_le _) hpos.le
    _ = 2 ^ lastBit q / 2 := by ring

/-- What is negative is not rounded to anything positive. -/
theorem rounded_nonpos {q : ℚ} (h : q < 0) : rounded q ≤ 0 := by
  have hpos : (0 : ℚ) < 2 ^ lastBit q := zpow_pos (by norm_num) _
  have hfloor : ⌊q / 2 ^ lastBit q⌋ < 0 :=
    Int.floor_lt.mpr (by simpa using div_neg_of_neg_of_pos h hpos)
  have hnear : nearestEven (q / 2 ^ lastBit q) ≤ 0 := by
    unfold nearestEven
    split <;> omega
  exact mul_nonpos_of_nonpos_of_nonneg (by exact_mod_cast hnear) hpos.le

/-- An integer of fewer than 54 bits is a double. -/
theorem exact_intCast {n : ℤ} (h : |n| < 2 ^ 53) : Exact n := by
  have habs : |(n : ℚ)| < 2 ^ 53 := by exact_mod_cast h
  have hsmall : |(n : ℚ)| < 2 ^ 1024 := habs.trans (pow_lt_pow_right₀ (by norm_num) (by norm_num))
  unfold Exact Number.ofRat
  rw [rounded_intCast habs, if_pos hsmall]

-- ============================================================================
-- Arithmetic
-- ============================================================================

namespace Number

/-- `m - n`; `none` is NaN. -/
def sub : Number → Number → Option Number
  | .finite p, .finite q => some (ofRat (p - q))
  | .infinite neg, .finite _ => some (.infinite neg)
  | .finite _, .infinite neg => some (.infinite (!neg))
  | .infinite neg, .infinite neg' => if neg = neg' then none else some (.infinite neg)

/-- `n * c` for a positive `c`. -/
def mul (n : Number) (c : ℕ) : Number :=
  match n with
  | .finite q => ofRat (q * c)
  | .infinite neg => .infinite neg

/-- `n / c` for a positive `c`. -/
def div (n : Number) (c : ℕ) : Number :=
  match n with
  | .finite q => ofRat (q / c)
  | .infinite neg => .infinite neg

/-- `Math.floor(n)`. -/
def floor : Number → Number
  | .finite q => .finite ⌊q⌋
  | .infinite neg => .infinite neg

/-- `n < 0`. -/
def isNegative : Number → Bool
  | .finite q => decide (q < 0)
  | .infinite neg => neg

/-- `n <= 0`. -/
def isNonpositive : Number → Bool
  | .finite q => decide (q ≤ 0)
  | .infinite neg => neg

theorem ofRat_natCast {n : ℕ} (h : n < 2 ^ 53) : ofRat n = .finite n := by
  have hexact := exact_intCast (n := n) (by simpa using (by exact_mod_cast h : (n : ℤ) < 2 ^ 53))
  simpa [Exact] using hexact

/-- What is negative becomes a negative number, or zero. -/
theorem isNegative_ofRat {q : ℚ} (h : q < 0) :
    (ofRat q).isNegative = true ∨ ofRat q = .finite 0 := by
  unfold ofRat
  split
  · rcases (rounded_nonpos h).lt_or_eq with hneg | hzero
    · exact .inl (decide_eq_true hneg)
    · exact .inr (by rw [hzero])
  · exact .inl (decide_eq_true h)

/-- A quotient below `2 ^ 48` is off by a sixty-fourth at most. -/
theorem abs_rounded_sub_le_of_lt {q : ℚ} (h : |q| < 2 ^ 48) : |rounded q - q| ≤ 1 / 64 := by
  have hbit := lastBit_le (k := 48) (by decide) h (by decide)
  have hpow : (2 : ℚ) ^ lastBit q ≤ 2 ^ (-5 : ℤ) :=
    zpow_le_zpow_right₀ (by norm_num) (by simpa using hbit)
  calc |rounded q - q| ≤ 2 ^ lastBit q / 2 := abs_rounded_sub_le q
    _ ≤ 2 ^ (-5 : ℤ) / 2 := by gcongr
    _ = 1 / 64 := by norm_num

/-- Whole minutes come out exact: a quotient that is no integer is a sixtieth or more away from
    the next ones, and rounding moves it by less. -/
theorem floor_div_sixty {n : ℕ} (h : n < 2 ^ 53) :
    (div (.finite n) 60).floor = .finite ((n / 60 : ℕ) : ℚ) := by
  have hsplit : (n : ℚ) = 60 * (n / 60 : ℕ) + (n % 60 : ℕ) := by
    exact_mod_cast (Nat.div_add_mod n 60).symm
  have hminutes : n / 60 < 2 ^ 53 := (Nat.div_le_self n 60).trans_lt h
  change (ofRat ((n : ℚ) / (60 : ℕ))).floor = _
  rcases Nat.eq_zero_or_pos (n % 60) with hzero | hpos
  · have hwhole : (n : ℚ) / (60 : ℕ) = (n / 60 : ℕ) := by
      rw [hzero] at hsplit
      rw [hsplit]
      push_cast
      ring
    rw [hwhole, ofRat_natCast hminutes]
    change Number.finite (⌊((n / 60 : ℕ) : ℚ)⌋ : ℤ) = _
    rw [Int.floor_natCast, Int.cast_natCast]
  · have hone : (1 : ℚ) ≤ (n % 60 : ℕ) := by exact_mod_cast hpos
    have hrest : ((n % 60 : ℕ) : ℚ) ≤ 59 := by
      exact_mod_cast Nat.le_of_lt_succ (Nat.mod_lt n (by decide))
    have habs : |(n : ℚ) / (60 : ℕ)| < 2 ^ 48 := by
      have hn : (n : ℚ) < 2 ^ 53 := by exact_mod_cast h
      rw [abs_of_nonneg (by positivity), div_lt_iff₀ (by norm_num)]
      exact hn.trans (by norm_num)
    have hquotient : (n : ℚ) / (60 : ℕ) = (n / 60 : ℕ) + (n % 60 : ℕ) / 60 := by
      rw [hsplit]
      push_cast
      ring
    obtain ⟨hlow, hhigh⟩ := abs_le.mp (abs_rounded_sub_le_of_lt habs)
    rw [hquotient] at hlow hhigh ⊢
    have hge : ((n / 60 : ℕ) : ℚ) ≤ rounded ((n / 60 : ℕ) + (n % 60 : ℕ) / 60) := by linarith
    have hlt : rounded ((n / 60 : ℕ) + (n % 60 : ℕ) / 60) < (n / 60 : ℕ) + 1 := by linarith
    have hsmall : |rounded ((n / 60 : ℕ) + (n % 60 : ℕ) / 60)| < 2 ^ 1024 := by
      have hbound : ((n / 60 : ℕ) : ℚ) + 1 ≤ 2 ^ 53 := by exact_mod_cast hminutes
      rw [abs_of_nonneg ((Nat.cast_nonneg _).trans hge)]
      exact hlt.trans_le (hbound.trans (pow_le_pow_right₀ (by norm_num) (by norm_num)))
    have hfloor : ⌊rounded ((n / 60 : ℕ) + (n % 60 : ℕ) / 60)⌋ = ((n / 60 : ℕ) : ℤ) := by
      rw [Int.floor_eq_iff]
      exact ⟨by exact_mod_cast hge, by exact_mod_cast hlt⟩
    unfold ofRat
    rw [if_pos hsmall]
    change Number.finite (⌊rounded _⌋ : ℤ) = _
    rw [hfloor, Int.cast_natCast]

end Number

end Js
end IncusDemo
