/-
  IncusDemo.Go.Json

  How `encoding/json` writes strings and integers, and that `JSON.parse` reads
  back what was written.
-/

import IncusDemo.Js.Json
import Mathlib.Data.List.TakeWhile
import Mathlib.Data.Nat.Digits.Lemmas

namespace IncusDemo
namespace Go

open Js

-- ============================================================================
-- Integers
-- ============================================================================

def formatNat (n : Nat) : JsString :=
  if n = 0 then ['0'.toNat] else (Nat.digits 10 n).reverse.map fun d => '0'.toNat + d

/-- `strconv.AppendInt` in base 10. -/
def formatInt (n : Int) : JsString :=
  if n < 0 then '-'.toNat :: formatNat n.natAbs else formatNat n.natAbs

theorem isDigit_of_mem_formatNat {n : Nat} {c : CodeUnit} (h : c ∈ formatNat n) :
    isDigit c = true := by
  unfold formatNat at h
  split_ifs at h
  · obtain rfl := List.mem_singleton.mp h
    rfl
  · obtain ⟨d, hd, rfl⟩ := List.mem_map.mp h
    have hlt : d < 10 := Nat.digits_lt_base (by decide) (List.mem_reverse.mp hd)
    have hnine : '0'.toNat + d ≤ '9'.toNat := Nat.add_le_add_left (Nat.le_of_lt_succ hlt) _
    exact decide_eq_true ⟨Nat.le_add_right _ _, hnine⟩

theorem formatNat_ne_nil (n : Nat) : formatNat n ≠ [] := by
  unfold formatNat
  split_ifs with hzero
  · simp
  · simpa [Nat.digits_eq_nil_iff_eq_zero] using hzero

theorem decimal_formatNat (n : Nat) : decimal (formatNat n) = n := by
  unfold formatNat decimal
  split_ifs with hzero
  · rw [hzero]
    rfl
  · rw [List.foldl_map, List.foldl_reverse]
    conv_rhs => rw [← Nat.ofDigits_digits 10 n, Nat.ofDigits_eq_foldr]
    simp [Nat.add_comm]

/-- There are no leading zeros. -/
theorem length_of_leading_zero {n : Nat} (h : (formatNat n).head? = some '0'.toNat) :
    (formatNat n).length = 1 := by
  unfold formatNat at *
  split_ifs at * with hzero
  · rfl
  · rw [List.head?_map, List.head?_reverse] at h
    obtain ⟨d, hlast, hd⟩ := Option.map_eq_some_iff.mp h
    have hne := Nat.getLast_digit_ne_zero 10 hzero
    rw [List.getLast?_eq_some_getLast (Nat.digits_ne_nil_iff_ne_zero.mpr hzero)] at hlast
    cases hlast
    exact absurd (Nat.add_left_cancel hd) hne

theorem magnitude_formatNat (n : Nat) : magnitude (formatNat n) = some (n : ℚ) := by
  have hwhole : (formatNat n).takeWhile isDigit = formatNat n :=
    List.takeWhile_eq_self_iff.mpr fun _ => isDigit_of_mem_formatNat
  have hrest : (formatNat n).dropWhile isDigit = [] :=
    List.dropWhile_eq_nil_iff.mpr fun _ => isDigit_of_mem_formatNat
  have hplain : ¬ (formatNat n = [] ∨
      ((formatNat n).head? = some '0'.toNat ∧ (formatNat n).length ≠ 1)) := by
    rintro (hnil | ⟨hzero, hlen⟩)
    · exact formatNat_ne_nil n hnil
    · exact hlen (length_of_leading_zero hzero)
  unfold magnitude
  simp only [hwhole, hrest, if_neg hplain, decimal_formatNat]
  simp [fraction, exponent]

theorem head_formatNat (n : Nat) : ∃ c cs, formatNat n = c :: cs ∧ isDigit c = true := by
  cases h : formatNat n with
  | nil => exact absurd h (formatNat_ne_nil n)
  | cons c cs => exact ⟨c, cs, rfl, isDigit_of_mem_formatNat (h ▸ List.mem_cons_self)⟩

theorem numeral_formatInt (n : Int) : numeral (formatInt n) = some (n : ℚ) := by
  unfold numeral
  by_cases hneg : n < 0
  · have hformat : formatInt n = '-'.toNat :: formatNat n.natAbs := if_pos hneg
    have habs : -((n.natAbs : Nat) : ℚ) = n := by
      rw [Nat.cast_natAbs, abs_of_neg hneg]
      simp
    rw [hformat, if_pos (by rfl), List.tail_cons, magnitude_formatNat, Option.map_some, habs]
  · have hformat : formatInt n = formatNat n.natAbs := if_neg hneg
    have habs : ((n.natAbs : Nat) : ℚ) = n := by
      rw [Nat.cast_natAbs, abs_of_nonneg (by omega)]
    obtain ⟨c, cs, hcons, hdigit⟩ := head_formatNat n.natAbs
    have hminus : (formatNat n.natAbs).head? ≠ some '-'.toNat := by
      rw [hcons]
      intro h
      cases h
      exact absurd hdigit (by decide)
    rw [hformat, if_neg hminus, magnitude_formatNat, habs]

theorem isWord_of_mem_formatInt {n : Int} {c : CodeUnit} (h : c ∈ formatInt n) :
    isWord c = true := by
  have hdigit : ∀ d, isDigit d = true → isWord d = true := fun d hd => by simp [isWord, hd]
  unfold formatInt at h
  split_ifs at h
  · rcases List.mem_cons.mp h with rfl | h
    · rfl
    · exact hdigit c (isDigit_of_mem_formatNat h)
  · exact hdigit c (isDigit_of_mem_formatNat h)

/-- An integer is read back as the double nearest to it. -/
theorem isToken_formatInt (n : Int) :
    IsToken (formatInt n) (.scalar (.num (.ofRat (n : ℚ)))) := by
  obtain ⟨c, cs, hcons, hdigit⟩ := head_formatNat n.natAbs
  have hhead : (formatInt n).head? = some '-'.toNat ∨ (formatInt n).head? = some c := by
    unfold formatInt
    rw [hcons]
    split_ifs
    · exact .inl rfl
    · exact .inr rfl
  have hname : ∀ w d, ofString w = d :: (ofString w).tail → isDigit d = false → d ≠ '-'.toNat →
      formatInt n ≠ ofString w := by
    intro w d hw hd hminus heq
    rw [heq, hw] at hhead
    rcases hhead with h | h
    · cases h
      exact hminus rfl
    · cases h
      rw [hdigit] at hd
      cases hd
  have hliteral : literal (formatInt n) = some (.scalar (.num (.ofRat (n : ℚ)))) := by
    unfold literal
    rw [if_neg (hname "null" 'n'.toNat (by decide) (by decide) (by decide)),
      if_neg (hname "true" 't'.toNat (by decide) (by decide) (by decide)),
      if_neg (hname "false" 'f'.toNat (by decide) (by decide) (by decide)), numeral_formatInt]
    rfl
  have hne : formatInt n ≠ [] := by
    rintro h
    simp [h] at hhead
  exact isToken_of_word hne (fun _ => isWord_of_mem_formatInt) hliteral

theorem isToken_true : IsToken (ofString "true") (.scalar (.bool true)) :=
  isToken_of_word (by decide) (by decide) rfl

theorem isToken_false : IsToken (ofString "false") (.scalar (.bool false)) :=
  isToken_of_word (by decide) (by decide) rfl

-- ============================================================================
-- Strings
-- ============================================================================

def hexUnit (d : Nat) : CodeUnit := if d < 10 then '0'.toNat + d else 'a'.toNat + (d - 10)

/-- The escape of a code unit by its number. -/
def unicode (n : Nat) : JsString :=
  ['\\'.toNat, 'u'.toNat, hexUnit (n / 4096 % 16), hexUnit (n / 256 % 16), hexUnit (n / 16 % 16),
    hexUnit (n % 16)]

/-- The characters that are escaped by their number, also those of HTML. -/
def escaped (c : Char) : Bool :=
  decide (c.toNat < 0x20) || ['<', '>', '&', '\u2028', '\u2029'].contains c

/-- What `appendString` writes for a character. -/
def escape (c : Char) : JsString :=
  if c = '"' ∨ c = '\\' then ['\\'.toNat, c.toNat]
  else if c = '\x08' then ['\\'.toNat, 'b'.toNat]
  else if c = '\x0c' then ['\\'.toNat, 'f'.toNat]
  else if c = '\n' then ['\\'.toNat, 'n'.toNat]
  else if c = '\r' then ['\\'.toNat, 'r'.toNat]
  else if c = '\t' then ['\\'.toNat, 't'.toNat]
  else if escaped c then unicode c.toNat
  else utf16 c

/-- `appendString`. -/
def quote (s : String) : JsString :=
  '"'.toNat :: (s.toList.flatMap escape ++ ['"'.toNat])

theorem hexValue_hexUnit {d : Nat} (h : d < 16) : hexValue (hexUnit d) = some d := by
  decide +revert

theorem lex_unicode (s : JsString) {n : Nat} (h : n < 0x10000) :
    lex (.string s) (unicode n) = some ([], .string (s ++ [n])) := by
  have hstep : ∀ left acc d, d < 16 → (Mode.hex s (left + 1) acc).step (hexUnit d) =
      some ([], .hex s left (16 * acc + d)) := by
    intro left acc d hd
    rw [Mode.step, hexValue_hexUnit hd]
    rfl
  have hlast : ∀ acc d, d < 16 → (Mode.hex s 0 acc).step (hexUnit d) =
      some ([], .string (s ++ [16 * acc + d])) := by
    intro acc d hd
    rw [Mode.step, hexValue_hexUnit hd]
    rfl
  have hback : (Mode.string s).step '\\'.toNat = some ([], .escape s) := rfl
  have hu : (Mode.escape s).step 'u'.toNat = some ([], .hex s 3 0) := rfl
  have hn : 16 * (16 * (16 * (16 * 0 + n / 4096 % 16) + n / 256 % 16) + n / 16 % 16) + n % 16 =
      n := by
    omega
  unfold unicode
  rw [lex_cons_some hback, lex_cons_some hu, lex_cons_some (hstep 2 _ _ (by omega)),
    lex_cons_some (hstep 1 _ _ (by omega)), lex_cons_some (hstep 0 _ _ (by omega)),
    lex_cons_some (hlast _ _ (by omega)), hn]
  rfl

theorem lex_unescape (s : JsString) {u v : CodeUnit} (h : unescape u = some v)
    (hu : u ≠ 'u'.toNat) : lex (.string s) ['\\'.toNat, u] = some ([], .string (s ++ [v])) := by
  have hback : (Mode.string s).step '\\'.toNat = some ([], .escape s) := rfl
  have hstep : (Mode.escape s).step u = some ([], .string (s ++ [v])) := by
    rw [Mode.step, if_neg hu, h]
    rfl
  rw [lex_cons_some hback, lex_cons_some hstep]
  rfl

theorem lex_unescaped {s us : JsString}
    (h : ∀ u ∈ us, 0x20 ≤ u ∧ u ≠ '"'.toNat ∧ u ≠ '\\'.toNat) :
    lex (.string s) us = some ([], .string (s ++ us)) := by
  induction us generalizing s with
  | nil => rw [List.append_nil, lex]
  | cons u us ih =>
    obtain ⟨hctl, hquote, hback⟩ := h u List.mem_cons_self
    have hstep : (Mode.string s).step u = some ([], .string (s ++ [u])) := by
      rw [Mode.step, if_neg hquote, if_neg hback, if_neg (Nat.not_lt.mpr hctl)]
    rw [lex_cons_some hstep, ih fun v hv => h v (List.mem_cons_of_mem _ hv)]
    simp

/-- A character is read back as its encoding. -/
theorem lex_escape (s : JsString) (c : Char) :
    lex (.string s) (escape c) = some ([], .string (s ++ utf16 c)) := by
  unfold escape
  split_ifs with hquote hb hf hn hr ht hescaped
  · rcases hquote with rfl | rfl
    · exact lex_unescape s rfl (by decide)
    · exact lex_unescape s rfl (by decide)
  · subst hb
    exact lex_unescape s rfl (by decide)
  · subst hf
    exact lex_unescape s rfl (by decide)
  · subst hn
    exact lex_unescape s rfl (by decide)
  · subst hr
    exact lex_unescape s rfl (by decide)
  · subst ht
    exact lex_unescape s rfl (by decide)
  · have hsmall : c.toNat < 0x10000 := by
      simp only [escaped, Bool.or_eq_true, decide_eq_true_eq, List.contains_iff_mem, List.mem_cons,
        List.not_mem_nil, or_false] at hescaped
      rcases hescaped with hctl | rfl | rfl | rfl | rfl | rfl
      · omega
      all_goals decide
    rw [lex_unicode s hsmall, utf16, if_pos hsmall]
  · refine lex_unescaped fun u hu => ?_
    have hctl : 0x20 ≤ c.toNat := by
      simp only [escaped, Bool.or_eq_true, decide_eq_true_eq, not_or] at hescaped
      omega
    unfold utf16 at hu
    split_ifs at hu
    · obtain rfl := List.mem_singleton.mp hu
      refine ⟨hctl, fun heq => hquote (.inl ?_), fun heq => hquote (.inr ?_)⟩
      · exact Char.toNat_inj.mp heq
      · exact Char.toNat_inj.mp heq
    · -- surrogates are beyond the quote and the backslash
      have hlow : '\\'.toNat < u := by
        simp only [List.mem_cons, List.not_mem_nil, or_false] at hu
        rcases hu with hu | hu
        · rw [hu]
          exact Nat.lt_of_lt_of_le (by decide) (Nat.le_add_right 0xD800 _)
        · rw [hu]
          exact Nat.lt_of_lt_of_le (by decide) (Nat.le_add_right 0xDC00 _)
      refine ⟨Nat.le_trans (by decide) hlow, ?_, ?_⟩
      · exact (Nat.lt_trans (by decide) hlow).ne'
      · exact hlow.ne'

theorem lex_flatMap_escape (s : JsString) (cs : List Char) :
    lex (.string s) (cs.flatMap escape) = some ([], .string (s ++ cs.flatMap utf16)) := by
  induction cs generalizing s with
  | nil => simp [lex]
  | cons c cs ih =>
    rw [List.flatMap_cons, lex_append_some (lex_escape s c), ih]
    simp

/-- A string is read back as its encoding. -/
theorem lex_quote (s : String) : lex .ground (quote s) = some ([.str (ofString s)], .ground) := by
  have hopen : Mode.ground.step '"'.toNat = some ([], .string []) := rfl
  have hclose : ∀ u, (Mode.string u).step '"'.toNat = some ([.str u], .ground) := fun _ => rfl
  rw [quote, lex_cons_some hopen, lex_append_some (lex_flatMap_escape [] s.toList), lex_singleton,
    hclose]
  rfl

end Go
end IncusDemo
