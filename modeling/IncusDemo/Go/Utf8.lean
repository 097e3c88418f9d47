/-
  IncusDemo.Go.Utf8

  Where a UTF-8 text may be cut.  A text that is cut in two leaves two texts
  exactly when the second part is empty or begins with the first byte of a
  character.
-/

import Mathlib.Data.List.Basic

namespace IncusDemo
namespace Go

/-- The bytes are the encoding of some characters. -/
def ValidUTF8 (bytes : List UInt8) : Prop := bytes.toByteArray.IsValidUTF8

/-- The bytes do not begin within a character: they are none, or the first of them is no
    continuation byte. -/
def StartsCharacter : List UInt8 → Prop
  | [] => True
  | b :: _ => b.IsUTF8FirstByte

instance : DecidablePred StartsCharacter
  | [] => inferInstanceAs (Decidable True)
  | b :: _ => inferInstanceAs (Decidable b.IsUTF8FirstByte)

variable {a b : List UInt8}

theorem validUTF8_iff : ValidUTF8 a ↔ ∃ m : List Char, a = m.flatMap String.utf8EncodeChar := by
  constructor
  · rintro ⟨m, hm⟩
    exact ⟨m, List.toByteArray_inj.mp hm⟩
  · rintro ⟨m, rfl⟩
    exact ⟨m, rfl⟩

theorem validUTF8_nil : ValidUTF8 [] := validUTF8_iff.mpr ⟨[], rfl⟩

theorem ValidUTF8.append (ha : ValidUTF8 a) (hb : ValidUTF8 b) : ValidUTF8 (a ++ b) := by
  obtain ⟨m, rfl⟩ := validUTF8_iff.mp ha
  obtain ⟨n, rfl⟩ := validUTF8_iff.mp hb
  exact validUTF8_iff.mpr ⟨m ++ n, by rw [List.flatMap_append]⟩

theorem ValidUTF8.startsCharacter (h : ValidUTF8 a) : StartsCharacter a := by
  cases a with
  | nil => trivial
  | cons b rest =>
    have hfirst := ByteArray.IsValidUTF8.isUTF8FirstByte_getElem_zero h (by simp)
    rwa [List.getElem_toByteArray] at hfirst

/-- What begins within the encoding of a character does not begin a character. -/
theorem not_startsCharacter {c : Char} {x y : List UInt8} (h : String.utf8EncodeChar c = x ++ y)
    (hx : x ≠ []) (hy : y ≠ []) (rest : List UInt8) : ¬ StartsCharacter (y ++ rest) := by
  obtain ⟨b, y, rfl⟩ := List.exists_cons_of_ne_nil hy
  have hlt : x.length < (String.utf8EncodeChar c).length := by
    rw [h, List.length_append]
    exact Nat.lt_add_of_pos_right (List.length_pos_of_ne_nil hy)
  have hb : (String.utf8EncodeChar c)[x.length] = b := by simp [h]
  intro hfirst
  have hzero : x.length = 0 := UInt8.isUTF8FirstByte_getElem_utf8EncodeChar.mp (hb ▸ hfirst)
  exact hx (List.length_eq_zero_iff.mp hzero)

/-- A text may be cut where a character starts. -/
theorem ValidUTF8.split (h : ValidUTF8 (a ++ b)) (hb : StartsCharacter b) :
    ValidUTF8 a ∧ ValidUTF8 b := by
  obtain ⟨m, hm⟩ := validUTF8_iff.mp h
  clear h
  induction m generalizing a with
  | nil =>
    obtain ⟨rfl, rfl⟩ := List.append_eq_nil_iff.mp hm
    exact ⟨validUTF8_nil, validUTF8_nil⟩
  | cons c m ih =>
    rw [List.flatMap_cons] at hm
    rcases List.append_eq_append_iff.mp hm with ⟨y, hc, hrest⟩ | ⟨a', rfl, hrest⟩
    · -- the cut is within the first character, or at one of its ends
      by_cases ha : a = []
      · subst ha
        exact ⟨validUTF8_nil, validUTF8_iff.mpr ⟨c :: m, hm⟩⟩
      · by_cases hy : y = []
        · subst hy
          rw [List.append_nil] at hc
          exact ⟨validUTF8_iff.mpr ⟨[c], by simp [hc]⟩, validUTF8_iff.mpr ⟨m, hrest⟩⟩
        · rw [hrest] at hb
          exact absurd hb (not_startsCharacter hc ha hy _)
    · obtain ⟨ha', hb'⟩ := ih hrest.symm
      exact ⟨(validUTF8_iff.mpr ⟨[c], by simp⟩).append ha', hb'⟩

/-- When no piece begins within a character, neither do all of them together: they begin as the
    first piece that is not empty does. -/
theorem startsCharacter_flatten {pieces : List (List UInt8)} (h : ∀ p ∈ pieces, StartsCharacter p) :
    StartsCharacter pieces.flatten := by
  induction pieces with
  | nil => trivial
  | cons p pieces ih =>
    rw [List.forall_mem_cons] at h
    cases p with
    | nil => exact ih h.2
    | cons b p => exact h.1

/-- The pieces of a text are texts exactly when none of them begins within a character. -/
theorem validUTF8_pieces_iff {pieces : List (List UInt8)} (h : ValidUTF8 pieces.flatten) :
    (∀ p ∈ pieces, ValidUTF8 p) ↔ ∀ p ∈ pieces, StartsCharacter p := by
  refine ⟨fun hvalid p hp => (hvalid p hp).startsCharacter, fun hstarts => ?_⟩
  induction pieces with
  | nil => exact fun p hp => absurd hp List.not_mem_nil
  | cons p pieces ih =>
    rw [List.flatten_cons] at h
    rw [List.forall_mem_cons] at hstarts
    obtain ⟨hp, hvalid⟩ := h.split (startsCharacter_flatten hstarts.2)
    exact List.forall_mem_cons.mpr ⟨hp, ih hvalid hstarts.2⟩

end Go
end IncusDemo
