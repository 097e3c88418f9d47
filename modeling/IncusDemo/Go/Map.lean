/-
  IncusDemo.Go.Map

  Loops over a map.  Go visits the entries in an order of its own each time, so
  a loop is a function of a list of entries, and what it computes belongs to the
  map when it is the same for every permutation of them.  A loop that stops at
  its first hit computes such a value exactly when all hits agree.
-/

import Mathlib.Data.List.Basic

namespace IncusDemo
namespace Go

variable {α β : Type} {f : α → Option β} {l : List α}

/-- A hit comes first in some order. -/
theorem exists_perm_findSome? {a : α} {x : β} (ha : a ∈ l) (hx : f a = some x) :
    ∃ l' : List α, l'.Perm l ∧ l'.findSome? f = some x := by
  obtain ⟨l₁, l₂, rfl⟩ := List.append_of_mem ha
  exact ⟨a :: (l₁ ++ l₂), List.perm_middle.symm, by simp [hx]⟩

/-- The order does not matter to the first hit exactly when all hits agree. -/
theorem findSome?_perm_iff : (∀ l' : List α, l'.Perm l → l'.findSome? f = l.findSome? f) ↔
    ∀ a ∈ l, ∀ b ∈ l, ∀ x y, f a = some x → f b = some y → x = y := by
  constructor
  · intro h a ha b hb x y hx hy
    obtain ⟨l₁, hperm₁, hfirst₁⟩ := exists_perm_findSome? ha hx
    obtain ⟨l₂, hperm₂, hfirst₂⟩ := exists_perm_findSome? hb hy
    have hsame : l₁.findSome? f = l₂.findSome? f := (h l₁ hperm₁).trans (h l₂ hperm₂).symm
    rw [hfirst₁, hfirst₂] at hsame
    exact Option.some.inj hsame
  · intro h l' hperm
    cases hl : l.findSome? f with
    | none =>
      rw [List.findSome?_eq_none_iff] at hl ⊢
      exact fun a ha => hl a (hperm.mem_iff.mp ha)
    | some x =>
      obtain ⟨a, ha, hx⟩ := List.exists_of_findSome?_eq_some hl
      cases hl' : l'.findSome? f with
      | none =>
        rw [List.findSome?_eq_none_iff] at hl'
        rw [hl' a (hperm.mem_iff.mpr ha)] at hx
        cases hx
      | some y =>
        obtain ⟨b, hb, hy⟩ := List.exists_of_findSome?_eq_some hl'
        rw [h b (hperm.mem_iff.mp hb) a ha y x hy hx]

end Go
end IncusDemo
