/-
  IncusDemo.Sql.Reference

  A column of one table that names rows of another: what FOREIGN KEY declares,
  over any types of rows.  Each statement is met with when it keeps the
  declaration, where nothing enforces it.
-/

import IncusDemo.Sql.Table

namespace IncusDemo
namespace Sql

variable {α β : Type}

namespace Table

/-- The table has a row with this id. -/
def Has (t : Table α) (id : Nat) : Prop := ∃ a, (id, a) ∈ t.rows

variable {t : Table α} {id : Nat}

theorem Has.le_seq (h : t.Has id) : id ≤ t.seq := by
  obtain ⟨a, ha⟩ := h
  exact t.leSeq _ ha

theorem has_insert {a : α} : (t.insert a).Has id ↔ t.Has id ∨ id = t.nextId := by
  simp only [Has, mem_insert]
  constructor
  · rintro ⟨b, hb | ⟨hid, -⟩⟩
    · exact .inl ⟨b, hb⟩
    · exact .inr hid
  · rintro (⟨b, hb⟩ | hid)
    · exact ⟨b, .inl hb⟩
    · exact ⟨a, .inr ⟨hid, rfl⟩⟩

theorem has_update {p : Nat → α → Bool} {f : α → α} : (t.update p f).Has id ↔ t.Has id := by
  simp only [Has, mem_update]
  constructor
  · rintro ⟨b, a, ha, -⟩
    exact ⟨a, ha⟩
  · rintro ⟨a, ha⟩
    exact ⟨_, a, ha, rfl⟩

theorem has_delete {i : Nat} : (t.delete fun j _ => j = i).Has id ↔ t.Has id ∧ id ≠ i := by
  simp only [Has, mem_delete, decide_eq_false_iff_not]
  constructor
  · rintro ⟨a, ha, hne⟩
    exact ⟨⟨a, ha⟩, hne⟩
  · rintro ⟨⟨a, ha⟩, hne⟩
    exact ⟨a, ha, hne⟩

end Table

/-- Every row of `child` names in its column `key` a row of `parent`. -/
def References (key : β → Nat) (child : Table β) (parent : Table α) : Prop :=
  ∀ i b, (i, b) ∈ child.rows → parent.Has (key b)

/-- No row of `child` names row `id`. -/
def Unreferenced (key : β → Nat) (child : Table β) (id : Nat) : Prop :=
  ∀ i b, (i, b) ∈ child.rows → key b ≠ id

section Statements

variable {key : β → Nat} {child : Table β} {parent : Table α}

theorem references_insert_child {b : β} (h : References key child parent) :
    References key (child.insert b) parent ↔ parent.Has (key b) := by
  constructor
  · exact fun h' => h' child.nextId b (Table.mem_insert.mpr (.inr ⟨rfl, rfl⟩))
  · intro hb i c hc
    rcases Table.mem_insert.mp hc with hc | ⟨-, rfl⟩
    · exact h i c hc
    · exact hb

theorem references_update_child {p : Nat → β → Bool} {f : β → β} (hf : ∀ b, key (f b) = key b)
    (h : References key child parent) : References key (child.update p f) parent := by
  intro i c hc
  obtain ⟨b, hb, rfl⟩ := Table.mem_update.mp hc
  split
  · rw [hf]
    exact h i b hb
  · exact h i b hb

theorem references_insert_parent {a : α} (h : References key child parent) :
    References key child (parent.insert a) :=
  fun i b hb => Table.has_insert.mpr (.inl (h i b hb))

theorem references_update_parent {p : Nat → α → Bool} {f : α → α}
    (h : References key child parent) : References key child (parent.update p f) :=
  fun i b hb => Table.has_update.mpr (h i b hb)

/-- Without a cascade, a row may be deleted exactly when none refers to it. -/
theorem references_delete_parent {id : Nat} (h : References key child parent) :
    References key child (parent.delete fun j _ => j = id) ↔ Unreferenced key child id := by
  constructor
  · exact fun h' i b hb => (Table.has_delete.mp (h' i b hb)).2
  · exact fun hno i b hb => Table.has_delete.mpr ⟨h i b hb, hno i b hb⟩

end Statements
end Sql
end IncusDemo
