/-
  IncusDemo.Sql.Table

  A table with an `INTEGER PRIMARY KEY AUTOINCREMENT` column, over any type of
  row.  Rows stand in the order of their ids, no id is used twice, and the id
  of a deleted row is never given out again: the fields `sorted`, `leSeq`
  and `pos` hold of every table, so no statement can break them.  The first id is 1.
-/

import Mathlib.Data.List.Nodup

namespace IncusDemo
namespace Sql

/-- Rows with their ids, and the largest id ever given out. -/
structure Table (α : Type) where
  rows : List (Nat × α)
  seq : Nat
  sorted : rows.Pairwise fun a b => a.1 < b.1
  leSeq : ∀ r ∈ rows, r.1 ≤ seq
  pos : ∀ r ∈ rows, r.1 ≠ 0

namespace Table

variable {α : Type}

/-- The table that `CREATE TABLE` makes. -/
def empty : Table α := ⟨[], 0, List.Pairwise.nil, by simp, by simp⟩

/-- The id the next `INSERT` gives out. -/
def nextId (t : Table α) : Nat := t.seq + 1

/-- `INSERT`: the new row gets `nextId`. -/
def insert (t : Table α) (a : α) : Table α where
  rows := t.rows ++ [(t.nextId, a)]
  seq := t.nextId
  sorted := by
    simp only [List.pairwise_append, t.sorted, List.pairwise_singleton, List.mem_singleton, true_and]
    rintro r hr _ rfl
    exact Nat.lt_succ_of_le (t.leSeq r hr)
  leSeq := by
    intro r hr
    rcases List.mem_append.mp hr with h | h
    · exact Nat.le_succ_of_le (t.leSeq r h)
    · simp only [List.mem_singleton] at h
      simp [h]
  pos := by
    intro r hr
    rcases List.mem_append.mp hr with h | h
    · exact t.pos r h
    · simp only [List.mem_singleton] at h
      simp [h, nextId]

/-- `UPDATE ... SET f WHERE p`. -/
def update (t : Table α) (p : Nat → α → Bool) (f : α → α) : Table α where
  rows := t.rows.map fun r => if p r.1 r.2 then (r.1, f r.2) else r
  seq := t.seq
  sorted := by
    rw [List.pairwise_map]
    apply t.sorted.imp
    intro a b h
    split <;> split <;> exact h
  leSeq := by
    intro r hr
    obtain ⟨a, ha, rfl⟩ := List.mem_map.mp hr
    split <;> exact t.leSeq a ha
  pos := by
    intro r hr
    obtain ⟨a, ha, rfl⟩ := List.mem_map.mp hr
    split <;> exact t.pos a ha

/-- `DELETE ... WHERE p`. -/
def delete (t : Table α) (p : Nat → α → Bool) : Table α where
  rows := t.rows.filter fun r => ! p r.1 r.2
  seq := t.seq
  sorted := t.sorted.filter _
  leSeq := fun r hr => t.leSeq r (List.mem_filter.mp hr).1
  pos := fun r hr => t.pos r (List.mem_filter.mp hr).1

/-- `SELECT COUNT(*) ... WHERE p`. -/
def count (t : Table α) (p : Nat → α → Bool) : Nat := t.rows.countP fun r => p r.1 r.2

/-- `SELECT * ... WHERE p`, in the order of the ids. -/
def select (t : Table α) (p : Nat → α → Bool) : List (Nat × α) := t.rows.filter fun r => p r.1 r.2

/-! ## Rows and their ids -/

/-- The ids of the table are pairwise different. -/
theorem nodup_ids (t : Table α) : (t.rows.map Prod.fst).Nodup := by
  rw [List.nodup_iff_pairwise_ne, List.pairwise_map]
  exact t.sorted.imp fun h => Nat.ne_of_lt h

/-- An id determines its row. -/
theorem row_unique {t : Table α} {i : Nat} {a b : α} (ha : (i, a) ∈ t.rows)
    (hb : (i, b) ∈ t.rows) : a = b := by
  exact congrArg Prod.snd (List.inj_on_of_nodup_map t.nodup_ids ha hb rfl)

theorem id_le_seq {t : Table α} {i : Nat} {a : α} (h : (i, a) ∈ t.rows) : i ≤ t.seq :=
  t.leSeq _ h

/-! ## What a statement does to the rows -/

theorem mem_insert {t : Table α} {a b : α} {i : Nat} :
    (i, b) ∈ (t.insert a).rows ↔ (i, b) ∈ t.rows ∨ i = t.nextId ∧ b = a := by
  simp [insert]

theorem mem_update {t : Table α} {p : Nat → α → Bool} {f : α → α} {i : Nat} {b : α} :
    (i, b) ∈ (t.update p f).rows ↔
      ∃ a, (i, a) ∈ t.rows ∧ b = if p i a then f a else a := by
  simp only [update, List.mem_map, Prod.exists]
  constructor
  · rintro ⟨j, a, ha, h⟩
    split at h <;> cases h
    · rename_i hp
      exact ⟨a, ha, by simp [hp]⟩
    · rename_i hp
      exact ⟨b, ha, by simp [hp]⟩
  · rintro ⟨a, ha, rfl⟩
    refine ⟨i, a, ha, ?_⟩
    split <;> rfl

theorem mem_delete {t : Table α} {p : Nat → α → Bool} {i : Nat} {a : α} :
    (i, a) ∈ (t.delete p).rows ↔ (i, a) ∈ t.rows ∧ p i a = false := by
  simp [delete]

theorem mem_select {t : Table α} {p : Nat → α → Bool} {i : Nat} {a : α} :
    (i, a) ∈ t.select p ↔ (i, a) ∈ t.rows ∧ p i a = true := by
  simp [select]

theorem select_insert (t : Table α) (a : α) (p : Nat → α → Bool) :
    (t.insert a).select p = t.select p ++ if p t.nextId a then [(t.nextId, a)] else [] := by
  simp [select, insert, List.filter_append, List.filter_singleton]

/-- A `SELECT` after an `UPDATE` that does not change which rows are selected. -/
theorem select_update {t : Table α} {p q : Nat → α → Bool} {f : α → α}
    (h : ∀ i a, p i a = true → q i (f a) = q i a) :
    (t.update p f).select q = (t.select q).map fun r => if p r.1 r.2 then (r.1, f r.2) else r := by
  unfold select update
  rw [List.filter_map]
  congr 1
  refine List.filter_congr fun r _ => ?_
  simp only [Function.comp_apply]
  split
  · rename_i hp
    exact h r.1 r.2 hp
  · rfl

theorem nextId_not_mem (t : Table α) (a : α) : (t.nextId, a) ∉ t.rows := fun h =>
  absurd (id_le_seq h) (by simp [nextId])

/-! ## Counting -/

theorem count_insert (t : Table α) (a : α) (p : Nat → α → Bool) :
    (t.insert a).count p = t.count p + if p t.nextId a then 1 else 0 := by
  simp [count, insert, List.countP_append, List.countP_singleton]

theorem count_delete_le (t : Table α) (p q : Nat → α → Bool) : (t.delete p).count q ≤ t.count q :=
  List.Sublist.countP_le List.filter_sublist

/-- An `UPDATE` that takes no row into `q` does not raise the count of `q`. -/
theorem count_update_le {t : Table α} {p q : Nat → α → Bool} {f : α → α}
    (h : ∀ i a, (i, a) ∈ t.rows → p i a = true → q i (f a) = true → q i a = true) :
    (t.update p f).count q ≤ t.count q := by
  unfold count update
  rw [List.countP_map]
  apply List.countP_mono_left
  rintro ⟨i, a⟩ hr hq
  simp only [Function.comp_apply] at hq
  split at hq
  · rename_i hp
    exact h i a hr hp hq
  · exact hq

/-- The count after an `UPDATE` of a single row: the other rows, and the row as it is then. -/
theorem count_update_row {t : Table α} {i : Nat} {a : α} {q : Nat → α → Bool} {f : α → α}
    (hr : (i, a) ∈ t.rows) :
    (t.update (fun j _ => j = i) f).count q =
      t.count (fun j b => j != i && q j b) + if q i (f a) then 1 else 0 := by
  obtain ⟨l₁, l₂, hl⟩ := List.append_of_mem hr
  have hne : ∀ r ∈ l₁ ++ l₂, r.1 ≠ i := by
    have hs := t.nodup_ids
    rw [hl] at hs
    simp only [List.map_append, List.map_cons, List.nodup_append, List.nodup_cons] at hs
    intro r hr' he
    rcases List.mem_append.mp hr' with h | h
    · exact hs.2.2 r.1 (List.mem_map_of_mem h) i (List.mem_cons_self ..) he
    · exact hs.2.1.1 (List.mem_map.mpr ⟨r, h, he⟩)
  have hkeep : ∀ l : List (Nat × α), (∀ r ∈ l, r.1 ≠ i) →
      (l.map fun r => if decide (r.1 = i) then (r.1, f r.2) else r).countP (fun r => q r.1 r.2) =
        l.countP fun r => r.1 != i && q r.1 r.2 := by
    intro l h
    rw [List.countP_map]
    refine List.countP_congr fun r hr' => ?_
    simp [h r hr']
  unfold count update
  simp only [hl, List.map_append, List.map_cons, decide_true, if_true, List.countP_append,
    List.countP_cons]
  rw [hkeep l₁ fun r h => hne r (List.mem_append_left _ h),
    hkeep l₂ fun r h => hne r (List.mem_append_right _ h)]
  simp only [bne_self_eq_false, Bool.false_and, Bool.false_eq_true, if_false]
  omega

/-- The next id is in no row, so leaving it out of a count changes nothing. -/
theorem count_ne_nextId (t : Table α) (q : Nat → α → Bool) :
    t.count (fun j b => j != t.nextId && q j b) = t.count q := by
  unfold count
  refine List.countP_congr fun r hr => ?_
  have hne : r.1 ≠ t.nextId := fun h => t.nextId_not_mem r.2 (h ▸ hr)
  simp [hne]

/-- When only one row meets `p`, the count of `p` is one. -/
theorem count_eq_one {t : Table α} {p : Nat → α → Bool} {i : Nat} {a : α} (hr : (i, a) ∈ t.rows)
    (hp : p i a = true) (honly : ∀ j b, (j, b) ∈ t.rows → p j b = true → j = i) :
    t.count p = 1 := by
  have hnodup : ((t.select p).map Prod.fst).Nodup := t.nodup_ids.sublist (List.filter_sublist.map _)
  have hall : ∀ j ∈ (t.select p).map Prod.fst, j = i := by
    intro j hj
    obtain ⟨⟨j', b⟩, hb, rfl⟩ := List.mem_map.mp hj
    obtain ⟨hb, hpb⟩ := mem_select.mp hb
    exact honly j' b hb hpb
  have hmem : i ∈ (t.select p).map Prod.fst := List.mem_map_of_mem (mem_select.mpr ⟨hr, hp⟩)
  have hone : (t.select p).map Prod.fst = [i] := by
    apply List.Perm.eq_singleton
    refine (List.perm_ext_iff_of_nodup hnodup (List.nodup_singleton i)).mpr fun j => ?_
    exact ⟨fun hj => List.mem_singleton.mpr (hall j hj), fun hj => List.mem_singleton.mp hj ▸ hmem⟩
  have hlength := congrArg List.length hone
  rw [List.length_map] at hlength
  unfold count
  rw [List.countP_eq_length_filter]
  exact hlength

/-- A count of one is that of a single row. -/
theorem of_count_eq_one {t : Table α} {p : Nat → α → Bool} (h : t.count p = 1) :
    ∃ i a, (i, a) ∈ t.rows ∧ p i a = true ∧ ∀ j b, (j, b) ∈ t.rows → p j b = true → j = i := by
  unfold count at h
  rw [List.countP_eq_length_filter, List.length_eq_one_iff] at h
  obtain ⟨⟨i, a⟩, hrow⟩ := h
  have hall : ∀ j b, (j, b) ∈ t.rows ∧ p j b = true ↔ (j, b) = (i, a) := by
    intro j b
    have hmem := @List.mem_filter _ (fun r => p r.1 r.2) t.rows (j, b)
    rwa [hrow, List.mem_singleton, Iff.comm] at hmem
  obtain ⟨hmem, hp⟩ := (hall i a).mpr rfl
  exact ⟨i, a, hmem, hp, fun j b hb hpb => congrArg Prod.fst ((hall j b).mp ⟨hb, hpb⟩)⟩

/-- An `UPDATE` of a row that is not there changes nothing. -/
theorem update_missing {t : Table α} {i : Nat} {f : α → α} (h : ∀ a, (i, a) ∉ t.rows) :
    (t.update (fun j _ => j = i) f).rows = t.rows := by
  unfold update
  conv_rhs => rw [← List.map_id t.rows]
  refine List.map_congr_left fun r hr => ?_
  have hne : r.1 ≠ i := fun he => h r.2 (he ▸ hr)
  simp [hne]

/-- At most one of the counted rows has a given id. -/
theorem count_le_others (t : Table α) (i : Nat) (q : Nat → α → Bool) :
    t.count q ≤ t.count (fun j b => j != i && q j b) + 1 := by
  have hsplit : ∀ l : List (Nat × α), l.countP (fun r => q r.1 r.2) ≤
      l.countP (fun r => r.1 != i && q r.1 r.2) + (l.map Prod.fst).count i := by
    intro l
    induction l with
    | nil => simp
    | cons r l ih =>
      simp only [List.countP_cons, List.map_cons, List.count_cons]
      by_cases hi : r.1 = i
      · simp only [hi, bne_self_eq_false, Bool.false_and, Bool.false_eq_true, if_false,
          beq_self_eq_true, if_true]
        split <;> omega
      · simp only [bne_iff_ne.mpr hi, Bool.true_and, beq_iff_eq, hi, if_false]
        omega
  have hone : (t.rows.map Prod.fst).count i ≤ 1 := List.nodup_iff_count_le_one.mp t.nodup_ids i
  exact Nat.le_trans (hsplit t.rows) (Nat.add_le_add_left hone _)

/-- A `DELETE` of a single row lowers a count by one at most. -/
theorem count_le_delete (t : Table α) (i : Nat) (q : Nat → α → Bool) :
    t.count q ≤ (t.delete fun j _ => j = i).count q + 1 := by
  have hdelete : (t.delete fun j _ => j = i).count q = t.count fun j b => j != i && q j b := by
    unfold count delete
    rw [List.countP_filter]
    refine List.countP_congr fun r _ => ?_
    by_cases hi : r.1 = i <;> simp [hi]
  rw [hdelete]
  exact count_le_others t i q

/-- An `UPDATE` of a single row lowers a count by one at most. -/
theorem count_le_update (t : Table α) (i : Nat) (q : Nat → α → Bool) (f : α → α) :
    t.count q ≤ (t.update (fun j _ => j = i) f).count q + 1 := by
  by_cases hrow : ∃ a, (i, a) ∈ t.rows
  · obtain ⟨a, ha⟩ := hrow
    rw [count_update_row ha]
    have hle := count_le_others t i q
    omega
  · have hsame : (t.update (fun j _ => j = i) f).count q = t.count q :=
      congrArg (List.countP _) (update_missing fun a ha => hrow ⟨a, ha⟩)
    rw [hsame]
    exact Nat.le_succ _

/-! ## Tables with the same rows -/

/-- The rows and the largest id are all there is to a table. -/
theorem eq_of_rows {t t' : Table α} (hrows : t.rows = t'.rows) (hseq : t.seq = t'.seq) : t = t' := by
  cases t
  cases t'
  cases hrows
  cases hseq
  rfl

/-- An `UPDATE` that comes before one that covers it and does the same makes no difference. -/
theorem update_absorb {t : Table α} {p q : Nat → α → Bool} {f : α → α} (hf : ∀ a, f (f a) = f a)
    (hcovers : ∀ i a, q i a = true → p i a = true) (hstable : ∀ i a, p i (f a) = p i a) :
    (t.update q f).update p f = t.update p f := by
  refine eq_of_rows ?_ rfl
  unfold update
  simp only [List.map_map]
  refine List.map_congr_left fun r _ => ?_
  simp only [Function.comp_apply]
  by_cases hq : q r.1 r.2 = true
  · have hp := hcovers r.1 r.2 hq
    simp [hq, hp, hstable, hf]
  · simp [hq]

/-- An `UPDATE` that leaves each of its rows as it is changes nothing. -/
theorem update_eq_self {t : Table α} {p : Nat → α → Bool} {f : α → α}
    (h : ∀ i a, (i, a) ∈ t.rows → p i a = true → f a = a) : t.update p f = t := by
  refine eq_of_rows ?_ rfl
  unfold update
  conv_rhs => rw [← List.map_id t.rows]
  refine List.map_congr_left fun r hr => ?_
  by_cases hp : p r.1 r.2 = true
  · simp [hp, h r.1 r.2 hr hp]
  · simp [hp]

/-- An `UPDATE` that takes no row into `q` or out of it keeps the count. -/
theorem count_update_eq {t : Table α} {p q : Nat → α → Bool} {f : α → α}
    (h : ∀ i a, (i, a) ∈ t.rows → p i a = true → q i (f a) = q i a) :
    (t.update p f).count q = t.count q := by
  unfold count update
  rw [List.countP_map]
  refine List.countP_congr fun r hr => ?_
  simp only [Function.comp_apply]
  by_cases hp : p r.1 r.2 = true
  · simp [hp, h r.1 r.2 hr hp]
  · simp [hp]

/-- A row and the others make up a count. -/
theorem count_row {t : Table α} {i : Nat} {a : α} (hr : (i, a) ∈ t.rows) (q : Nat → α → Bool) :
    t.count q = t.count (fun j b => j != i && q j b) + if q i a then 1 else 0 := by
  have hsame : t.update (fun j _ => j = i) id = t := update_eq_self fun _ _ _ _ => rfl
  have hsplit := @count_update_row _ t i a q id hr
  rwa [hsame] at hsplit

/-- The count after a `DELETE` of a single row: the others. -/
theorem count_delete_row (t : Table α) (i : Nat) (q : Nat → α → Bool) :
    (t.delete fun j _ => j = i).count q = t.count fun j b => j != i && q j b := by
  unfold count delete
  rw [List.countP_filter]
  refine List.countP_congr fun r _ => ?_
  by_cases hi : r.1 = i <;> simp [hi]

end Table
end Sql
end IncusDemo
