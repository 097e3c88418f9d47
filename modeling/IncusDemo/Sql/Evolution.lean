/-
  IncusDemo.Sql.Evolution

  What becomes of the rows of a table from one moment to a later one.

  `Evolves r t t'` says that a row of `t'` whose id had been given out in `t`
  descends by `r` from the row that had the id then.  So an id stands for one
  row for good, and a row that was deleted does not come back.
-/

import IncusDemo.Sql.Table

namespace IncusDemo
namespace Sql
namespace Table

variable {α : Type} {r q : α → α → Prop} {t t' t'' : Table α}

/-- The rows of `t` have become those of `t'`, each of them by `r`. -/
structure Evolves (r : α → α → Prop) (t t' : Table α) : Prop where
  seq : t.seq ≤ t'.seq
  origin : ∀ i b, (i, b) ∈ t'.rows → i ≤ t.seq → ∃ a, (i, a) ∈ t.rows ∧ r a b

theorem Evolves.refl (hr : ∀ a, r a a) (t : Table α) : t.Evolves r t :=
  ⟨Nat.le_refl _, fun _ b hb _ => ⟨b, hb, hr b⟩⟩

theorem Evolves.trans (hr : ∀ a b c, r a b → r b c → r a c) (h : t.Evolves r t')
    (h' : t'.Evolves r t'') : t.Evolves r t'' where
  seq := Nat.le_trans h.seq h'.seq
  origin := by
    intro i c hc hi
    obtain ⟨b, hb, hbc⟩ := h'.origin i c hc (Nat.le_trans hi h.seq)
    obtain ⟨a, ha, hab⟩ := h.origin i b hb hi
    exact ⟨a, ha, hr a b c hab hbc⟩

theorem Evolves.mono (hrq : ∀ a b, r a b → q a b) (h : t.Evolves r t') : t.Evolves q t' where
  seq := h.seq
  origin := by
    intro i b hb hi
    obtain ⟨a, ha, hab⟩ := h.origin i b hb hi
    exact ⟨a, ha, hrq a b hab⟩

/-- Two rows with the same id, at two moments. -/
theorem Evolves.of_rows (h : t.Evolves r t') {i : Nat} {a b : α} (ha : (i, a) ∈ t.rows)
    (hb : (i, b) ∈ t'.rows) : r a b := by
  obtain ⟨a', ha', hab⟩ := h.origin i b hb (id_le_seq ha)
  rwa [row_unique ha ha']

/-- A row that was deleted does not come back. -/
theorem Evolves.gone (h : t.Evolves r t') {i : Nat} (hold : i ≤ t.seq) (hgone : ∀ a, (i, a) ∉ t.rows)
    (b : α) : (i, b) ∉ t'.rows := by
  intro hb
  obtain ⟨a, ha, -⟩ := h.origin i b hb hold
  exact hgone a ha

end Table
end Sql
end IncusDemo
