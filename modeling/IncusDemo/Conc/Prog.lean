/-
  IncusDemo.Conc.Prog

  Programs as trees of operations.  A program either returns or performs one
  operation and continues with the operation's result; what an operation does
  to the world is not part of the program.  The same tree is therefore run
  alone against a world (the sequential reading of the code) and as one thread
  among others, where every operation is one atomic step.

  `wp` is the weakest precondition of a program over any transition relation
  `δ` on any state type, with an obligation `ok` at each operation.  Its rules
  (`wp_bind`, `wp_mono`, one rule per branch form) are what a proof about a
  program uses; no proof unfolds `wp` itself.
-/

import Mathlib.Data.Set.Basic

namespace IncusDemo
namespace Conc

/-- Programs over the operations `Op`, where operation `o` answers with a `Ret o`. -/
inductive Prog (Op : Type) (Ret : Op → Type) (α : Type) : Type where
  | ret (a : α)
  | op (o : Op) (k : Ret o → Prog Op Ret α)

namespace Prog

variable {Op : Type} {Ret : Op → Type} {α β σ : Type}

/-- Run `p`, then continue with its result. -/
def bind : Prog Op Ret α → (α → Prog Op Ret β) → Prog Op Ret β
  | .ret a, f => f a
  | .op o k, f => .op o fun r => (k r).bind f

instance : Monad (Prog Op Ret) where
  pure := .ret
  bind := bind

/-- The program that performs `o` and returns its result. -/
def perform (o : Op) : Prog Op Ret (Ret o) := .op o .ret

/-! ## Weakest preconditions -/

/-- `wp δ ok p Q s`: from `s`, every operation `p` performs meets `ok` and every
    return of `p` meets `Q`, whatever states `δ` leads through. -/
def wp (δ : σ → (o : Op) → Ret o → σ → Prop) (ok : σ → Op → Prop) :
    Prog Op Ret α → (α → σ → Prop) → σ → Prop
  | .ret a, Q, s => Q a s
  | .op o k, Q, s => ok s o ∧ ∀ r s', δ s o r s' → wp δ ok (k r) Q s'

variable {δ : σ → (o : Op) → Ret o → σ → Prop} {ok : σ → Op → Prop}
  {Q Q' : α → σ → Prop} {s : σ}

@[simp] theorem wp_ret (a : α) : wp δ ok (.ret a) Q s ↔ Q a s := Iff.rfl

@[simp] theorem wp_pure (a : α) : wp δ ok (pure a) Q s ↔ Q a s := Iff.rfl

@[simp] theorem wp_perform (o : Op) {Q : Ret o → σ → Prop} :
    wp δ ok (perform o) Q s ↔ ok s o ∧ ∀ r s', δ s o r s' → Q r s' := Iff.rfl

/-- Sequencing: the continuation's precondition is the first program's postcondition. -/
@[simp] theorem wp_bind (p : Prog Op Ret α) (f : α → Prog Op Ret β) {Q : β → σ → Prop} :
    wp δ ok (p >>= f) Q s ↔ wp δ ok p (fun a s' => wp δ ok (f a) Q s') s := by
  induction p generalizing s with
  | ret a => exact Iff.rfl
  | op o k ih => exact and_congr Iff.rfl (forall_congr' fun r => forall_congr' fun s' =>
      imp_congr Iff.rfl (ih r))

theorem wp_mono {p : Prog Op Ret α} (h : ∀ a s', Q a s' → Q' a s')
    (hp : wp δ ok p Q s) : wp δ ok p Q' s := by
  induction p generalizing s with
  | ret a => exact h a s hp
  | op o k ih => exact ⟨hp.1, fun r s' hs => ih r (hp.2 r s' hs)⟩

/-- Two obligations that are met are met together. -/
theorem wp_and {ok' ok'' : σ → Op → Prop} {p : Prog Op Ret α}
    (hok : ∀ s o, ok s o → ok' s o → ok'' s o) (hp : wp δ ok p Q s) (hp' : wp δ ok' p Q' s) :
    wp δ ok'' p (fun a s => Q a s ∧ Q' a s) s := by
  induction p generalizing s with
  | ret a => exact ⟨hp, hp'⟩
  | op o k ih => exact ⟨hok s o hp.1 hp'.1, fun r s' hs => ih r (hp.2 r s' hs) (hp'.2 r s' hs)⟩

@[simp] theorem wp_ite (c : Prop) [Decidable c] (p q : Prog Op Ret α) :
    wp δ ok (if c then p else q) Q s ↔ (c → wp δ ok p Q s) ∧ (¬ c → wp δ ok q Q s) := by
  by_cases h : c <;> simp [h]

/-- A loop over a list: `I done rest` holds before every round, of the elements the loop is
    through with and those still to come. -/
theorem wp_forM {ι : Type} {f : ι → Prog Op Ret Unit} {I : List ι → List ι → σ → Prop}
    (hstep : ∀ done x rest s, I done (x :: rest) s →
      wp δ ok (f x) (fun _ => I (done ++ [x]) rest) s) (done : List ι) {xs : List ι}
    (h : I done xs s) :
    wp δ ok (xs.forM f) (fun _ => I (done ++ xs) []) s := by
  induction xs generalizing done s with
  | nil =>
    rw [List.append_nil]
    exact h
  | cons x rest ih =>
    change wp δ ok (f x >>= fun _ => rest.forM f) _ s
    rw [wp_bind]
    refine wp_mono (fun _ s' h' => ?_) (hstep done x rest s h)
    have hrest := ih (done ++ [x]) h'
    rwa [List.append_assoc] at hrest

/-! ## Executions -/

/-- From `s`, the program can come to its end with the result `a` in `s'`. -/
inductive Yields (δ : σ → (o : Op) → Ret o → σ → Prop) : Prog Op Ret α → σ → α → σ → Prop
  | ret (a : α) (s : σ) : Yields δ (.ret a) s a s
  | op {o : Op} {k : Ret o → Prog Op Ret α} {r : Ret o} {a : α} {s s' s'' : σ} (hstep : δ s o r s')
      (hrest : Yields δ (k r) s' a s'') : Yields δ (.op o k) s a s''

variable {s' : σ}

/-- What `wp` says of a program holds where it ends. -/
theorem Yields.of_wp {p : Prog Op Ret α} {a : α} (h : Yields δ p s a s') (hp : wp δ ok p Q s) :
    Q a s' := by
  induction h with
  | ret a s => exact hp
  | op hstep _ ih => exact ih (hp.2 _ _ hstep)

theorem Yields.mono {δ' : σ → (o : Op) → Ret o → σ → Prop} {p : Prog Op Ret α} {a : α}
    (hδ : ∀ s o r s', δ s o r s' → δ' s o r s') (h : Yields δ p s a s') : Yields δ' p s a s' := by
  induction h with
  | ret a s => exact .ret a s
  | op hstep _ ih => exact .op (hδ _ _ _ _ hstep) ih

theorem Yields.invariant {I : σ → Prop} {p : Prog Op Ret α} {a : α} (h : Yields δ p s a s')
    (hI : ∀ s o r s', I s → δ s o r s' → I s') (hs : I s) : I s' := by
  induction h with
  | ret a s => exact hs
  | op hstep _ ih => exact ih (hI _ _ _ _ hs hstep)

theorem yields_perform {o : Op} {r : Ret o} : Yields δ (perform o) s r s' ↔ δ s o r s' := by
  constructor
  · intro h
    cases h with
    | op hstep hrest =>
      cases hrest
      exact hstep
  · exact fun hstep => .op hstep (.ret r s')

theorem yields_bind {p : Prog Op Ret α} {f : α → Prog Op Ret β} {b : β} :
    Yields δ (p >>= f) s b s' ↔ ∃ a s₁, Yields δ p s a s₁ ∧ Yields δ (f a) s₁ b s' := by
  constructor
  · intro h
    induction p generalizing s with
    | ret a => exact ⟨a, s, .ret a s, h⟩
    | op o k ih =>
      cases h with
      | op hstep hrest =>
        obtain ⟨a, s₁, hp, hf⟩ := ih _ hrest
        exact ⟨a, s₁, .op hstep hp, hf⟩
  · rintro ⟨a, s₁, hp, hf⟩
    induction hp with
    | ret a s => exact hf
    | op hstep _ ih => exact .op hstep (ih hf)

/-! ## Programs of one kind of operations -/

/-- Every operation that the program may come to is one of `P`. -/
def Performs (P : Op → Prop) : Prog Op Ret α → Prop
  | .ret _ => True
  | .op o k => P o ∧ ∀ r, Performs P (k r)

variable {P P' : Op → Prop}

theorem performs_pure (a : α) : Performs P (pure a : Prog Op Ret α) := trivial

theorem performs_perform {o : Op} (h : P o) : Performs P (perform o : Prog Op Ret (Ret o)) :=
  ⟨h, fun _ => trivial⟩

theorem Performs.bind {p : Prog Op Ret α} {f : α → Prog Op Ret β} (h : Performs P p)
    (hf : ∀ a, Performs P (f a)) : Performs P (p >>= f) := by
  induction p with
  | ret a => exact hf a
  | op o k ih => exact ⟨h.1, fun r => ih r (h.2 r)⟩

theorem performs_then {o : Op} {f : Ret o → Prog Op Ret α} (h : P o)
    (hf : ∀ r, Performs P (f r)) : Performs P (perform o >>= f) := (performs_perform h).bind hf

theorem performs_ite {c : Prop} [Decidable c] {p q : Prog Op Ret α} (hp : Performs P p)
    (hq : Performs P q) : Performs P (if c then p else q) := by
  split
  · exact hp
  · exact hq

theorem Performs.mono {p : Prog Op Ret α} (h : Performs P p) (hP : ∀ o, P o → P' o) :
    Performs P' p := by
  induction p with
  | ret a => trivial
  | op o k ih => exact ⟨hP o h.1, fun r => ih r (h.2 r)⟩

/-- What operations of this kind keep, the program keeps, and it meets their obligations. -/
theorem Performs.wp {I : σ → Prop} {p : Prog Op Ret α} (h : Performs P p)
    (hok : ∀ s o, I s → P o → ok s o) (hI : ∀ s o r s', I s → P o → δ s o r s' → I s') (hs : I s) :
    wp δ ok p (fun _ => I) s := by
  induction p generalizing s with
  | ret a => exact hs
  | op o k ih => exact ⟨hok s o hs h.1, fun r s' hd => ih r (h.2 r) (hI s o r s' hs h.1 hd)⟩

end Prog
end Conc
end IncusDemo
