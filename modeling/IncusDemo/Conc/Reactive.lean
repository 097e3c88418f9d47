/-
  IncusDemo.Conc.Reactive

  A program that only reacts: it handles one event to its end before the next,
  and an event it cannot receive in a state has no step there.

  `Run P` are the runs all of whose events meet `P`.  `Run.invariant` is
  induction on them; `Simulates` says that each event is a move of an abstract
  machine or none at all, and `Simulates.run` that every run then is a path of
  that machine.
-/

import Mathlib.Logic.Relation

namespace IncusDemo
namespace Conc

/-- The state after an event, if the program can receive it. -/
structure Reactive (State Event : Type) where
  step : State → Event → Option State

namespace Reactive

open Relation

variable {State Event Screen : Type} (M : Reactive State Event)

/-- A step with an event that meets `P`. -/
def Step (P : State → Event → Prop) (s s' : State) : Prop :=
  ∃ e, P s e ∧ M.step s e = some s'

/-- Any number of such steps. -/
def Run (P : State → Event → Prop) : State → State → Prop := ReflTransGen (M.Step P)

/-- Any event will do. -/
def anyEvent (_ : State) (_ : Event) : Prop := True

/-- Each event is a move of the abstract machine, or leaves its state as it is. -/
def Simulates (P : State → Event → Prop) (Move : Screen → Screen → Prop)
    (Depicts : State → Screen → Prop) : Prop :=
  ∀ s e s' a, Depicts s a → P s e → M.step s e = some s' → ∃ a', ReflGen Move a a' ∧ Depicts s' a'

variable {M} {P : State → Event → Prop} {s s' : State}

theorem Run.invariant {I : State → Prop} (hrun : M.Run P s s') (h : I s)
    (hstep : ∀ s e s', I s → P s e → M.step s e = some s' → I s') : I s' := by
  induction hrun with
  | refl => exact h
  | tail _ hlast ih =>
    obtain ⟨e, hp, he⟩ := hlast
    exact hstep _ e _ ih hp he

theorem Simulates.run {Move : Screen → Screen → Prop} {Depicts : State → Screen → Prop}
    (hsim : M.Simulates P Move Depicts) {a : Screen} (h : Depicts s a) (hrun : M.Run P s s') :
    ∃ a', ReflTransGen Move a a' ∧ Depicts s' a' := by
  induction hrun with
  | refl => exact ⟨a, .refl, h⟩
  | tail _ hlast ih =>
    obtain ⟨e, hp, he⟩ := hlast
    obtain ⟨b, hpath, hb⟩ := ih
    obtain ⟨c, hmove, hc⟩ := hsim _ e _ b hb hp he
    exact ⟨c, hpath.trans hmove.to_reflTransGen, hc⟩

variable (M) in
/-- The state after some events, all of which pass a test. -/
def handle (test : State → Event → Bool) : State → List Event → Option State
  | s, [] => some s
  | s, e :: es => if test s e then (M.step s e).bind fun s' => handle test s' es else none

theorem handle_append (test : State → Event → Bool) (s : State) (es fs : List Event) :
    M.handle test s (es ++ fs) = (M.handle test s es).bind fun s' => M.handle test s' fs := by
  induction es generalizing s with
  | nil => rfl
  | cons e es ih =>
    simp only [List.cons_append, handle, ih]
    split
    · rw [Option.bind_assoc]
    · rfl

theorem run_of_handle {test : State → Event → Bool} (htest : ∀ s e, test s e = true → P s e)
    {es : List Event} (h : M.handle test s es = some s') : M.Run P s s' := by
  induction es generalizing s with
  | nil =>
    cases h
    exact .refl
  | cons e es ih =>
    unfold handle at h
    split at h
    · rename_i hpass
      obtain ⟨s₁, hstep, hrest⟩ := Option.bind_eq_some_iff.mp h
      exact .head ⟨e, htest s e hpass, hstep⟩ (ih hrest)
    · cases h

/-- A run that ends in a state of which `good` holds, as it is evaluated. -/
theorem run_of_check {test : State → Event → Bool} (htest : ∀ s e, test s e = true → P s e)
    (s : State) (es : List Event) (good : State → Bool)
    (h : (M.handle test s es).any good = true) : ∃ s', M.Run P s s' ∧ good s' = true := by
  obtain ⟨s', hs, hgood⟩ := (Option.any_eq_true _ _).mp h
  exact ⟨s', run_of_handle htest hs, hgood⟩

end Reactive
end Conc
end IncusDemo
