/-
  IncusDemo.Conc.Alone

  Runs in which a single thread moves.  The environment may still act between
  the operations, as long as it neither stops the process nor changes more of
  the world than the relation `drift` admits.

  Such a run is the sequential execution of the thread's program: what `wp`
  says of the program over the thread's view of the system (the world and the
  thread's log) holds where the run has come to (`Run.alone`).
-/

import IncusDemo.Conc.System

namespace IncusDemo
namespace Conc

namespace Machine

variable {Op : Type} {Ret : Op → Type} {World Choice Env Proc : Type}

/-- What a thread that runs alone goes by: the world, and its log. -/
abbrev View (Op : Type) (Ret : Op → Type) (World : Type) := World × Log Op Ret

/-- The steps of a run in which only thread `t` moves, in ways that `C` admits, and the
    environment acts only as `idle` says. -/
def Alone (t : Nat) (C : World → Event Op Ret → Prop) (idle : Env → Prop)
    (s : Sys Op Ret World Proc) : Label Op Ret Env → Prop
  | .thread u e => u = t ∧ C s.world e
  | .env e => idle e

variable (M : Machine Op Ret World Choice Env Proc)

/-- The acts of the environment that `idle` admits stop no process and change the world only as
    `drift` says. -/
structure Drifts (idle : Env → Prop) (drift : World → World → Prop) : Prop where
  refl : ∀ w, drift w w
  trans : ∀ w w' w'', drift w w' → drift w' w'' → drift w w''
  act : ∀ e w w' stop ps, idle e → M.env w e = some (w', stop, ps) → stop = false ∧ drift w w'

/-- `δ` covers what an operation does that thread `t` performs after the world has drifted. -/
def Covers (t : Nat) (C : World → Event Op Ret → Prop) (drift : World → World → Prop)
    (δ : View Op Ret World → (o : Op) → Ret o → View Op Ret World → Prop) : Prop :=
  ∀ w w₁ l o c r w', drift w w₁ → C w₁ ⟨o, r⟩ → M.exec w₁ t o c = some (r, w') →
    δ (w, l) o r (w', ⟨o, r⟩ :: l)

/-- Thread `t` is there, and what it has left meets its obligations and ends in `Q`, but for the
    drift of the world since its last operation. -/
def Holds (t : Nat) (drift : World → World → Prop)
    (δ : View Op Ret World → (o : Op) → Ret o → View Op Ret World → Prop)
    (ok : View Op Ret World → Op → Prop) (Q : View Op Ret World → Prop)
    (s : Sys Op Ret World Proc) : Prop :=
  ∃ th w, s.threads[t]? = some th ∧ th.alive = true ∧ drift w s.world ∧
    th.prog.wp δ ok (fun _ => Q) (w, th.log)

variable {M} {t : Nat} {C : World → Event Op Ret → Prop} {idle : Env → Prop}
  {drift : World → World → Prop} {δ : View Op Ret World → (o : Op) → Ret o → View Op Ret World → Prop}
  {ok : View Op Ret World → Op → Prop} {Q : View Op Ret World → Prop}
  {s s' : Sys Op Ret World Proc}

theorem Holds.step (hd : M.Drifts idle drift) (hδ : M.Covers t C drift δ)
    (h : Holds t drift δ ok Q s) {l : Label Op Ret Env} (hl : Alone t C idle s l)
    (hs : M.Step s l s') : Holds t drift δ ok Q s' := by
  obtain ⟨th, w, hth, halive, hdrift, hwp⟩ := h
  cases hs with
  | thread hth' _ hprog hexec =>
    obtain ⟨rfl, hC⟩ := hl
    rw [hth] at hth'
    cases hth'
    rw [hprog] at hwp
    have hnext := hwp.2 _ _ (hδ w _ th.log _ _ _ _ hdrift hC hexec)
    exact ⟨_, _, M.get_advance_self hth, halive, hd.refl _, hnext⟩
  | env henv =>
    obtain ⟨rfl, hact⟩ := hd.act _ _ _ _ _ hl henv
    refine ⟨th, w, ?_, halive, hd.trans _ _ _ hdrift hact, hwp⟩
    unfold after
    rw [if_neg Bool.false_ne_true, List.getElem?_append_left (List.getElem?_eq_some_iff.mp hth).1,
      hth]

/-- In a run in which a thread moves alone, what `wp` says of the program that it starts with
    holds of what it has left. -/
theorem Run.alone (hd : M.Drifts idle drift) (hδ : M.Covers t C drift δ)
    {th : Thread Op Ret Proc} (hth : s.threads[t]? = some th) (halive : th.alive = true)
    (hwp : th.prog.wp δ ok (fun _ => Q) (s.world, th.log)) (h : M.Run (Alone t C idle) s s') :
    Holds t drift δ ok Q s' :=
  Run.invariant (I := Holds t drift δ ok Q) ⟨th, s.world, hth, halive, hd.refl _, hwp⟩
    (fun _ _ _ hI hl hs => hI.step hd hδ hl hs) h

/-- An operation that the thread is about to perform meets its obligation. -/
theorem Holds.obligation (h : Holds t drift δ ok Q s) {th : Thread Op Ret Proc}
    (hth : s.threads[t]? = some th) {o : Op} {k : Ret o → Prog Op Ret Unit}
    (hprog : th.prog = .op o k) : ∃ w, drift w s.world ∧ ok (w, th.log) o := by
  obtain ⟨th', w, hth', -, hdrift, hwp⟩ := h
  rw [hth] at hth'
  cases hth'
  rw [hprog] at hwp
  exact ⟨w, hdrift, hwp.1⟩

/-- A thread that has come to its end has met its postcondition. -/
theorem Holds.done (h : Holds t drift δ ok Q s) {th : Thread Op Ret Proc}
    (hth : s.threads[t]? = some th) (hprog : th.prog = .ret ()) :
    ∃ w, drift w s.world ∧ Q (w, th.log) := by
  obtain ⟨th', w, hth', -, hdrift, hwp⟩ := h
  rw [hth] at hth'
  cases hth'
  rw [hprog] at hwp
  exact ⟨w, hdrift, hwp⟩

end Machine
end Conc
end IncusDemo
