/-
  IncusDemo.Conc.Eval

  A program evaluated on its own: every operation takes the same choice, up to
  the first one that it does not fit.  `events` are the operations performed
  until then, with their answers, and `value` is the result, if the program
  comes to its end.

  An evaluation is a run of the system in which only this thread moves
  (`run_events`), so what is computed here is what a thread really does.
-/

import IncusDemo.Conc.Alone

namespace IncusDemo
namespace Conc

namespace Machine

variable {Op : Type} {Ret : Op → Type} {World Choice Env Proc : Type} {α β : Type}

/-- The operations of the program on its own, as thread `t` under the choice `c`, the first one
    first. -/
def events (M : Machine Op Ret World Choice Env Proc) (t : Nat) (c : Choice) :
    Prog Op Ret α → World → List (Event Op Ret)
  | .ret _, _ => []
  | .op o k, w =>
    match M.exec w t o c with
    | none => []
    | some (r, w') => ⟨o, r⟩ :: events M t c (k r) w'

/-- The result of the program on its own, and the world it leaves. -/
def value (M : Machine Op Ret World Choice Env Proc) (t : Nat) (c : Choice) :
    Prog Op Ret α → World → Option (α × World)
  | .ret a, w => some (a, w)
  | .op o k, w =>
    match M.exec w t o c with
    | none => none
    | some (r, w') => value M t c (k r) w'

variable {M : Machine Op Ret World Choice Env Proc} {t : Nat} {c : Choice} {w w' : World}

@[simp] theorem events_pure (a : α) : M.events t c (pure a) w = [] := rfl

@[simp] theorem value_pure (a : α) : M.value t c (pure a) w = some (a, w) := rfl

theorem events_perform {o : Op} {r : Ret o} (h : M.exec w t o c = some (r, w')) :
    M.events t c (Prog.perform o) w = [⟨o, r⟩] := by
  simp only [events, Prog.perform, h]

theorem value_perform {o : Op} {r : Ret o} (h : M.exec w t o c = some (r, w')) :
    M.value t c (Prog.perform o) w = some (r, w') := by
  simp only [value, Prog.perform, h]

theorem events_then {o : Op} {r : Ret o} {f : Ret o → Prog Op Ret α}
    (h : M.exec w t o c = some (r, w')) :
    M.events t c (Prog.perform o >>= f) w = ⟨o, r⟩ :: M.events t c (f r) w' := by
  change M.events t c (Prog.op o f) w = _
  simp only [events, h]

theorem value_bind (p : Prog Op Ret α) (f : α → Prog Op Ret β) :
    M.value t c (p >>= f) w = (M.value t c p w).bind fun x => M.value t c (f x.1) x.2 := by
  induction p generalizing w with
  | ret a => rfl
  | op o k ih =>
    change M.value t c (Prog.op o fun r => k r >>= f) w = _
    simp only [value]
    cases M.exec w t o c with
    | none => rfl
    | some x => exact ih x.1

theorem value_then {o : Op} {r : Ret o} {f : Ret o → Prog Op Ret α}
    (h : M.exec w t o c = some (r, w')) :
    M.value t c (Prog.perform o >>= f) w = M.value t c (f r) w' := by
  rw [value_bind, value_perform h]
  rfl

/-- A program performs only its kind of operations. -/
theorem mem_events {P : Op → Prop} {p : Prog Op Ret α} (hp : p.Performs P) {e : Event Op Ret}
    (he : e ∈ M.events t c p w) : P e.op := by
  induction p generalizing w with
  | ret a => cases he
  | op o k ih =>
    simp only [events] at he
    split at he
    · cases he
    · rcases List.mem_cons.mp he with rfl | he
      · exact hp.1
      · exact ih _ (hp.2 _) he

/-- What a program does on its own, a thread that runs it does in a run in which it moves alone. -/
theorem run_events {s : Sys Op Ret World Proc} {th : Thread Op Ret Proc}
    (hth : s.threads[t]? = some th) (halive : th.alive = true) :
    ∃ s' th', M.Run (Alone t (fun _ _ => True) fun _ => False) s s' ∧ s'.threads[t]? = some th' ∧
      th'.log = (M.events t c th.prog s.world).reverse ++ th.log ∧
      ∀ x, M.value t c th.prog s.world = some x → th'.prog = .ret x.1 ∧ s'.world = x.2 := by
  obtain ⟨proc, alive, l, prog⟩ := th
  induction prog generalizing s l with
  | ret a => exact ⟨s, _, .refl, hth, rfl, fun x hx => by cases hx; exact ⟨rfl, rfl⟩⟩
  | op o k ih =>
    simp only [events, value]
    cases hexec : M.exec s.world t o c with
    | none => exact ⟨s, _, .refl, hth, rfl, fun x hx => by cases hx⟩
    | some x =>
      obtain ⟨r, w⟩ := x
      have hstep : M.Step s (.thread t ⟨o, r⟩) _ := .thread hth halive rfl hexec
      obtain ⟨s', th', hrun, hth', hlog, hvalue⟩ := ih r (l := ⟨o, r⟩ :: l)
        (s := ⟨w, M.advance s.threads t _ ⟨o, r⟩ (k r)⟩) (M.get_advance_self hth) halive
      refine ⟨s', th', .head ⟨.thread t ⟨o, r⟩, ⟨rfl, trivial⟩, hstep⟩ hrun, hth', ?_, hvalue⟩
      rw [hlog]
      simp

/-- The result of the program on its own, with the world and the log it leaves, when every operation
    takes the choice that `f` makes in view of the world. -/
def outcome (M : Machine Op Ret World Choice Env Proc) (t : Nat) (f : World → Op → Choice) :
    Prog Op Ret α → World → Log Op Ret → Option (α × View Op Ret World)
  | .ret a, w, l => some (a, w, l)
  | .op o k, w, l =>
    match M.exec w t o (f w o) with
    | none => none
    | some (r, w') => outcome M t f (k r) w' (⟨o, r⟩ :: l)

/-- What has been computed is an execution. -/
theorem yields_of_outcome {f : World → Op → Choice}
    {δ : View Op Ret World → (o : Op) → Ret o → View Op Ret World → Prop} {l : Log Op Ret}
    {x : α × View Op Ret World}
    (hδ : ∀ w l o r w', M.exec w t o (f w o) = some (r, w') → δ (w, l) o r (w', ⟨o, r⟩ :: l))
    (h : M.outcome t f p w l = some x) : p.Yields δ (w, l) x.1 x.2 := by
  induction p generalizing w l with
  | ret a =>
    cases h
    exact .ret _ _
  | op o k ih =>
    simp only [outcome] at h
    split at h
    · cases h
    · rename_i r w' hexec
      exact .op (hδ _ _ _ _ _ hexec) (ih r h)

end Machine
end Conc
end IncusDemo
