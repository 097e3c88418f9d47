/-
  IncusDemo.Conc.Rely

  Rely and guarantee.  Every move changes the world only as `G` says; `J` holds
  of the world, and `K` of the world and the log of each thread.  What a thread
  knows is not disturbed by the others as long as `K` is stable under their
  moves (`Run.relies`).

  A closed machine starts and stops no threads.  There every run can be brought
  to its end when the threads can be taken one after the other
  (`Run.complete`).
-/

import IncusDemo.Conc.System

namespace IncusDemo
namespace Conc

namespace Machine

variable {Op : Type} {Ret : Op → Type} {World Choice Env Proc : Type}

/-- The steps of threads meet `C`; the environment acts as it likes. -/
def Moves (C : World → Event Op Ret → Prop) (s : Sys Op Ret World Proc) : Label Op Ret Env → Prop
  | .thread _ e => C s.world e
  | .env _ => True

/-- The mover guarantees `G` (`none` is the environment), and what thread `u` knows is stable
    under the moves of the others. -/
structure Relies (M : Machine Op Ret World Choice Env Proc) (C : World → Event Op Ret → Prop)
    (ok : Proc → Log Op Ret → Op → Prop) (J : World → Prop) (G : Option Nat → World → World → Prop)
    (K : World → Nat → Proc → Log Op Ret → Prop) : Prop where
  keeps : ∀ m w w', J w → G m w w' → J w'
  stable : ∀ m u w w' q l, m ≠ some u → J w → G m w w' → K w u q l → K w' u q l
  own : ∀ w t p l o c r w', J w → K w t p l → ok p l o → C w ⟨o, r⟩ →
    M.exec w t o c = some (r, w') →
    G (some t) w w' ∧ K w' t p (⟨o, r⟩ :: l) ∧ ∀ u, ∀ q ∈ M.spawn o, K w' u q []
  act : ∀ w e w' stop ps, J w → M.env w e = some (w', stop, ps) →
    G none w w' ∧ ∀ u, ∀ q ∈ ps, K w' u q []

variable {M : Machine Op Ret World Choice Env Proc} {C : World → Event Op Ret → Prop}
  {ok : Proc → Log Op Ret → Op → Prop} {fin : Proc → Log Op Ret → Prop} {J : World → Prop}
  {G : Option Nat → World → World → Prop} {K : World → Nat → Proc → Log Op Ret → Prop}

/-- `J` holds of the world and `K` of every thread. -/
structure Knows (J : World → Prop) (K : World → Nat → Proc → Log Op Ret → Prop)
    (s : Sys Op Ret World Proc) : Prop where
  world : J s.world
  thread : ∀ (u : Nat) th, s.threads[u]? = some th → K s.world u th.proc th.log

theorem Knows.step (h : M.Relies C ok J G K) {s s' : Sys Op Ret World Proc}
    {l : Label Op Ret Env} (hf : AllFollow ok fin s) (hknows : Knows J K s)
    (hl : Moves C s l) (hs : M.Step s l s') : Knows J K s' := by
  cases hs with
  | thread hth halive hprog hexec =>
    obtain ⟨hG, hown, hspawn⟩ := h.own _ _ _ _ _ _ _ _ hknows.world (hknows.thread _ _ hth)
      ((hf _ _ hth).op halive hprog) hl hexec
    refine ⟨h.keeps _ _ _ hknows.world hG, fun u th' hu => ?_⟩
    rcases M.get_advance hth hu with ⟨rfl, rfl⟩ | ⟨hne, hu⟩ | ⟨q, hq, rfl⟩
    · exact hown
    · exact h.stable _ u _ _ _ _ (fun heq => hne (Option.some.inj heq).symm) hknows.world hG
        (hknows.thread u th' hu)
    · exact hspawn u q hq
  | env henv =>
    obtain ⟨hG, hstart⟩ := h.act _ _ _ _ _ hknows.world henv
    have hold : ∀ (u : Nat) th, s.threads[u]? = some th → K _ u th.proc th.log := fun u th hu =>
      h.stable none u _ _ _ _ nofun hknows.world hG (hknows.thread u th hu)
    refine ⟨h.keeps _ _ _ hknows.world hG, fun u th' hu => ?_⟩
    rcases M.get_after hu with ⟨-, hth⟩ | ⟨-, th, hth, rfl⟩ | ⟨q, hq, rfl⟩
    · exact hold u th' hth
    · exact hold u th hth
    · exact hstart u q hq

/-- What the threads know holds in every state of a run. -/
theorem Run.relies (h : M.Relies C ok J G K) (hbody : ∀ p, Follows ok fin (M.start p))
    {s s' : Sys Op Ret World Proc} (hf : AllFollow ok fin s) (hknows : Knows J K s)
    (hrun : M.Run (Moves C) s s') : AllFollow ok fin s' ∧ Knows J K s' :=
  Run.invariant (I := fun s => AllFollow ok fin s ∧ Knows J K s) ⟨hf, hknows⟩
    (fun _ _ _ hI hl hs => ⟨hI.1.step hbody hs, hI.2.step h hI.1 hl hs⟩) hrun

/-! ## Closed machines -/

variable (M) in
/-- No operation starts a thread, and the environment neither starts nor stops any. -/
structure Closed : Prop where
  spawn : ∀ o, M.spawn o = []
  act : ∀ w e w' stop ps, M.env w e = some (w', stop, ps) → stop = false ∧ ps = []

/-- All threads have come to their end. -/
def Finished (s : Sys Op Ret World Proc) : Prop := ∀ th ∈ s.threads, th.prog = .ret ()

/-- What the threads run, and whether their process exists. -/
def procs (s : Sys Op Ret World Proc) : List (Proc × Bool) :=
  s.threads.map fun th => (th.proc, th.alive)

variable {s s' : Sys Op Ret World Proc} {l : Label Op Ret Env}
  {D : Sys Op Ret World Proc → Label Op Ret Env → Prop}

theorem Closed.advance_eq (h : M.Closed) (threads : List (Thread Op Ret Proc)) (t : Nat)
    (th : Thread Op Ret Proc) (e : Event Op Ret) (p : Prog Op Ret Unit) :
    M.advance threads t th e p = threads.set t { th with log := e :: th.log, prog := p } := by
  unfold advance
  rw [h.spawn, List.map_nil, List.append_nil]

theorem Closed.after_eq (h : M.Closed) {w w' : World} {e : Env} {stop : Bool} {ps : List Proc}
    (henv : M.env w e = some (w', stop, ps)) (threads : List (Thread Op Ret Proc)) :
    M.after threads stop ps = threads := by
  obtain ⟨rfl, rfl⟩ := h.act _ _ _ _ _ henv
  simp [after]

theorem Closed.procs_step (h : M.Closed) (hs : M.Step s l s') : procs s' = procs s := by
  cases hs with
  | thread hth _ _ _ =>
    obtain ⟨ht, rfl⟩ := List.getElem?_eq_some_iff.mp hth
    have hlt : _ < (procs s).length := (List.length_map _).symm ▸ ht
    have hself := List.set_getElem_self hlt
    rw [procs, h.advance_eq, List.map_set]
    simpa only [procs, List.getElem_map] using hself
  | env henv => rw [procs, procs, h.after_eq henv]

theorem Closed.procs_run (h : M.Closed) (hrun : M.Run D s s') : procs s' = procs s := by
  induction hrun with
  | refl => rfl
  | tail _ hs ih =>
    obtain ⟨l, -, hs⟩ := hs
    exact (h.procs_step hs).trans ih

/-- A thread that has come to its end stays as it is. -/
theorem Closed.ended_run (h : M.Closed) {u : Nat} {th : Thread Op Ret Proc}
    (hth : s.threads[u]? = some th) (hend : th.prog = .ret ()) (hrun : M.Run D s s') :
    s'.threads[u]? = some th := by
  induction hrun with
  | refl => exact hth
  | tail _ hs ih =>
    obtain ⟨l, -, hs⟩ := hs
    cases hs with
    | thread hth' _ hprog _ =>
      rw [h.advance_eq, List.getElem?_set_ne]
      · exact ih
      · rintro rfl
        cases hth'.symm.trans ih
        cases hprog.symm.trans hend
    | env henv => rwa [h.after_eq henv]

/-- A thread that can go on wherever `I` holds, and keeps it, comes to its end. -/
theorem Run.finish {I : Sys Op Ret World Proc → Prop} {t : Nat}
    (hgo : ∀ s th o k, I s → s.threads[t]? = some th → th.prog = .op o k → ∃ r w,
      D s (.thread t ⟨o, r⟩) ∧
      M.Step s (.thread t ⟨o, r⟩) ⟨w, M.advance s.threads t th ⟨o, r⟩ (k r)⟩ ∧
      I ⟨w, M.advance s.threads t th ⟨o, r⟩ (k r)⟩)
    {th : Thread Op Ret Proc} (hI : I s) (hth : s.threads[t]? = some th) :
    ∃ s', M.Run D s s' ∧ I s' ∧
      ∃ th' : Thread Op Ret Proc, s'.threads[t]? = some th' ∧ th'.prog = .ret () := by
  obtain ⟨p, alive, log, prog⟩ := th
  induction prog generalizing s log with
  | ret a => exact ⟨s, .refl, hI, _, hth, rfl⟩
  | op o k ih =>
    obtain ⟨r, w, hD, hs, hI'⟩ := hgo s _ o k hI hth rfl
    obtain ⟨s', hrun, hend⟩ := ih r hI' _ (M.get_advance_self hth)
    exact ⟨s', .head ⟨_, hD, hs⟩ hrun, hend⟩

/-- When each thread can be brought to its end wherever `I` holds, all can. -/
theorem Closed.complete (h : M.Closed) {I : Sys Op Ret World Proc → Prop}
    (hfinish : ∀ (s : Sys Op Ret World Proc) (t : Nat) th, I s → s.threads[t]? = some th →
      ∃ s', M.Run D s s' ∧ I s' ∧
        ∃ th' : Thread Op Ret Proc, s'.threads[t]? = some th' ∧ th'.prog = .ret ())
    (hI : I s) : ∃ s', M.Run D s s' ∧ I s' ∧ Finished s' := by
  have hlength : ∀ s', M.Run D s s' → s'.threads.length = s.threads.length := fun s' hrun => by
    simpa [procs] using congrArg List.length (h.procs_run hrun)
  -- the first `n` threads are at their end
  have hfirst : ∀ n ≤ s.threads.length, ∃ s', M.Run D s s' ∧ I s' ∧
      ∀ u < n, ∃ th : Thread Op Ret Proc, s'.threads[u]? = some th ∧ th.prog = .ret () := by
    intro n
    induction n with
    | zero => exact fun _ => ⟨s, .refl, hI, fun u hu => absurd hu (Nat.not_lt_zero u)⟩
    | succ n ih =>
      intro hn
      obtain ⟨s₁, hrun₁, hI₁, hended⟩ := ih (Nat.le_of_succ_le hn)
      have hlt : n < s₁.threads.length := by rw [hlength s₁ hrun₁]; exact hn
      obtain ⟨s₂, hrun₂, hI₂, hend⟩ := hfinish s₁ n _ hI₁ (List.getElem?_eq_getElem hlt)
      refine ⟨s₂, hrun₁.trans hrun₂, hI₂, fun u hu => ?_⟩
      rcases Nat.lt_succ_iff_lt_or_eq.mp hu with hu | rfl
      · obtain ⟨th, hth, hprog⟩ := hended u hu
        exact ⟨th, h.ended_run hth hprog hrun₂, hprog⟩
      · exact hend
  obtain ⟨s', hrun, hI', hended⟩ := hfirst _ le_rfl
  refine ⟨s', hrun, hI', fun th hth => ?_⟩
  obtain ⟨u, hu, rfl⟩ := List.mem_iff_getElem.mp hth
  obtain ⟨th, hth, hprog⟩ := hended u (hlength s' hrun ▸ hu)
  rw [List.getElem?_eq_getElem hu] at hth
  cases hth
  exact hprog

end Machine
end Conc
end IncusDemo
