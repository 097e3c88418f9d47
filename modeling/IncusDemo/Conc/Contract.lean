/-
  IncusDemo.Conc.Contract

  Contracts between threads.  A thread relies on the answers that it gets
  (`rely`), and in return performs only what it guarantees (`ok`) and ends only
  as it says (`fin`).  `Meets` is proved once for every body, over logs; that
  the answers are such as the threads rely on is an invariant of the whole
  system, which may in turn use what the threads guarantee (`Run.honours`).

  `Follows` of System.lean is the case in which nothing is relied on.
-/

import IncusDemo.Conc.System

namespace IncusDemo
namespace Conc

/-- What a thread relies on, what it guarantees, and how it ends. -/
structure Contract (Op : Type) (Ret : Op → Type) (Proc : Type) where
  rely : Proc → Log Op Ret → (o : Op) → Ret o → Prop
  ok : Proc → Log Op Ret → Op → Prop
  fin : Proc → Log Op Ret → Prop

namespace Contract

variable {Op : Type} {Ret : Op → Type} {Proc : Type} {α β : Type}

/-- The log grows by an answer that the thread may rely on. -/
def Relied (K : Contract Op Ret Proc) (p : Proc) (l : Log Op Ret) (o : Op) (r : Ret o)
    (l' : Log Op Ret) : Prop := K.rely p l o r ∧ l' = ⟨o, r⟩ :: l

/-- After the log `l`, as long as it can rely on its answers, `prog` keeps its guarantees as a
    part of thread `p`, and ends with a result and a log as in `Q`. -/
abbrev Meets (K : Contract Op Ret Proc) (p : Proc) (prog : Prog Op Ret α)
    (Q : α → Log Op Ret → Prop) (l : Log Op Ret) : Prop := prog.wp (K.Relied p) (K.ok p) Q l

variable {K : Contract Op Ret Proc} {p : Proc} {l : Log Op Ret}

theorem meets_op {o : Op} {Q : Ret o → Log Op Ret → Prop} (hok : K.ok p l o)
    (h : ∀ r, K.rely p l o r → Q r (⟨o, r⟩ :: l)) : K.Meets p (Prog.perform o) Q l := by
  refine ⟨hok, fun r l' hstep => ?_⟩
  obtain ⟨hrely, rfl⟩ := hstep
  exact h r hrely

theorem meets_bind {m : Prog Op Ret α} {f : α → Prog Op Ret β} {Q : β → Log Op Ret → Prop} :
    K.Meets p (m >>= f) Q l ↔ K.Meets p m (fun a l' => K.Meets p (f a) Q l') l := Prog.wp_bind m f

theorem meets_then {o : Op} {f : Ret o → Prog Op Ret α} {Q : α → Log Op Ret → Prop}
    (hok : K.ok p l o) (h : ∀ r, K.rely p l o r → K.Meets p (f r) Q (⟨o, r⟩ :: l)) :
    K.Meets p (Prog.perform o >>= f) Q l := meets_bind.mpr (meets_op hok h)

theorem meets_pure {a : α} {Q : α → Log Op Ret → Prop} (h : Q a l) :
    K.Meets p (pure a : Prog Op Ret α) Q l := h

theorem meets_ite {c : Prop} [Decidable c] {m m' : Prog Op Ret α} {Q : α → Log Op Ret → Prop}
    (h : c → K.Meets p m Q l) (h' : ¬ c → K.Meets p m' Q l) :
    K.Meets p (if c then m else m') Q l := (Prog.wp_ite c m m').mpr ⟨h, h'⟩

theorem meets_mono {m : Prog Op Ret α} {Q Q' : α → Log Op Ret → Prop}
    (h : ∀ a l', Q a l' → Q' a l') (hm : K.Meets p m Q l) : K.Meets p m Q' l := Prog.wp_mono h hm

/-- A part of a program and what follows it. -/
theorem meets_seq {m : Prog Op Ret α} {f : α → Prog Op Ret β} {Q : α → Log Op Ret → Prop}
    {Q' : β → Log Op Ret → Prop} (hm : K.Meets p m Q l)
    (hf : ∀ a l', Q a l' → K.Meets p (f a) Q' l') : K.Meets p (m >>= f) Q' l :=
  meets_bind.mpr (meets_mono hf hm)

/-- What holds of the log before an operation of one kind and after it holds at the end of a
    program of such operations. -/
theorem meets_of_performs {P : Op → Prop} {I : Log Op Ret → Prop} {m : Prog Op Ret α}
    (hm : m.Performs P) (hok : ∀ l o, I l → P o → K.ok p l o)
    (hI : ∀ l o r, I l → P o → K.rely p l o r → I (⟨o, r⟩ :: l)) (hl : I l) :
    K.Meets p m (fun _ l' => I l') l := by
  refine hm.wp hok (fun l₁ o r l₂ h₁ ho hstep => ?_) hl
  obtain ⟨hrely, rfl⟩ := hstep
  exact hI l₁ o r h₁ ho hrely

/-- Where an invariant of the log makes every operation one that is guaranteed, any program
    will do. -/
theorem meets_of_invariant {I : Log Op Ret → Prop} (m : Prog Op Ret α)
    (hok : ∀ l o, I l → K.ok p l o)
    (hI : ∀ l o r, I l → K.rely p l o r → I (⟨o, r⟩ :: l)) (hl : I l) :
    K.Meets p m (fun _ l' => I l') l := by
  induction m generalizing l with
  | ret a => exact hl
  | op o k ih =>
    refine ⟨hok l o hl, fun r l' hstep => ?_⟩
    obtain ⟨hrely, rfl⟩ := hstep
    exact ih r (hI l o r hl hrely)

end Contract

namespace Machine

variable {Op : Type} {Ret : Op → Type} {World Choice Env Proc : Type}
  {M : Machine Op Ret World Choice Env Proc} {K : Contract Op Ret Proc}

/-- What a thread of a process that is not stopped has left keeps the contract. -/
def Honours (K : Contract Op Ret Proc) (th : Thread Op Ret Proc) : Prop :=
  th.alive = true → K.Meets th.proc th.prog (fun _ l => K.fin th.proc l) th.log

theorem Honours.op {th : Thread Op Ret Proc} {o : Op} {k : Ret o → Prog Op Ret Unit}
    (h : Honours K th) (halive : th.alive = true) (hprog : th.prog = .op o k) :
    K.ok th.proc th.log o := by
  have h := h halive
  rw [hprog] at h
  exact h.1

theorem Honours.next {th : Thread Op Ret Proc} {o : Op} {k : Ret o → Prog Op Ret Unit}
    (h : Honours K th) (hprog : th.prog = .op o k) {r : Ret o}
    (hrely : K.rely th.proc th.log o r) :
    Honours K { th with log := ⟨o, r⟩ :: th.log, prog := k r } := by
  intro halive
  have h := h halive
  rw [hprog] at h
  exact h.2 r _ ⟨hrely, rfl⟩

theorem Honours.done {th : Thread Op Ret Proc} (h : Honours K th) (halive : th.alive = true)
    (hprog : th.prog = .ret ()) : K.fin th.proc th.log := by
  have h := h halive
  rwa [hprog] at h

/-- Every thread of the state keeps the contract. -/
def AllHonour (K : Contract Op Ret Proc) (s : Sys Op Ret World Proc) : Prop :=
  ∀ (u : Nat) th, s.threads[u]? = some th → Honours K th

/-- In a step of a thread it may rely on the answer. -/
def Reliable (K : Contract Op Ret Proc) (s : Sys Op Ret World Proc) : Label Op Ret Env → Prop
  | .thread t e => ∀ th, s.threads[t]? = some th → K.rely th.proc th.log e.op e.ret
  | .env _ => True

/-- In a step of a thread the operation is one that it guarantees. -/
def Guaranteed (K : Contract Op Ret Proc) (s : Sys Op Ret World Proc) : Label Op Ret Env → Prop
  | .thread t e => ∀ th, s.threads[t]? = some th → K.ok th.proc th.log e.op
  | .env _ => True

theorem AllHonour.guaranteed {s s' : Sys Op Ret World Proc} {l : Label Op Ret Env}
    (h : AllHonour K s) (hs : M.Step s l s') : Guaranteed K s l := by
  cases hs with
  | thread hth halive hprog _ =>
    intro th' hth'
    cases hth.symm.trans hth'
    exact (h _ _ hth).op halive hprog
  | env _ => trivial

theorem AllHonour.step (hbody : ∀ p, Honours K (M.start p)) {s s' : Sys Op Ret World Proc}
    {l : Label Op Ret Env} (h : AllHonour K s) (hrely : Reliable K s l) (hs : M.Step s l s') :
    AllHonour K s' := by
  intro u th' hu
  cases hs with
  | thread hth _ hprog _ =>
    rcases M.get_advance hth hu with ⟨-, rfl⟩ | ⟨-, hu⟩ | ⟨q, -, rfl⟩
    · exact (h _ _ hth).next hprog (hrely _ hth)
    · exact h u th' hu
    · exact hbody q
  | env _ =>
    rcases M.get_after hu with ⟨-, hu⟩ | ⟨-, th, -, rfl⟩ | ⟨q, -, rfl⟩
    · exact h u th' hu
    · exact fun halive => absurd halive Bool.false_ne_true
    · exact hbody q

/-- An invariant that makes the answers reliable, and that the guarantees keep, holds in every
    state of a run, and so do the contracts. -/
theorem Run.honours {C : Sys Op Ret World Proc → Label Op Ret Env → Prop}
    {I : Sys Op Ret World Proc → Prop} (hbody : ∀ p, Honours K (M.start p))
    (hrely : ∀ s l s', I s → C s l → M.Step s l s' → Reliable K s l)
    (hI : ∀ s l s', I s → C s l → AllHonour K s → Guaranteed K s l → M.Step s l s' → I s')
    {s s' : Sys Op Ret World Proc} (h0 : AllHonour K s) (hI0 : I s) (hrun : M.Run C s s') :
    AllHonour K s' ∧ I s' :=
  Run.invariant (I := fun s => AllHonour K s ∧ I s) ⟨h0, hI0⟩
    (fun s l s' h hC hs => ⟨h.1.step hbody (hrely s l s' h.2 hC hs) hs,
      hI s l s' h.2 hC h.1 (h.1.guaranteed hs) hs⟩) hrun

/-- What `K` says of a state in which no thread has done anything. -/
theorem AllHonour.of_started (hbody : ∀ p, Honours K (M.start p)) {s : Sys Op Ret World Proc}
    (h : ∀ (t : Nat) th, s.threads[t]? = some th → ∃ p, th = M.start p) : AllHonour K s := by
  intro t th hth
  obtain ⟨p, rfl⟩ := h t th hth
  exact hbody p

end Machine

end Conc
end IncusDemo
