/-
  IncusDemo.Conc.Traced

  What the logs of the threads that run one program say, in every state of every
  run.  `Traced J F` is proved once for the program: `J` holds of the log before
  every operation, and at the end `J` and `F`.
-/

import IncusDemo.Conc.System

namespace IncusDemo
namespace Conc

namespace Prog

variable {Op : Type} {Ret : Op → Type} {α β : Type}

/-- After the log `l`, the log meets `J` whenever `prog` performs an operation, and `Q` when it
    returns. -/
abbrev Traces (J : Log Op Ret → Prop) (prog : Prog Op Ret α) (Q : α → Log Op Ret → Prop)
    (l : Log Op Ret) : Prop := prog.wp Machine.logStep (fun l _ => J l) Q l

variable {J : Log Op Ret → Prop} {l : Log Op Ret}

theorem traces_bind {p : Prog Op Ret α} {f : α → Prog Op Ret β} {Q : β → Log Op Ret → Prop} :
    Traces J (p >>= f) Q l ↔ Traces J p (fun a l' => Traces J (f a) Q l') l := wp_bind p f

theorem traces_op {o : Op} {Q : Ret o → Log Op Ret → Prop} (hJ : J l) (h : ∀ r, Q r (⟨o, r⟩ :: l)) :
    Traces J (perform o) Q l := by
  refine ⟨hJ, fun r l' hl => ?_⟩
  rw [hl]
  exact h r

theorem traces_then {o : Op} {f : Ret o → Prog Op Ret α} {Q : α → Log Op Ret → Prop} (hJ : J l)
    (h : ∀ r, Traces J (f r) Q (⟨o, r⟩ :: l)) : Traces J (perform o >>= f) Q l :=
  traces_bind.mpr (traces_op hJ h)

theorem traces_ite {c : Prop} [Decidable c] {p q : Prog Op Ret α} {Q : α → Log Op Ret → Prop}
    (hp : c → Traces J p Q l) (hq : ¬ c → Traces J q Q l) :
    Traces J (if c then p else q) Q l := (wp_ite c p q).mpr ⟨hp, hq⟩

theorem traces_mono {p : Prog Op Ret α} {Q Q' : α → Log Op Ret → Prop}
    (h : ∀ a l', Q a l' → Q' a l') (hp : Traces J p Q l) : Traces J p Q' l := wp_mono h hp

/-- What holds of the log before an operation of one kind and after it holds all along a program
    that performs only such operations. -/
theorem Performs.traces {P : Op → Prop} {p : Prog Op Ret α} (hp : p.Performs P)
    (hJ : ∀ o r l, P o → J l → J (⟨o, r⟩ :: l)) (hl : J l) : Traces J p (fun _ l' => J l') l := by
  refine hp.wp (fun _ _ h _ => h) (fun l' o r l'' h ho hstep => ?_) hl
  rw [hstep]
  exact hJ o r l' ho h

end Prog

namespace Machine

variable {Op : Type} {Ret : Op → Type} {World Choice Env Proc : Type}
  {M : Machine Op Ret World Choice Env Proc} {C : Sys Op Ret World Proc → Label Op Ret Env → Prop}
  {J F : Log Op Ret → Prop} {p : Proc}

/-- The logs of all threads that run `p` meet `J`, and `F` when they have come to their end. -/
def Traced (J F : Log Op Ret → Prop) (p : Proc) (s : Sys Op Ret World Proc) : Prop :=
  ∀ (t : Nat) th, s.threads[t]? = some th → th.proc = p →
    J th.log ∧ (th.alive = true → th.prog = .ret () → F th.log)

/-- No thread has done anything yet. -/
def AllStart (M : Machine Op Ret World Choice Env Proc) (s : Sys Op Ret World Proc) : Prop :=
  ∀ (t : Nat) th, s.threads[t]? = some th → ∃ q, th = M.start q

/-- What one program keeps to, as a protocol that nobody else has to keep to. -/
theorem follows_of_wp {ok : Log Op Ret → Op → Prop}
    (hbody : (M.body p).wp logStep ok (fun _ l => F l) []) (q : Proc) :
    Follows (fun q l o => q = p → ok l o) (fun q l => q = p → F l) (M.start q) := by
  intro _
  by_cases hq : q = p
  · subst hq
    have hok : (fun l (o : Op) => q = q → ok l o) = ok := by
      funext l o
      exact propext ⟨fun h => h rfl, fun h _ => h⟩
    have hbody' : (M.body q).wp logStep (fun l o => q = q → ok l o) (fun _ l => F l) [] := by
      rw [hok]
      exact hbody
    exact Prog.wp_mono (fun _ l h _ => h) hbody'
  · have hall : (M.body q).Performs fun _ => True := by
      induction M.body q with
      | ret a => trivial
      | op o k ih => exact ⟨trivial, ih⟩
    refine Prog.wp_mono (fun _ _ _ h => absurd h hq)
      (hall.wp (I := fun _ => True) (fun l o _ _ => ?_) (fun _ _ _ _ _ _ _ => trivial) trivial)
    exact fun h => absurd h hq

/-- What the program says of its log, as a protocol that nobody else has to keep to. -/
theorem follows_of_traces (hbody : (M.body p).Traces J (fun _ l => J l ∧ F l) []) (q : Proc) :
    Follows (fun q l _ => q = p → J l) (fun q l => q = p → J l ∧ F l) (M.start q) :=
  follows_of_wp hbody q

/-- From threads that have only been started on, what the program says of its log holds. -/
theorem Run.traced (hbody : (M.body p).Traces J (fun _ l => J l ∧ F l) [])
    {s s' : Sys Op Ret World Proc} (h0 : M.AllStart s) (hrun : M.Run C s s') : Traced J F p s' := by
  have hstart := follows_of_traces hbody
  let I : Sys Op Ret World Proc → Prop := fun s =>
    AllFollow (fun q l _ => q = p → J l) (fun q l => q = p → J l ∧ F l) s ∧
      ∀ (t : Nat) th, s.threads[t]? = some th → th.proc = p → J th.log
  -- before its next operation and at its end, a thread that is there meets `J`
  have hlog : ∀ th : Thread Op Ret Proc, th.alive = true → th.proc = p →
      Follows (fun q l _ => q = p → J l) (fun q l => q = p → J l ∧ F l) th → J th.log := by
    intro th halive hp hf
    cases hprog : th.prog with
    | ret a => exact (hf.done halive hprog hp).1
    | op o k => exact hf.op halive hprog hp
  have hI : I s' := by
    refine Run.invariant (I := I) ⟨?_, ?_⟩ ?_ hrun
    · intro t th hth
      obtain ⟨q, rfl⟩ := h0 t th hth
      exact hstart q
    · intro t th hth hp
      obtain ⟨q, rfl⟩ := h0 t th hth
      exact hlog _ rfl hp (hstart q)
    · rintro s l s' ⟨hf, hJ⟩ - hs
      refine ⟨hf.step hstart hs, ?_⟩
      intro u th' hu hp
      cases hs with
      | thread hth halive hprog _ =>
        rcases M.get_advance hth hu with ⟨-, rfl⟩ | ⟨-, hu⟩ | ⟨q, -, rfl⟩
        · exact hlog _ halive hp ((hf _ _ hth).next hprog _)
        · exact hJ u th' hu hp
        · exact hlog _ rfl hp (hstart q)
      | env _ =>
        rcases M.get_after hu with ⟨-, hu⟩ | ⟨-, th, hth, rfl⟩ | ⟨q, -, rfl⟩
        · exact hJ u th' hu hp
        · exact hJ u th hth hp
        · exact hlog _ rfl hp (hstart q)
  intro t th hth hp
  exact ⟨hI.2 t th hth hp, fun halive hprog => ((hI.1 t th hth).done halive hprog hp).2⟩

/-- What a thread has done was a step of the run. -/
theorem Run.performed {s s' : Sys Op Ret World Proc} (h0 : M.AllStart s) (hrun : M.Run C s s')
    {t : Nat} {th : Thread Op Ret Proc} (hth : s'.threads[t]? = some th) {e : Event Op Ret}
    (he : e ∈ th.log) : ∃ s₁ s₂, M.Run C s s₁ ∧ C s₁ (.thread t e) ∧
      M.Step s₁ (.thread t e) s₂ ∧ M.Run C s₂ s' := by
  induction hrun generalizing th with
  | refl =>
    obtain ⟨q, rfl⟩ := h0 t th hth
    cases he
  | @tail s₁ s₂ hrun hs ih =>
    obtain ⟨l, hl, hs⟩ := hs
    have hbefore : ∀ th' : Thread Op Ret Proc, s₁.threads[t]? = some th' → e ∈ th'.log →
        ∃ s₁ s₃, M.Run C s s₁ ∧ C s₁ (.thread t e) ∧ M.Step s₁ (.thread t e) s₃ ∧ M.Run C s₃ s₂ := by
      intro th' hth' he'
      obtain ⟨a, b, hra, hC, hab, hrb⟩ := ih hth' he'
      exact ⟨a, b, hra, hC, hab, hrb.tail ⟨l, hl, hs⟩⟩
    cases hs with
    | thread hth' halive hprog hexec =>
      rcases M.get_advance hth' hth with ⟨rfl, rfl⟩ | ⟨-, hth⟩ | ⟨q, -, rfl⟩
      · rcases List.mem_cons.mp he with rfl | he
        · exact ⟨s₁, _, hrun, hl, .thread hth' halive hprog hexec, .refl⟩
        · exact hbefore _ hth' he
      · exact hbefore th hth he
      · cases he
    | env _ =>
      rcases M.get_after hth with ⟨-, hth⟩ | ⟨-, th', hth', rfl⟩ | ⟨q, -, rfl⟩
      · exact hbefore th hth he
      · exact hbefore th' hth' he
      · cases he

/-- Threads stay, and their logs only grow. -/
theorem Run.log_grows {s s' : Sys Op Ret World Proc} (hrun : M.Run C s s') {t : Nat}
    {th : Thread Op Ret Proc} (hth : s.threads[t]? = some th) :
    ∃ th', s'.threads[t]? = some th' ∧ th.log <:+ th'.log := by
  refine Run.invariant (I := fun s' => ∃ th', s'.threads[t]? = some th' ∧ th.log <:+ th'.log)
    ⟨th, hth, List.suffix_refl _⟩ ?_ hrun
  rintro s l s' ⟨th', hth', hsuffix⟩ - hs
  cases hs with
  | @thread u _ _ _ _ _ _ hth'' _ _ _ =>
    by_cases hu : t = u
    · subst hu
      cases hth'.symm.trans hth''
      exact ⟨_, M.get_advance_self hth'', hsuffix.trans (List.suffix_cons ..)⟩
    · exact ⟨th', M.get_advance_ne hu hth', hsuffix⟩
  | @env e w stop ps _ =>
    obtain ⟨th'', hget, -, hlog⟩ := M.get_after_old stop ps hth'
    exact ⟨th'', hget, hlog ▸ hsuffix⟩

/-- What a thread did in a step is in its log from then on. -/
theorem Step.mem_log {s s' s'' : Sys Op Ret World Proc} {t : Nat} {e : Event Op Ret}
    (hs : M.Step s (.thread t e) s') (hrun : M.Run C s' s'') {th : Thread Op Ret Proc}
    (hth : s''.threads[t]? = some th) : e ∈ th.log := by
  cases hs with
  | thread hth' _ _ _ =>
    obtain ⟨th', hget, hsuffix⟩ := hrun.log_grows (M.get_advance_self hth')
    cases hth.symm.trans hget
    exact hsuffix.subset List.mem_cons_self

end Machine
end Conc
end IncusDemo
