/-
  IncusDemo.Follows

  The code keeps to the protocol: every function of the server performs only
  operations that `Allowed` permits after the log so far, whatever the answers
  are.  One lemma for each function says from which phase it may be called and
  in which phases it returns; callers use the lemma and never the body.

  Most operations change no phase.  `Quiet l l'` says that `l'` continues `l`
  with such operations only, up to giving up a returned instance.
-/

import IncusDemo.Protocol

namespace IncusDemo

open Go Conc

/-- Weakest preconditions of server programs over logs, under the protocol. -/
abbrev Does {α : Type} (p : Proc) (prog : Prog α) (Q : α → Log → Prop) (l : Log) : Prop :=
  Conc.Prog.wp Machine.logStep (Allowed p) prog Q l

section Quiet

/-- Operations that leave every phase as it is, or give up a returned instance. -/
def quiet : Op → Bool
  | .rLock | .rUnlock _ | .announce | .lock | .unlock | .newRandom | .afterFunc _ _ => false
  | .call _ .getInstanceNames | .wait _ (.copyInstance ..) | .wait _ (.createInstance _) => false
  | .query (.dbNew _) | .query (.dbDelete _) | .query (.dbExpire _) | .query .selectAllocated
  | .query (.updateAllocated ..) | .query .dbActive | .query .dbAllocated
  | .query (.dbShouldExist _) => false
  | _ => true

/-- `l'` continues `l` and every phase is the same, up to giving up a returned instance. -/
structure Quiet (l l' : Log) : Prop where
  suffix : l <:+ l'
  attempt : attempt l' = attempt l ∨ attempt l' = (attempt l).giveUp
  claim : claim l' = claim l
  pass : pass l' = pass l
  restoring : restoring l' = restoring l
  former : former l' = former l
  added : ∀ e ∈ l', e ∈ l ∨ quiet e.op = true

theorem Quiet.refl (l : Log) : Quiet l l :=
  ⟨List.suffix_rfl, .inl rfl, rfl, rfl, rfl, rfl, fun _ h => .inl h⟩

@[simp] theorem Attempt.giveUp_giveUp (a : Attempt) : a.giveUp.giveUp = a.giveUp := by
  cases a <;> rfl

theorem Quiet.trans {l₁ l₂ l₃ : Log} (h : Quiet l₁ l₂) (h' : Quiet l₂ l₃) : Quiet l₁ l₃ where
  suffix := h.suffix.trans h'.suffix
  attempt := by
    rcases h.attempt with h₁ | h₁ <;> rcases h'.attempt with h₂ | h₂ <;> simp [h₁, h₂]
  claim := h'.claim.trans h.claim
  pass := h'.pass.trans h.pass
  restoring := h'.restoring.trans h.restoring
  former := h'.former.trans h.former
  added := fun e hm => (h'.added e hm).elim (h.added e) .inr

/-- A quiet operation continues the log quietly. -/
theorem Quiet.cons {o : Op} (h : quiet o = true) (r : Ret o) (l : Log) : Quiet l (⟨o, r⟩ :: l) where
  suffix := List.suffix_cons ..
  attempt := by
    cases o with
    | call d c =>
      cases c with
      | updateInstanceState name action force =>
        by_cases ha : action = "stop"
        · exact .inr (by simp [Attempt.next, ha])
        · exact .inl (by simp [Attempt.next, ha])
      | _ => exact .inl rfl
    | wait d c => cases c <;> first | exact .inl rfl | cases h
    | query q => cases q <;> first | exact .inl rfl | cases h
    | _ => first | exact .inl rfl | cases h
  claim := by
    cases o with
    | query q => cases q <;> first | rfl | cases h
    | _ => rfl
  pass := by
    cases o with
    | call d c => cases c <;> first | rfl | cases h
    | query q => cases q <;> first | rfl | cases h
    | _ => first | rfl | cases h
  restoring := by
    cases o with
    | query q => cases q <;> first | rfl | cases h
    | _ => first | rfl | cases h
  former := by
    cases o with
    | query q => cases q <;> first | rfl | cases h
    | _ => rfl
  added := by
    intro e hm
    rcases List.mem_cons.mp hm with rfl | hm
    · exact .inr h
    · exact .inl hm

variable {l l' : Log}

/-- An event that is not quiet was there before. -/
theorem Quiet.old (h : Quiet l l') {e : Event} (he : e ∈ l') (hq : quiet e.op = false) : e ∈ l :=
  (h.added e he).resolve_right (by simp [hq])

theorem Quiet.deletes (h : Quiet l l') {id : Nat} {r : Ret (.query (.dbDelete id))}
    (he : ⟨.query (.dbDelete id), r⟩ ∈ l') : ⟨.query (.dbDelete id), r⟩ ∈ l := h.old he rfl

theorem activates_of_quiet {e : Event} (h : quiet e.op = true) : activates e = false := by
  obtain ⟨o, r⟩ := e
  cases o with
  | query q => cases q <;> first | rfl | cases h
  | _ => rfl

theorem Quiet.mem (h : Quiet l l') {e : Event} (he : e ∈ l) : e ∈ l' := h.suffix.subset he

/-- A phase in which nothing is returned is the same after quiet operations. -/
theorem Quiet.attempt_eq (h : Quiet l l') (ha : (IncusDemo.attempt l).giveUp = IncusDemo.attempt l) :
    IncusDemo.attempt l' = IncusDemo.attempt l := by
  rcases h.attempt with h' | h'
  · exact h'
  · rw [h', ha]

theorem Attempt.owns_giveUp {a : Attempt} {u : String} (h : a.owns u) : a.giveUp.owns u := by
  rcases h with rfl | rfl | rfl
  · exact .inl rfl
  · exact .inr (.inr rfl)
  · exact .inr (.inr rfl)

theorem Quiet.owns (h : Quiet l l') {u : String} (ho : (IncusDemo.attempt l).owns u) :
    (IncusDemo.attempt l').owns u := by
  rcases h.attempt with h' | h'
  · rwa [h']
  · rw [h']
    exact Attempt.owns_giveUp ho

theorem Quiet.inside (h : Quiet l l') :
    (IncusDemo.attempt l').inside = (IncusDemo.attempt l).inside := by
  rcases h.attempt with h' | h' <;> rw [h']
  cases IncusDemo.attempt l <;> rfl

theorem Quiet.hasSession (h : Quiet l l') {id : Nat} {name : String} {expiry : Int}
    (hs : HasSession l id name expiry) : HasSession l' id name expiry := by
  rcases hs with ⟨row, hc, hn⟩ | ⟨row, ha, hn, he⟩
  · exact .inl ⟨row, h.claim.trans hc, hn⟩
  · refine .inr ⟨row, ?_, hn, he⟩
    rw [h.attempt_eq (by rw [ha]; rfl), ha]

theorem Quiet.recordOf (h : Quiet l l') {info : Info} (hr : RecordOf l info) : RecordOf l' info := by
  cases hr with
  | allocated id row expiry hclaim hinfo =>
    exact .allocated id row expiry (h.claim.trans hclaim) hinfo
  | fresh id c uuid name ip password expiry date requestIP terms hattempt hclaim hc hinfo =>
    refine .fresh id c uuid name ip password expiry date requestIP terms ?_ ?_ (h.mem hc) hinfo
    · rw [h.attempt_eq (by rw [hattempt]; rfl), hattempt]
    · rw [h.claim]
      exact hclaim

/-- Arming a timer is no part of the session's record. -/
theorem RecordOf.afterFunc {info : Info} (h : RecordOf l info) (d : Int) (q : Proc) :
    RecordOf (⟨.afterFunc d q, ()⟩ :: l) info := by
  cases h with
  | allocated id row expiry hclaim hinfo => exact .allocated id row expiry hclaim hinfo
  | fresh id c uuid name ip password expiry date requestIP terms hattempt hclaim hc hinfo =>
    exact .fresh id c uuid name ip password expiry date requestIP terms hattempt hclaim
      (List.mem_cons_of_mem _ hc) hinfo

theorem Unactivated.cons {e : Event} (h : Unactivated l) (he : activates e = false) :
    Unactivated (e :: l) := List.forall_mem_cons.mpr ⟨he, h⟩

theorem Admitted.mono (hs : l <:+ l') {ip : String} (h : Admitted l ip) : Admitted l' ip := by
  obtain ⟨⟨n, c, hn, hc, hlt⟩, c', hc', h⟩ := h
  refine ⟨⟨n, c, hs.subset hn, hs.subset hc, hlt⟩, c', hs.subset hc', h.imp_right ?_⟩
  rintro ⟨m, hm, hlt⟩
  exact ⟨m, hs.subset hm, hlt⟩

theorem ExaminedAt.mono (hs : l <:+ l') {e : Listed} {t : Time} (h : ExaminedAt l e t) :
    ExaminedAt l' e t := by
  obtain ⟨l₁, rest, hl, h⟩ := h
  exact ⟨l₁, rest, hl.trans hs, h⟩

theorem SessionExpiry.mono (hs : l <:+ l') {expiry : Int} (h : SessionExpiry l expiry) :
    SessionExpiry l' expiry := by
  obtain ⟨t, c, ht, hc, he⟩ := h
  exact ⟨t, c, hs.subset ht, hs.subset hc, he⟩

theorem Looked.mono (hs : l <:+ l') {id : Nat} (h : Looked l id) : Looked l' id := by
  obtain ⟨uuid, active, f, hm, hid⟩ := h
  exact ⟨uuid, active, f, hs.subset hm, hid⟩

theorem Reported.mono (hs : l <:+ l') {name ip : String} (h : Reported l name ip) :
    Reported l' name ip := by
  obtain ⟨d, net, e, a, hm, h⟩ := h
  exact ⟨d, net, e, a, hs.subset hm, h⟩

/-- What a thread may remove it may still remove after quiet operations. -/
theorem Quiet.mayRemove (h : Quiet l l') {p : Proc} {name : String} (hr : MayRemove p l name) :
    MayRemove p l' name := by
  cases hr with
  | own u ho hn => exact .own u (h.owns ho) hn
  | started ip id expiry hp hs => exact .started ip id expiry hp (h.hasSession hs)
  | ended id hp => exact .ended id hp
  | unclaimed id hp hd => exact .unclaimed id hp ⟨h.mem hd.1, fun r hm => hd.2 r (h.deletes hm)⟩
  | overdue e rest t hp hl hn ht ho =>
    exact .overdue e rest t hp (h.restoring.trans hl) hn (ht.mono h.suffix) ho
  | former e rest hp hl hn => exact .former e rest hp (h.former.trans hl) hn
  | resync names hl hm hpre => exact .resync names (h.pass.trans hl) hm hpre
  | unanswered r id f hp hf hn => exact .unanswered r id f hp (h.mem hf) hn

theorem Quiet.removes (h : Quiet l l') {p : Proc} {name : String} (hr : Removes p l name) :
    Removes p l' name := ⟨h.mayRemove hr.reason, by rw [h.pass]; exact hr.outside⟩

end Quiet

section Rules

variable {p : Proc} {l : Log}

theorem does_op {o : Op} {Q : Ret o → Log → Prop} :
    Does p (perform o) Q l ↔ Allowed p l o ∧ ∀ r, Q r (⟨o, r⟩ :: l) := by
  simp only [Does, perform, Conc.Prog.wp_perform, Machine.logStep]
  exact and_congr Iff.rfl ⟨fun h r => h r _ rfl, fun h r _ hl => hl ▸ h r⟩

/-- A quiet operation without an obligation. -/
theorem does_quiet {o : Op} {Q : Ret o → Log → Prop} (hq : quiet o = true)
    (hok : Allowed p l o) (h : ∀ r l', Quiet l l' → Q r l') : Does p (perform o) Q l :=
  does_op.mpr ⟨hok, fun r => h r _ (Quiet.cons hq r l)⟩

theorem does_bind {α β : Type} {m : Prog α} {f : α → Prog β} {Q : β → Log → Prop} :
    Does p (m >>= f) Q l ↔ Does p m (fun a l' => Does p (f a) Q l') l := Conc.Prog.wp_bind _ _

theorem does_mono {α : Type} {m : Prog α} {Q Q' : α → Log → Prop} (h : ∀ a l', Q a l' → Q' a l')
    (hm : Does p m Q l) : Does p m Q' l := Conc.Prog.wp_mono h hm

theorem does_ite {α : Type} {c : Prop} [Decidable c] {m m' : Prog α} {Q : α → Log → Prop}
    (h : c → Does p m Q l) (h' : ¬ c → Does p m' Q l) : Does p (if c then m else m') Q l :=
  (Conc.Prog.wp_ite _ _ _).mpr ⟨h, h'⟩

/-- Nothing follows an operation that never returns. -/
theorem does_halt {α : Type} {Q : α → Log → Prop} :
    Does p (do let stuck ← perform .halt; nomatch stuck) Q l :=
  ⟨trivial, fun r => nomatch r⟩

end Rules

-- ============================================================================
-- Removing instances
-- ============================================================================

variable {p : Proc} {l : Log}

theorem daemon_reads {Q : InstanceServer → Log → Prop}
    (h : ∀ d, Q d (⟨.incusDaemon, some d⟩ :: l)) : Does p daemon Q l := by
  unfold daemon
  rw [does_bind]
  refine does_op.mpr ⟨trivial, fun d => ?_⟩
  cases d with
  | none => exact does_halt
  | some d => exact h d

theorem daemon_does {Q : InstanceServer → Log → Prop} (h : ∀ d l', Quiet l l' → Q d l') :
    Does p daemon Q l := daemon_reads fun d => h d _ (.cons (o := .incusDaemon) rfl (some d) l)

theorem Held.read (d : InstanceServer) (l : Log) : Held (⟨.incusDaemon, some d⟩ :: l) d :=
  ⟨l, List.suffix_rfl, rfl⟩

theorem Quiet.held {l l' : Log} (h : Quiet l l') {d : InstanceServer} (hd : Held l d) : Held l' d := by
  obtain ⟨m, hm, hpass⟩ := hd
  exact ⟨m, hm.trans h.suffix, hpass.trans h.pass.symm⟩

theorem deleteInstance_does {d : InstanceServer} {name : String}
    {Q : Except Error Unit → Log → Prop} (hr : Removes p l name) (hd : Held l d)
    (h : ∀ r l', Quiet l l' → Q r l') : Does p (deleteInstance d name) Q l := by
  unfold deleteInstance
  rw [does_bind]
  refine does_quiet rfl trivial fun r l₁ h₁ => ?_
  cases r with
  | error e => exact h _ l₁ h₁
  | ok _ =>
    exact does_quiet rfl ⟨h₁.removes hr, h₁.held hd⟩ fun r l₂ h₂ => h r l₂ (h₁.trans h₂)

theorem incusForceDelete_does {d : InstanceServer} {name : String}
    {Q : Except Error Unit → Log → Prop} (hr : Removes p l name) (hd : Held l d)
    (h : ∀ r l', Quiet l l' → Q r l') : Does p (incusForceDelete d name) Q l := by
  have hdelete : ∀ l₁, Quiet l l₁ → Does p (deleteInstance d name) Q l₁ := fun _ h₁ =>
    deleteInstance_does (h₁.removes hr) (h₁.held hd) fun r l₂ h₂ => h r l₂ (h₁.trans h₂)
  unfold incusForceDelete
  rw [does_bind]
  refine does_quiet rfl trivial fun r l₁ h₁ => ?_
  cases r with
  | error e => exact hdelete l₁ h₁
  | ok _ =>
    rw [does_bind]
    refine does_quiet rfl trivial fun r l₂ h₂ => ?_
    exact hdelete l₂ (h₁.trans h₂)

theorem forceDelete_does {name : String} {Q : Unit → Log → Prop} (hr : Removes p l name)
    (h : ∀ l', Quiet l l' → Q () l') : Does p (forceDelete name) Q l := by
  unfold forceDelete
  rw [does_bind]
  refine daemon_reads fun d => ?_
  have h₁ : Quiet l (⟨.incusDaemon, some d⟩ :: l) := .cons (o := .incusDaemon) rfl (some d) l
  rw [does_bind]
  refine incusForceDelete_does (h₁.removes hr) (.read d l) fun r l₂ h₂ => ?_
  exact h l₂ (h₁.trans h₂)

-- ============================================================================
-- Starting an instance
-- ============================================================================

/-- Progress messages are quiet. -/
def Harmless (p : Proc) (su : StatusUpdate) : Prop :=
  ∀ (msg : String) (l : Log) (Q : Unit → Log → Prop), (∀ l', Quiet l l' → Q () l') →
    Does p (su.notify msg) Q l

theorem harmless_none : Harmless p none := fun _ l _ h => h l (Quiet.refl l)

theorem harmless_statusUpdate : Harmless p (some statusUpdate) := by
  intro msg l Q h
  change Does p (statusUpdate msg) Q l
  unfold statusUpdate
  rw [does_bind]
  refine does_quiet rfl (.progress msg) fun _ l₁ h₁ => ?_
  exact does_quiet rfl trivial fun _ l₂ h₂ => h l₂ (h₁.trans h₂)

theorem mem_of_selectAddress {instanceType network : String} {net : Network}
    (h : selectAddress instanceType network net ≠ "") :
    ∃ e ∈ net, ∃ a ∈ e.2, a.scope = "global" ∧ a.address = selectAddress instanceType network net := by
  induction net with
  | nil => exact absurd rfl h
  | cons e net ih =>
    obtain ⟨netName, addresses⟩ := e
    have hrest : selectAddress instanceType network net ≠ "" →
        ∃ e ∈ (netName, addresses) :: net, ∃ a ∈ e.2, a.scope = "global" ∧
          a.address = selectAddress instanceType network net := by
      intro h
      obtain ⟨e, he, ha⟩ := ih h
      exact ⟨e, List.mem_cons_of_mem _ he, ha⟩
    unfold selectAddress at h ⊢
    split
    · split
      · rename_i a hfind
        have hadm := List.find?_some hfind
        simp only [admittedAddress, Bool.and_eq_true, beq_iff_eq] at hadm
        exact ⟨_, List.mem_cons_self .., a, List.mem_of_find?_eq_some hfind, hadm.1.1.2, rfl⟩
      · rename_i hif _ hfind
        simp only [hif, if_true, hfind] at h
        exact hrest h
    · rename_i hif
      simp only [hif, if_false, Bool.false_eq_true] at h
      exact hrest h

theorem waitAddress_does {name instanceType : String} {timeout : Nat}
    {Q : Except Error String → Log → Prop} (hr : Removes p l name)
    (hok : ∀ ip l', Quiet l l' → (ip = "" ∨ Reported l' name ip) → Q (.ok ip) l')
    (herr : ∀ e l', Quiet l l' → Q (.error e) l') :
    Does p (waitAddress name instanceType timeout) Q l := by
  induction timeout generalizing l with
  | zero => exact hok "" l (Quiet.refl l) (.inl rfl)
  | succ timeout ih =>
    unfold waitAddress
    rw [does_bind]
    refine daemon_does fun d l₁ h₁ => ?_
    rw [does_bind]
    refine does_op.mpr ⟨trivial, fun r => ?_⟩
    have h₂ : Quiet l (⟨.call d (.getInstanceState name), r⟩ :: l₁) := h₁.trans (.cons rfl r l₁)
    cases r with
    | error e =>
      rw [does_bind]
      refine forceDelete_does (h₂.removes hr) fun l₃ h₃ => ?_
      exact herr e l₃ (h₂.trans h₃)
    | ok net =>
      rw [does_bind]
      refine does_quiet rfl trivial fun c l₃ h₃ => ?_
      refine does_ite (fun hne => ?_) (fun _ => ?_)
      · obtain ⟨e, he, a, ha, hscope, haddr⟩ := mem_of_selectAddress hne
        refine hok _ l₃ (h₂.trans h₃) (.inr ⟨d, net, e, a, ?_, he, ha, hscope, haddr⟩)
        exact h₃.mem (List.mem_cons_self ..)
      · rw [does_bind]
        refine does_quiet rfl trivial fun _ l₄ h₄ => ?_
        have h₅ := (h₂.trans h₃).trans h₄
        exact ih (h₅.removes hr) (fun ip l' h => hok ip l' (h₅.trans h))
          (fun e l' h => herr e l' (h₅.trans h))

theorem waitReady_does {name : String} {timeout : Nat} {Q : Unit → Log → Prop}
    (h : ∀ l', Quiet l l' → Q () l') : Does p (waitReady name timeout) Q l := by
  induction timeout generalizing l with
  | zero => exact h l (Quiet.refl l)
  | succ timeout ih =>
    unfold waitReady
    rw [does_bind]
    refine does_quiet rfl trivial fun _ l₁ h₁ => ?_
    rw [does_bind]
    refine does_quiet rfl trivial fun c l₂ h₂ => ?_
    rw [does_bind]
    refine daemon_does fun d l₃ h₃ => ?_
    rw [does_bind]
    refine does_quiet rfl trivial fun r l₄ h₄ => ?_
    have h₅ := ((h₁.trans h₂).trans h₃).trans h₄
    cases r with
    | error e => exact ih fun l' h' => h l' (h₅.trans h')
    | ok _ =>
      rw [does_bind]
      refine does_quiet rfl trivial fun _ l₆ h₆ => ?_
      rw [does_bind]
      refine does_quiet rfl trivial fun status l₇ h₇ => ?_
      have h₈ := (h₅.trans h₆).trans h₇
      split
      · exact h l₇ h₈
      · exact ih fun l' h' => h l' (h₈.trans h')

theorem instanceStart_does {name : String} {su : StatusUpdate}
    {Q : Except Error String → Log → Prop} (hsu : Harmless p su) (hr : Removes p l name)
    (hok : ∀ ip l', Quiet l l' → (ip = "" ∨ Reported l' name ip) → Q (.ok ip) l')
    (herr : ∀ e l', Quiet l l' → Q (.error e) l') : Does p (instanceStart name su) Q l := by
  have hfail : ∀ e l₁, Quiet l l₁ → Does p (do
      forceDelete name
      pure (.error e)) Q l₁ := by
    intro e l₁ h₁
    rw [does_bind]
    exact forceDelete_does (h₁.removes hr) fun l₂ h₂ => herr e l₂ (h₁.trans h₂)
  unfold instanceStart
  rw [does_bind]
  refine daemon_does fun d l₁ h₁ => ?_
  rw [does_bind]
  refine does_quiet rfl trivial fun r l₂ h₂ => ?_
  have h₂ := h₁.trans h₂
  cases r with
  | error e => exact hfail e l₂ h₂
  | ok ct =>
    refine does_ite (fun _ => ?_) (fun _ => ?_)
    · exact hok "" l₂ h₂ (.inl rfl)
    · rw [does_bind]
      refine hsu _ _ _ fun l₃ h₃ => ?_
      rw [does_bind]
      refine daemon_does fun d l₄ h₄ => ?_
      rw [does_bind]
      refine does_quiet rfl trivial fun r l₅ h₅ => ?_
      have h₅ := ((h₂.trans h₃).trans h₄).trans h₅
      cases r with
      | error e => exact hfail e l₅ h₅
      | ok _ =>
        rw [does_bind]
        refine does_quiet rfl trivial fun r l₆ h₆ => ?_
        have h₆ := h₅.trans h₆
        cases r with
        | error e => exact hfail e l₆ h₆
        | ok _ =>
          rw [does_bind]
          refine does_quiet rfl trivial fun _ l₇ h₇ => ?_
          rw [does_bind]
          refine hsu _ _ _ fun l₈ h₈ => ?_
          have h₈ := (h₆.trans h₇).trans h₈
          rw [does_bind]
          refine waitAddress_does (h₈.removes hr) (fun ip l₉ h₉ hip => ?_)
            (fun e l₉ h₉ => herr e l₉ (h₈.trans h₉))
          rw [does_bind]
          refine does_quiet rfl trivial fun c l₁₀ h₁₀ => ?_
          have hdone : ∀ l', Quiet l₁₀ l' → Q (.ok ip) l' := fun l' h =>
            hok ip l' (h₈.trans ((h₉.trans h₁₀).trans h))
              (hip.imp_right (Reported.mono (h₁₀.trans h).suffix))
          refine does_ite (fun _ => ?_) (fun _ => hdone l₁₀ (Quiet.refl _))
          rw [does_bind]
          exact waitReady_does hdone

-- ============================================================================
-- Making an instance
-- ============================================================================

/-- `l'` continues `l` without a claim, a resync or a deleted row. -/
structure Steady (l l' : Log) : Prop where
  suffix : l <:+ l'
  claim : claim l' = claim l
  pass : pass l' = pass l
  unactivated : Unactivated l → Unactivated l'

theorem Steady.refl (l : Log) : Steady l l := ⟨List.suffix_rfl, rfl, rfl, id⟩

theorem Steady.trans {l₁ l₂ l₃ : Log} (h : Steady l₁ l₂) (h' : Steady l₂ l₃) : Steady l₁ l₃ where
  suffix := h.suffix.trans h'.suffix
  claim := h'.claim.trans h.claim
  pass := h'.pass.trans h.pass
  unactivated := h'.unactivated ∘ h.unactivated

theorem Quiet.unactivated {l l' : Log} (h : Quiet l l') (hu : Unactivated l) : Unactivated l' :=
  fun e he => (h.added e he).elim (hu e) activates_of_quiet

theorem Quiet.steady {l l' : Log} (h : Quiet l l') : Steady l l' :=
  ⟨h.suffix, h.claim, h.pass, h.unactivated⟩

/-- An event that is no claim, no step of a resync and makes no row active. -/
theorem Steady.cons {e : Event} {l : Log} (hc : (IncusDemo.claim l).next e = IncusDemo.claim l)
    (hp : (IncusDemo.pass l).next e = IncusDemo.pass l) (ha : activates e = false) :
    Steady l (e :: l) where
  suffix := List.suffix_cons ..
  claim := hc
  pass := hp
  unactivated := fun h => h.cons ha

theorem Steady.dbNew {row : Session} (hrow : row.status = 2) (r : Except Error Nat) (l : Log) :
    Steady l (⟨.query (.dbNew row), r⟩ :: l) :=
  .cons rfl rfl (by cases r <;> simp [activates, hrow])

theorem Steady.afterFunc (d : Int) (q : Proc) (l : Log) : Steady l (⟨.afterFunc d q, ()⟩ :: l) :=
  .cons rfl rfl rfl

/-- A thread that may call `instanceCreate` or `instanceResync`. -/
def Free (l : Log) : Prop := (attempt l).inside = false ∧ pass l = .idle

theorem makeInstance_does {c : ServerConfig} {u : String} {Q : Except Error Unit → Log → Prop}
    (ha : attempt l = .drawn u) (hc : ∃ l', l = ⟨.config, c⟩ :: l')
    (hok : ∀ l', Steady l l' → attempt l' = .made u → Q (.ok ()) l')
    (herr : ∀ e l', Steady l l' → attempt l' = .drawn u → Q (.error e) l') :
    Does p (makeInstance c (nameOf u)) Q l := by
  have hkeep : ∀ l', Quiet l l' → attempt l' = .drawn u := fun l' h => by
    rw [h.attempt_eq (by rw [ha]; rfl), ha]
  have hquiet : ∀ e l', Quiet l l' → Q (.error e) l' := fun e l' h => herr e l' h.steady (hkeep l' h)
  unfold makeInstance
  refine does_ite (fun _ => ?_) (fun hsource => ?_)
  · rw [does_bind]
    refine daemon_does fun d l₁ h₁ => ?_
    rw [does_bind]
    refine does_op.mpr ⟨trivial, fun r => ?_⟩
    have h₂ := h₁.trans (.cons (o := .call d (.getInstance c.instance.source.instance)) rfl r l₁)
    cases r with
    | error e => exact hquiet e _ h₂
    | ok source =>
      rw [does_bind]
      refine daemon_reads fun d' => ?_
      rw [does_bind]
      refine does_op.mpr ⟨trivial, fun r => ?_⟩
      have h₄ := (h₂.trans (.cons (o := .incusDaemon) rfl (some d') _)).trans
        (.cons (o := .call d' (.copyInstance (copySource c source) (nameOf u) true)) rfl r _)
      cases r with
      | error e => exact hquiet e _ h₄
      | ok _ =>
        refine does_op.mpr ⟨⟨⟨u, hkeep _ h₄, rfl⟩, _, _, _, rfl, rfl, rfl⟩, fun r => ?_⟩
        have hs := h₄.steady.trans (Steady.cons (e := ⟨.wait d' (.copyInstance (copySource c source)
          (nameOf u) true), r⟩) rfl rfl rfl)
        cases r with
        | error e => exact herr e _ hs (by rw [attempt_cons, hkeep _ h₄]; rfl)
        | ok _ => exact hok _ hs (by rw [attempt_cons, hkeep _ h₄]; rfl)
  · rw [does_bind]
    refine daemon_reads fun d => ?_
    rw [does_bind]
    refine does_op.mpr ⟨trivial, fun r => ?_⟩
    have h₂ := (Quiet.cons (o := .incusDaemon) rfl (some d) l).trans
      (.cons (o := .call d (.createInstance (imageRequest c (nameOf u)))) rfl r _)
    have haims : aims l = true := by
      obtain ⟨l', rfl⟩ := hc
      exact beq_iff_eq.mpr (not_not.mp hsource)
    cases r with
    | error e => exact hquiet e _ h₂
    | ok _ =>
      refine does_op.mpr ⟨⟨⟨u, hkeep _ h₂, rfl⟩, _, _, _, rfl, rfl, haims⟩, fun r => ?_⟩
      have hs := h₂.steady.trans (Steady.cons (e := ⟨.wait d (.createInstance (imageRequest c
        (nameOf u))), r⟩) rfl rfl rfl)
      cases r with
      | error e => exact herr e _ hs (by rw [attempt_cons, hkeep _ h₂]; rfl)
      | ok _ => exact hok _ hs (by rw [attempt_cons, hkeep _ h₂]; rfl)

theorem configureInstance_does {name username password : String}
    {Q : Except Error Unit → Log → Prop} (hr : Removes p l name)
    (h : ∀ r l', Quiet l l' → Q r l') : Does p (configureInstance name username password) Q l := by
  have hfail : ∀ e l₁, Quiet l l₁ → Does p (do
      forceDelete name
      pure (.error e)) Q l₁ := by
    intro e l₁ h₁
    rw [does_bind]
    exact forceDelete_does (h₁.removes hr) fun l₂ h₂ => h _ l₂ (h₁.trans h₂)
  unfold configureInstance
  rw [does_bind]
  refine daemon_does fun d l₁ h₁ => ?_
  rw [does_bind]
  refine does_quiet rfl trivial fun r l₂ h₂ => ?_
  have h₂ := h₁.trans h₂
  cases r with
  | error e => exact hfail e l₂ h₂
  | ok ct =>
    rw [does_bind]
    refine does_quiet rfl trivial fun c l₃ h₃ => ?_
    dsimp only
    rw [does_bind]
    refine daemon_does fun d l₄ h₄ => ?_
    rw [does_bind]
    refine does_quiet rfl trivial fun r l₅ h₅ => ?_
    have h₅ := ((h₂.trans h₃).trans h₄).trans h₅
    cases r with
    | error e => exact hfail e l₅ h₅
    | ok _ =>
      rw [does_bind]
      refine does_quiet rfl trivial fun r l₆ h₆ => ?_
      have h₆ := h₅.trans h₆
      cases r with
      | error e => exact hfail e l₆ h₆
      | ok _ => exact h _ l₆ h₆

/-- What is known of a record that `instanceCreate` returns. -/
structure Created (l : Log) (info : Info) : Prop where
  name : info.name = nameOf info.id
  ip : info.ip = "" ∨ Reported l info.name info.ip
  made : ∃ c password, ⟨.config, c⟩ ∈ l ∧
    info = createdInfo c.session.consoleOnly info.id info.name info.ip password

theorem Created.mono {l' : Log} (hs : l <:+ l') {info : Info} (h : Created l info) :
    Created l' info where
  name := h.name
  ip := h.ip.imp_right (Reported.mono hs)
  made := by
    obtain ⟨c, password, hc, hinfo⟩ := h.made
    exact ⟨c, password, hs.subset hc, hinfo⟩

theorem createLocked_does {su : StatusUpdate} {Q : Except Error Info → Log → Prop}
    (hsu : Harmless p su) (ha : attempt l = .locked) (hpass : pass l = .idle)
    (hok : ∀ info l', Steady l l' → attempt l' = .made info.id → Created l' info → Q (.ok info) l')
    (herr : ∀ e l', Steady l l' → (attempt l').inside = true → Q (.error e) l') :
    Does p (createLocked su) Q l := by
  unfold createLocked
  rw [does_bind]
  refine hsu _ _ _ fun l₁ h₁ => ?_
  have ha₁ : attempt l₁ = .locked := by rw [h₁.attempt_eq (by rw [ha]; rfl), ha]
  rw [does_bind]
  refine does_op.mpr ⟨trivial, fun u => ?_⟩
  have h₂ := h₁.steady.trans (Steady.cons (e := ⟨.newRandom, u⟩) rfl rfl rfl)
  have ha₂ : attempt (⟨.newRandom, u⟩ :: l₁) = .drawn u := by rw [attempt_cons, ha₁]; rfl
  generalize (⟨.newRandom, u⟩ :: l₁ : Log) = l₂ at h₂ ha₂ ⊢
  dsimp only
  rw [does_bind]
  refine does_op.mpr ⟨trivial, fun password => ?_⟩
  have h₃ := h₂.trans (Steady.cons (e := ⟨.newRandom, password⟩) rfl rfl rfl)
  have ha₃ : attempt (⟨.newRandom, password⟩ :: l₂) = .drawn u := by rw [attempt_cons, ha₂]; rfl
  generalize (⟨.newRandom, password⟩ :: l₂ : Log) = l₃ at h₃ ha₃ ⊢
  rw [does_bind]
  refine does_op.mpr ⟨trivial, fun c => ?_⟩
  have h₄ := h₃.trans (Steady.cons (e := ⟨.config, c⟩) rfl rfl rfl)
  have ha₄ : attempt (⟨.config, c⟩ :: l₃) = .drawn u := ha₃
  rw [does_bind]
  refine makeInstance_does ha₄ ⟨l₃, rfl⟩ (fun l₅ h₅ ha₅ => ?_) (fun e l₅ h₅ ha₅ => ?_)
  · have h₅ := h₄.trans h₅
    have hkeep : ∀ l', Quiet l₅ l' → attempt l' = .made u := fun l' h => by
      rw [h.attempt_eq (by rw [ha₅]; rfl), ha₅]
    have hr : Removes p l₅ (nameOf u) := ⟨.own u (.inl ha₅) rfl, .inl (h₅.pass.trans hpass)⟩
    have hfail : ∀ e l', Quiet l₅ l' → Q (.error e) l' := fun e l' h =>
      herr e l' (h₅.trans h.steady) (by rw [hkeep l' h]; rfl)
    rw [does_bind]
    refine hsu _ _ _ fun l₆ h₆ => ?_
    rw [does_bind]
    refine configureInstance_does (h₆.removes hr) fun r l₇ h₇ => ?_
    have h₇ := h₆.trans h₇
    cases r with
    | error e => exact hfail e l₇ h₇
    | ok _ =>
      rw [does_bind]
      refine instanceStart_does hsu (h₇.removes hr) (fun ip l₈ h₈ hip => ?_) (fun e l₈ h₈ => ?_)
      · have h₈ := h₇.trans h₈
        rw [does_bind]
        refine does_op.mpr ⟨trivial, fun c => ?_⟩
        have h₉ : Quiet l₈ (⟨.config, c⟩ :: l₈) := .cons rfl c l₈
        refine hok _ _ (h₅.trans (h₈.trans h₉).steady) (hkeep _ (h₈.trans h₉)) ⟨rfl, ?_, ?_⟩
        · exact hip.imp_right (Reported.mono h₉.suffix)
        · exact ⟨c, password, List.mem_cons_self .., rfl⟩
      · have h₈ := h₇.trans h₈
        rw [does_bind]
        refine forceDelete_does (h₈.removes hr) fun l₉ h₉ => ?_
        exact hfail e l₉ (h₈.trans h₉)
  · exact herr e l₅ (h₄.trans h₅) (by rw [ha₅]; rfl)

theorem instanceCreate_does {su : StatusUpdate} {Q : Except Error Info → Log → Prop}
    (hsu : Harmless p su) (hfree : Free l)
    (hok : ∀ info l', Steady l l' → attempt l' = .returned info.id → Created l' info →
      Q (.ok info) l')
    (herr : ∀ e l', Steady l l' → attempt l' = .idle → Q (.error e) l') :
    Does p (instanceCreate su) Q l := by
  unfold instanceCreate
  rw [does_bind]
  refine does_op.mpr ⟨hfree, fun _ => ?_⟩
  have h₁ := Steady.cons (e := ⟨.rLock, ()⟩) (l := l) rfl rfl rfl
  rw [does_bind]
  refine createLocked_does hsu rfl (h₁.pass.trans hfree.2) (fun info l₂ h₂ ha hc => ?_)
    (fun e l₂ h₂ ha => ?_)
  · rw [does_bind]
    refine does_op.mpr ⟨⟨info.id, ha, hc.name⟩, fun _ => ?_⟩
    have h₃ := (h₁.trans h₂).trans (Steady.cons (e := ⟨.rUnlock (some info.name), ()⟩) rfl rfl rfl)
    exact hok info _ h₃ (by rw [attempt_cons, ha]; rfl) (hc.mono (List.suffix_cons ..))
  · rw [does_bind]
    refine does_op.mpr ⟨ha, fun _ => ?_⟩
    exact herr e _ ((h₁.trans h₂).trans (Steady.cons (e := ⟨.rUnlock none, ()⟩) rfl rfl rfl)) rfl

-- ============================================================================
-- The pool
-- ============================================================================

/-- A thread that serves no start request. -/
def NoStart (p : Proc) : Prop := ∀ ip, ¬ StartFrom p ip

theorem createUntilOk_does {rounds : Nat} {Q : Info → Log → Prop} (hfree : Free l)
    (h : ∀ info l', Steady l l' → attempt l' = .returned info.id → Created l' info → Q info l') :
    Does p (createUntilOk rounds) Q l := by
  induction rounds generalizing l with
  | zero => exact does_halt
  | succ rounds ih =>
    unfold createUntilOk
    rw [does_bind]
    refine instanceCreate_does harmless_none hfree (fun info l₁ h₁ ha hc => h info l₁ h₁ ha hc)
      (fun e l₁ h₁ ha => ?_)
    rw [does_bind]
    refine does_quiet rfl trivial fun _ l₂ h₂ => ?_
    refine ih ⟨?_, ?_⟩ fun info l₃ h₃ => h info l₃ ((h₁.trans h₂.steady).trans h₃)
    · rw [h₂.inside, ha]
      rfl
    · rw [h₂.pass, h₁.pass, hfree.2]

theorem instancePreAllocate_does {Q : Except Error Unit → Log → Prop} (hp : NoStart p)
    (hfree : Free l) (h : ∀ r l', Steady l l' → Free l' → Q r l') :
    Does p instancePreAllocate Q l := by
  unfold instancePreAllocate
  rw [does_bind]
  refine does_quiet rfl trivial fun rounds l₁ h₁ => ?_
  rw [does_bind]
  refine createUntilOk_does ⟨h₁.inside.trans hfree.1, h₁.pass.trans hfree.2⟩ fun info l₂ h₂ ha hc => ?_
  have h₂ := h₁.steady.trans h₂
  have hgive : ∀ l', Quiet l₂ l' → Free l' := fun l' h =>
    ⟨by rw [h.inside, ha]; rfl, by rw [h.pass, h₂.pass, hfree.2]⟩
  have hpass₂ : pass l₂ = .idle := h₂.pass.trans hfree.2
  have hr : Removes p l₂ info.name := ⟨.own info.id (.inr (.inl ha)) hc.name, .inl hpass₂⟩
  rw [does_bind]
  refine does_op.mpr ⟨trivial, fun c => ?_⟩
  have h₃ : Quiet l₂ (⟨.config, c⟩ :: l₂) := .cons rfl c l₂
  split
  · rw [does_bind]
    refine forceDelete_does (h₃.removes hr) fun l₄ h₄ => ?_
    exact h _ l₄ (h₂.trans (h₃.trans h₄).steady) (hgive l₄ (h₃.trans h₄))
  · rename_i duration _
    rw [does_bind]
    refine does_op.mpr ⟨trivial, fun now => ?_⟩
    rw [does_bind]
    refine does_op.mpr ⟨trivial, fun c' => ?_⟩
    have h₅ := (h₃.trans (.cons (o := .now) rfl now _)).trans (.cons (o := .config) rfl c' _)
    have ha₅ : attempt (⟨.config, c'⟩ :: ⟨.now, now⟩ :: ⟨.config, c⟩ :: l₂) = .returned info.id := by
      simp only [attempt_cons, ha]
      rfl
    generalize (⟨.config, c'⟩ :: ⟨.now, now⟩ :: ⟨.config, c⟩ :: l₂ : Log) = l₅ at h₅ ha₅ ⊢
    have hc₅ := hc.mono h₅.suffix
    dsimp only
    generalize hrow : allocatedRow info (int64 (Time.unix now + c'.instance.allocate.expiry)) = row
    have hname : row.instanceName = info.name := by rw [← hrow]; rfl
    have hstatus : row.status = 2 := by rw [← hrow]; rfl
    have hmay : MayInsert p l₅ row := by
      rw [← hrow]
      exact ⟨ha₅, hc₅.name, hc₅.ip, .inr ⟨rfl, rfl, hp⟩⟩
    rw [does_bind]
    refine does_op.mpr ⟨hmay, fun r => ?_⟩
    cases r with
    | error e =>
      have h₆ := h₅.steady.trans (.dbNew hstatus (.error e) l₅)
      have hr₆ : Removes p (⟨.query (.dbNew row), .error e⟩ :: l₅) info.name :=
        ⟨.own info.id (.inr (.inr (by rw [attempt_cons, ha₅]; rfl))) hc.name,
          .inl (h₆.pass.trans hpass₂)⟩
      refine does_bind.mpr (forceDelete_does hr₆ fun l₇ h₇ => ?_)
      · refine h _ l₇ (h₂.trans (h₆.trans h₇.steady)) ⟨?_, ?_⟩
        · rw [h₇.inside, attempt_cons, ha₅]
          rfl
        · rw [h₇.pass, h₆.pass, h₂.pass, hfree.2]
    | ok instanceID =>
      have harm : MayArm p (⟨.query (.dbNew row), .ok instanceID⟩ :: l₅) duration
          (.allocateTimeout instanceID info.name) := by
        rw [← hname]
        exact .allocated instanceID row rfl hstatus
      refine does_bind.mpr (does_op.mpr ⟨harm, fun _ => ?_⟩)
      have h₇ := (h₅.steady.trans (.dbNew hstatus (.ok instanceID) l₅)).trans
        (.afterFunc duration (.allocateTimeout instanceID info.name) _)
      exact h _ _ (h₂.trans h₇) ⟨rfl, by rw [h₇.pass, h₂.pass, hfree.2]⟩

theorem allocateTimeout_does {id : Nat} {name : String} {Q : Unit → Log → Prop}
    (hp : p = .allocateTimeout id name) (hl : l = []) (h : ∀ l', Q () l') :
    Does p (allocateTimeout id name) Q l := by
  subst hl
  unfold allocateTimeout
  rw [does_bind]
  refine does_op.mpr ⟨trivial, fun r => ?_⟩
  split
  · have hd : Doomed [⟨.query (.dbIsAllocated id), .ok true⟩] id := by
      refine ⟨List.mem_singleton_self _, fun r hm => ?_⟩
      cases List.mem_singleton.mp hm
    rw [does_bind]
    refine forceDelete_does ⟨.unclaimed id hp hd, .inl rfl⟩ fun l₁ h₁ => ?_
    rw [does_bind]
    refine does_op.mpr ⟨.unclaimed name hp ⟨h₁.mem hd.1, fun r hm => hd.2 r (h₁.deletes hm)⟩,
      fun r => ?_⟩
    rw [does_bind]
    refine instancePreAllocate_does ?_ ⟨?_, ?_⟩ fun _ l₂ _ _ => h l₂
    · rintro ip ⟨r, protocol, hr, -⟩
      rw [hp] at hr
      cases hr
    · have : attempt (⟨.query (.dbDelete id), r⟩ :: l₁) = attempt l₁ := by cases r <;> rfl
      rw [this, h₁.inside]
      rfl
    · have : pass (⟨.query (.dbDelete id), r⟩ :: l₁) = pass l₁ := by cases r <;> rfl
      rw [this, h₁.pass]
      rfl
  · exact h _

theorem cleanup_does {id : Nat} {name : String} {Q : Unit → Log → Prop}
    (hp : p = .cleanup id name) (hpass : pass l = .idle)
    (h : ∀ l' r, ⟨.query (.dbExpire id), r⟩ ∈ l' → Q () l') : Does p (cleanup id name) Q l := by
  unfold cleanup
  rw [does_bind]
  refine forceDelete_does ⟨.ended id hp, .inl hpass⟩ fun l₁ _ => ?_
  rw [does_bind]
  exact does_op.mpr ⟨.ended name hp, fun r => h _ r (List.mem_cons_self ..)⟩

-- ============================================================================
-- Resync
-- ============================================================================

/-- `l'` continues `l` without an attempt, a claim or a deleted row. -/
structure Swept (l l' : Log) : Prop where
  suffix : l <:+ l'
  attempt : (attempt l').inside = (attempt l).inside

theorem Swept.trans {l₁ l₂ l₃ : Log} (h : Swept l₁ l₂) (h' : Swept l₂ l₃) : Swept l₁ l₃ :=
  ⟨h.suffix.trans h'.suffix, h'.attempt.trans h.attempt⟩

theorem Quiet.swept {l l' : Log} (h : Quiet l l') : Swept l l' := ⟨h.suffix, h.inside⟩

theorem resyncNames_does {names all : List String} {Q : Except Error Unit → Log → Prop}
    (hnames : (pass l).names = all) (hpass : pass l ≠ .idle) (hsub : ∀ n ∈ names, n ∈ all)
    (h : ∀ r l', Swept l l' → pass l' ≠ .idle → Q r l') : Does p (resyncNames names) Q l := by
  induction names generalizing l with
  | nil => exact h _ l ⟨List.suffix_rfl, rfl⟩ hpass
  | cons name rest ih =>
    have hrest : ∀ n ∈ rest, n ∈ all := fun n hn => hsub n (List.mem_cons_of_mem _ hn)
    unfold resyncNames
    refine does_ite (fun hpre => ?_) (fun _ => ih hnames hpass hrest h)
    rw [does_bind]
    refine does_op.mpr ⟨?_, fun r => ?_⟩
    · change name ∈ (pass l).names
      rw [hnames]
      exact hsub name (List.mem_cons_self ..)
    have h₁ : Swept l (⟨.query (.dbShouldExist name), r⟩ :: l) :=
      ⟨List.suffix_cons .., by cases r <;> rfl⟩
    have hn₁ : (pass (⟨.query (.dbShouldExist name), r⟩ :: l)).names = all := by
      rw [pass_cons, ← hnames]
      rcases r with e | (_ | _) <;> rfl
    have hp₁ : pass (⟨.query (.dbShouldExist name), r⟩ :: l) ≠ .idle := by
      rw [pass_cons]
      rcases r with e | (_ | _)
      · exact hpass
      · exact fun h => nomatch h
      · exact fun h => nomatch h
    rcases r with e | (_ | _)
    · exact h _ _ h₁ hp₁
    · rw [does_bind]
      have hmissing : pass (⟨.query (.dbShouldExist name), .ok false⟩ :: l) = .missing all name := by
        rw [pass_cons, ← hnames]
        rfl
      refine forceDelete_does ⟨.resync all hmissing (hsub name (List.mem_cons_self ..)) hpre,
        .inr ⟨all, hmissing⟩⟩ fun l₂ h₂ => ?_
      · refine ih (by rw [h₂.pass, hn₁]) (by rw [h₂.pass]; exact hp₁) hrest fun r l₃ h₃ => ?_
        exact h r l₃ ((h₁.trans h₂.swept).trans h₃)
    · exact ih hn₁ hp₁ hrest fun r l₃ h₃ => h r l₃ (h₁.trans h₃)

theorem instanceResync_does {Q : Except Error Unit → Log → Prop}
    (hp : p = .connect ∧ publication l = .chosen ∨ p = .hourlyResync) (hfree : Free l)
    (h : ∀ r l', l <:+ l' → Free l' → Q r l') : Does p instanceResync Q l := by
  have hdone : ∀ r l', Swept l l' → pass l' ≠ .idle → Does p (do
      perform .unlock
      pure r) Q l' := by
    intro r l' hs hp
    rw [does_bind]
    refine does_op.mpr ⟨hp, fun _ => ?_⟩
    exact h r _ (hs.suffix.trans (List.suffix_cons ..)) ⟨hs.attempt.trans hfree.1, rfl⟩
  unfold instanceResync
  rw [does_bind]
  refine does_op.mpr ⟨⟨hfree.1, hfree.2, hp⟩, fun _ => ?_⟩
  rw [does_bind]
  refine does_op.mpr ⟨⟨hfree.1, hfree.2, hp⟩, fun _ => ?_⟩
  have h₁ : Swept l (⟨.lock, ()⟩ :: ⟨.announce, ()⟩ :: l) :=
    ⟨(List.suffix_cons ..).trans (List.suffix_cons ..), rfl⟩
  rw [does_bind]
  unfold resyncLocked
  rw [does_bind]
  refine daemon_reads fun d => ?_
  have hp₂ : pass (⟨.incusDaemon, some d⟩ :: ⟨.lock, ()⟩ :: ⟨.announce, ()⟩ :: l) = .holding := rfl
  have h₂ := h₁.trans (Quiet.cons (o := .incusDaemon) rfl (some d) _).swept
  rw [does_bind]
  refine does_op.mpr ⟨⟨hp₂, _, rfl⟩, fun r => ?_⟩
  have h₃ : Swept l (⟨.call d .getInstanceNames, r⟩ :: ⟨.incusDaemon, some d⟩ ::
      ⟨.lock, ()⟩ :: ⟨.announce, ()⟩ :: l) :=
    h₂.trans ⟨List.suffix_cons .., by cases r <;> rfl⟩
  cases r with
  | error e =>
    apply hdone _ _ h₃
    rw [pass_cons, hp₂]
    exact fun h => nomatch h
  | ok names =>
    refine resyncNames_does rfl (fun h => nomatch h) (fun _ (h : _ ∈ names) => h) fun r l₄ h₄ hp₄ => ?_
    exact hdone r l₄ (h₃.trans h₄) hp₄

-- ============================================================================
-- Start requests
-- ============================================================================

theorem restStartError_does {code : StatusCode} {Q : Unit → Log → Prop}
    (h : ∀ l', Quiet l l' → Q () l') : Does p (restStartError code) Q l := by
  unfold restStartError
  rw [does_bind]
  refine does_quiet rfl (.error code) fun r l₁ h₁ => ?_
  cases r with
  | error e => exact does_quiet rfl trivial fun _ l₂ h₂ => h l₂ (h₁.trans h₂)
  | ok _ => exact h l₁ h₁

theorem useAllocated_does {id : Nat} {row : Session} {expiry : Int} {ip : String}
    {Q : Option Acquired → Log → Prop} (hp : StartFrom p ip) (hpass : pass l = .idle)
    (hc : claim l = .claimed id row expiry)
    (hnone : ∀ l', Q none l')
    (hsome : ∀ l', Quiet l l' → Q (some ⟨id, allocatedInfo row expiry⟩) l') :
    Does p (useAllocated id row expiry) Q l := by
  unfold useAllocated
  dsimp only
  rw [does_bind]
  refine does_quiet rfl (.inl rfl) fun _ l₁ h₁ => ?_
  have hr : Removes p l row.instanceName :=
    ⟨.started ip id expiry hp (.inl ⟨row, hc, rfl⟩), .inl hpass⟩
  rw [does_bind]
  refine instanceStart_does harmless_statusUpdate (h₁.removes hr)
    (fun _ l₂ h₂ _ => hsome l₂ (h₁.trans h₂)) (fun e l₂ _ => ?_)
  rw [does_bind]
  exact restStartError_does fun l₃ _ => hnone l₃

/-- The claim of a thread that has not committed one. -/
def NotClaimed (l : Log) : Prop := ∀ id row expiry, claim l ≠ .claimed id row expiry

theorem useFresh_does {requestDate : Int} {ip terms : String} {Q : Option Acquired → Log → Prop}
    (hp : StartFrom p ip) (hfree : Free l) (hc : NotClaimed l) (hadm : Admitted l ip)
    (hun : Unactivated l) (hnone : ∀ l', Q none l')
    (hsome : ∀ id info expiry l', pass l' = .idle → HasSession l' id info.name expiry →
      SessionExpiry l' expiry → info.expiry = some expiry → RecordOf l' info →
      Q (some ⟨id, info⟩) l') :
    Does p (useFresh requestDate ip terms) Q l := by
  unfold useFresh
  rw [does_bind]
  refine instanceCreate_does harmless_statusUpdate hfree (fun info l₁ h₁ ha hcr => ?_)
    (fun e l₁ _ _ => ?_)
  · rw [does_bind]
    refine does_op.mpr ⟨trivial, fun now => ?_⟩
    rw [does_bind]
    refine does_op.mpr ⟨trivial, fun c => ?_⟩
    have h₂ := (Quiet.cons (o := .now) rfl now l₁).trans (.cons (o := .config) rfl c _)
    have ha₂ : attempt (⟨.config, c⟩ :: ⟨.now, now⟩ :: l₁) = .returned info.id := by
      simp only [attempt_cons, ha]
      rfl
    have hexp : SessionExpiry (⟨.config, c⟩ :: ⟨.now, now⟩ :: l₁)
        (int64 (Time.unix now + c.session.expiry)) :=
      ⟨now, c, List.mem_cons_of_mem _ (List.mem_cons_self ..), List.mem_cons_self .., rfl⟩
    generalize (⟨.config, c⟩ :: ⟨.now, now⟩ :: l₁ : Log) = l₂ at h₂ ha₂ hexp ⊢
    have hc₂ : NotClaimed l₂ := fun id row e => by
      rw [h₂.claim, h₁.claim]
      exact hc id row e
    have hcr₂ := hcr.mono h₂.suffix
    have hadm₂ := hadm.mono (h₁.suffix.trans h₂.suffix)
    have hun₂ := h₂.unactivated (h₁.unactivated hun)
    have hpass₂ : pass l₂ = .idle := by rw [h₂.pass, h₁.pass, hfree.2]
    dsimp only
    generalize int64 (Time.unix now + c.session.expiry) = expiry at hexp ⊢
    generalize hrow : activeRow info expiry requestDate ip terms = row
    have hname : row.instanceName = info.name := by rw [← hrow]; rfl
    have hrowexp : row.instanceExpiry = expiry := by rw [← hrow]; rfl
    have hmay : MayInsert p l₂ row := by
      rw [← hrow]
      exact ⟨ha₂, hcr₂.name, hcr₂.ip, .inl ⟨rfl, hp, hexp, hadm₂, hun₂, hc₂⟩⟩
    rw [does_bind]
    refine does_op.mpr ⟨hmay, fun r => ?_⟩
    cases r with
    | error e =>
      have hr : Removes p (⟨.query (.dbNew row), .error e⟩ :: l₂) info.name :=
        ⟨.own info.id (.inr (.inr (by rw [attempt_cons, ha₂]; rfl))) hcr.name, .inl hpass₂⟩
      refine does_bind.mpr (forceDelete_does hr fun l₃ _ => ?_)
      exact does_bind.mpr (restStartError_does fun l₄ _ => hnone l₄)
    | ok id =>
      obtain ⟨c, password, hc, hinfo⟩ := hcr₂.made
      refine hsome id { info with expiry := some expiry } expiry _ hpass₂
        (.inr ⟨row, rfl, hname, hrowexp⟩) (hexp.mono (List.suffix_cons ..)) rfl ?_
      refine .fresh id c info.id info.name info.ip password expiry requestDate ip terms ?_ hc₂
        (List.mem_cons_of_mem _ hc) (by rw [← hinfo])
      rw [← hinfo, hrow]
      rfl
  · rw [does_bind]
    exact restStartError_does fun l₂ _ => hnone l₂

theorem deliver_does {id : Nat} {info : Info} {expiry : Int} {ip : String} {Q : Unit → Log → Prop}
    (hp : StartFrom p ip) (hpass : pass l = .idle) (hs : HasSession l id info.name expiry)
    (hexp : SessionExpiry l expiry) (hinfo : info.expiry = some expiry) (hrecord : RecordOf l info)
    (h : ∀ l', Q () l') : Does p (deliver ⟨id, info⟩) Q l := by
  have hfail : ∀ l₁, pass l₁ = .idle → HasSession l₁ id info.name expiry → Does p (do
      forceDelete info.name
      restStartError .instanceUnknownError) Q l₁ := by
    intro l₁ hp₁ h₁
    rw [does_bind]
    refine forceDelete_does ⟨.started ip id expiry hp h₁, .inl hp₁⟩ fun l₂ _ => ?_
    exact restStartError_does fun l₃ _ => h l₃
  unfold deliver
  rw [does_bind]
  refine does_op.mpr ⟨trivial, fun c => ?_⟩
  have h₁ : Quiet l (⟨.config, c⟩ :: l) := .cons rfl c l
  split
  · exact hfail _ hpass (h₁.hasSession hs)
  · rename_i duration hd
    rw [does_bind]
    refine does_op.mpr ⟨.started ip id info.name expiry c hp (h₁.hasSession hs)
      (hexp.mono h₁.suffix) (List.mem_cons_self ..) hd, fun _ => ?_⟩
    have hs₂ : HasSession (⟨.afterFunc duration (.cleanup id info.name), ()⟩ :: ⟨.config, c⟩ :: l)
        id info.name expiry := h₁.hasSession hs
    have hrecord₂ : RecordOf (⟨.afterFunc duration (.cleanup id info.name), ()⟩ :: ⟨.config, c⟩ :: l)
        info := (h₁.recordOf hrecord).afterFunc _ _
    rw [does_bind]
    refine does_quiet rfl
      (.record ip id info expiry duration hp hs₂ hinfo (List.mem_cons_self ..) hrecord₂)
      fun r l₃ h₃ => ?_
    cases r with
    | error e => exact hfail l₃ (h₃.pass.trans hpass) (h₃.hasSession hs₂)
    | ok _ => exact does_quiet rfl trivial fun _ l₄ _ => h l₄

/-- "Fallback to creating a new one", and the answer. -/
theorem fresh_does {requestDate : Int} {ip terms : String} {Q : Unit → Log → Prop}
    (hp : StartFrom p ip) (ha : attempt l = .idle) (hpass : pass l = .idle) (hc : NotClaimed l)
    (hadm : Admitted l ip) (hun : Unactivated l) (h : ∀ l', Q () l') :
    Does p (do
      match ← useFresh requestDate ip terms with
      | none => pure ()
      | some a => deliver a) Q l := by
  rw [does_bind]
  refine useFresh_does hp ⟨by rw [ha]; rfl, hpass⟩ hc hadm hun (fun l₁ => h l₁)
    (fun id info expiry l₁ hpass₁ hs hexp hinfo hrecord => ?_)
  exact deliver_does hp hpass₁ hs hexp hinfo hrecord h

theorem startSession_does {requestDate : Int} {ip terms : String} {Q : Unit → Log → Prop}
    (hp : StartFrom p ip) (ha : attempt l = .idle) (hpass : pass l = .idle) (hc : claim l = .none)
    (hadm : Admitted l ip) (hun : Unactivated l) (h : ∀ l', Q () l') :
    Does p (startSession requestDate ip terms) Q l := by
  unfold startSession
  rw [does_bind]
  refine does_op.mpr ⟨trivial, fun now => ?_⟩
  rw [does_bind]
  refine does_op.mpr ⟨trivial, fun c => ?_⟩
  have hexp : SessionExpiry (⟨.config, c⟩ :: ⟨.now, now⟩ :: l)
      (int64 (Time.unix now + c.session.expiry)) :=
    ⟨now, c, List.mem_cons_of_mem _ (List.mem_cons_self ..), List.mem_cons_self .., rfl⟩
  have ha₁ : attempt (⟨.config, c⟩ :: ⟨.now, now⟩ :: l) = .idle := ha
  have hp₁ : pass (⟨.config, c⟩ :: ⟨.now, now⟩ :: l) = .idle := hpass
  have hc₁ : claim (⟨.config, c⟩ :: ⟨.now, now⟩ :: l) = .none := hc
  have hs₁ : l <:+ ⟨.config, c⟩ :: ⟨.now, now⟩ :: l := (List.suffix_cons ..).trans (List.suffix_cons ..)
  have hun₁ : Unactivated (⟨.config, c⟩ :: ⟨.now, now⟩ :: l) := (hun.cons rfl).cons rfl
  generalize (⟨.config, c⟩ :: ⟨.now, now⟩ :: l : Log) = l₁ at hexp ha₁ hp₁ hc₁ hs₁ hun₁ ⊢
  dsimp only
  generalize int64 (Time.unix now + c.session.expiry) = expiry at hexp ⊢
  rw [does_bind]
  unfold dbGetAllocated
  rw [does_bind]
  refine does_op.mpr ⟨trivial, fun c => ?_⟩
  have hnot : ∀ l', claim l' = .none → NotClaimed l' := fun l' h _ _ _ h' => nomatch h.symm.trans h'
  have hs₂ : l <:+ ⟨.config, c⟩ :: l₁ := hs₁.trans (List.suffix_cons ..)
  have hun₂ : Unactivated (⟨.config, c⟩ :: l₁) := hun₁.cons rfl
  refine does_ite (fun _ => fresh_does hp ha₁ hp₁ (hnot _ hc₁) (hadm.mono hs₂) hun₂ h) (fun _ => ?_)
  rw [does_bind]
  refine does_op.mpr ⟨trivial, fun r => ?_⟩
  have hs₃ : l <:+ ⟨.query .selectAllocated, r⟩ :: ⟨.config, c⟩ :: l₁ :=
    hs₂.trans (List.suffix_cons ..)
  have hun₃ : Unactivated (⟨.query .selectAllocated, r⟩ :: ⟨.config, c⟩ :: l₁) := hun₂.cons rfl
  rcases r with e | (_ | ⟨id, row⟩)
  · exact fresh_does hp ha₁ hp₁ (hnot _ hc₁) (hadm.mono hs₃) hun₃ h
  · exact fresh_does hp ha₁ hp₁ (hnot _ hc₁) (hadm.mono hs₃) hun₃ h
  · have hpick : claim (⟨.query .selectAllocated, .ok (some (id, row))⟩ :: ⟨.config, c⟩ :: l₁) =
        .picked id row := rfl
    have hnot₃ : NotClaimed (⟨.query .selectAllocated, .ok (some (id, row))⟩ :: ⟨.config, c⟩ :: l₁) :=
      fun _ _ _ h' => nomatch hpick.symm.trans h'
    refine does_ite (fun _ => fresh_does hp ha₁ hp₁ hnot₃ (hadm.mono hs₃) hun₃ h) (fun _ => ?_)
    rw [does_bind]
    refine does_op.mpr ⟨⟨hp, ⟨row, hpick⟩, ha₁, ?_, hadm.mono hs₃, hun₃⟩, fun r => ?_⟩
    · exact hexp.mono ((List.suffix_cons ..).trans (List.suffix_cons ..))
    cases r with
    | error e =>
      exact fresh_does hp ha₁ hp₁ (hnot _ rfl) (hadm.mono (hs₃.trans (List.suffix_cons ..)))
        (hun₃.cons rfl) h
    | ok _ =>
      refine does_bind.mpr (useAllocated_does hp hp₁ rfl (fun l₂ => h l₂) fun l₂ h₂ => ?_)
      have hclaim : claim l₂ = .claimed id row expiry := h₂.claim.trans rfl
      refine deliver_does hp (h₂.pass.trans hp₁) (.inl ⟨row, hclaim, rfl⟩)
        (hexp.mono (List.IsSuffix.trans ?_ h₂.suffix)) rfl (.allocated id row expiry hclaim rfl) h
      exact ((List.suffix_cons ..).trans (List.suffix_cons ..)).trans (List.suffix_cons ..)

theorem admitSession_does {requestDate : Int} {ip terms : String} {Q : Unit → Log → Prop}
    (hp : StartFrom p ip) (ha : attempt l = .idle) (hpass : pass l = .idle) (hc : claim l = .none)
    (hun : Unactivated l) (h : ∀ l', Q () l') : Does p (admitSession requestDate ip terms) Q l := by
  unfold admitSession
  simp only [does_bind]
  refine does_op.mpr ⟨trivial, fun n => does_op.mpr ⟨trivial, fun c => ?_⟩⟩
  have h₂ := (Quiet.cons (o := .query .dbActiveCount) rfl n l).trans (.cons (o := .config) rfl c _)
  have hn : (⟨.query .dbActiveCount, n⟩ : Event) ∈
      (⟨.config, c⟩ :: ⟨.query .dbActiveCount, n⟩ :: l : List Event) :=
    List.mem_cons_of_mem _ (List.mem_cons_self ..)
  have hc₂ : (⟨.config, c⟩ : Event) ∈ (⟨.config, c⟩ :: ⟨.query .dbActiveCount, n⟩ :: l : List Event) :=
    List.mem_cons_self ..
  generalize (⟨.config, c⟩ :: ⟨.query .dbActiveCount, n⟩ :: l : Log) = l₂ at h₂ hn hc₂ ⊢
  refine does_ite (fun _ => restStartError_does fun l' _ => h l') (fun htotal => ?_)
  simp only [does_bind]
  refine does_op.mpr ⟨trivial, fun m => does_op.mpr ⟨trivial, fun c' => ?_⟩⟩
  have h₄ := h₂.trans ((Quiet.cons (o := .query (.dbActiveCountForIP ip)) rfl m l₂).trans
    (.cons (o := .config) rfl c' _))
  refine does_ite (fun _ => restStartError_does fun l' _ => h l') (fun hquota => ?_)
  refine startSession_does hp ((h₄.attempt_eq (by rw [ha]; rfl)).trans ha) (h₄.pass.trans hpass)
    (h₄.claim.trans hc) ⟨?_, c', List.mem_cons_self .., ?_⟩ (h₄.unactivated hun) h
  · cases n with
    | error e => exact absurd (le_refl c.server.limits.total) htotal
    | ok n =>
      refine ⟨n, c, ?_, ?_, lt_of_not_ge htotal⟩
      · exact List.mem_cons_of_mem _ (List.mem_cons_of_mem _ hn)
      · exact List.mem_cons_of_mem _ (List.mem_cons_of_mem _ hc₂)
  · by_cases hip : c'.server.limits.ip = 0
    · exact .inl hip
    · have hlt : ¬ countOr m c'.server.limits.ip ≥ c'.server.limits.ip := fun h => hquota ⟨hip, h⟩
      cases m with
      | error e => exact absurd (le_refl c'.server.limits.ip) hlt
      | ok m => exact .inr ⟨m, List.mem_cons_of_mem _ (List.mem_cons_self ..), lt_of_not_ge hlt⟩

theorem restStartHandler_does {r : Request} {Q : Unit → Log → Prop} (hp : p = .restStart r)
    (hl : l = []) (h : ∀ l', Q () l') : Does p (restStartHandler r) Q l := by
  subst hl
  unfold restStartHandler
  refine does_ite (fun _ => ?_) (fun _ => ?_)
  · exact does_op.mpr ⟨trivial, fun _ => h _⟩
  simp only [does_bind]
  refine does_quiet rfl trivial fun c l₁ h₁ => does_quiet rfl trivial fun d l₂ h₂ => ?_
  have h₂ := h₁.trans h₂
  refine does_ite (fun _ => ?_) (fun _ => ?_)
  · exact does_op.mpr ⟨trivial, fun _ => h _⟩
  simp only [does_bind]
  refine does_quiet rfl trivial fun _ l₃ h₃ => does_quiet rfl trivial fun _ l₄ h₄ =>
    does_quiet rfl trivial fun _ l₅ h₅ => does_quiet rfl trivial fun _ l₆ h₆ => ?_
  have h₆ := (((h₂.trans h₃).trans h₄).trans h₅).trans h₆
  refine does_ite (fun _ => ?_) (fun _ => ?_)
  · exact does_op.mpr ⟨trivial, fun _ => h _⟩
  rw [does_bind]
  refine does_quiet rfl trivial fun _ l₇ h₇ => ?_
  unfold checkRequest
  rw [does_bind]
  refine does_quiet rfl trivial fun now l₈ h₈ => ?_
  have h₈ := (h₆.trans h₇).trans h₈
  split
  · exact restStartError_does fun l' _ => h l'
  rename_i ip protocol hip
  have hp : StartFrom p ip := ⟨r, protocol, hp, hip⟩
  dsimp only
  refine does_ite (fun _ => ?_) (fun _ => ?_)
  · exact does_op.mpr ⟨trivial, fun _ => h _⟩
  rw [does_bind]
  refine does_quiet rfl trivial fun c l₉ h₉ => ?_
  refine does_ite (fun _ => restStartError_does fun l' _ => h l') (fun _ => ?_)
  rw [does_bind]
  refine does_quiet rfl trivial fun c l₁₀ h₁₀ => ?_
  have h₁₀ := (h₈.trans h₉).trans h₁₀
  refine does_ite (fun _ => restStartError_does fun l' _ => h l') (fun _ => ?_)
  exact admitSession_does hp (h₁₀.attempt_eq rfl) h₁₀.pass h₁₀.claim
    (h₁₀.unactivated fun _ he => nomatch he) h

-- ============================================================================
-- Startup, and the other threads
-- ============================================================================

/-- Once the project is chosen it stays so. -/
theorem publication_mono {l l' : Log} (hs : l <:+ l') (h : publication l = .chosen) :
    publication l' = .chosen := by
  obtain ⟨m, rfl⟩ := hs
  induction m with
  | nil => exact h
  | cons e m ih =>
    change (publication (m ++ l)).next e = .chosen
    rw [ih]
    unfold Publication.next
    split <;> rfl

theorem connectLoop_does {rounds : Nat} {Q : InstanceServer → Log → Prop} (hp : p = .connect)
    (hpub : publication l = .connecting)
    (h : ∀ d l', Quiet l l' → publication l' = .connected → Q d l') :
    Does p (connectLoop rounds) Q l := by
  induction rounds generalizing l with
  | zero => exact does_halt
  | succ rounds ih =>
    unfold connectLoop
    simp only [does_bind]
    refine does_op.mpr ⟨trivial, fun c => does_op.mpr ⟨trivial, fun r => ?_⟩⟩
    have h₂ := (Quiet.cons (o := .config) rfl c l).trans
      (.cons (o := .connect c.incus.serverURL) rfl r _)
    have hpub₂ : publication (⟨.connect c.incus.serverURL, r⟩ :: ⟨.config, c⟩ :: l) = .connecting := by
      simp only [publication_cons, hpub]
      rfl
    cases r with
    | ok d =>
      refine does_bind.mpr (does_op.mpr ⟨⟨hp, .connected _ d hpub₂ (List.mem_cons_self ..)⟩,
        fun _ => ?_⟩)
      refine h d _ (h₂.trans (.cons (o := .setIncusDaemon (some d)) rfl () _)) ?_
      rw [publication_cons, hpub₂]
      rfl
    | error e =>
      refine does_bind.mpr (does_op.mpr ⟨⟨hp, .failed hpub₂⟩, fun _ => ?_⟩)
      refine does_bind.mpr (does_op.mpr ⟨trivial, fun _ => ?_⟩)
      have h₄ := (h₂.trans (.cons (o := .setIncusDaemon none) rfl () _)).trans
        (.cons (o := .sleep 1) rfl () _)
      refine ih ?_ fun d l₅ h₅ => h d l₅ (h₄.trans h₅)
      simp only [publication_cons, hpub]
      rfl

theorem useProject_does {Q : Unit → Log → Prop} (hp : p = .connect)
    (hpub : publication l = .connected)
    (h : ∀ l', Quiet l l' → publication l' = .chosen → Q () l') : Does p useProject Q l := by
  have htarget : ∀ l₁, Quiet l l₁ → publication l₁ = .chosen → Does p (do
      let c ← perform .config
      if c.incus.target ≠ "" then
        let d ← daemon
        perform (.setIncusDaemon (some { d with target := c.incus.target }))) Q l₁ := by
    intro l₁ h₁ hpub₁
    rw [does_bind]
    refine does_quiet rfl trivial fun c l₂ h₂ => ?_
    have hpub₂ := publication_mono h₂.suffix hpub₁
    refine does_ite (fun _ => ?_) (fun _ => h l₂ (h₁.trans h₂) hpub₂)
    refine does_bind.mpr (daemon_reads fun d => ?_)
    have h₃ := (h₁.trans h₂).trans (.cons (o := .incusDaemon) rfl (some d) l₂)
    have hpub₃ := publication_mono (List.suffix_cons ⟨.incusDaemon, some d⟩ l₂) hpub₂
    refine does_quiet rfl ⟨hp, .target c.incus.target d hpub₃ rfl⟩ fun _ l₄ h₄ => ?_
    exact h l₄ (h₃.trans h₄) (publication_mono h₄.suffix hpub₃)
  unfold useProject
  rw [does_bind]
  refine does_op.mpr ⟨trivial, fun c => ?_⟩
  have h₁ : Quiet l (⟨.config, c⟩ :: l) := .cons (o := .config) rfl c l
  have hpub₁ : publication (⟨.config, c⟩ :: l) =
      if c.incus.project = "" then .chosen else .choosing c.incus.project := by
    rw [publication_cons, hpub]
    rfl
  dsimp only
  refine does_ite (fun hproject => ?_) (fun hproject => ?_)
  · rw [if_neg hproject] at hpub₁
    refine does_bind.mpr (daemon_reads fun d => ?_)
    have h₂ := h₁.trans (.cons (o := .incusDaemon) rfl (some d) _)
    have hpub₂ : publication (⟨.incusDaemon, some d⟩ :: ⟨.config, c⟩ :: l) =
        .choosing c.incus.project := by
      rw [publication_cons, hpub₁]
      rfl
    refine does_bind.mpr (does_op.mpr ⟨⟨hp, .project c.incus.project d hpub₂ rfl⟩, fun _ => ?_⟩)
    refine htarget _ (h₂.trans (.cons (o := .setIncusDaemon _) rfl () _)) ?_
    rw [publication_cons, hpub₂]
    rfl
  · rw [if_pos (not_not.mp hproject)] at hpub₁
    exact htarget _ h₁ hpub₁

/-- A loop over a list: `I rest` holds before every round, with the elements still to come. -/
theorem does_forM {α : Type} {f : α → Prog Unit} {I : List α → Log → Prop} {xs : List α}
    {Q : Unit → Log → Prop} (h0 : I xs l)
    (hstep : ∀ x rest l', I (x :: rest) l' → Does p (f x) (fun _ l'' => I rest l'') l')
    (hdone : ∀ l', I [] l' → Q () l') : Does p (xs.forM f) Q l := by
  refine does_mono (fun _ l' => hdone l') ?_
  exact Conc.Prog.wp_forM (I := fun _ rest => I rest) (fun _ => hstep) [] h0

theorem restoreSession_does {e : Listed} {rest : List Listed} (hp : p = .connect) (hfree : Free l)
    (hl : restoring l = e :: rest) :
    Does p (restoreSession e) (fun _ l' => l <:+ l' ∧ Free l' ∧ restoring l' = rest) l := by
  unfold restoreSession
  rw [does_bind]
  refine does_op.mpr ⟨trivial, fun now => ?_⟩
  have h₁ : Quiet l (⟨.now, now⟩ :: l) := .cons rfl now l
  have hnow : ExaminedAt (⟨.now, now⟩ :: l) e now := ⟨l, rest, List.suffix_rfl, hl⟩
  generalize (⟨.now, now⟩ :: l : Log) = l₁ at h₁ hnow ⊢
  have hl₁ : restoring l₁ = e :: rest := h₁.restoring.trans hl
  have hend : overdue e now → Does p (do
      forceDelete e.instanceName
      let _ ← perform (.query (.dbExpire e.id)))
        (fun _ l' => l <:+ l' ∧ Free l' ∧ restoring l' = rest) l₁ := by
    intro hover
    rw [does_bind]
    refine forceDelete_does ⟨.overdue e rest now hp hl₁ rfl hnow hover,
      .inl (h₁.pass.trans hfree.2)⟩ fun l₂ h₂ => ?_
    have hl₂ : restoring l₂ = e :: rest := h₂.restoring.trans hl₁
    rw [does_bind]
    refine does_op.mpr ⟨.overdue e rest now hp hl₂ rfl (hnow.mono h₂.suffix) hover, fun r => ?_⟩
    have h₃ := h₁.trans h₂
    refine ⟨h₃.suffix.trans (List.suffix_cons ..), ⟨?_, ?_⟩, ?_⟩
    · have : attempt (⟨.query (.dbExpire e.id), r⟩ :: l₂) = attempt l₂ := by cases r <;> rfl
      rw [this, h₃.inside, hfree.1]
    · have : pass (⟨.query (.dbExpire e.id), r⟩ :: l₂) = pass l₂ := by cases r <;> rfl
      rw [this, h₃.pass, hfree.2]
    · rw [restoring_cons, hl₂]
      cases r <;> simp [restoringNext, passed]
  dsimp only
  split
  · rename_i herr
    exact hend fun d hd => nomatch herr.symm.trans hd
  · rename_i d hd
    refine does_ite (fun hle => hend fun _ _ => hle) (fun hle => ?_)
    refine does_op.mpr ⟨.restored e rest now hp hl₁ hnow hd (by omega), fun _ =>
      ⟨h₁.suffix.trans (List.suffix_cons ..), ⟨?_, ?_⟩, ?_⟩⟩
    · exact h₁.inside.trans hfree.1
    · exact h₁.pass.trans hfree.2
    · rw [restoring_cons, hl₁]
      simp [restoringNext, passed]

theorem deleteAllocated_does {e : Listed} {rest : List Listed} (hp : p = .connect) (hfree : Free l)
    (hl : former l = e :: rest) :
    Does p (deleteAllocated e) (fun _ l' => l <:+ l' ∧ Free l' ∧ former l' = rest) l := by
  unfold deleteAllocated
  rw [does_bind]
  refine forceDelete_does ⟨.former e rest hp hl rfl, .inl hfree.2⟩ fun l₁ h₁ => ?_
  have hl₁ : former l₁ = e :: rest := h₁.former.trans hl
  rw [does_bind]
  refine does_op.mpr ⟨.former e rest hp hl₁ rfl, fun r => ?_⟩
  refine ⟨h₁.suffix.trans (List.suffix_cons ..), ⟨?_, ?_⟩, ?_⟩
  · have : attempt (⟨.query (.dbDelete e.id), r⟩ :: l₁) = attempt l₁ := by cases r <;> rfl
    rw [this, h₁.inside, hfree.1]
  · have : pass (⟨.query (.dbDelete e.id), r⟩ :: l₁) = pass l₁ := by cases r <;> rfl
    rw [this, h₁.pass, hfree.2]
  · have : former (⟨.query (.dbDelete e.id), r⟩ :: l₁) = (former l₁).tail := by cases r <;> rfl
    rw [this, hl₁]
    rfl

theorem recover_does {Q : Except Error Unit → Log → Prop} (hp : p = .connect) (hfree : Free l)
    (hpub : publication l = .chosen) (hfirst : ∀ r, ⟨.query .dbActive, r⟩ ∉ l)
    (h : ∀ r l', l <:+ l' → Free l' → Q r l') : Does p recover Q l := by
  have hquery : ∀ {q : Query} (r : Ret (.query q)) {l' : Log}, q = .dbActive ∨ q = .dbAllocated →
      Free l' → Free (⟨.query q, r⟩ :: l') := by
    intro q r l' hq hf
    rcases hq with rfl | rfl <;> exact ⟨by cases r <;> exact hf.1, by cases r <;> exact hf.2⟩
  unfold recover
  rw [does_bind]
  refine does_op.mpr ⟨⟨hp, hpub, hfirst⟩, fun r => ?_⟩
  have h₁ := hquery r (.inl rfl) hfree
  have hs₁ : l <:+ ⟨.query .dbActive, r⟩ :: l := List.suffix_cons ..
  cases r with
  | error e => exact h _ _ hs₁ h₁
  | ok es =>
    refine does_bind.mpr (does_forM (I := fun rest l' => l <:+ l' ∧ Free l' ∧ restoring l' = rest)
      ⟨hs₁, h₁, rfl⟩ (fun e rest l₂ h₂ => ?_) fun l₂ h₂ => ?_)
    · refine does_mono (fun _ l₃ h₃ => ?_) (restoreSession_does hp h₂.2.1 h₂.2.2)
      exact ⟨h₂.1.trans h₃.1, h₃.2⟩
    refine does_bind.mpr (does_op.mpr ⟨hp, fun r => ?_⟩)
    have h₃ := hquery r (.inr rfl) h₂.2.1
    have hs₃ : l <:+ ⟨.query .dbAllocated, r⟩ :: l₂ := h₂.1.trans (List.suffix_cons ..)
    cases r with
    | error e => exact h _ _ hs₃ h₃
    | ok es =>
      refine does_bind.mpr (does_forM (I := fun rest l' => l <:+ l' ∧ Free l' ∧ former l' = rest)
        ⟨hs₃, h₃, rfl⟩ (fun e rest l₄ h₄ => ?_) fun l₄ h₄ => ?_)
      · refine does_mono (fun _ l₅ h₅ => ?_) (deleteAllocated_does hp h₄.2.1 h₄.2.2)
        exact ⟨h₄.1.trans h₅.1, h₅.2⟩
      exact instanceResync_does (.inl ⟨hp, publication_mono h₄.1 hpub⟩) h₄.2.1
        fun r l₅ hs₅ h₅ => h r l₅ (h₄.1.trans hs₅) h₅

theorem noStart_connect : NoStart .connect := by
  rintro ip ⟨r, protocol, hr, -⟩
  cases hr

theorem allocateLoop_does {rounds : Nat} {i : Int} {Q : Unit → Log → Prop} (hp : NoStart p)
    (hfree : Free l) (h : ∀ l', Q () l') : Does p (allocateLoop rounds i) Q l := by
  induction rounds generalizing l i with
  | zero => exact does_halt
  | succ rounds ih =>
    unfold allocateLoop
    rw [does_bind]
    refine does_quiet rfl trivial fun c l₁ h₁ => ?_
    refine does_ite (fun _ => ?_) (fun _ => h l₁)
    rw [does_bind]
    refine instancePreAllocate_does hp ⟨h₁.inside.trans hfree.1, h₁.pass.trans hfree.2⟩
      fun r l₂ _ h₂ => ?_
    cases r with
    | error e => exact h l₂
    | ok _ => exact ih h₂

theorem free_nil : Free [] := ⟨rfl, rfl⟩

theorem connect_does {Q : Unit → Log → Prop} (h : ∀ l', Q () l') : Does .connect connect Q [] := by
  unfold connect
  simp only [does_bind]
  refine does_op.mpr ⟨trivial, fun rounds => ?_⟩
  have h₁ : Quiet [] [⟨.rounds, rounds⟩] := .cons (o := .rounds) rfl rounds []
  refine connectLoop_does rfl rfl fun _ l₂ h₂ hpub₂ => useProject_does rfl hpub₂ fun l₃ h₃ hpub₃ => ?_
  have h₃ := (h₁.trans h₂).trans h₃
  refine recover_does rfl ⟨h₃.inside, h₃.pass⟩ hpub₃ (fun r hr => nomatch h₃.old hr rfl)
    fun r l₄ hs₄ h₄ => ?_
  cases r with
  | error e => exact h l₄
  | ok _ =>
    simp only [does_bind]
    refine does_quiet rfl (.inr (.inl ⟨rfl, rfl, publication_mono hs₄ hpub₃⟩)) fun _ l₅ h₅ =>
      does_quiet rfl trivial fun rounds l₆ h₆ => ?_
    have h₆ := h₅.trans h₆
    exact allocateLoop_does noStart_connect ⟨h₆.inside.trans h₄.1, h₆.pass.trans h₄.2⟩ h

theorem hourlyResync_does {rounds : Nat} {Q : Unit → Log → Prop} (hp : p = .hourlyResync)
    (hfree : Free l) :
    Does p (hourlyResync rounds) Q l := by
  induction rounds generalizing l with
  | zero => exact does_halt
  | succ rounds ih =>
    unfold hourlyResync
    rw [does_bind]
    refine does_quiet rfl trivial fun _ l₁ h₁ => ?_
    rw [does_bind]
    exact instanceResync_does (.inr hp) ⟨h₁.inside.trans hfree.1, h₁.pass.trans hfree.2⟩
      fun _ l₂ _ h₂ => ih h₂

theorem proxyHandle_does {target : String} {Q : Unit → Log → Prop} (hp : p = .proxy target)
    (h : ∀ l', Q () l') : Does p (proxyHandle target) Q l := by
  unfold proxyHandle
  rw [does_bind]
  refine does_quiet rfl trivial fun r l₁ _ => ?_
  split
  · exact h l₁
  · dsimp only
    rw [does_bind]
    refine does_op.mpr ⟨trivial, fun r => ?_⟩
    split
    · exact h _
    · exact h _
    · rename_i row
      refine does_ite (fun _ => h _) (fun hne => ?_)
      rw [does_bind]
      exact does_op.mpr ⟨⟨target, row, hp, hne, rfl, List.mem_cons_self ..⟩, fun _ => h _⟩

-- ============================================================================
-- The other endpoints
-- ============================================================================

theorem answers_does {α : Type} {prog : Prog α} {q : RestRequest} (hp : p = .rest q)
    (h : Answers prog) : Does p prog (fun _ _ => True) l := by
  refine h.wp (I := fun _ => True) (fun l o _ ho => ?_) (fun _ _ _ _ _ _ _ => trivial) trivial
  cases o with
  | encode body => exact .answer q body hp
  | query q' => cases q' <;> trivial
  | call d c => cases ho
  | wait d c => cases ho
  | _ => trivial

theorem dbRecordFeedback_does {id : Nat} {feedback : Feedback} {Q : Except Error Unit → Log → Prop}
    (hl : Looked l id) (h : ∀ r l', Q r l') : Does p (dbRecordFeedback id feedback) Q l := by
  unfold dbRecordFeedback
  rw [does_bind]
  refine does_op.mpr ⟨trivial, fun r => ?_⟩
  rcases r with e | (_ | found)
  · exact h _ _
  · exact does_op.mpr ⟨⟨hl.mono (List.suffix_cons ..), List.mem_cons_self ..⟩, fun r => h r _⟩
  · exact does_op.mpr ⟨⟨found, List.mem_cons_self ..⟩, fun r => h r _⟩

theorem restFeedbackPostHandler_does {r : FeedbackRequest} :
    Does p (restFeedbackPostHandler r) (fun _ _ => True) l := by
  have herror : ∀ {text : String} {code : Nat} {l' : Log},
      Does p (perform (.httpError text code)) (fun _ _ => True) l' :=
    does_op.mpr ⟨trivial, fun _ => trivial⟩
  unfold restFeedbackPostHandler
  simp only [does_bind]
  refine does_op.mpr ⟨trivial, fun _ => does_op.mpr ⟨trivial, fun _ => ?_⟩⟩
  refine does_ite (fun _ => herror) (fun _ => ?_)
  rw [does_bind]
  refine does_op.mpr ⟨trivial, fun found => ?_⟩
  rcases found with e | (_ | f)
  · exact herror
  · exact herror
  · simp only [does_bind]
    refine does_op.mpr ⟨trivial, fun now => does_op.mpr ⟨trivial, fun c => ?_⟩⟩
    refine does_ite (fun _ => herror) (fun _ => ?_)
    split
    · exact herror
    · rw [does_bind]
      refine dbRecordFeedback_does ⟨r.formValue "id", false, f, ?_, rfl⟩ fun recorded l' => ?_
      · -- the session was found before the clock and the configuration were read
        exact List.mem_cons_of_mem _ (List.mem_cons_of_mem _ (List.mem_cons_self ..))
      cases recorded with
      | error e => exact herror
      | ok _ =>
        rw [does_bind]
        refine does_op.mpr ⟨trivial, fun c => does_ite (fun _ => ?_) (fun _ => trivial)⟩
        exact does_op.mpr ⟨.inr (.inr ⟨_, rfl⟩), fun _ => trivial⟩

theorem restFeedbackHandler_does {r : FeedbackRequest} {q : RestRequest} (hp : p = .rest q) :
    Does p (restFeedbackHandler r) (fun _ _ => True) l := by
  by_cases hmethod : r.method = "POST"
  · unfold restFeedbackHandler
    rw [if_pos hmethod, does_bind]
    refine does_op.mpr ⟨trivial, fun c => does_ite (fun _ => ?_) (fun _ => ?_)⟩
    · exact does_op.mpr ⟨trivial, fun _ => trivial⟩
    · exact restFeedbackPostHandler_does
  · exact answers_does hp (restFeedbackHandler_answers hmethod)

theorem restInfoHandler_does {r : Request} {Q : Unit → Log → Prop} (hp : p = .rest (.info r))
    (hpass : pass l = .idle) (h : ∀ l', Q () l') : Does p (restInfoHandler r) Q l := by
  have herror : ∀ {text : String} {code : Nat} {l' : Log}, Does p (perform (.httpError text code)) Q l' :=
    does_op.mpr ⟨trivial, fun _ => h _⟩
  unfold restInfoHandler
  refine does_ite (fun _ => herror) (fun _ => ?_)
  simp only [does_bind]
  refine does_quiet rfl trivial fun c l₁ h₁ => does_quiet rfl trivial fun d l₂ h₂ => ?_
  refine does_ite (fun _ => herror) (fun _ => ?_)
  simp only [does_bind]
  refine does_quiet rfl trivial fun _ l₃ h₃ => does_quiet rfl trivial fun _ l₄ h₄ => ?_
  have h₄ := ((h₁.trans h₂).trans h₃).trans h₄
  refine does_ite (fun _ => herror) (fun _ => ?_)
  rw [does_bind]
  refine does_op.mpr ⟨trivial, fun answer => ?_⟩
  have h₅ := h₄.trans (.cons (o := .query (.dbGetInstance (r.formValue "id") false)) rfl answer l₄)
  rcases answer with e | (_ | f)
  · exact herror
  · exact herror
  · rw [does_bind]
    refine does_quiet rfl trivial fun c l₆ h₆ => ?_
    have hfound := h₆.mem (List.mem_cons_self ..)
    rw [does_bind]
    refine does_quiet rfl (.answer _ _ hp) fun written l₇ h₇ => ?_
    cases written with
    | ok _ => exact h _
    | error e =>
      have hidle : pass l₇ = .idle := (((h₅.trans h₆).trans h₇).pass).trans hpass
      rw [does_bind]
      exact forceDelete_does ⟨.unanswered r _ f hp (h₇.mem hfound) rfl, .inl hidle⟩ fun _ _ => herror

theorem attends_does {α : Type} {prog : Prog α} (h : Attends prog) :
    Does p prog (fun _ _ => True) l := by
  refine h.wp (I := fun _ => True) (fun l o _ ho => ?_) (fun _ _ _ _ _ _ _ => trivial) trivial
  cases o with
  | query q => cases q <;> trivial
  | call d c => cases c <;> trivial
  | wait d c => cases c <;> trivial
  | _ => trivial

theorem emailFeedback_does {feedback : Feedback} {Q : Unit → Log → Prop} (h : ∀ l', Q () l') :
    Does p (emailFeedback feedback) Q l := by
  unfold emailFeedback
  refine does_ite (fun _ => h _) (fun _ => ?_)
  simp only [does_bind]
  exact does_op.mpr ⟨trivial, fun c => does_op.mpr ⟨trivial, fun c' =>
    does_op.mpr ⟨trivial, fun _ => h _⟩⟩⟩

-- ============================================================================
-- Every thread
-- ============================================================================

/-- Every thread of the server keeps to the protocol, from its first operation on. -/
theorem body_follows (p : Proc) : Machine.Follows Allowed Done (server.start p) := by
  intro _
  change Does p (body p) (fun _ => Done p) []
  cases p with
  | restStart r => exact restStartHandler_does rfl rfl fun _ => trivial
  | preAllocate =>
    refine does_bind.mpr (instancePreAllocate_does ?_ free_nil fun _ _ _ _ => trivial)
    rintro ip ⟨r, protocol, hr, -⟩
    cases hr
  | cleanup id name => exact cleanup_does rfl rfl fun _ r h => ⟨r, h⟩
  | allocateTimeout id name => exact allocateTimeout_does rfl rfl fun _ => trivial
  | connect => exact connect_does fun _ => trivial
  | hourlyResync =>
    refine does_bind.mpr (does_quiet rfl trivial fun rounds l₁ h₁ => ?_)
    exact hourlyResync_does rfl ⟨h₁.inside, h₁.pass⟩
  | proxy target => exact proxyHandle_does rfl fun _ => trivial
  | rest q =>
    cases q with
    | status r => exact answers_does rfl (restStatusHandler_answers r)
    | terms r => exact answers_does rfl (restTermsHandler_answers r)
    | info r => exact restInfoHandler_does rfl rfl fun _ => trivial
    | statistics r => exact answers_does rfl (restStatisticsHandler_answers r)
    | feedback r => exact restFeedbackHandler_does rfl
  | console r => exact attends_does (restConsoleHandler_attends r)
  | email feedback => exact emailFeedback_does fun _ => trivial

end IncusDemo
