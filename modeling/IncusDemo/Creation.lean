/-
  IncusDemo.Creation

  Making and starting an instance, by a thread on its own.  Whatever fails on
  the way, the instance is removed again: a function of session.go either leaves
  the instances as they are but for the one it is about (`Worked`, `Built`), or
  fails and leaves that one out as well (`Undone`).
-/

import IncusDemo.Conc.Eval
import IncusDemo.Sequential
import IncusDemo.Timeout

namespace IncusDemo

open Go Conc

-- ============================================================================
-- Steps that acquire nothing
-- ============================================================================

/-- Events with which a thread gets hold of a row or an instance. -/
def noted : Event → Bool
  | ⟨.query (.dbNew _), .ok _⟩ | ⟨.query (.updateAllocated ..), .ok _⟩
  | ⟨.query .selectAllocated, .ok (some _)⟩ => true
  | ⟨.wait _ (.copyInstance ..), .ok _⟩ | ⟨.wait _ (.createInstance _), .ok _⟩ => true
  | _ => false

/-- Events that acquire nothing and leave the tables and the connection alone. -/
def plain (e : Event) : Bool :=
  !noted e &&
    match e.op with
    | .setIncusDaemon _ | .query (.dbDelete _) | .query (.dbExpire _)
    | .query (.insertFeedback ..) | .query (.updateFeedback ..) => false
    | _ => true

/-- The tables and the connection are the same, and nothing has been acquired. -/
structure Plain (x x' : View) : Prop where
  incusDaemon : x'.1.incusDaemon = x.1.incusDaemon
  db : x'.1.db = x.1.db
  suffix : x.2 <:+ x'.2
  old : ∀ e ∈ x'.2, noted e = true → e ∈ x.2

theorem Plain.refl (x : View) : Plain x x := ⟨rfl, rfl, List.suffix_rfl, fun _ h _ => h⟩

theorem Plain.trans {x y z : View} (h : Plain x y) (h' : Plain y z) : Plain x z :=
  ⟨h'.incusDaemon.trans h.incusDaemon, h'.db.trans h.db, h.suffix.trans h'.suffix,
    fun e he hn => h.old e (h'.old e he hn) hn⟩

theorem noted_of_quiet {e : Event} (h : quiet e.op = true) : noted e = false := by
  obtain ⟨o, r⟩ := e
  cases o with
  | query q => cases q <;> first | rfl | cases h
  | wait d c => cases c <;> first | rfl | cases h
  | _ => rfl

theorem Quiet.noted {l l' : Log} (h : Quiet l l') {e : Event} (he : e ∈ l')
    (hn : IncusDemo.noted e = true) : e ∈ l := by
  refine (h.added e he).resolve_right fun hq => ?_
  rw [noted_of_quiet hq] at hn
  cases hn

theorem Still.plain {x x' : View} (h : Still x x') : Plain x x' :=
  ⟨h.incusDaemon, h.db, h.log.suffix, fun _ he hn => h.log.noted he hn⟩

theorem Removed.plain {d : InstanceServer} {name : String} {x x' : View}
    (h : Removed d name x x') : Plain x x' :=
  ⟨h.incusDaemon, h.db, h.log.suffix, fun _ he hn => h.log.noted he hn⟩

theorem Moved.plain {C : World → Event → Prop} {t : Nat} {x x' : View} {o : Op} {r : Ret o}
    (hp : IncusDemo.plain ⟨o, r⟩ = true) (h : Moved C t x o r x') : Plain x x' := by
  have hlog := h.log_eq
  obtain ⟨hn, hkeeps⟩ := Bool.and_eq_true_iff.mp hp
  obtain ⟨w, hdrift, -, hdid, -⟩ := h
  constructor
  · rw [hdid.incusDaemon, ← hdrift.incusDaemon]
    cases o <;> first | rfl | cases hkeeps
  · rw [hdid.db, ← hdrift.db]
    cases o with
    | query q =>
      cases r with
      | error e => rfl
      | ok a =>
        cases q <;> first
          | rfl
          | exact absurd hn Bool.false_ne_true
          | exact absurd hkeeps Bool.false_ne_true
    | _ => rfl
  · rw [hlog]
    exact List.suffix_cons ..
  · intro e he hne
    rw [hlog] at he
    rcases List.mem_cons.mp he with rfl | he
    · rw [hne] at hn
      cases hn
    · exact he

/-- As `Plain`, and the instances are the same. -/
structure Alike (x x' : View) : Prop extends Plain x x' where
  instances : x'.1.instances = x.1.instances

/-- As `Plain`, and the instances are the same but for `name`. -/
structure Worked (name : String) (x x' : View) : Prop extends Plain x x' where
  others : ∀ d, x.1.incusDaemon = some d →
    x'.1.instances.remove d name = x.1.instances.remove d name

/-- The tables and the connection are the same, the instances are so but for `name`, and this
    instance is all that may have been acquired. -/
structure Built (name : String) (x x' : View) : Prop where
  incusDaemon : x'.1.incusDaemon = x.1.incusDaemon
  db : x'.1.db = x.1.db
  suffix : x.2 <:+ x'.2
  acquired : ∀ e ∈ x'.2, noted e = true →
    e ∈ x.2 ∨ ∃ d c, e = ⟨.wait d c, .ok ()⟩ ∧ c.makes = some name
  connected : x.1.incusDaemon ≠ none
  others : ∀ d, x.1.incusDaemon = some d →
    x'.1.instances.remove d name = x.1.instances.remove d name

/-- The instance does not exist. -/
def Gone (name : String) (x : View) : Prop :=
  ∀ d, x.1.incusDaemon = some d → x.1.instances.get? d name = none

/-- The random id `u` has been drawn since the log was `l`. -/
def DrawnSince (l l' : Log) (u : String) : Prop :=
  ∃ m, l <:+ m ∧ ⟨.newRandom, u⟩ :: m <:+ l'

/-- Nothing has been made, or it has been removed again. -/
def Undone (x x' : View) : Prop :=
  Alike x x' ∨ ∃ u, DrawnSince x.2 x'.2 u ∧ Built (nameOf u) x x' ∧ Gone (nameOf u) x'

section Relations

variable {name : String} {x y z : View}

theorem Alike.refl (x : View) : Alike x x := ⟨.refl x, rfl⟩

theorem Alike.trans (h : Alike x y) (h' : Alike y z) : Alike x z :=
  ⟨h.toPlain.trans h'.toPlain, h'.instances.trans h.instances⟩

theorem Alike.worked (h : Alike x y) : Worked name x y :=
  ⟨h.toPlain, fun d _ => by rw [h.instances]⟩

theorem Worked.trans (h : Worked name x y) (h' : Worked name y z) : Worked name x z :=
  ⟨h.toPlain.trans h'.toPlain, fun d hd =>
    (h'.others d (h.incusDaemon.trans hd)).trans (h.others d hd)⟩

theorem Worked.alike (h : Worked name x y) (h' : Alike y z) : Worked name x z := h.trans h'.worked

theorem Alike.then (h : Alike x y) (h' : Worked name y z) : Worked name x z := h.worked.trans h'

theorem Built.worked (h : Built name x y) (h' : Worked name y z) : Built name x z where
  incusDaemon := h'.incusDaemon.trans h.incusDaemon
  db := h'.db.trans h.db
  suffix := h.suffix.trans h'.suffix
  acquired := fun e he hn => h.acquired e (h'.old e he hn) hn
  connected := h.connected
  others := fun d hd => (h'.others d (h.incusDaemon.trans hd)).trans (h.others d hd)

theorem Built.alike (h : Built name x y) (h' : Alike y z) : Built name x z := h.worked h'.worked

theorem Gone.alike (h : Gone name x) (h' : Alike x y) : Gone name y := by
  intro d hd
  rw [h'.instances]
  exact h d (h'.incusDaemon.symm.trans hd)

theorem Alike.built (h : Alike x y) (h' : Built name y z) : Built name x z where
  incusDaemon := h'.incusDaemon.trans h.incusDaemon
  db := h'.db.trans h.db
  suffix := h.suffix.trans h'.suffix
  acquired := fun e he hn => (h'.acquired e he hn).imp_left fun hy => h.old e hy hn
  connected := h.incusDaemon ▸ h'.connected
  others := fun d hd =>
    (h'.others d (h.incusDaemon.trans hd)).trans (by rw [h.instances])

theorem DrawnSince.mono {l₁ l₂ l l' : Log} {u : String} (h : DrawnSince l l' u) (h₁ : l₁ <:+ l)
    (h₂ : l' <:+ l₂) : DrawnSince l₁ l₂ u := by
  obtain ⟨m, hm, hu⟩ := h
  exact ⟨m, h₁.trans hm, hu.trans h₂⟩

theorem Alike.undone (h : Alike x y) (h' : Undone y z) : Undone x z := by
  rcases h' with h' | ⟨u, hu, hb, hg⟩
  · exact .inl (h.trans h')
  · exact .inr ⟨u, hu.mono h.suffix List.suffix_rfl, h.built hb, hg⟩

theorem Undone.alike (h : Undone x y) (h' : Alike y z) : Undone x z := by
  rcases h with h | ⟨u, hu, hb, hg⟩
  · exact .inl (h.trans h')
  · exact .inr ⟨u, hu.mono List.suffix_rfl h'.suffix, hb.alike h', hg.alike h'⟩

theorem Still.alike (h : Still x y) : Alike x y := ⟨h.plain, h.instances⟩

theorem Removed.worked {d : InstanceServer} (hd : x.1.incusDaemon = some d)
    (h : Removed d name x y) : Worked name x y ∧ Gone name y := by
  refine ⟨⟨h.plain, fun d' hd' => ?_⟩, fun d' hd' => ?_⟩
  · cases hd.symm.trans hd'
    rw [h.instances, Instances.remove_missing (Instances.get?_remove _ d name)]
  · cases hd.symm.trans (h.incusDaemon.symm.trans hd')
    rw [h.instances]
    exact Instances.get?_remove _ d name

/-- A removed instance leaves no trace of having been made. -/
theorem Instances.remove_append (is : Instances) {d : InstanceServer} {name : String} {i : Instance}
    (hi : isAt d name i = true) : (is ++ [i]).remove d name = is.remove d name := by
  simp [Instances.remove, hi]

end Relations

-- ============================================================================
-- Removing and starting an instance
-- ============================================================================

/-- Weakest preconditions of programs that thread `t` runs alone, with deletions that succeed. -/
abbrev Handles {α : Type} (t : Nat) (prog : Prog α) (Q : α → View → Prop) (x : View) : Prop :=
  Solo Deletes (fun _ => True) t prog Q x

section Programs

variable {t : Nat} {x : View} {name : String}

theorem handles_bind {α β : Type} {m : Prog α} {f : α → Prog β} {Q : β → View → Prop} :
    Handles t (m >>= f) Q x ↔ Handles t m (fun a x' => Handles t (f a) Q x') x := solo_bind

theorem handles_ite {α : Type} {c : Prop} [Decidable c] {m m' : Prog α} {Q : α → View → Prop}
    (h : c → Handles t m Q x) (h' : ¬ c → Handles t m' Q x) :
    Handles t (if c then m else m') Q x := solo_ite h h'

theorem handles_op {o : Op} {Q : Ret o → View → Prop}
    (h : ∀ r x', Moved Deletes t x o r x' → Q r x') : Handles t (perform o) Q x :=
  ⟨fun _ => trivial, h⟩

theorem handles_plain {o : Op} {Q : Ret o → View → Prop} (hp : ∀ r, plain ⟨o, r⟩ = true)
    (h : ∀ r x', Plain x x' → Q r x') : Handles t (perform o) Q x :=
  handles_op fun r x' hm => h r x' (hm.plain (hp r))

theorem handles_alike {o : Op} {Q : Ret o → View → Prop} (hp : ∀ r, plain ⟨o, r⟩ = true)
    (hi : idle o = true) (h : ∀ r x', Alike x x' → Q r x') : Handles t (perform o) Q x :=
  handles_op fun r x' hm => h r x' ⟨hm.plain (hp r), (hm.drift hi).instances⟩

theorem daemon_handles {Q : InstanceServer → View → Prop}
    (h : ∀ d x', x.1.incusDaemon = some d → Alike x x' → Q d x') : Handles t daemon Q x :=
  daemon_solo fun d x' hd hs => h d x' hd hs.alike

/-- The end of an operation on an instance changes no other one. -/
theorem handles_wait {d : InstanceServer} {c : Call} {Q : Except Error Unit → View → Prop}
    (hd : x.1.incusDaemon = some d) (hp : ∀ r, plain ⟨.wait d c, r⟩ = true)
    (hc : ∀ a is is', c.complete d a is = some is' → is'.remove d name = is.remove d name)
    (h : ∀ r x', Worked name x x' → Q r x') : Handles t (perform (.wait d c)) Q x := by
  refine handles_op fun r x' hm => h r x' ⟨hm.plain (hp r), fun d' hd' => ?_⟩
  cases hd.symm.trans hd'
  obtain ⟨w, hdrift, -, hdid, -⟩ := hm
  rw [← hdrift.instances]
  have hinstances := hdid.instances
  cases r with
  | error e =>
    have hsame : x'.1.instances = w.instances := hinstances
    rw [hsame]
  | ok _ =>
    obtain ⟨a, ha⟩ := hinstances
    exact hc a _ _ ha

theorem remove_complete_update {d : InstanceServer} {put : InstancePut} {a : Assigned}
    {is is' : Instances} (h : Call.complete (.updateInstance name put) d a is = some is') :
    is'.remove d name = is.remove d name := by
  simp only [Call.complete, Option.ite_none_right_eq_some, Option.some.injEq] at h
  rw [← h.2]
  exact Instances.remove_modify _ d name fun i => rfl

theorem remove_complete_state {d : InstanceServer} {action : String} {force : Bool} {a : Assigned}
    {is is' : Instances} (h : Call.complete (.updateInstanceState name action force) d a is = some is') :
    is'.remove d name = is.remove d name := by
  simp only [Call.complete, Option.ite_none_right_eq_some, Option.some.injEq] at h
  rw [← h.2]
  exact Instances.remove_modify _ d name fun i => rfl

theorem forceDelete_handles {Q : Unit → View → Prop}
    (h : ∀ x', Worked name x x' → Gone name x' → Q () x') : Handles t (forceDelete name) Q x := by
  refine forceDelete_solo (fun _ _ h => h) fun d x' hd hr => ?_
  obtain ⟨hw, hg⟩ := hr.worked hd
  exact h x' hw hg

/-- The function does no more than tell a client how far things are. -/
def Tells (t : Nat) (su : StatusUpdate) : Prop :=
  ∀ msg x, Handles t (su.notify msg) (fun _ x' => Alike x x') x

theorem tells_none : Tells t none := fun _ x => Alike.refl x

theorem tells_statusUpdate : Tells t (some statusUpdate) := by
  intro msg x
  change Handles t (statusUpdate msg) _ x
  unfold statusUpdate
  rw [handles_bind]
  refine handles_alike (fun _ => rfl) rfl fun _ x₁ h₁ => ?_
  exact handles_alike (fun _ => rfl) rfl fun _ x₂ h₂ => h₁.trans h₂

theorem Tells.handles {su : StatusUpdate} (hsu : Tells t su) {msg : String} {Q : Unit → View → Prop}
    (h : ∀ x', Alike x x' → Q () x') : Handles t (su.notify msg) Q x :=
  solo_mono (fun _ x' hk => h x' hk) (hsu msg x)

/-- An error exit that removes the instance. -/
theorem giveUp_handles {α : Type} {e : Error} {Q : Except Error α → View → Prop}
    (h : ∀ x', Worked name x x' → Gone name x' → Q (.error e) x') : Handles t (do
      forceDelete name
      pure (.error e)) Q x := by
  rw [handles_bind]
  exact forceDelete_handles h

theorem waitAddress_handles {instanceType : String} {timeout : Nat}
    {Q : Except Error String → View → Prop} (hok : ∀ ip x', Worked name x x' → Q (.ok ip) x')
    (herr : ∀ e x', Worked name x x' → Gone name x' → Q (.error e) x') :
    Handles t (waitAddress name instanceType timeout) Q x := by
  induction timeout generalizing x with
  | zero => exact hok "" x (Alike.refl x).worked
  | succ timeout ih =>
    unfold waitAddress
    rw [handles_bind]
    refine daemon_handles fun d x₁ _ h₁ => ?_
    rw [handles_bind]
    refine handles_alike (fun _ => rfl) rfl fun r x₂ h₂ => ?_
    have h₂ := h₁.trans h₂
    cases r with
    | error e => exact giveUp_handles fun x₃ h₃ hg => herr e x₃ (h₂.then h₃) hg
    | ok net =>
      rw [handles_bind]
      refine handles_alike (fun _ => rfl) rfl fun c x₃ h₃ => ?_
      have h₃ := h₂.trans h₃
      refine handles_ite (fun _ => hok _ x₃ h₃.worked) (fun _ => ?_)
      rw [handles_bind]
      refine handles_alike (fun _ => rfl) rfl fun _ x₄ h₄ => ?_
      have h₄ := h₃.trans h₄
      exact ih (fun ip x' h => hok ip x' (h₄.then h)) (fun e x' h => herr e x' (h₄.then h))

theorem waitReady_handles {timeout : Nat} {Q : Unit → View → Prop}
    (h : ∀ x', Alike x x' → Q () x') : Handles t (waitReady name timeout) Q x := by
  induction timeout generalizing x with
  | zero => exact h x (.refl x)
  | succ timeout ih =>
    unfold waitReady
    rw [handles_bind]
    refine handles_alike (fun _ => rfl) rfl fun _ x₁ h₁ => ?_
    rw [handles_bind]
    refine handles_alike (fun _ => rfl) rfl fun c x₂ h₂ => ?_
    rw [handles_bind]
    refine daemon_handles fun d x₃ _ h₃ => ?_
    rw [handles_bind]
    refine handles_alike (fun _ => rfl) rfl fun r x₄ h₄ => ?_
    have h₄ := ((h₁.trans h₂).trans h₃).trans h₄
    cases r with
    | error e => exact ih fun x' h' => h x' (h₄.trans h')
    | ok _ =>
      rw [handles_bind]
      refine handles_alike (fun _ => rfl) rfl fun _ x₅ h₅ => ?_
      rw [handles_bind]
      refine handles_alike (fun _ => rfl) rfl fun status x₆ h₆ => ?_
      have h₆ := (h₄.trans h₅).trans h₆
      split
      · exact h x₆ h₆
      · exact ih fun x' h' => h x' (h₆.trans h')

theorem instanceStart_handles {su : StatusUpdate} (hsu : Tells t su)
    {Q : Except Error String → View → Prop} (hok : ∀ ip x', Worked name x x' → Q (.ok ip) x')
    (herr : ∀ e x', Worked name x x' → Gone name x' → Q (.error e) x') :
    Handles t (instanceStart name su) Q x := by
  have hfail : ∀ e x₁, Worked name x x₁ → Handles t (do
      forceDelete name
      pure (.error e)) Q x₁ := fun e x₁ h₁ =>
    giveUp_handles fun x₂ h₂ hg => herr e x₂ (h₁.trans h₂) hg
  unfold instanceStart
  rw [handles_bind]
  refine daemon_handles fun d x₁ _ h₁ => ?_
  rw [handles_bind]
  refine handles_alike (fun _ => rfl) rfl fun r x₂ h₂ => ?_
  have h₂ := h₁.trans h₂
  cases r with
  | error e => exact hfail e x₂ h₂.worked
  | ok ct =>
    refine handles_ite (fun _ => hok "" x₂ h₂.worked) (fun _ => ?_)
    rw [handles_bind]
    refine hsu.handles fun x₃ h₃ => ?_
    have h₃ := h₂.trans h₃
    rw [handles_bind]
    refine daemon_handles fun d x₄ hd h₄ => ?_
    rw [handles_bind]
    refine handles_alike (fun _ => rfl) rfl fun r x₅ h₅ => ?_
    have hd : x₅.1.incusDaemon = some d := (h₄.trans h₅).incusDaemon.trans hd
    have h₅ := (h₃.trans h₄).trans h₅
    cases r with
    | error e => exact hfail e x₅ h₅.worked
    | ok _ =>
      rw [handles_bind]
      refine handles_wait hd (fun r => by cases r <;> rfl) (fun _ _ _ => remove_complete_state)
        fun r x₆ h₆ => ?_
      have h₆ := h₅.then h₆
      cases r with
      | error e => exact hfail e x₆ h₆
      | ok _ =>
        rw [handles_bind]
        refine handles_alike (fun _ => rfl) rfl fun _ x₇ h₇ => ?_
        rw [handles_bind]
        refine hsu.handles fun x₈ h₈ => ?_
        have h₈ := (h₆.alike h₇).alike h₈
        rw [handles_bind]
        refine waitAddress_handles (fun ip x₉ h₉ => ?_)
          (fun e x₉ h₉ hg => herr e x₉ (h₈.trans h₉) hg)
        rw [handles_bind]
        refine handles_alike (fun _ => rfl) rfl fun c x₁₀ h₁₀ => ?_
        have h₁₀ := (h₈.trans h₉).alike h₁₀
        refine handles_ite (fun _ => ?_) (fun _ => hok ip x₁₀ h₁₀)
        rw [handles_bind]
        exact waitReady_handles fun x₁₁ h₁₁ => hok ip x₁₁ (h₁₀.alike h₁₁)

-- ============================================================================
-- Making an instance
-- ============================================================================

/-- A create or a copy: when it succeeds the instance may exist, else nothing has happened. -/
theorem makes_handles {d : InstanceServer} {c : Call} {Q : Except Error Unit → View → Prop}
    (hd : x.1.incusDaemon = some d) (hc : c.makes = some name)
    (hok : ∀ x', Built name x x' → Q (.ok ()) x') (herr : ∀ e x', Alike x x' → Q (.error e) x') :
    Handles t (perform (.wait d c)) Q x := by
  refine handles_op fun r x' hm => ?_
  cases r with
  | error e =>
    refine herr e x' ⟨hm.plain ?_, ?_⟩
    · cases c <;> rfl
    · obtain ⟨w, hdrift, -, hdid, -⟩ := hm
      have hsame : x'.1.instances = w.instances := hdid.instances
      rw [hsame, hdrift.instances]
  | ok _ =>
    have hlog := hm.log_eq
    obtain ⟨w, hdrift, -, hdid, -⟩ := hm
    refine hok x' ⟨?_, ?_, ?_, ?_, hd ▸ Option.some_ne_none d, ?_⟩
    · exact hdid.incusDaemon.trans hdrift.incusDaemon
    · exact hdid.db.trans hdrift.db
    · rw [hlog]
      exact List.suffix_cons ..
    · intro e he hn
      rw [hlog] at he
      rcases List.mem_cons.mp he with rfl | he
      · exact .inr ⟨d, c, rfl, hc⟩
      · exact .inl he
    · intro d' hd'
      cases hd.symm.trans hd'
      obtain ⟨a, ha⟩ := hdid.instances
      rw [← hdrift.instances]
      cases c with
      | copyInstance source name' only =>
        cases hc
        simp only [Call.complete, Option.ite_none_left_eq_some, Option.some.injEq] at ha
        rw [← ha.2]
        exact Instances.remove_append _ (Instances.isAt_iff.mpr ⟨rfl, rfl⟩)
      | createInstance req =>
        cases hc
        simp only [Call.complete, Option.ite_none_left_eq_some, Option.some.injEq] at ha
        rw [← ha.2]
        exact Instances.remove_append _ (Instances.isAt_iff.mpr ⟨rfl, rfl⟩)
      | _ => cases hc

theorem makeInstance_handles {c : ServerConfig} {Q : Except Error Unit → View → Prop}
    (hok : ∀ x', Built name x x' → Q (.ok ()) x') (herr : ∀ e x', Alike x x' → Q (.error e) x') :
    Handles t (makeInstance c name) Q x := by
  unfold makeInstance
  refine handles_ite (fun _ => ?_) (fun _ => ?_)
  · rw [handles_bind]
    refine daemon_handles fun d x₁ _ h₁ => ?_
    rw [handles_bind]
    refine handles_alike (fun _ => rfl) rfl fun r x₂ h₂ => ?_
    have h₂ := h₁.trans h₂
    cases r with
    | error e => exact herr e x₂ h₂
    | ok source =>
      rw [handles_bind]
      refine daemon_handles fun d x₃ hd h₃ => ?_
      rw [handles_bind]
      refine handles_alike (fun _ => rfl) rfl fun r x₄ h₄ => ?_
      have hd : x₄.1.incusDaemon = some d := (h₃.trans h₄).incusDaemon.trans hd
      have h₄ := (h₂.trans h₃).trans h₄
      cases r with
      | error e => exact herr e x₄ h₄
      | ok _ =>
        exact makes_handles hd rfl (fun x₅ h₅ => hok x₅ (h₄.built h₅))
          (fun e x₅ h₅ => herr e x₅ (h₄.trans h₅))
  · rw [handles_bind]
    refine daemon_handles fun d x₁ hd h₁ => ?_
    rw [handles_bind]
    refine handles_alike (fun _ => rfl) rfl fun r x₂ h₂ => ?_
    have h₂ := h₁.trans h₂
    cases r with
    | error e => exact herr e x₂ h₂
    | ok _ =>
      exact makes_handles (h₂.incusDaemon.trans hd) rfl (fun x₃ h₃ => hok x₃ (h₂.built h₃))
        (fun e x₃ h₃ => herr e x₃ (h₂.trans h₃))

theorem configureInstance_handles {username password : String}
    {Q : Except Error Unit → View → Prop} (hok : ∀ x', Worked name x x' → Q (.ok ()) x')
    (herr : ∀ e x', Worked name x x' → Gone name x' → Q (.error e) x') :
    Handles t (configureInstance name username password) Q x := by
  have hfail : ∀ e x₁, Worked name x x₁ → Handles t (do
      forceDelete name
      pure (.error e)) Q x₁ := fun e x₁ h₁ =>
    giveUp_handles fun x₂ h₂ hg => herr e x₂ (h₁.trans h₂) hg
  unfold configureInstance
  rw [handles_bind]
  refine daemon_handles fun d x₁ _ h₁ => ?_
  rw [handles_bind]
  refine handles_alike (fun _ => rfl) rfl fun r x₂ h₂ => ?_
  have h₂ := h₁.trans h₂
  cases r with
  | error e => exact hfail e x₂ h₂.worked
  | ok ct =>
    rw [handles_bind]
    refine handles_alike (fun _ => rfl) rfl fun c x₃ h₃ => ?_
    dsimp only
    rw [handles_bind]
    refine daemon_handles fun d x₄ hd h₄ => ?_
    rw [handles_bind]
    refine handles_alike (fun _ => rfl) rfl fun r x₅ h₅ => ?_
    have hd : x₅.1.incusDaemon = some d := (h₄.trans h₅).incusDaemon.trans hd
    have h₅ := ((h₂.trans h₃).trans h₄).trans h₅
    cases r with
    | error e => exact hfail e x₅ h₅.worked
    | ok _ =>
      rw [handles_bind]
      refine handles_wait hd (fun r => by cases r <;> rfl) (fun _ _ _ => remove_complete_update)
        fun r x₆ h₆ => ?_
      have h₆ := h₅.then h₆
      cases r with
      | error e => exact hfail e x₆ h₆
      | ok _ => exact hok x₆ h₆

/-- What a function that makes an instance leaves: the instance of a new random id, or nothing. -/
def CreatedOrUndone (x : View) : Except Error Info → View → Prop
  | .ok info, x' => ∃ u, DrawnSince x.2 x'.2 u ∧ info.name = nameOf u ∧ Built (nameOf u) x x'
  | .error _, x' => Undone x x'

theorem createLocked_handles {su : StatusUpdate} (hsu : Tells t su) (x : View) :
    Handles t (createLocked su) (CreatedOrUndone x) x := by
  unfold createLocked
  rw [handles_bind]
  refine hsu.handles fun x₁ h₁ => ?_
  rw [handles_bind]
  refine handles_op fun u x₂ hm => ?_
  have h₂ : Alike x x₂ := h₁.trans ⟨hm.plain rfl, (hm.drift rfl).instances⟩
  have hu : DrawnSince x.2 x₂.2 u := ⟨x₁.2, h₁.suffix, hm.log_eq ▸ List.suffix_rfl⟩
  dsimp only
  rw [handles_bind]
  refine handles_alike (fun _ => rfl) rfl fun password x₃ h₃ => ?_
  rw [handles_bind]
  refine handles_alike (fun _ => rfl) rfl fun c x₄ h₄ => ?_
  have hu := hu.mono List.suffix_rfl (h₃.trans h₄).suffix
  have h₄ := (h₂.trans h₃).trans h₄
  rw [handles_bind]
  refine makeInstance_handles (fun x₅ h₅ => ?_) (fun e x₅ h₅ => .inl (h₄.trans h₅))
  have hu := hu.mono List.suffix_rfl h₅.suffix
  have h₅ : Built (nameOf u) x x₅ := h₄.built h₅
  -- from here on an error exit removes the instance
  have hundone : ∀ x', Worked (nameOf u) x₅ x' → Gone (nameOf u) x' → Undone x x' := fun x' h hg =>
    .inr ⟨u, hu.mono List.suffix_rfl h.suffix, h₅.worked h, hg⟩
  rw [handles_bind]
  refine hsu.handles fun x₆ h₆ => ?_
  rw [handles_bind]
  refine configureInstance_handles (fun x₇ h₇ => ?_)
    (fun e x₇ h₇ hg => hundone x₇ (h₆.then h₇) hg)
  have h₇ := h₆.then h₇
  rw [handles_bind]
  refine instanceStart_handles hsu (fun ip x₈ h₈ => ?_) (fun e x₈ h₈ _ => ?_)
  · rw [handles_bind]
    refine handles_alike (fun _ => rfl) rfl fun c x₉ h₉ => ?_
    have h₉ := (h₇.trans h₈).alike h₉
    exact ⟨u, hu.mono List.suffix_rfl h₉.suffix, rfl, h₅.worked h₉⟩
  · exact giveUp_handles fun x₉ h₉ hg => hundone x₉ ((h₇.trans h₈).trans h₉) hg

theorem instanceCreate_handles {su : StatusUpdate} (hsu : Tells t su) (x : View) :
    Handles t (instanceCreate su) (CreatedOrUndone x) x := by
  unfold instanceCreate
  rw [handles_bind]
  refine handles_alike (fun _ => rfl) rfl fun _ x₁ h₁ => ?_
  rw [handles_bind]
  refine solo_mono (fun r x₂ h₂ => ?_) (createLocked_handles hsu x₁)
  rw [handles_bind]
  refine handles_alike (fun _ => rfl) rfl fun _ x₃ h₃ => ?_
  cases r with
  | error e => exact h₁.undone (Undone.alike h₂ h₃)
  | ok info =>
    obtain ⟨u, hu, hname, hb⟩ := h₂
    exact ⟨u, hu.mono h₁.suffix h₃.suffix, hname, h₁.built (hb.alike h₃)⟩

end Programs

end IncusDemo
