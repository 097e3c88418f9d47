/-
  IncusDemo.Sequential

  A thread of the server on its own, the clock and the configuration aside:
  what its operations do to the database, the instances and the timers, said
  once for the operations that change nothing (`Still`) and once for the
  removal of an instance (`Removed`).

  `C` is what a run assumes about failures.  Everything here assumes at most
  that deletions succeed (`Deletes`).
-/

import IncusDemo.Conc.Alone
import IncusDemo.Steps

namespace IncusDemo

open Go Conc

-- ============================================================================
-- Runs of one thread
-- ============================================================================

/-- The clock moves, or the configuration is reloaded. -/
def Ambient : Env → Prop
  | .tick _ | .reload _ => True
  | _ => False

/-- The worlds differ at most in the clock and the configuration. -/
structure Drift (w w' : World) : Prop where
  incusDaemon : w'.incusDaemon = w.incusDaemon
  timers : w'.timers = w.timers
  db : w'.db = w.db
  instances : w'.instances = w.instances

theorem drifts : server.Drifts Ambient Drift where
  refl := fun _ => ⟨rfl, rfl, rfl, rfl⟩
  trans := fun _ _ _ h h' => ⟨h'.incusDaemon.trans h.incusDaemon, h'.timers.trans h.timers,
    h'.db.trans h.db, h'.instances.trans h.instances⟩
  act := by
    intro e w w' stop ps hidle h
    cases e with
    | tick t =>
      cases h
      exact ⟨rfl, rfl, rfl, rfl, rfl⟩
    | reload c =>
      cases h
      exact ⟨rfl, rfl, rfl, rfl, rfl⟩
    | _ => exact hidle.elim

/-- What a thread goes by: the world, and its log. -/
abbrev View := Machine.View Op Ret World

/-- Thread `t` performs `o`, when the clock and the configuration may have changed before. -/
def Moved (C : World → Event → Prop) (t : Nat) (x : View) (o : Op) (r : Ret o) (x' : View) : Prop :=
  ∃ w, Drift x.1 w ∧ C w ⟨o, r⟩ ∧ Did w t ⟨o, r⟩ x'.1 ∧ x'.2 = ⟨o, r⟩ :: x.2

theorem covers_moved (C : World → Event → Prop) (t : Nat) : server.Covers t C Drift (Moved C t) :=
  fun _ w₁ _ _ _ _ _ hdrift hC hexec => ⟨w₁, hdrift, hC, exec_did hexec, rfl⟩

/-- Weakest preconditions of programs that thread `t` runs alone; `R` must hold whenever it is
    about to start another thread. -/
abbrev Solo {α : Type} (C : World → Event → Prop) (R : View → Prop) (t : Nat) (prog : Prog α)
    (Q : α → View → Prop) (x : View) : Prop :=
  Conc.Prog.wp (Moved C t) (fun y o => (∃ q, o = .go q) → R y) prog Q x

/-- Deletions fail only for want of the instance. -/
def Deletes (w : World) : Event → Prop
  | ⟨.call d (.deleteInstance name), .error _⟩ => w.instances.get? d name = none
  | ⟨.wait d (.deleteInstance name), .error _⟩ => w.instances.get? d name = none
  | _ => True

/-- The test for `Deletes`. -/
def deletes (w : World) : Event → Bool
  | ⟨.call d (.deleteInstance name), .error _⟩ => (w.instances.get? d name).isNone
  | ⟨.wait d (.deleteInstance name), .error _⟩ => (w.instances.get? d name).isNone
  | _ => true

theorem of_deletes {w : World} {e : Event} (h : deletes w e = true) : Deletes w e := by
  obtain ⟨o, r⟩ := e
  cases o with
  | call d c =>
    cases c with
    | deleteInstance name =>
      cases r with
      | error err => exact Option.isNone_iff_eq_none.mp h
      | ok _ => trivial
    | _ => trivial
  | wait d c =>
    cases c with
    | deleteInstance name =>
      cases r with
      | error err => exact Option.isNone_iff_eq_none.mp h
      | ok _ => trivial
    | _ => trivial
  | _ => trivial

/-- The test for runs of thread `t` alone whose steps pass `f`. -/
def alone (t : Nat) (f : World → Event → Bool) (s : Sys) : Label → Bool
  | .thread u e => u == t && f s.world e
  | .env (.tick _) | .env (.reload _) => true
  | .env _ => false

theorem of_alone {t : Nat} {f : World → Event → Bool} {C : World → Event → Prop}
    (hf : ∀ w e, f w e = true → C w e) (s : Sys) (l : Label) (h : alone t f s l = true) :
    Machine.Alone t C Ambient s l := by
  cases l with
  | thread u e =>
    obtain ⟨hu, he⟩ := Bool.and_eq_true_iff.mp h
    exact ⟨beq_iff_eq.mp hu, hf _ _ he⟩
  | env e =>
    cases e with
    | tick _ | reload _ => trivial
    | _ => simp [alone] at h

/-- Thread `t` has come to its end, with a log that passes `f`. -/
def endedWith (t : Nat) (f : Log → Bool) (s : Sys) : Bool :=
  match s.threads[t]? with
  | some ⟨_, _, l, .ret ()⟩ => f l
  | _ => false

theorem done_of_endedWith {t : Nat} {f : Log → Bool} {s : Sys} (h : endedWith t f s = true) :
    ∃ l, (∃ th, s.threads[t]? = some th ∧ th.log = l ∧ th.prog = .ret ()) ∧ f l = true := by
  unfold endedWith at h
  split at h
  · rename_i proc alive l hth
    exact ⟨l, ⟨_, hth, rfl, rfl⟩, h⟩
  · cases h

-- ============================================================================
-- What the operations change
-- ============================================================================

/-- Operations that leave the data as it is. -/
def idle : Op → Bool
  | .setIncusDaemon _ | .afterFunc _ _ => false
  | .wait _ (.copyInstance ..) | .wait _ (.createInstance _) | .wait _ (.updateInstance ..)
  | .wait _ (.updateInstanceState ..) | .wait _ (.deleteInstance _) => false
  | .query (.dbNew _) | .query (.dbDelete _) | .query (.dbExpire _)
  | .query (.updateAllocated ..) | .query (.insertFeedback ..) | .query (.updateFeedback ..) => false
  | _ => true

/-- Operations that change neither the data nor a phase. -/
def inert (o : Op) : Bool := idle o && quiet o

/-- Nothing has changed but for quiet operations in the log. -/
structure Still (x x' : View) : Prop extends Drift x.1 x'.1 where
  log : Quiet x.2 x'.2

theorem Still.refl (x : View) : Still x x := ⟨drifts.refl x.1, .refl x.2⟩

theorem Still.trans {x y z : View} (h : Still x y) (h' : Still y z) : Still x z :=
  ⟨drifts.trans _ _ _ h.toDrift h'.toDrift, h.log.trans h'.log⟩

/-- Statement `q` has been run, with answer `a`. -/
structure Queried (q : Query) (a : q.Res) (x x' : View) : Prop where
  incusDaemon : x'.1.incusDaemon = x.1.incusDaemon
  timers : x'.1.timers = x.1.timers
  db : x'.1.db = (x.1.db.run q).2
  instances : x'.1.instances = x.1.instances
  answer : x.1.db.Answers q a
  log : x'.2 = ⟨.query q, .ok a⟩ :: x.2

/-- The instance has been removed, and nothing else has changed. -/
structure Removed (d : InstanceServer) (name : String) (x x' : View) : Prop where
  incusDaemon : x'.1.incusDaemon = x.1.incusDaemon
  timers : x'.1.timers = x.1.timers
  db : x'.1.db = x.1.db
  instances : x'.1.instances = x.1.instances.remove d name
  log : Quiet x.2 x'.2

/-- Nothing has changed but the instance; once it is removed, there is no difference. -/
structure Touched (d : InstanceServer) (name : String) (x x' : View) : Prop where
  incusDaemon : x'.1.incusDaemon = x.1.incusDaemon
  timers : x'.1.timers = x.1.timers
  db : x'.1.db = x.1.db
  instances : x'.1.instances.remove d name = x.1.instances.remove d name
  log : Quiet x.2 x'.2

theorem Still.touched {d : InstanceServer} {name : String} {x x' : View} (h : Still x x') :
    Touched d name x x' :=
  ⟨h.incusDaemon, h.timers, h.db, by rw [h.instances], h.log⟩

theorem Touched.trans {d : InstanceServer} {name : String} {x y z : View}
    (h : Touched d name x y) (h' : Touched d name y z) : Touched d name x z :=
  ⟨h'.incusDaemon.trans h.incusDaemon, h'.timers.trans h.timers, h'.db.trans h.db,
    h'.instances.trans h.instances, h.log.trans h'.log⟩

theorem Touched.removed {d : InstanceServer} {name : String} {x y z : View}
    (h : Touched d name x y) (h' : Removed d name y z) : Removed d name x z :=
  ⟨h'.incusDaemon.trans h.incusDaemon, h'.timers.trans h.timers, h'.db.trans h.db,
    h'.instances.trans h.instances, h.log.trans h'.log⟩

theorem Instances.remove_missing {is : Instances} {d : InstanceServer} {name : String}
    (h : is.get? d name = none) : is.remove d name = is := by
  refine List.filter_eq_self.mpr fun i hi => ?_
  rw [Instances.get?, List.find?_eq_none] at h
  simpa using h i hi

/-- A removed instance leaves no trace of how it was changed before. -/
theorem Instances.remove_modify (is : Instances) (d : InstanceServer) (name : String)
    {f : Instance → Instance} (hf : ∀ i, isAt d name (f i) = isAt d name i) :
    (is.modify d name f).remove d name = is.remove d name := by
  induction is with
  | nil => rfl
  | cons i is ih =>
    simp only [Instances.modify, Instances.remove, List.map_cons, List.filter_cons] at ih ⊢
    by_cases hi : isAt d name i = true
    · simp [hi, hf, ih]
    · simp [hi, ih]

theorem Instances.get?_remove (is : Instances) (d : InstanceServer) (name : String) :
    (is.remove d name).get? d name = none := by
  rw [Instances.get?, List.find?_eq_none]
  intro i hi
  rw [(Instances.mem_remove.mp hi).2]
  exact Bool.false_ne_true

section Rules

variable {C : World → Event → Prop} {R : View → Prop} {t : Nat} {x : View}

theorem Moved.quiet {o : Op} {r : Ret o} {x' : View} (hq : IncusDemo.quiet o = true)
    (h : Moved C t x o r x') : Quiet x.2 x'.2 := by
  obtain ⟨w, -, -, -, hlog⟩ := h
  rw [hlog]
  exact Quiet.cons hq r x.2

/-- An idle operation leaves the data as it is. -/
theorem Moved.drift {o : Op} {r : Ret o} {x' : View} (hi : idle o = true)
    (h : Moved C t x o r x') : Drift x.1 x'.1 := by
  obtain ⟨w, hdrift, -, hdid, -⟩ := h
  constructor
  · rw [hdid.incusDaemon, ← hdrift.incusDaemon]
    cases o <;> first | rfl | cases hi
  · rw [hdid.timers, ← hdrift.timers]
    cases o <;> first | rfl | cases hi
  · rw [hdid.db, ← hdrift.db]
    cases o with
    | query q =>
      cases r with
      | error e => rfl
      | ok a => cases q <;> first | rfl | cases hi
    | _ => rfl
  · rw [← hdrift.instances]
    have hinstances := hdid.instances
    cases o with
    | wait d c =>
      cases r with
      | error e => exact hinstances
      | ok a =>
        obtain ⟨b, hb⟩ := hinstances
        cases c <;> first | exact (Option.some.inj hb).symm | cases hi
    | _ => exact hinstances

theorem Moved.log_eq {o : Op} {r : Ret o} {x' : View} (h : Moved C t x o r x') :
    x'.2 = ⟨o, r⟩ :: x.2 := by
  obtain ⟨w, -, -, -, hlog⟩ := h
  exact hlog

theorem Moved.still {o : Op} {r : Ret o} {x' : View} (hi : inert o = true)
    (h : Moved C t x o r x') : Still x x' := by
  obtain ⟨hidle, hquiet⟩ := Bool.and_eq_true_iff.mp hi
  exact ⟨h.drift hidle, h.quiet hquiet⟩

theorem Moved.queried {q : Query} {a : q.Res} {x' : View}
    (h : Moved C t x (.query q) (.ok a) x') : Queried q a x x' := by
  obtain ⟨w, hdrift, -, hdid, hlog⟩ := h
  constructor
  · exact hdid.incusDaemon.trans hdrift.incusDaemon
  · exact hdid.timers.trans hdrift.timers
  · rw [← hdrift.db]
    exact hdid.db
  · rw [← hdrift.instances]
    exact hdid.instances
  · rw [← hdrift.db]
    exact hdid.truthful
  · exact hlog

theorem solo_bind {α β : Type} {m : Prog α} {f : α → Prog β} {Q : β → View → Prop} :
    Solo C R t (m >>= f) Q x ↔ Solo C R t m (fun a x' => Solo C R t (f a) Q x') x :=
  Conc.Prog.wp_bind _ _

theorem solo_mono {α : Type} {m : Prog α} {Q Q' : α → View → Prop}
    (h : ∀ a x', Q a x' → Q' a x') (hm : Solo C R t m Q x) : Solo C R t m Q' x :=
  Conc.Prog.wp_mono h hm

theorem solo_ite {α : Type} {c : Prop} [Decidable c] {m m' : Prog α} {Q : α → View → Prop}
    (h : c → Solo C R t m Q x) (h' : ¬ c → Solo C R t m' Q x) :
    Solo C R t (if c then m else m') Q x := (Conc.Prog.wp_ite _ _ _).mpr ⟨h, h'⟩

theorem solo_halt {α : Type} {Q : α → View → Prop} :
    Solo C R t (do let stuck ← perform .halt; nomatch stuck) Q x :=
  ⟨fun ⟨_, h⟩ => (nomatch h), fun r => nomatch r⟩

theorem solo_op {o : Op} {Q : Ret o → View → Prop} (hgo : ∀ q, o ≠ .go q)
    (h : ∀ r x', Moved C t x o r x' → Q r x') : Solo C R t (perform o) Q x :=
  ⟨fun ⟨q, hq⟩ => absurd hq (hgo q), h⟩

theorem solo_still {o : Op} {Q : Ret o → View → Prop} (hi : inert o = true) (hgo : ∀ q, o ≠ .go q)
    (h : ∀ r x', Still x x' → Q r x') : Solo C R t (perform o) Q x :=
  solo_op hgo fun r x' hm => h r x' (hm.still hi)

-- ============================================================================
-- Removing instances
-- ============================================================================

theorem daemon_solo {Q : InstanceServer → View → Prop}
    (h : ∀ d x', x.1.incusDaemon = some d → Still x x' → Q d x') : Solo C R t daemon Q x := by
  unfold daemon
  rw [solo_bind]
  refine solo_op nofun fun d x' hm => ?_
  have hstill : Still x x' := hm.still rfl
  obtain ⟨w, hdrift, -, hdid, -⟩ := hm
  have hd : d = x.1.incusDaemon := (hdid.truthful : d = w.incusDaemon).trans hdrift.incusDaemon
  cases d with
  | none => exact solo_halt
  | some d => exact h d x' hd.symm hstill

/-- Stopping an instance leaves it as it is, or changes its status. -/
theorem stopped_touched {d : InstanceServer} {name : String} {r : Except Error Unit} {x' : View}
    (hm : Moved C t x (.wait d (.updateInstanceState name "stop" true)) r x') :
    Touched d name x x' := by
  have hquiet := hm.quiet rfl
  obtain ⟨w, hdrift, -, hdid, -⟩ := hm
  have hinstances : x'.1.instances.remove d name = w.instances.remove d name := by
    have hchange := hdid.instances
    cases r with
    | error e =>
      have hsame : x'.1.instances = w.instances := hchange
      rw [hsame]
    | ok a =>
      obtain ⟨b, hb⟩ := hchange
      simp only [Call.complete, Option.ite_none_right_eq_some, Option.some.injEq] at hb
      rw [← hb.2]
      exact Instances.remove_modify _ d name fun i => rfl
  exact ⟨hdid.incusDaemon.trans hdrift.incusDaemon, hdid.timers.trans hdrift.timers,
    hdid.db.trans hdrift.db, by rw [hinstances, hdrift.instances], hquiet⟩

/-- When `Deletes` holds of every event, a refused or failed call finds no instance to delete. -/
theorem deleteInstance_solo (hC : ∀ w e, C w e → Deletes w e) {d : InstanceServer} {name : String}
    {Q : Except Error Unit → View → Prop} (h : ∀ r x', Removed d name x x' → Q r x') :
    Solo C R t (deleteInstance d name) Q x := by
  unfold deleteInstance
  rw [solo_bind]
  refine solo_op nofun fun r x₁ hm => ?_
  have h₁ : Still x x₁ := hm.still rfl
  cases r with
  | error e =>
    obtain ⟨w, hdrift, hfail, -, -⟩ := hm
    have hmissing : x.1.instances.get? d name = none := hdrift.instances ▸ hC _ _ hfail
    refine h _ x₁ ⟨h₁.incusDaemon, h₁.timers, h₁.db, ?_, h₁.log⟩
    rw [h₁.instances, Instances.remove_missing hmissing]
  | ok _ =>
    refine solo_op nofun fun r x₂ hm₂ => ?_
    have hquiet := hm₂.quiet rfl
    obtain ⟨w, hdrift, hfail, hdid, -⟩ := hm₂
    have hinstances : x₂.1.instances = w.instances.remove d name := by
      have hchange := hdid.instances
      cases r with
      | error e =>
        have hsame : x₂.1.instances = w.instances := hchange
        rw [hsame, Instances.remove_missing (hC _ _ hfail)]
      | ok a =>
        obtain ⟨b, hb⟩ := hchange
        simp only [Call.complete, Option.ite_none_right_eq_some, Option.some.injEq] at hb
        exact hb.2.symm
    exact h r x₂ (h₁.touched.removed ⟨hdid.incusDaemon.trans hdrift.incusDaemon,
      hdid.timers.trans hdrift.timers, hdid.db.trans hdrift.db, hdrift.instances ▸ hinstances,
      hquiet⟩)

theorem incusForceDelete_solo (hC : ∀ w e, C w e → Deletes w e) {d : InstanceServer} {name : String}
    {Q : Except Error Unit → View → Prop} (h : ∀ r x', Removed d name x x' → Q r x') :
    Solo C R t (incusForceDelete d name) Q x := by
  have hdelete : ∀ y, Touched d name x y → Solo C R t (deleteInstance d name) Q y := fun _ hy =>
    deleteInstance_solo hC fun r z hz => h r z (hy.removed hz)
  unfold incusForceDelete
  rw [solo_bind]
  refine solo_still rfl nofun fun r x₁ h₁ => ?_
  cases r with
  | error e => exact hdelete x₁ h₁.touched
  | ok _ =>
    rw [solo_bind]
    refine solo_op nofun fun r x₂ hm => ?_
    exact hdelete x₂ (h₁.touched.trans (stopped_touched hm))

theorem forceDelete_solo (hC : ∀ w e, C w e → Deletes w e) {name : String}
    {Q : Unit → View → Prop}
    (h : ∀ d x', x.1.incusDaemon = some d → Removed d name x x' → Q () x') :
    Solo C R t (forceDelete name) Q x := by
  unfold forceDelete
  rw [solo_bind]
  refine daemon_solo fun d x₁ hd h₁ => ?_
  rw [solo_bind]
  refine incusForceDelete_solo hC fun r x₂ h₂ => ?_
  exact h d x₂ hd (h₁.touched.removed h₂)

end Rules

end IncusDemo
