/-
  IncusDemo.Rollback

  A creation that fails leaves nothing: neither `instanceCreate`, nor
  `instancePreAllocate`, nor a round of its loop.  The instance of the attempt
  has a new random id, so that removing it leaves exactly the instances that
  there were before.
-/

import IncusDemo.FailedStart

namespace IncusDemo

open Go Conc Conc.Prog

-- ============================================================================
-- Executions
-- ============================================================================

/-- Thread `t` performs `o`, when the clock may have moved and the configuration may have been
    reloaded before. -/
def Acts (C : World → Event → Prop) (t : Nat) (x : View) (o : Op) (r : Ret o) (x' : View) : Prop :=
  ∃ clock config ch, C { x.1 with clock := clock, config := config } ⟨o, r⟩ ∧
    exec { x.1 with clock := clock, config := config } t o ch = some (r, x'.1) ∧
    x'.2 = ⟨o, r⟩ :: x.2

/-- Executed by thread `t`, with deletions that succeed, the program comes to its end with the
    result `a`. -/
abbrev Leads {α : Type} (t : Nat) (prog : Prog α) (x : View) (a : α) (x' : View) : Prop :=
  prog.Yields (Acts Deletes t) x a x'

/-- The random id of every instance has been drawn. -/
def Drawn (w : World) : Prop := ∀ i ∈ w.instances, ∀ u, i.name = nameOf u → u ∈ w.uuids

/-- It has in every state that a server reaches. -/
theorem drawn_run {D : Sys → Label → Prop} {s₀ s : Sys} (h0 : Initial s₀)
    (hw : WellFormed s₀.world) (hrun : server.Run D s₀ s) : Drawn s.world := by
  have hregular : Sound s ∧ Regular s₀.world s := by
    refine invariant_run h0.sound (h0.regular hw) ?_ ?_ hrun
    · exact fun s t p l e s' hsound hI _ hm => hI.threadStep hsound hm
    · exact fun s e s' _ hI _ hm => hI.envStep hm
  exact hregular.2.named.instances

/-- Nothing is left in `x` of what has been done since the world was `w`: the rows and the instances
    are as before, and no instance has a name that was generated. -/
structure LeavesNothing (w : World) (x : View) : Prop where
  db : x.1.db = w.db
  instances : x.1.instances = w.instances
  gone : ∀ u, ⟨.newRandom, u⟩ ∈ x.2 → ∀ i ∈ x.1.instances, i.name ≠ nameOf u

section Executions

variable {C : World → Event → Prop} {t : Nat} {α : Type} {prog : Prog α} {a : α} {x x' : View}

theorem Acts.moved {o : Op} {r : Ret o} (h : Acts C t x o r x') : Moved C t x o r x' := by
  obtain ⟨clock, config, ch, hC, hexec, hlog⟩ := h
  have hdrift : Drift x.1 { x.1 with clock := clock, config := config } := ⟨rfl, rfl, rfl, rfl⟩
  exact ⟨_, hdrift, hC, exec_did hexec, hlog⟩

theorem Acts.uuids {o : Op} {r : Ret o} (h : Acts C t x o r x') :
    x'.1.uuids = uuidsAfter ⟨o, r⟩ x.1.uuids := by
  obtain ⟨clock, config, ch, -, hexec, -⟩ := h
  exact (exec_did hexec).uuids

theorem Acts.fresh {u : String} (h : Acts C t x .newRandom u x') : u ∉ x.1.uuids := by
  obtain ⟨clock, config, ch, -, hexec, -⟩ := h
  exact (exec_did hexec).truthful

theorem mem_uuidsAfter {e : Event} {u : String} {uuids : List String} (h : u ∈ uuids) :
    u ∈ uuidsAfter e uuids := by
  unfold uuidsAfter
  split
  · exact List.mem_cons_of_mem _ h
  · exact h

/-- What an execution does to the random ids. -/
structure Draws (x x' : View) : Prop where
  suffix : x.2 <:+ x'.2
  uuids : ∀ u ∈ x.1.uuids, u ∈ x'.1.uuids
  fresh : ∀ u, DrawnSince x.2 x'.2 u → u ∉ x.1.uuids

theorem Draws.refl (x : View) : Draws x x := by
  refine ⟨List.suffix_rfl, fun _ h => h, ?_⟩
  rintro u ⟨m, hm, hu⟩
  have hlt := Nat.lt_of_succ_le (hu.length_le.trans hm.length_le)
  exact absurd hlt (Nat.lt_irrefl _)

theorem Draws.step {y : View} {o : Op} {r : Ret o} (h : Draws x y) (hs : Acts C t y o r x') :
    Draws x x' := by
  have hlog := hs.moved.log_eq
  refine ⟨hlog ▸ h.suffix.trans (List.suffix_cons ..), fun u hu => ?_, ?_⟩
  · rw [hs.uuids]
    exact mem_uuidsAfter (h.uuids u hu)
  · rintro u ⟨m, hm, hu⟩
    rw [hlog] at hu
    rcases List.suffix_cons_iff.mp hu with heq | hu
    · cases heq
      exact fun hold => hs.fresh (h.uuids u hold)
    · exact h.fresh u ⟨m, hm, hu⟩

theorem Leads.draws (h : Leads t prog x a x') : Draws x x' :=
  h.invariant (I := Draws x) (fun _ _ _ _ hI hs => hI.step hs) (.refl x)

/-- What holds of a thread that moves alone, holds where it ends. -/
theorem Leads.handled {Q : α → View → Prop} (h : Leads t prog x a x') (hQ : Handles t prog Q x) :
    Q a x' :=
  (h.mono fun _ _ _ _ hs => hs.moved).of_wp hQ

end Executions

-- ============================================================================
-- Reverting
-- ============================================================================

/-- The tables, the instances and the connection are what they were. -/
structure Reverted (x x' : View) : Prop extends Draws x x' where
  incusDaemon : x'.1.incusDaemon = x.1.incusDaemon
  db : x'.1.db = x.1.db
  instances : x'.1.instances = x.1.instances

section Reverted

variable {t : Nat} {x y z : View} {su : StatusUpdate}

theorem Reverted.drawn (h : Reverted x y) (hx : Drawn x.1) : Drawn y.1 := by
  intro i hi u hu
  rw [h.instances] at hi
  exact h.uuids u (hx i hi u hu)

/-- No instance has the name of an id that has not been drawn. -/
theorem Drawn.get?_eq_none {w : World} (h : Drawn w) {u : String} (hu : u ∉ w.uuids)
    (d : InstanceServer) : w.instances.get? d (nameOf u) = none := by
  rw [Instances.get?, List.find?_eq_none]
  intro i hi hat
  exact hu (h i hi u (Instances.isAt_iff.mp hat).2)

/-- What has been made and removed again makes no difference. -/
theorem Undone.reverted (h : Undone x y) (hx : Drawn x.1) (hd : Draws x y) : Reverted x y := by
  rcases h with h | ⟨u, hu, hb, hg⟩
  · exact ⟨hd, h.incusDaemon, h.db, h.instances⟩
  · obtain ⟨d, hdaemon⟩ := Option.ne_none_iff_exists'.mp hb.connected
    have hnew := hx.get?_eq_none (hd.fresh u hu) d
    have hgone := hg d (hb.incusDaemon.trans hdaemon)
    refine ⟨hd, hb.incusDaemon, hb.db, ?_⟩
    rw [← Instances.remove_missing hgone, hb.others d hdaemon, Instances.remove_missing hnew]

theorem DrawnSince.trans_left {l l' l'' : Log} {u : String} (hl : l' <:+ l'')
    (h : DrawnSince l l'' u) : DrawnSince l l' u ∨ DrawnSince l' l'' u := by
  obtain ⟨m, hm, hu⟩ := h
  rcases List.suffix_or_suffix_of_suffix hl ((List.suffix_cons ..).trans hu) with h | h
  · exact .inr ⟨m, h, hu⟩
  · rcases List.suffix_or_suffix_of_suffix hl hu with h' | h'
    · rcases List.suffix_cons_iff.mp h' with rfl | h'
      · exact .inl ⟨m, hm, List.suffix_rfl⟩
      · exact .inr ⟨m, h', hu⟩
    · exact .inl ⟨m, hm, h'⟩

theorem Draws.trans (h : Draws x y) (h' : Draws y z) : Draws x z where
  suffix := h.suffix.trans h'.suffix
  uuids := fun u hu => h'.uuids u (h.uuids u hu)
  fresh := fun u hu => (hu.trans_left h'.suffix).elim (h.fresh u) fun hu hold =>
    h'.fresh u hu (h.uuids u hold)

theorem Reverted.trans (h : Reverted x y) (h' : Reverted y z) : Reverted x z :=
  ⟨h.toDraws.trans h'.toDraws, h'.incusDaemon.trans h.incusDaemon, h'.db.trans h.db,
    h'.instances.trans h.instances⟩

theorem Alike.reverted (h : Alike x y) (hd : Draws x y) : Reverted x y :=
  ⟨hd, h.incusDaemon, h.db, h.instances⟩

theorem Reverted.leavesNothing {w : World} {x : View} (h : Reverted (w, []) x) (hw : Drawn w) :
    LeavesNothing w x := by
  refine ⟨h.db, h.instances, fun u hu i hi hname => ?_⟩
  obtain ⟨l₁, l₂, hl⟩ := List.append_of_mem hu
  have hfresh := h.fresh u ⟨l₂, List.nil_suffix, hl ▸ List.suffix_append ..⟩
  rw [h.instances] at hi
  exact hfresh (hw i hi u hname)

-- ============================================================================
-- The functions
-- ============================================================================

/-- `instanceCreate` fails. -/
theorem instanceCreate_reverted (hsu : Tells t su) {e : Error} (hx : Drawn x.1)
    (h : Leads t (instanceCreate su) x (.error e) y) : Reverted x y :=
  (h.handled (instanceCreate_handles hsu x) : Undone x y).reverted hx h.draws

/-- All rounds but the last one fail. -/
theorem createUntilOk_reverted {rounds : Nat} {info : Info} (hx : Drawn x.1)
    (h : Leads t (createUntilOk rounds) x info z) :
    ∃ y, Reverted x y ∧ Leads t (instanceCreate none) y (.ok info) z := by
  induction rounds generalizing x with
  | zero =>
    obtain ⟨stuck, -, -, -⟩ := yields_bind.mp h
    exact nomatch stuck
  | succ rounds ih =>
    obtain ⟨r, y, hcreate, hrest⟩ := yields_bind.mp h
    cases r with
    | ok info' =>
      cases hrest
      exact ⟨x, (Alike.refl x).reverted (.refl x), hcreate⟩
    | error e =>
      have hy := instanceCreate_reverted tells_none hx hcreate
      obtain ⟨u, y', hsleep, hrest⟩ := yields_bind.mp hrest
      have hmoved := (yields_perform.mp hsleep).moved
      have hy' : Reverted x y' := hy.trans
        (Alike.reverted ⟨hmoved.plain rfl, (hmoved.drift rfl).instances⟩ (Leads.draws hsleep))
      obtain ⟨v, hv, hlast⟩ := ih (hy'.drawn hx) hrest
      exact ⟨v, hy'.trans hv, hlast⟩

/-- `instancePreAllocate` fails. -/
theorem instancePreAllocate_reverted {e : Error} (hx : Drawn x.1)
    (h : Leads t instancePreAllocate x (.error e) z) : Reverted x z := by
  obtain ⟨rounds, x₁, hrounds, h⟩ := yields_bind.mp h
  have hmoved := (yields_perform.mp hrounds).moved
  have h₁ : Reverted x x₁ :=
    Alike.reverted ⟨hmoved.plain rfl, (hmoved.drift rfl).instances⟩ (Leads.draws hrounds)
  obtain ⟨info, y, hloop, h⟩ := yields_bind.mp h
  obtain ⟨x₂, h₂, hlast⟩ := createUntilOk_reverted (h₁.drawn hx) hloop
  have h₂ := h₁.trans h₂
  obtain ⟨u, hu, hname, hbuilt⟩ := hlast.handled (instanceCreate_handles tells_none x₂)
  -- what is left to do removes the instance when it fails
  have hgiveUp : ∀ {e' y'}, Alike y y' → Handles t (do
      forceDelete info.name
      pure (.error e')) (fun (r : Except Error Unit) z =>
        ∀ e, r = .error e → Worked info.name y z ∧ Gone info.name z) y' := fun hy =>
    giveUp_handles fun z hz hg _ _ => ⟨hy.then hz, hg⟩
  have hfailed : Worked info.name y z ∧ Gone info.name z := by
    refine Leads.handled (Q := fun r z => ∀ e, r = .error e →
      Worked info.name y z ∧ Gone info.name z) h ?_ e rfl
    rw [handles_bind]
    refine handles_alike (fun _ => rfl) rfl fun c y₁ hy₁ => ?_
    split
    · exact hgiveUp hy₁
    · rw [handles_bind]
      refine handles_alike (fun _ => rfl) rfl fun now y₂ hy₂ => ?_
      rw [handles_bind]
      refine handles_alike (fun _ => rfl) rfl fun c y₃ hy₃ => ?_
      rw [handles_bind]
      refine handles_op fun r y₄ hm => ?_
      cases r with
      | error err =>
        exact hgiveUp (((hy₁.trans hy₂).trans hy₃).trans
          ⟨hm.plain rfl, by
            obtain ⟨w, hdrift, -, hdid, -⟩ := hm
            exact hdid.instances.trans hdrift.instances⟩)
      | ok id =>
        rw [handles_bind]
        exact handles_op fun _ _ _ _ herr => nomatch herr
  have hdraws := hlast.draws.trans (Leads.draws h)
  have hundone : Undone x₂ z := by
    rw [hname] at hfailed
    exact .inr ⟨u, hu.mono List.suffix_rfl (Leads.draws h).suffix, hbuilt.worked hfailed.1, hfailed.2⟩
  exact h₂.trans (hundone.reverted (h₂.drawn hx) hdraws)

end Reverted

-- ============================================================================
-- Every way to fail
-- ============================================================================

/-- Whatever fails of the calls to Incus and of `dbNew`, under any configurations: neither
    `instanceCreate`, with or without a client to tell, nor `instancePreAllocate` leaves anything
    behind when it returns an error, and neither do the rounds of its loop that fail. -/
theorem creation_leaves_nothing {w : World} (hw : Drawn w) (t : Nat) :
    (∀ su ∈ [none, some statusUpdate], ∀ e x,
      Leads t (instanceCreate su) (w, []) (.error e) x → LeavesNothing w x) ∧
    (∀ e x, Leads t instancePreAllocate (w, []) (.error e) x → LeavesNothing w x) ∧
    ∀ rounds info x, Leads t (createUntilOk rounds) (w, []) info x →
      ∃ y, LeavesNothing w y ∧ Leads t (instanceCreate none) y (.ok info) x := by
  refine ⟨fun su hsu e x h => ?_, fun e x h => ?_, fun rounds info x h => ?_⟩
  · have htells : Tells t su := by
      rcases List.mem_pair.mp hsu with rfl | rfl
      · exact tells_none
      · exact tells_statusUpdate
    exact (instanceCreate_reverted htells hw h).leavesNothing hw
  · exact (instancePreAllocate_reverted hw h).leavesNothing hw
  · obtain ⟨y, hy, hlast⟩ := createUntilOk_reverted hw h
    exact ⟨y, hy.leavesNothing hw, hlast⟩

/-- A decision with which only the update of a new instance fails. -/
def unlimited (w : World) : Op → Choice
  | .call _ (.updateInstance ..) => .fail "failed"
  | o => calm w o

theorem unlimited_deletes {w w' : World} {t : Nat} {o : Op} {r : Ret o}
    (h : exec w t o (unlimited w o) = some (r, w')) : Deletes w ⟨o, r⟩ := by
  cases o with
  | call d c =>
    cases c with
    | deleteInstance name =>
      simp only [exec, unlimited, calm, execCall, answer, Choice.ifOk, orNotFound, Option.map_some,
        Option.some.injEq, Prod.mk.injEq] at h
      cases hget : w.instances.get? d name with
      | none =>
        rw [hget] at h
        rw [← h.1]
        exact hget
      | some i =>
        rw [hget] at h
        rw [← h.1]
        trivial
    | _ => trivial
  | wait d c =>
    cases c with
    | deleteInstance name =>
      simp only [exec, unlimited, calm, execWait, Call.complete] at h
      cases hget : w.instances.get? d name with
      | none =>
        rw [hget] at h
        cases h
        exact hget
      | some i =>
        rw [hget] at h
        cases h
        trivial
    | _ => trivial
  | _ => trivial

/-- A world with a connection and no instance. -/
def connectedWorld : World :=
  { smallWorld [] with config := smallConfig 5 0, incusDaemon := some ⟨"default", ""⟩ }

/-- The instance is made, cannot be configured, and is removed. -/
theorem creation_leaves_nothing_small : ∃ e x, makes x.2 = true ∧
    Leads 0 (instanceCreate none) (connectedWorld, []) (.error e) x ∧
    LeavesNothing connectedWorld x := by
  have hcreated : (server.outcome 0 unlimited (instanceCreate none) connectedWorld []).any
      (fun r => (returnedName r.1).isNone && makes r.2.2) = true := by decide +kernel
  obtain ⟨⟨r, x⟩, houtcome, hr⟩ := (Option.any_eq_true _ _).mp hcreated
  obtain ⟨hnone, hmakes⟩ := Bool.and_eq_true_iff.mp hr
  cases r with
  | ok info => cases hnone
  | error e =>
    have hleads : Leads 0 (instanceCreate none) (connectedWorld, []) (.error e) x :=
      Machine.yields_of_outcome (fun w l o r w' hexec =>
        ⟨w.clock, w.config, _, unlimited_deletes hexec, hexec, rfl⟩) houtcome
    have hdrawn : Drawn connectedWorld := fun _ h => absurd h List.not_mem_nil
    exact ⟨e, x, hmakes, hleads,
      (creation_leaves_nothing hdrawn 0).1 none List.mem_cons_self e x hleads⟩

end IncusDemo
