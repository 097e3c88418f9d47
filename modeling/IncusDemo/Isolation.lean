/-
  IncusDemo.Isolation

  The proxy routes by a recorded address.  Incus gives the address of a
  deleted instance to another one, so the address in a row leads to the
  instance of the row only as long as that instance exists: then no other
  instance has the address.  `Addressed` is the invariant behind this; it
  says that what is recorded, looked up or still being made is an address of
  the instance it is for.
-/

import IncusDemo.Timeout

namespace IncusDemo

open Go Conc

/-- Instances that exist at the same time have no address in common. -/
def DistinctAddresses (is : Instances) : Prop :=
  ∀ i ∈ is, ∀ j ∈ is, ∀ ip ∈ i.addresses, ip ∈ j.addresses → i.name = j.name

/-- What earlier runs leave behind: one instance of a name has the addresses of any other, and
    the address in a row is one of the instance of the row. -/
structure AddressesKept (w : World) : Prop where
  same : ∀ i ∈ w.instances, ∀ j ∈ w.instances, i.name = j.name → i.addresses = j.addresses
  rows : ∀ id a, w.db.Row id a → a.instanceIP ≠ "" →
    ∀ i ∈ w.instances, i.name = a.instanceName → a.instanceIP ∈ i.addresses

/-- Thread `t` dials address `ip` for the server name `target`. -/
def Dials (s : Sys) (t : Nat) (target ip : String) : Prop :=
  ∃ l port r s', Runs s t (.proxy target) l ∧ server.Step s (.thread t ⟨.dial ip port, r⟩) s'

/-- Whatever instance has the address that the proxy dials is the one of the session it was
    asked for. -/
def Isolates (s : Sys) : Prop :=
  ∀ t target ip, Dials s t target ip → ∀ i ∈ s.world.instances, ip ∈ i.addresses →
    i.name = nameOf (splitFirst target '.')

/-- When the proxy dials, the instance of the session it was asked for still exists, or its
    address is free. -/
def StillThere (s : Sys) : Prop :=
  ∀ t target ip, Dials s t target ip →
    (∃ i ∈ s.world.instances, i.name = nameOf (splitFirst target '.')) ∨
    ∀ i ∈ s.world.instances, ip ∉ i.addresses

-- ============================================================================
-- Addresses over whole runs
-- ============================================================================

/-- Addresses that are recorded or reported belong to the instance they are for. -/
structure Addressed (w₀ : World) (s : Sys) : Prop where
  same : ∀ i ∈ s.world.instances, ∀ j ∈ s.world.instances,
    i.name = j.name → i.addresses = j.addresses
  rows : ∀ id a, Known w₀ s id a → a.instanceIP ≠ "" →
    ∀ i ∈ s.world.instances, i.name = a.instanceName → a.instanceIP ∈ i.addresses
  drawn : ∀ t p l u, Runs s t p l → attempt l = .drawn u →
    ∀ i ∈ s.world.instances, i.name ≠ nameOf u
  reported : ∀ t p l u ip, Ran s t p l → Reported l (nameOf u) ip →
    u ∈ s.world.uuids ∧ (∀ i ∈ s.world.instances, i.name = nameOf u → ip ∈ i.addresses) ∧
    ∀ t p l, Runs s t p l → attempt l ≠ .drawn u
  found : ∀ t p l label active f, Ran s t p l →
    ⟨.query (.dbGetInstance label active), .ok (some f)⟩ ∈ l →
    ∃ id b, Known w₀ s id b ∧ b.uuid = label ∧ b.instanceIP = f.instanceIP

theorem not_reported_nil {name ip : String} : ¬ Reported [] name ip := by
  rintro ⟨d, net, n, a, hmem, -⟩
  cases hmem

/-- What a log reports was reported before its last event, or by it. -/
theorem reported_cases {l : Log} {e : Event} {name ip : String} (h : Reported (e :: l) name ip) :
    Reported l name ip ∨ ∃ d net n a, e = ⟨.call d (.getInstanceState name), .ok net⟩ ∧
      n ∈ net ∧ a ∈ n.2 ∧ a.scope = "global" ∧ a.address = ip := by
  obtain ⟨d, net, n, a, hmem, hrest⟩ := h
  rcases List.mem_cons.mp hmem with he | hmem
  · exact .inr ⟨d, net, n, a, he.symm, hrest⟩
  · exact .inl ⟨d, net, n, a, hmem, hrest⟩

/-- A global address in a network state is assigned to the instance that reports it. -/
theorem assigned_of_reports {i : Instance} {net : Network} {n : String × List Address}
    {a : Address} (h : Instances.reports i net = true) (hn : n ∈ net) (ha : a ∈ n.2)
    (hscope : a.scope = "global") : a.address ∈ i.addresses := by
  have h := List.all_eq_true.mp (List.all_eq_true.mp h n hn) a ha
  simpa [hscope] using h

/-- A thread that is about to make an instance was so before, and has not made it now, or has
    just drawn its random id. -/
theorem drawn_next {l : Log} {e : Event} {u : String} (h : attempt (e :: l) = .drawn u) :
    (attempt l = .drawn u ∧ ∀ d c name, e = ⟨.wait d c, .ok ()⟩ → c.makes ≠ some name) ∨
      e = ⟨.newRandom, u⟩ := by
  have hcreate : ∀ a : Attempt, a.create ≠ .drawn u := by
    intro a
    cases a <;> exact fun h => nomatch h
  have hgive : ∀ a : Attempt, a.giveUp = .drawn u → a = .drawn u := by
    intro a h
    cases a <;> first | exact h | cases h
  rw [attempt_cons] at h
  unfold Attempt.next at h
  split at h
  · cases h
  · split at h
    · cases h
      exact .inr rfl
    · exact .inl ⟨h, fun _ _ _ he => (nomatch he)⟩
  · exact absurd h (hcreate _)
  · exact absurd h (hcreate _)
  · cases h
  · split at h
    · cases h
    · exact .inl ⟨h, fun _ _ _ he => (nomatch he)⟩
  · split at h
    · exact .inl ⟨hgive _ h, fun _ _ _ he => (nomatch he)⟩
    · exact .inl ⟨h, fun _ _ _ he => (nomatch he)⟩
  · cases h
  · exact .inl ⟨hgive _ h, fun _ _ _ he => (nomatch he)⟩
  · rename_i hcopy hmake _ _ _ _ _
    refine .inl ⟨h, ?_⟩
    rintro d c name rfl hc
    cases c with
    | copyInstance source n instanceOnly => exact hcopy d source n instanceOnly () rfl
    | createInstance req => exact hmake d req () rfl
    | _ => cases hc

section Steps

variable {w₀ : World} {s s' : Sys} {t : Nat} {p : Proc} {l : Log} {e : Event}

/-- An instance after a step was there before with its addresses, or is the one whose random id
    the thread has drawn. -/
theorem instance_cases (hm : ThreadStep s t p l e s') {i : Instance}
    (hi : i ∈ s'.world.instances) :
    (∃ j ∈ s.world.instances, i.Same j) ∨
      ∃ d c u, e = ⟨.wait d c, .ok ()⟩ ∧ c.makes = some i.name ∧ attempt l = .drawn u ∧
        i.name = nameOf u ∧ s'.world.instances = s.world.instances ++ [i] := by
  cases instances_after hm.did.instances with
  | kept hkept => exact .inl (hkept i hi)
  | made d c x he hc happend =>
    rw [happend] at hi
    rcases List.mem_append.mp hi with hi | hi
    · exact .inl ⟨i, hi, rfl, rfl, rfl⟩
    · cases List.mem_singleton.mp hi
      subst he
      obtain ⟨u, hu, hname⟩ := drawn_of_makes hm.allowed hc
      exact .inr ⟨d, c, u, rfl, hc, hu, hname, happend⟩

theorem Addressed.same_after (h : Addressed w₀ s) (hm : ThreadStep s t p l e s') :
    ∀ i ∈ s'.world.instances, ∀ j ∈ s'.world.instances,
      i.name = j.name → i.addresses = j.addresses := by
  intro i hi j hj hname
  rcases instance_cases hm hi with ⟨i', hi', hsame⟩ | ⟨-, -, u, -, -, hu, hiu, happend⟩
  · rcases instance_cases hm hj with ⟨j', hj', hsame'⟩ | ⟨-, -, u, -, -, hu, hju, -⟩
    · rw [hsame.addresses, hsame'.addresses]
      exact h.same i' hi' j' hj' (by rw [← hsame.name, hname, hsame'.name])
    · exact absurd (hsame.name.symm.trans (hname.trans hju)) (h.drawn t p l u hm.runs hu i' hi')
  · rw [happend] at hj
    rcases List.mem_append.mp hj with hj | hj
    · exact absurd (hname.symm.trans hiu) (h.drawn t p l u hm.runs hu j hj)
    · rw [List.mem_singleton.mp hj]

theorem Addressed.rows_after (hnamed : Named w₀ s) (h : Addressed w₀ s)
    (hm : ThreadStep s t p l e s') : ∀ id a, Known w₀ s' id a → a.instanceIP ≠ "" →
      ∀ i ∈ s'.world.instances, i.name = a.instanceName → a.instanceIP ∈ i.addresses := by
  intro id a ha hip i hi hname
  rcases known_cases hm ha with ha | rfl
  · rcases instance_cases hm hi with ⟨j, hj, hsame⟩ | ⟨-, -, u, -, -, hu, hiu, -⟩
    · rw [hsame.addresses]
      exact h.rows id a ha hip j hj (hsame.name.symm.trans hname)
    · -- what is made now is of no row
      refine absurd ?_ ((hnamed.unrecorded t p l u hm.runs (by rw [hu]; rfl)).2 id a ha)
      exact nameOf_injective (by rw [← (hnamed.drawn id a ha).2, ← hname, hiu])
  · have hmay : MayInsert p l a := hm.allowed
    have hreported := hmay.ip.resolve_left hip
    rw [hmay.name] at hreported hname
    have hsame : s'.world.instances = s.world.instances := hm.did.instances
    rw [hsame] at hi
    exact (h.reported t p l a.uuid _ hm.runs.ran hreported).2.1 i hi hname

theorem Addressed.drawn_after (hnamed : Named w₀ s) (h : Addressed w₀ s)
    (hm : ThreadStep s t p l e s') : ∀ v q m u, Runs s' v q m → attempt m = .drawn u →
      ∀ i ∈ s'.world.instances, i.name ≠ nameOf u := by
  intro v q m u hr hu i hi hname
  rcases hm.runs_cases v q m hr with ⟨rfl, rfl, rfl⟩ | ⟨hv, hr⟩ | ⟨-, rfl, -⟩
  · rcases drawn_next hu with ⟨hu, hmake⟩ | rfl
    · rcases instance_cases hm hi with ⟨j, hj, hsame⟩ | ⟨d, c, -, he, hc, -⟩
      · exact h.drawn v q l u hm.runs hu j hj (hsame.name.symm.trans hname)
      · exact hmake d c _ he hc
    · have hsame : s'.world.instances = s.world.instances := hm.did.instances
      have hfresh : u ∉ s.world.uuids := hm.did.truthful
      rw [hsame] at hi
      exact hfresh (hnamed.instances i hi u hname)
  · rcases instance_cases hm hi with ⟨j, hj, hsame⟩ | ⟨-, -, u', -, -, hu', hiu, -⟩
    · exact h.drawn v q m u hr hu j hj (hsame.name.symm.trans hname)
    · cases nameOf_injective (hname.symm.trans hiu)
      exact hv (hnamed.alone v t q p m l u hr hm.runs (by rw [hu]; rfl) (by rw [hu']; rfl))
  · cases hu

/-- A random id that has been drawn before the step is drawn for no attempt by it. -/
theorem not_drawn_after (hm : ThreadStep s t p l e s') {u : String} (hu : u ∈ s.world.uuids)
    (h : ∀ v q m, Runs s v q m → attempt m ≠ .drawn u) :
    ∀ v q m, Runs s' v q m → attempt m ≠ .drawn u := by
  intro v q m hr ha
  rcases hm.runs_cases v q m hr with ⟨-, -, rfl⟩ | ⟨-, hr⟩ | ⟨-, rfl, -⟩
  · rcases drawn_next ha with ⟨ha, -⟩ | rfl
    · exact h t p l hm.runs ha
    · have hfresh : u ∉ s.world.uuids := hm.did.truthful
      exact hfresh hu
  · exact h v q m hr ha
  · cases ha

theorem Addressed.reported_after (hnamed : Named w₀ s) (h : Addressed w₀ s)
    (hm : ThreadStep s t p l e s') : ∀ v q m u ip, Ran s' v q m → Reported m (nameOf u) ip →
      u ∈ s'.world.uuids ∧ (∀ i ∈ s'.world.instances, i.name = nameOf u → ip ∈ i.addresses) ∧
      ∀ t p l, Runs s' t p l → attempt l ≠ .drawn u := by
  intro v q m u ip hr hreported
  have hold : ∀ v q m, Ran s v q m → Reported m (nameOf u) ip →
      u ∈ s'.world.uuids ∧ (∀ i ∈ s'.world.instances, i.name = nameOf u → ip ∈ i.addresses) ∧
      ∀ t p l, Runs s' t p l → attempt l ≠ .drawn u := by
    intro v q m hr hreported
    obtain ⟨hu, haddr, hno⟩ := h.reported v q m u ip hr hreported
    refine ⟨uuids_after hm.did hu, fun i hi hname => ?_, not_drawn_after hm hu hno⟩
    rcases instance_cases hm hi with ⟨j, hj, hsame⟩ | ⟨-, -, u', -, -, hu', hiu, -⟩
    · rw [hsame.addresses]
      exact haddr j hj (hsame.name.symm.trans hname)
    · cases nameOf_injective (hname.symm.trans hiu)
      exact absurd hu' (hno t p l hm.runs)
  rcases hm.ran_cases v q m hr with ⟨-, -, rfl⟩ | ⟨-, hr⟩ | ⟨-, rfl, -⟩
  · rcases reported_cases hreported with hreported | ⟨d, net, n, a, rfl, hn, ha, hscope, rfl⟩
    · exact hold t p l hm.runs.ran hreported
    · -- the instance exists, so it is the one instance of its name
      obtain ⟨i, hget, hreports⟩ := hm.did.truthful
      have hi : i ∈ s.world.instances := List.mem_of_find?_eq_some hget
      have hiname : i.name = nameOf u := (Instances.isAt_iff.mp (List.find?_some hget)).2
      have hu := hnamed.instances i hi u hiname
      have hsame : s'.world.instances = s.world.instances := hm.did.instances
      refine ⟨uuids_after hm.did hu, fun j hj hname => ?_, not_drawn_after hm hu ?_⟩
      · rw [hsame] at hj
        rw [h.same j hj i hi (hname.trans hiname.symm)]
        exact assigned_of_reports hreports hn ha hscope
      · exact fun v q m hr hv => h.drawn v q m u hr hv i hi hiname
  · exact hold v q m hr hreported
  · exact absurd hreported not_reported_nil

theorem Addressed.threadStep (hnamed : Named w₀ s) (h : Addressed w₀ s)
    (hm : ThreadStep s t p l e s') : Addressed w₀ s' where
  same := h.same_after hm
  rows := h.rows_after hnamed hm
  drawn := h.drawn_after hnamed hm
  reported := h.reported_after hnamed hm
  found := by
    intro u q m label active f hr hmem
    have hold : ∀ u q m, Ran s u q m →
        ⟨.query (.dbGetInstance label active), .ok (some f)⟩ ∈ m →
        ∃ id b, Known w₀ s' id b ∧ b.uuid = label ∧ b.instanceIP = f.instanceIP := by
      intro u q m hr hmem
      obtain ⟨id, b, hb, hrest⟩ := h.found u q m label active f hr hmem
      exact ⟨id, b, hb.threadStep hm, hrest⟩
    rcases hm.mem_cases hr hmem with ⟨rfl, -⟩ | ⟨m, hr, hmem⟩
    · obtain ⟨id, a, ha, huuid, -, rfl⟩ := s.world.db.session_of_answers hm.did.truthful
      obtain ⟨b, hb, hsame⟩ := hnamed.rows id a ha
      exact ⟨id, b, hb.threadStep hm, hsame.uuid ▸ huuid, hsame.ip.symm⟩
    · exact hold u q m hr hmem

theorem Addressed.envStep {e : Env} (h : Addressed w₀ s) (hm : EnvStep s e s') :
    Addressed w₀ s' where
  same := by
    rw [hm.instances]
    exact h.same
  rows := by
    rw [hm.instances]
    exact fun id a ha => h.rows id a (known_cases_env hm ha)
  drawn := by
    rw [hm.instances]
    intro v q m u hr hu
    rcases hm.runs_cases v q m hr with hr | ⟨rfl, -⟩
    · exact h.drawn v q m u hr hu
    · cases hu
  reported := by
    rw [hm.instances, hm.uuids]
    intro v q m u ip hr hreported
    rcases hm.ran_cases v q m hr with hr | ⟨rfl, -⟩
    · obtain ⟨hu, haddr, hno⟩ := h.reported v q m u ip hr hreported
      refine ⟨hu, haddr, fun v q m hr hv => ?_⟩
      rcases hm.runs_cases v q m hr with hr | ⟨rfl, -⟩
      · exact hno v q m hr hv
      · cases hv
    · exact absurd hreported not_reported_nil
  found := by
    intro v q m label active f hr hmem
    have hr := hm.ran_of_mem hr hmem
    obtain ⟨id, b, hb, hrest⟩ := h.found v q m label active f hr hmem
    exact ⟨id, b, hb.envStep hm, hrest⟩

theorem Initial.addressed (h0 : Initial s) (hw : AddressesKept s.world) :
    Addressed s.world s := by
  have hlog : ∀ {t p l}, Ran s t p l → ∀ e, e ∉ l := fun hr e he => by
    rw [(h0.ran hr).2] at he
    cases he
  constructor
  · exact hw.same
  · rintro id a (ha | ⟨u, q, m, hr, hmem⟩)
    · exact hw.rows id a ha
    · exact absurd hmem (hlog hr _)
  · intro u q m v hr hv
    rw [(h0.ran hr.ran).2] at hv
    cases hv
  · rintro u q m v ip hr hreported
    rw [(h0.ran hr).2] at hreported
    exact absurd hreported not_reported_nil
  · exact fun u q m label active f hr hmem => absurd hmem (hlog hr _)

/-- While the instance of a session exists, the address that the proxy dials for the session is
    one of its addresses. -/
theorem assigned_of_dials (hsound : Sound s) (hnamed : Named w₀ s) (h : Addressed w₀ s)
    {target ip : String} (hd : Dials s t target ip) {i : Instance} (hi : i ∈ s.world.instances)
    (hname : i.name = nameOf (splitFirst target '.')) : ip ∈ i.addresses := by
  obtain ⟨l, port, r, s', hr, hs⟩ := hd
  obtain ⟨q, m, hm⟩ := thread_step hsound.follow hs
  obtain ⟨rfl, rfl⟩ := hr.unique hm.runs
  have hmay : Allowed (.proxy target) l (.dial ip port) := hm.allowed
  obtain ⟨target', f, heq, hne, hip, hmem⟩ := hmay
  cases heq
  obtain ⟨id, b, hb, huuid, hbip⟩ := h.found t _ l _ _ f hr.ran hmem
  rw [hip, ← hbip]
  apply h.rows id b hb (by rw [hbip, ← hip]; exact hne) i hi
  rw [hname, (hnamed.drawn id b hb).2, huuid]

end Steps

/-- In every state that the server reaches and in which no two instances share an address: the
    proxy leads to no other session's instance exactly when, wherever it dials, the instance of
    the session still exists or nobody has its address. -/
theorem proxy_isolates_iff {s₀ s : Sys} (h0 : Initial s₀) (hw : WellFormed s₀.world)
    (ha : AddressesKept s₀.world) (hrun : server.Run Machine.anyStep s₀ s)
    (hd : DistinctAddresses s.world.instances) : Isolates s ↔ StillThere s := by
  obtain ⟨hsound, hregular, haddressed⟩ := invariant_run
    (I := fun s => Regular s₀.world s ∧ Addressed s₀.world s) h0.sound
    ⟨h0.regular hw, h0.addressed ha⟩
    (fun s t p l e s' hs hI _ hm => ⟨hI.1.threadStep hs hm, hI.2.threadStep hI.1.named hm⟩)
    (fun s e s' _ hI _ hm => ⟨hI.1.envStep hm, hI.2.envStep hm⟩) hrun
  constructor
  · intro hiso t target ip hdials
    by_cases hfree : ∀ i ∈ s.world.instances, ip ∉ i.addresses
    · exact .inr hfree
    · simp only [not_forall, not_not] at hfree
      obtain ⟨i, hi, hip⟩ := hfree
      exact .inl ⟨i, hi, hiso t target ip hdials i hi hip⟩
  · intro hstill t target ip hdials i hi hip
    rcases hstill t target ip hdials with ⟨j, hj, hjname⟩ | hfree
    · have hjip := assigned_of_dials hsound hregular.named haddressed hdials hj hjname
      rw [hd i hi j hj ip hip hjip, hjname]
    · exact absurd hip (hfree i hi)

/-- The test for `DistinctAddresses`. -/
def distinctAddresses (is : Instances) : Bool :=
  is.all fun i => is.all fun j =>
    i.addresses.all fun ip => !j.addresses.contains ip || i.name == j.name

theorem of_distinctAddresses {is : Instances} (h : distinctAddresses is = true) :
    DistinctAddresses is := by
  intro i hi j hj ip hip hjp
  have h := List.all_eq_true.mp (List.all_eq_true.mp (List.all_eq_true.mp h i hi) j hj) ip hip
  simpa [hjp] using h

theorem emptyServer_addressesKept (allocated : Int) :
    AddressesKept (emptyServer allocated).world :=
  ⟨fun _ h => absurd h List.not_mem_nil, fun _ _ h => absurd h List.not_mem_nil⟩

/-- The next operation of thread `t` dials, for a session that an instance exists for or not. -/
def dials (t : Nat) (own : Bool) (s : Sys) : Bool :=
  distinctAddresses s.world.instances &&
  match s.threads[t]? with
  | some th =>
    match th.proc with
    | .proxy target => th.alive && (server.step s (go t s)).any fun r =>
      match r.1 with
      | .thread u ⟨.dial ip _, _⟩ => u == t && s.world.instances.any fun i =>
        i.addresses.contains ip && (i.name == nameOf (splitFirst target '.')) == own
      | _ => false
    | _ => false
  | none => false

theorem of_dials {t : Nat} {own : Bool} {s : Sys} (h : dials t own s = true) :
    DistinctAddresses s.world.instances ∧ ∃ target ip, Dials s t target ip ∧
      ∃ i ∈ s.world.instances, ip ∈ i.addresses ∧
        ((i.name == nameOf (splitFirst target '.')) = own) := by
  obtain ⟨hdistinct, h⟩ := Bool.and_eq_true_iff.mp h
  refine ⟨of_distinctAddresses hdistinct, ?_⟩
  split at h
  · rename_i th hth
    split at h
    · rename_i target hproc
      obtain ⟨halive, h⟩ := Bool.and_eq_true_iff.mp h
      obtain ⟨⟨l, s'⟩, hs, h⟩ := (Option.any_eq_true ..).mp h
      split at h
      · rename_i u ip port r heq
        obtain ⟨hu, h⟩ := Bool.and_eq_true_iff.mp h
        obtain ⟨i, hi, h⟩ := List.any_eq_true.mp h
        obtain ⟨hip, hname⟩ := Bool.and_eq_true_iff.mp h
        cases heq
        cases beq_iff_eq.mp hu
        exact ⟨target, ip, ⟨th.log, port, r, s', ⟨th, hth, halive, hproc, rfl⟩,
          server.step_sound hs⟩, i, hi, List.contains_iff_mem.mp hip, beq_iff_eq.mp hname⟩
      · cases h
    · cases h
  · cases h

/-- While the session lasts, the proxy leads to its instance. -/
theorem proxy_isolates_small : ∃ s, (Isolates s ↔ StillThere s) ∧ dials 3 true s = true := by
  obtain ⟨s, hrun, hs⟩ := server.run_of_check Machine.noTest (fun _ _ _ => trivial) (emptyServer 0)
    (oks 0 16 ++ act (.request (startRequest "192.0.2.1")) ++ oks 2 57 ++
      act (.proxyConn "u0.example.com") ++ oks 3 2) (dials 3 true) (by decide +kernel)
  exact ⟨s, proxy_isolates_iff (emptyServer_initial 0) (emptyServer_wellFormed 0)
    (emptyServer_addressesKept 0) hrun (of_dials hs).1, hs⟩

/-- The session is over and its instance is deleted, its address belongs to a new session, and
    the row is not expired yet: the proxy leads to the new session. -/
theorem proxy_misleads : ¬ ∀ s₀ s, Initial s₀ → WellFormed s₀.world → AddressesKept s₀.world →
    server.Run Machine.anyStep s₀ s → DistinctAddresses s.world.instances → Isolates s := by
  intro hall
  obtain ⟨s, hrun, hs⟩ := server.run_of_check Machine.noTest (fun _ _ _ => trivial) (emptyServer 0)
    (oks 0 16 ++ act (.request (startRequest "192.0.2.1")) ++ oks 2 57 ++
      act (.tick 600000000000) ++ act (.fire 0) ++ oks 3 5 ++
      act (.request (startRequest "192.0.2.2")) ++ oks 4 57 ++
      act (.proxyConn "u0.example.com") ++ oks 5 2) (dials 5 false) (by decide +kernel)
  obtain ⟨hdistinct, target, ip, hdials, i, hi, hip, hname⟩ := of_dials hs
  have hiso := hall _ s (emptyServer_initial 0) (emptyServer_wellFormed 0)
    (emptyServer_addressesKept 0) hrun hdistinct
  rw [hiso 5 target ip hdials i hi hip, beq_self_eq_true] at hname
  cases hname

end IncusDemo
