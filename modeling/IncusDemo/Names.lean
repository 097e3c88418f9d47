/-
  IncusDemo.Names

  Which instance belongs to which row, over whole runs.  Rows are deleted and
  their ids never come back, so the relation is kept by what has happened:
  `Known` is every row the table started with or that a thread has inserted.
  A random id is drawn once, so an id, its random id and its instance name
  determine each other (`Named`), and an instance that is made but not yet
  recorded is of no row.
-/

import IncusDemo.Sessions

namespace IncusDemo

open Go Conc

/-- What earlier runs leave behind: every row names the instance of its random id, no two rows
    share one, and the random id of an instance has been drawn. -/
structure WellFormed (w : World) : Prop where
  named : ∀ id s, w.db.Row id s → s.instanceName = nameOf s.uuid
  drawn : ∀ id s, w.db.Row id s → s.uuid ∈ w.uuids
  unique : ∀ id id' s s', w.db.Row id s → w.db.Row id' s' → s.uuid = s'.uuid → id = id'
  instances : ∀ i ∈ w.instances, ∀ u, i.name = nameOf u → u ∈ w.uuids

theorem nameOf_injective {u v : String} (h : nameOf u = nameOf v) : u = v :=
  append_left_injective h

/-- The parts of a row that no statement changes. -/
structure Session.Same (a b : Session) : Prop where
  uuid : a.uuid = b.uuid
  name : a.instanceName = b.instanceName
  ip : a.instanceIP = b.instanceIP

theorem Session.Same.refl (a : Session) : a.Same a := ⟨rfl, rfl, rfl⟩

theorem Session.Same.trans {a b c : Session} (h : a.Same b) (h' : b.Same c) : a.Same c :=
  ⟨h.uuid.trans h'.uuid, h.name.trans h'.name, h.ip.trans h'.ip⟩

/-- Row `id` was inserted as `a`, before the run or by a thread of it. -/
def Known (w₀ : World) (s : Sys) (id : Nat) (a : Session) : Prop :=
  w₀.db.Row id a ∨ ∃ t p l, Ran s t p l ∧ ⟨.query (.dbNew a), .ok id⟩ ∈ l

/-- Row `id` is, or was, that of instance `name`. -/
def Names (w₀ : World) (s : Sys) (id : Nat) (name : String) : Prop :=
  ∃ a, Known w₀ s id a ∧ a.instanceName = name

/-- The session that a callback is for. -/
def sessionOf : Proc → Option (Nat × String)
  | .cleanup id name | .allocateTimeout id name => some (id, name)
  | _ => none

/-- Ids, random ids and instance names determine each other, wherever they turn up. -/
structure Named (w₀ : World) (s : Sys) : Prop where
  old : ∀ id a, Known w₀ s id a → id ≤ s.world.db.sessions.seq
  drawn : ∀ id a, Known w₀ s id a → a.uuid ∈ s.world.uuids ∧ a.instanceName = nameOf a.uuid
  unique : ∀ id a b, Known w₀ s id a → Known w₀ s id b → a = b
  apart : ∀ id id' a b, Known w₀ s id a → Known w₀ s id' b → a.uuid = b.uuid → id = id'
  rows : ∀ id a, s.world.db.Row id a → ∃ b, Known w₀ s id b ∧ a.Same b
  selected : ∀ t p l id a, Ran s t p l → ⟨.query .selectAllocated, .ok (some (id, a))⟩ ∈ l →
    ∃ b, Known w₀ s id b ∧ a.Same b
  active : ∀ t p l es e, Ran s t p l → ⟨.query .dbActive, .ok es⟩ ∈ l → e ∈ es →
    Names w₀ s e.id e.instanceName
  allocated : ∀ t p l es e, Ran s t p l → ⟨.query .dbAllocated, .ok es⟩ ∈ l → e ∈ es →
    Names w₀ s e.id e.instanceName
  timers : ∀ tm ∈ s.world.timers, ∀ id name, sessionOf tm.callback = some (id, name) →
    Names w₀ s id name
  callbacks : ∀ t p l id name, Ran s t p l → sessionOf p = some (id, name) → Names w₀ s id name
  unrecorded : ∀ t p l u, Runs s t p l → (attempt l).unrecorded = some u →
    u ∈ s.world.uuids ∧ ∀ id a, Known w₀ s id a → a.uuid ≠ u
  alone : ∀ t t' p p' l l' u, Runs s t p l → Runs s t' p' l' →
    (attempt l).unrecorded = some u → (attempt l').unrecorded = some u → t = t'
  instances : ∀ i ∈ s.world.instances, ∀ u, i.name = nameOf u → u ∈ s.world.uuids

/-- The instance that a call makes, once it is complete. -/
def Call.makes : Call → Option String
  | .copyInstance _ name _ => some name
  | .createInstance req => some req.name
  | _ => none

/-- What identifies an instance, and its addresses, which Incus never changes. -/
structure Instance.Same (i j : Instance) : Prop where
  name : i.name = j.name
  project : i.project = j.project
  addresses : i.addresses = j.addresses

/-- Where the instances after an event come from. -/
inductive InstancesFrom (e : Event) (is is' : Instances) : Prop
  | kept (h : ∀ i ∈ is', ∃ j ∈ is, i.Same j)
  | made (d : InstanceServer) (c : Call) (x : Instance) (he : e = ⟨.wait d c, .ok ()⟩)
      (hmakes : c.makes = some x.name) (h : is' = is ++ [x])

theorem InstancesFrom.sub {e : Event} {is is' : Instances} (h : ∀ i ∈ is', i ∈ is) :
    InstancesFrom e is is' := .kept fun i hi => ⟨i, h i hi, rfl, rfl, rfl⟩

theorem InstancesFrom.modify {e : Event} {is : Instances} {d : InstanceServer} {name : String}
    {f : Instance → Instance} (hf : ∀ j, (f j).Same j) :
    InstancesFrom e is (is.modify d name f) := by
  refine .kept fun i hi => ?_
  obtain ⟨j, hj, rfl⟩ := Instances.mem_modify.mp hi
  refine ⟨j, hj, ?_⟩
  split
  · exact hf j
  · exact ⟨rfl, rfl, rfl⟩

theorem instances_after {e : Event} {is is' : Instances} (h : InstancesAfter e is is') :
    InstancesFrom e is is' := by
  obtain ⟨o, r⟩ := e
  cases o with
  | wait d c =>
    cases r with
    | error err => exact .sub fun i hi => (show is' = is from h) ▸ hi
    | ok _ =>
      obtain ⟨a, h⟩ := h
      cases c with
      | copyInstance source name instanceOnly =>
        simp only [Call.complete] at h
        split at h
        · cases h
        · exact .made d _ _ rfl rfl (Option.some.inj h).symm
      | createInstance req =>
        simp only [Call.complete] at h
        split at h
        · cases h
        · exact .made d _ _ rfl rfl (Option.some.inj h).symm
      | updateInstance name put =>
        simp only [Call.complete] at h
        split at h
        · cases h
          exact .modify fun _ => ⟨rfl, rfl, rfl⟩
        · cases h
      | updateInstanceState name action force =>
        simp only [Call.complete] at h
        split at h
        · cases h
          exact .modify fun _ => ⟨rfl, rfl, rfl⟩
        · cases h
      | deleteInstance name =>
        simp only [Call.complete] at h
        split at h
        · cases h
          exact .sub fun i hi => (Instances.mem_remove.mp hi).1
        · cases h
      | _ =>
        cases h
        exact .sub fun i hi => hi
  | _ => exact .sub fun i hi => (show is' = is from h) ▸ hi

/-- A thread makes only the instance whose random id it has drawn. -/
theorem drawn_of_makes {p : Proc} {l : Log} {d : InstanceServer} {c : Call} {name : String}
    (h : Allowed p l (.wait d c)) (hc : c.makes = some name) :
    ∃ u, attempt l = .drawn u ∧ name = nameOf u := by
  cases c with
  | copyInstance =>
    cases hc
    exact h.1
  | createInstance =>
    cases hc
    exact h.1
  | _ => cases hc

section Unrecorded

variable {a : Attempt} {e : Event} {u : String}

theorem unrecorded_create : a.create.unrecorded = a.unrecorded := by cases a <;> rfl

theorem unrecorded_giveUp : a.giveUp.unrecorded = a.unrecorded := by cases a <;> rfl

/-- A random id that an event leaves unrecorded was so before, or is drawn by the event. -/
theorem unrecorded_next (h : (a.next e).unrecorded = some u) :
    a.unrecorded = some u ∨ e = ⟨.newRandom, u⟩ := by
  unfold Attempt.next at h
  split at h
  · cases h
  · split at h
    · cases h
      exact .inr rfl
    · exact .inl h
  · exact .inl (unrecorded_create ▸ h)
  · exact .inl (unrecorded_create ▸ h)
  · cases h
  · split at h <;> exact .inl h
  · split at h
    · exact .inl (unrecorded_giveUp ▸ h)
    · exact .inl h
  · cases h
  · exact .inl (unrecorded_giveUp ▸ h)
  · exact .inl h

end Unrecorded

section Steps

variable {w₀ : World} {s s' : Sys} {t : Nat} {p : Proc} {l : Log} {e : Event}

theorem Known.threadStep (hm : ThreadStep s t p l e s') {id : Nat} {a : Session}
    (h : Known w₀ s id a) : Known w₀ s' id a := by
  rcases h with h | ⟨u, q, m, hr, hmem⟩
  · exact .inl h
  · by_cases hu : u = t
    · subst hu
      obtain ⟨rfl, rfl⟩ := hr.unique hm.runs.ran
      exact .inr ⟨u, q, e :: m, hm.runs'.ran, List.mem_cons_of_mem _ hmem⟩
    · exact .inr ⟨u, q, m, hm.ran_keeps u q m hu hr, hmem⟩

theorem Known.envStep {e : Env} (hm : EnvStep s e s') {id : Nat} {a : Session}
    (h : Known w₀ s id a) : Known w₀ s' id a := by
  rcases h with h | ⟨u, q, m, hr, hmem⟩
  · exact .inl h
  · exact .inr ⟨u, q, m, hm.ran_keeps u q m hr, hmem⟩

/-- What is known after a step was known before, or is inserted by it. -/
theorem known_cases (hm : ThreadStep s t p l e s') {id : Nat} {a : Session}
    (h : Known w₀ s' id a) : Known w₀ s id a ∨ e = ⟨.query (.dbNew a), .ok id⟩ := by
  rcases h with h | ⟨u, q, m, hr, hmem⟩
  · exact .inl (.inl h)
  · rcases hm.mem_cases hr hmem with ⟨heq, -⟩ | ⟨m, hr, hmem⟩
    · exact .inr heq.symm
    · exact .inl (.inr ⟨u, q, m, hr, hmem⟩)

theorem known_cases_env {e : Env} (hm : EnvStep s e s') {id : Nat} {a : Session}
    (h : Known w₀ s' id a) : Known w₀ s id a := by
  rcases h with h | ⟨u, q, m, hr, hmem⟩
  · exact .inl h
  · have hr := hm.ran_of_mem hr hmem
    exact .inr ⟨u, q, m, hr, hmem⟩

theorem Names.threadStep (hm : ThreadStep s t p l e s') {id : Nat} {name : String}
    (h : Names w₀ s id name) : Names w₀ s' id name := by
  obtain ⟨a, ha, hn⟩ := h
  exact ⟨a, ha.threadStep hm, hn⟩

theorem Names.envStep {e : Env} (hm : EnvStep s e s') {id : Nat} {name : String}
    (h : Names w₀ s id name) : Names w₀ s' id name := by
  obtain ⟨a, ha, hn⟩ := h
  exact ⟨a, ha.envStep hm, hn⟩

/-- The row that a thread inserts gets a new id, and is for an instance the thread has made. -/
theorem inserted_fresh (h : Named w₀ s) {a : Session} {id : Nat}
    (hm : ThreadStep s t p l ⟨.query (.dbNew a), .ok id⟩ s') :
    id = s.world.db.sessions.nextId ∧ a.instanceName = nameOf a.uuid ∧ a.uuid ∈ s.world.uuids ∧
      (∀ id' b, Known w₀ s id' b → b.uuid ≠ a.uuid ∧ id' ≠ id) := by
  have hmay : MayInsert p l a := hm.allowed
  have hu : (attempt l).unrecorded = some a.uuid := by rw [hmay.returned]; rfl
  obtain ⟨hdrawn, hfresh⟩ := h.unrecorded t p l _ hm.runs hu
  have hid : id = s.world.db.sessions.nextId := hm.did.truthful
  refine ⟨hid, hmay.name, hdrawn, fun id' b hb => ⟨hfresh id' b hb, ?_⟩⟩
  have := h.old id' b hb
  rw [hid]
  exact Nat.ne_of_lt (Nat.lt_succ_of_le this)

theorem uuids_after {w w' : World} (hd : Did w t e w') {u : String} (h : u ∈ w.uuids) :
    u ∈ w'.uuids := by
  rw [hd.uuids]
  unfold uuidsAfter
  split
  · exact List.mem_cons_of_mem _ h
  · exact h

/-- The session that a request has started is known. -/
theorem names_of_hasSession (hsound : Sound s) (h : Named w₀ s) (hr : Ran s t p l) {id : Nat}
    {name : String} {expiry : Int} (hs : HasSession l id name expiry) : Names w₀ s id name := by
  rcases hs with ⟨row, hc, hn⟩ | ⟨row, ha, hn, -⟩
  · obtain ⟨b, hb, hsame⟩ := h.selected t p l _ _ hr (mem_of_claimed (hsound.allowed hr) hc).1
    exact ⟨b, hb, hsame.name.symm.trans hn⟩
  · exact ⟨row, .inr ⟨t, p, l, hr, mem_of_recorded ha⟩, hn⟩

/-- The session of a timer that a thread arms is known. -/
theorem names_of_arms (hsound : Sound s) (h : Named w₀ s) (hr : Ran s t p l) {d : Int} {q : Proc}
    (harm : MayArm p l d q) {id : Nat} {name : String} (hq : sessionOf q = some (id, name)) :
    Names w₀ s id name := by
  cases harm with
  | started ip id' name' expiry c hp hs _ _ _ =>
    cases hq
    exact names_of_hasSession hsound h hr hs
  | allocated id' row ha _ =>
    cases hq
    exact ⟨row, .inr ⟨t, p, l, hr, mem_of_recorded ha⟩, rfl⟩
  | restored e rest t' hp hl _ _ _ =>
    cases hq
    obtain ⟨es, hes, he⟩ := listed_of_restoring hl
    exact h.active t p l es e hr hes he

theorem names_of_listed (h : Named w₀ s) {status : Nat} {e : Listed}
    (he : e ∈ s.world.db.listStatus status) : Names w₀ s e.id e.instanceName := by
  obtain ⟨a, ha, -, hlisted⟩ := mem_listStatus.mp he
  obtain ⟨b, hb, hsame⟩ := h.rows e.id a ha
  exact ⟨b, hb, hsame.name.symm.trans (congrArg Listed.instanceName hlisted.symm)⟩

/-- A session that is known by its row, from the SELECT or from the table. -/
theorem same_after {w w' : World} (hd : Did w t e w') {id : Nat} {a : Session}
    (h : w'.db.Row id a) : (∃ b, w.db.Row id b ∧ a.Same b) ∨ e = ⟨.query (.dbNew a), .ok id⟩ := by
  cases row_after hd h with
  | kept h => exact .inl ⟨a, h, .refl a⟩
  | inserted he hid => exact .inr he
  | expired b _ hb ha => exact .inl ⟨b, hb, by rw [ha]; exact ⟨rfl, rfl, rfl⟩⟩
  | claimed b _ _ _ _ _ hb ha => exact .inl ⟨b, hb, by rw [ha]; exact ⟨rfl, rfl, rfl⟩⟩

/-- A random id that is drawn and not recorded is that of no known session. -/
theorem Named.fresh_of_unrecorded (h : Named w₀ s) (hm : ThreadStep s t p l e s') {u : Nat} {q : Proc}
    {m : Log} {v : String} (hr : Runs s' u q m) (hv : (attempt m).unrecorded = some v) :
    v ∈ s'.world.uuids ∧ ∀ id a, Known w₀ s' id a → a.uuid ≠ v := by
  rcases hm.runs_cases u q m hr with ⟨-, -, rfl⟩ | ⟨hu, hr⟩ | ⟨-, rfl, -⟩
  · rcases unrecorded_next hv with hv' | rfl
    · obtain ⟨hdrawn, hfresh⟩ := h.unrecorded t p l v hm.runs hv'
      refine ⟨uuids_after hm.did hdrawn, fun id a ha => ?_⟩
      rcases known_cases hm ha with ha | rfl
      · exact hfresh id a ha
      · cases hv
    · have hnew : v ∉ s.world.uuids := hm.did.truthful
      have hdrawn : v ∈ s'.world.uuids := by
        rw [hm.did.uuids]
        exact List.mem_cons_self ..
      refine ⟨hdrawn, fun id a ha => ?_⟩
      rcases known_cases hm ha with ha | heq
      · rintro rfl
        exact hnew (h.drawn id a ha).1
      · cases heq
  · obtain ⟨hdrawn, hfresh⟩ := h.unrecorded u q m v hr hv
    refine ⟨uuids_after hm.did hdrawn, fun id a ha => ?_⟩
    rcases known_cases hm ha with ha | rfl
    · exact hfresh id a ha
    · -- the row that is inserted is for the random id of this thread
      have hmay : MayInsert p l a := hm.allowed
      rintro rfl
      exact hu (h.alone u t q p m l _ hr hm.runs hv (by rw [hmay.returned]; rfl))
  · cases hv

/-- No two threads have drawn the same random id. -/
theorem Named.eq_of_unrecorded (h : Named w₀ s) (hm : ThreadStep s t p l e s') {u u' : Nat}
    {q q' : Proc} {m m' : Log} {v : String} (hr : Runs s' u q m) (hr' : Runs s' u' q' m')
    (hv : (attempt m).unrecorded = some v) (hv' : (attempt m').unrecorded = some v) : u = u' := by
  have hself : ∀ u q m v, u ≠ t → Runs s u q m → (attempt (e :: l)).unrecorded = some v →
      (attempt m).unrecorded ≠ some v := by
    intro u q m v hu hr hv hv'
    rcases unrecorded_next hv with hv | rfl
    · exact hu (h.alone u t q p m l v hr hm.runs hv' hv)
    · exact hm.did.truthful (h.unrecorded u q m v hr hv').1
  rcases hm.runs_cases u q m hr with ⟨rfl, -, rfl⟩ | ⟨hu, hr⟩ | ⟨-, rfl, -⟩
  · rcases hm.runs_cases u' q' m' hr' with ⟨rfl, -, -⟩ | ⟨hu', hr'⟩ | ⟨-, rfl, -⟩
    · rfl
    · exact absurd hv' (hself u' q' m' v hu' hr' hv)
    · cases hv'
  · rcases hm.runs_cases u' q' m' hr' with ⟨rfl, -, rfl⟩ | ⟨-, hr'⟩ | ⟨-, rfl, -⟩
    · exact absurd hv (hself u q m v hu hr hv')
    · exact h.alone u u' q q' m m' v hr hr' hv hv'
    · cases hv'
  · cases hv

/-- Instances have the names of random ids that were drawn. -/
theorem Named.drawn_of_instance (h : Named w₀ s) (hm : ThreadStep s t p l e s') {i : Instance}
    (hi : i ∈ s'.world.instances) {u : String} (hname : i.name = nameOf u) : u ∈ s'.world.uuids := by
  apply uuids_after hm.did
  cases instances_after hm.did.instances with
  | kept hkept =>
    obtain ⟨j, hj, hsame⟩ := hkept i hi
    exact h.instances j hj u (hsame.name ▸ hname)
  | made d c x he hc happend =>
    subst he
    rw [happend] at hi
    rcases List.mem_append.mp hi with hi | hi
    · exact h.instances i hi u hname
    · cases List.mem_singleton.mp hi
      obtain ⟨v, hdrawn, hv⟩ := drawn_of_makes hm.allowed hc
      cases nameOf_injective (hname.symm.trans hv)
      exact (h.unrecorded t p l u hm.runs (by rw [hdrawn]; rfl)).1

theorem Named.threadStep (hsound : Sound s) (h : Named w₀ s) (hm : ThreadStep s t p l e s') :
    Named w₀ s' where
  old := by
    intro id a ha
    rcases known_cases hm ha with ha | rfl
    · exact (h.old id a ha).trans (seq_after hm.did)
    · obtain ⟨hid, -⟩ := inserted_fresh h hm
      rw [hid, hm.did.db]
      exact le_refl _
  drawn := by
    intro id a ha
    rcases known_cases hm ha with ha | rfl
    · exact ⟨uuids_after hm.did (h.drawn id a ha).1, (h.drawn id a ha).2⟩
    · obtain ⟨-, hname, hdrawn, -⟩ := inserted_fresh h hm
      exact ⟨uuids_after hm.did hdrawn, hname⟩
  unique := by
    intro id a b ha hb
    rcases known_cases hm ha with ha | rfl
    · rcases known_cases hm hb with hb | rfl
      · exact h.unique id a b ha hb
      · exact absurd rfl ((inserted_fresh h hm).2.2.2 id a ha).2
    · rcases known_cases hm hb with hb | heq
      · exact absurd rfl ((inserted_fresh h hm).2.2.2 id b hb).2
      · cases heq
        rfl
  apart := by
    intro id id' a b ha hb huuid
    rcases known_cases hm ha with ha | rfl
    · rcases known_cases hm hb with hb | rfl
      · exact h.apart id id' a b ha hb huuid
      · exact absurd huuid ((inserted_fresh h hm).2.2.2 id a ha).1
    · rcases known_cases hm hb with hb | heq
      · exact absurd huuid.symm ((inserted_fresh h hm).2.2.2 id' b hb).1
      · cases heq
        rfl
  rows := by
    intro id a ha
    rcases same_after hm.did ha with ⟨b, hb, hsame⟩ | rfl
    · obtain ⟨c, hc, hsame'⟩ := h.rows id b hb
      exact ⟨c, hc.threadStep hm, hsame.trans hsame'⟩
    · exact ⟨a, .inr ⟨t, p, _, hm.runs'.ran, List.mem_cons_self ..⟩, .refl a⟩
  selected := by
    intro u q m id a hr hmem
    rcases hm.mem_cases hr hmem with ⟨rfl, -⟩ | ⟨m, hr, hmem⟩
    · have hsel : some (id, a) = s.world.db.selectAllocated := hm.did.truthful
      have hrow := (Sql.Table.mem_select.mp (oldest_mem hsel.symm)).1
      obtain ⟨b, hb, hsame⟩ := h.rows id a hrow
      exact ⟨b, hb.threadStep hm, hsame⟩
    · obtain ⟨b, hb, hsame⟩ := h.selected u q m id a hr hmem
      exact ⟨b, hb.threadStep hm, hsame⟩
  active := by
    intro u q m es x hr hmem hx
    rcases hm.mem_cases hr hmem with ⟨rfl, -⟩ | ⟨m, hr, hmem⟩
    · have hes : es = s.world.db.listStatus 0 := hm.did.truthful
      exact (names_of_listed h (hes ▸ hx)).threadStep hm
    · exact (h.active u q m es x hr hmem hx).threadStep hm
  allocated := by
    intro u q m es x hr hmem hx
    rcases hm.mem_cases hr hmem with ⟨rfl, -⟩ | ⟨m, hr, hmem⟩
    · have hes : es = s.world.db.listStatus 2 := hm.did.truthful
      exact (names_of_listed h (hes ▸ hx)).threadStep hm
    · exact (h.allocated u q m es x hr hmem hx).threadStep hm
  timers := by
    intro tm htm id name hq
    rcases hm.timer_cases htm with htm | ⟨d, rfl, -⟩
    · exact (h.timers tm htm id name hq).threadStep hm
    · have harm : MayArm p l d tm.callback := hm.allowed
      exact (names_of_arms hsound h hm.runs.ran harm hq).threadStep hm
  callbacks := by
    intro u q m id name hr hq
    rcases hm.ran_cases u q m hr with ⟨-, rfl, rfl⟩ | ⟨-, hr⟩ | ⟨-, -, hspawn⟩
    · exact (h.callbacks t q l id name hm.runs.ran hq).threadStep hm
    · exact (h.callbacks u q m id name hr hq).threadStep hm
    · -- the `go` statement starts no callback
      rcases spawn_cases hm.allowed hspawn with rfl | rfl | ⟨f, rfl⟩ <;> cases hq
  unrecorded := fun _ _ _ _ => h.fresh_of_unrecorded hm
  alone := fun _ _ _ _ _ _ _ => h.eq_of_unrecorded hm
  instances := fun _ hi _ => h.drawn_of_instance hm hi

theorem Named.envStep {e : Env} (h : Named w₀ s) (hm : EnvStep s e s') : Named w₀ s' where
  old := by
    intro id a ha
    rw [hm.db]
    exact h.old id a (known_cases_env hm ha)
  drawn := by
    intro id a ha
    rw [hm.uuids]
    exact h.drawn id a (known_cases_env hm ha)
  unique := fun id a b ha hb => h.unique id a b (known_cases_env hm ha) (known_cases_env hm hb)
  apart := fun id id' a b ha hb => h.apart id id' a b (known_cases_env hm ha) (known_cases_env hm hb)
  rows := by
    intro id a ha
    rw [hm.db] at ha
    obtain ⟨b, hb, hsame⟩ := h.rows id a ha
    exact ⟨b, hb.envStep hm, hsame⟩
  selected := by
    intro u q m id a hr hmem
    have hr := hm.ran_of_mem hr hmem
    obtain ⟨b, hb, hsame⟩ := h.selected u q m id a hr hmem
    exact ⟨b, hb.envStep hm, hsame⟩
  active := by
    intro u q m es x hr hmem hx
    have hr := hm.ran_of_mem hr hmem
    exact (h.active u q m es x hr hmem hx).envStep hm
  allocated := by
    intro u q m es x hr hmem hx
    have hr := hm.ran_of_mem hr hmem
    exact (h.allocated u q m es x hr hmem hx).envStep hm
  timers := fun tm htm id name hq => (h.timers tm (hm.timers tm htm) id name hq).envStep hm
  callbacks := by
    intro u q m id name hr hq
    rcases hm.ran_cases u q m hr with hr | ⟨-, hstart⟩
    · exact (h.callbacks u q m id name hr hq).envStep hm
    · cases hstart with
      | timer tm htm hcb => exact (h.timers tm htm id name (hcb ▸ hq)).envStep hm
      | restStart r hp | rest r hp | console r hp | proxy target hp | connect hp =>
        rw [hp] at hq
        cases hq
  unrecorded := by
    intro u q m v hr hv
    rcases hm.runs_cases u q m hr with hr | ⟨rfl, -⟩
    · obtain ⟨hdrawn, hfresh⟩ := h.unrecorded u q m v hr hv
      rw [hm.uuids]
      exact ⟨hdrawn, fun id a ha => hfresh id a (known_cases_env hm ha)⟩
    · cases hv
  alone := by
    intro u u' q q' m m' v hr hr' hv hv'
    rcases hm.runs_cases u q m hr with hr | ⟨rfl, -⟩
    · rcases hm.runs_cases u' q' m' hr' with hr' | ⟨rfl, -⟩
      · exact h.alone u u' q q' m m' v hr hr' hv hv'
      · cases hv'
    · cases hv
  instances := by
    rw [hm.instances, hm.uuids]
    exact h.instances

/-- A server that starts on a well-formed table. -/
theorem Initial.named (h0 : Initial s) (hw : WellFormed s.world) : Named s.world s := by
  have hknown : ∀ id a, Known s.world s id a → s.world.db.Row id a := by
    rintro id a (h | ⟨t, p, l, hr, hmem⟩)
    · exact h
    · rw [(h0.ran hr).2] at hmem
      cases hmem
  have hlog : ∀ {t p l}, Ran s t p l → ∀ e, e ∉ l := fun hr e he => by
    rw [(h0.ran hr).2] at he
    cases he
  have hattempt : ∀ {t p l u}, Runs s t p l → (attempt l).unrecorded ≠ some u := fun hr hu => by
    rw [(h0.ran hr.ran).2] at hu
    cases hu
  constructor
  · exact fun id a ha => row_le_seq (hknown id a ha)
  · exact fun id a ha => ⟨hw.drawn id a (hknown id a ha), hw.named id a (hknown id a ha)⟩
  · exact fun id a b ha hb => row_unique (hknown id a ha) (hknown id b hb)
  · exact fun id id' a b ha hb => hw.unique id id' a b (hknown id a ha) (hknown id' b hb)
  · exact fun id a ha => ⟨a, .inl ha, .refl a⟩
  · exact fun _ _ _ _ _ hr hmem => absurd hmem (hlog hr _)
  · exact fun _ _ _ _ _ hr hmem => absurd hmem (hlog hr _)
  · exact fun _ _ _ _ _ hr hmem => absurd hmem (hlog hr _)
  · intro tm htm
    rw [h0.2.2.1] at htm
    cases htm
  · intro t p l id name hr hq
    rw [(h0.ran hr).1] at hq
    cases hq
  · exact fun _ _ _ _ hr hu => absurd hu (hattempt hr)
  · exact fun _ _ _ _ _ _ _ hr _ hu => absurd hu (hattempt hr)
  · exact hw.instances

end Steps

/-- What holds of every state that a server reaches from a well-formed table. -/
structure Regular (w₀ : World) (s : Sys) : Prop where
  started : Started s
  named : Named w₀ s

theorem Initial.regular {s : Sys} (h0 : Initial s) (hw : WellFormed s.world) : Regular s.world s :=
  ⟨h0.started, h0.named hw⟩

theorem Regular.threadStep {w₀ : World} {s s' : Sys} {t : Nat} {p : Proc} {l : Log} {e : Event}
    (hsound : Sound s) (h : Regular w₀ s) (hm : ThreadStep s t p l e s') : Regular w₀ s' :=
  ⟨h.started.threadStep hsound hm, h.named.threadStep hsound hm⟩

theorem Regular.envStep {w₀ : World} {s s' : Sys} {e : Env} (h : Regular w₀ s)
    (hm : EnvStep s e s') : Regular w₀ s' := ⟨h.started.envStep hm, h.named.envStep hm⟩

/-- Every state of a run from a well-formed table is regular. -/
theorem Regular.run {C : Sys → Label → Prop} {s₀ s : Sys} (h0 : Initial s₀)
    (hw : WellFormed s₀.world) (hrun : server.Run C s₀ s) : Sound s ∧ Regular s₀.world s :=
  invariant_run h0.sound (h0.regular hw) (fun _ _ _ _ _ _ hsound h _ hm => h.threadStep hsound hm)
    (fun _ _ _ _ h _ hm => h.envStep hm) hrun

/-- The table a server leaves behind is well formed again. -/
theorem Regular.wellFormed {w₀ : World} {s : Sys} (h : Regular w₀ s) : WellFormed s.world where
  named := by
    intro id a ha
    obtain ⟨b, hb, hsame⟩ := h.named.rows id a ha
    rw [hsame.name, hsame.uuid]
    exact (h.named.drawn id b hb).2
  drawn := by
    intro id a ha
    obtain ⟨b, hb, hsame⟩ := h.named.rows id a ha
    rw [hsame.uuid]
    exact (h.named.drawn id b hb).1
  unique := by
    intro id id' a a' ha ha' huuid
    obtain ⟨b, hb, hsame⟩ := h.named.rows id a ha
    obtain ⟨b', hb', hsame'⟩ := h.named.rows id' a' ha'
    exact h.named.apart id id' b b' hb hb' (by rw [← hsame.uuid, huuid, hsame'.uuid])
  instances := h.named.instances

end IncusDemo
