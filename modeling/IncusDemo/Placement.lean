/-
  IncusDemo.Placement

  Where instances live.  The startup goroutine publishes each connection in
  `incusDaemon` as it makes it: first the bare one, which is for the project
  "default", then the one for the configured project.  From the first of them
  on, start requests are let in, and make their instances where the connection
  they find leads; the cleanups and the resyncs come later and use the last.

  Nobody else writes `incusDaemon`, so within a process the project is settled
  once it is published, and what a request does after that is found again.
-/

import IncusDemo.Isolation
import IncusDemo.Pool

namespace IncusDemo

open Go Conc

/-- The project of the connections, by the configuration. -/
def projectOf (project : String) : String := if project = "" then "default" else project

-- ============================================================================
-- What a log says
-- ============================================================================

/-- The thread has read the connection `d` for a call that makes an instance. -/
def Chose (l : Log) (d : InstanceServer) : Prop :=
  ∃ l' u, ⟨.incusDaemon, some d⟩ :: l' <:+ l ∧ attempt l' = .drawn u ∧ aims l' = true

section Logs

variable {p : Proc} {l : Log} {e : Event} {id : Nat} {row : Session} {d : InstanceServer} {c : Call}
  {name u : String}

/-- The goroutine reads the sessions once its connection is final. -/
theorem chosen_of_dbActive {r : Except Error (List Listed)} (hl : Machine.LogAllowed Allowed p l)
    (h : ⟨.query .dbActive, r⟩ ∈ l) : publication l = .chosen := by
  obtain ⟨l', hs, hallowed⟩ := hl.mem h
  exact publication_mono ((List.suffix_cons ..).trans hs) hallowed.2.1

/-- It resyncs later than that. -/
theorem chosen_of_pass (hl : Machine.LogAllowed Allowed .connect l) (h : pass l ≠ .idle) :
    publication l = .chosen := by
  induction l with
  | nil => exact absurd rfl h
  | cons e l ih =>
    have hop := hl e l List.suffix_rfl
    refine publication_mono (List.suffix_cons ..) ?_
    rcases pass_next hop h with rfl | h
    · rcases hop.2.2 with ⟨-, hchosen⟩ | hp
      · exact hchosen
      · cases hp
    · exact ih hl.tail h

theorem aimed_of_makes (h : Allowed p l (.wait d c)) (hc : c.makes = some name) : Aimed l d := by
  cases c with
  | copyInstance => exact h.2
  | createInstance => exact h.2
  | _ => cases hc

/-- An instance is made over a connection that was read for it. -/
theorem chose_of_makes (hl : Machine.LogAllowed Allowed p l) (h : ⟨.wait d c, .ok ()⟩ ∈ l)
    (hc : c.makes = some name) : Chose l d := by
  obtain ⟨l₁, hs, hallowed⟩ := hl.mem h
  obtain ⟨u, hu, -⟩ := drawn_of_makes hallowed hc
  obtain ⟨c', r, l', rfl, ha, haims⟩ := aimed_of_makes hallowed hc
  refine ⟨l', u, ?_, ha.trans hu, haims⟩
  exact ((List.suffix_cons ..).trans (List.suffix_cons ..)).trans hs

/-- An instance that a thread has was its own before the event, or is made by it. -/
theorem owns_next (h : (attempt (e :: l)).owns u) : (attempt l).owns u ∨
    (attempt l = .drawn u ∧ ∃ d c name, e = ⟨.wait d c, .ok ()⟩ ∧ c.makes = some name) := by
  have hcreate : ∀ a : Attempt, a.create.owns u → a.owns u ∨ a = .drawn u := by
    intro a h
    cases a <;> first | exact .inl h | (rcases h with h | h | h <;> cases h; exact .inr rfl)
  have hgive : ∀ a : Attempt, a.giveUp.owns u → a.owns u := by
    intro a h
    cases a <;> first | exact h | (rcases h with h | h | h <;> cases h; exact .inr (.inl rfl))
  rw [attempt_cons] at h
  unfold Attempt.next at h
  split at h
  · rcases h with h | h | h <;> cases h
  · split at h
    · rcases h with h | h | h <;> cases h
    · exact .inl h
  · exact (hcreate _ h).imp_right fun h => ⟨h, _, _, _, rfl, rfl⟩
  · exact (hcreate _ h).imp_right fun h => ⟨h, _, _, _, rfl, rfl⟩
  · rcases h with h | h | h <;> cases h
  · split at h
    · rename_i v heq
      rcases h with h | h | h <;> cases h
      exact .inl (.inl heq)
    · exact .inl h
  · split at h
    · exact .inl (hgive _ h)
    · exact .inl h
  · rcases h with h | h | h <;> cases h
  · exact .inl (hgive _ h)
  · exact .inl h

theorem made_of_owns (hl : Machine.LogAllowed Allowed p l) (h : (attempt l).owns u) :
    ∃ d c, ⟨.wait d c, .ok ()⟩ ∈ l ∧ c.makes = some (nameOf u) := by
  induction l with
  | nil => rcases h with h | h | h <;> cases h
  | cons e l ih =>
    rcases owns_next h with h | ⟨hu, d, c, name, rfl, hc⟩
    · obtain ⟨d, c, hmem, hc⟩ := ih hl.tail h
      exact ⟨d, c, List.mem_cons_of_mem _ hmem, hc⟩
    · have hop : Allowed p l (.wait d c) := hl _ l List.suffix_rfl
      obtain ⟨v, hv, rfl⟩ := drawn_of_makes hop hc
      cases hu.symm.trans hv
      exact ⟨d, c, List.mem_cons_self .., hc⟩

/-- A row is recorded for an instance that the thread has made. -/
theorem made_of_recorded (hl : Machine.LogAllowed Allowed p l)
    (h : ⟨.query (.dbNew row), .ok id⟩ ∈ l) :
    ∃ d c, ⟨.wait d c, .ok ()⟩ ∈ l ∧ c.makes = some row.instanceName := by
  obtain ⟨l', hs, hmay⟩ := hl.mem h
  obtain ⟨d, c, hmem, hc⟩ := made_of_owns (hl.before hs) (.inr (.inl hmay.returned))
  exact ⟨d, c, hs.subset (List.mem_cons_of_mem _ hmem), hc.trans (congrArg some hmay.name.symm)⟩

end Logs

-- ============================================================================
-- The connection that is published
-- ============================================================================

/-- What the startup goroutine has published, by how far it is. -/
def Stage (project : String) (a : Publication) (d : Option InstanceServer) : Prop :=
  match a with
  | .connecting => d = none
  | .connected => ∃ x, d = some x ∧ x.project = "default"
  | .choosing q => (q = project ∧ q ≠ "") ∧ ∃ x, d = some x ∧ x.project = "default"
  | .chosen => ∃ x, d = some x ∧ x.project = projectOf project

/-- The connection is for the configured project. -/
def Proper (project : String) (d : Option InstanceServer) : Prop :=
  ∃ x, d = some x ∧ x.project = projectOf project

/-- Where the process is with its connection. -/
structure Published (project : String) (s : Sys) : Prop where
  config : s.world.config.incus.project = project
  bare : ∀ t p l url d, Ran s t p l → ⟨.connect url, .ok d⟩ ∈ l → d.project = "default"
  one : OneConnect s
  known : ∀ t l, Runs s t .connect l → s.world.incusDaemon = known l
  stage : ∀ t l, Runs s t .connect l → Stage project (publication l) s.world.incusDaemon

section Events

variable {project : String} {p : Proc} {l : Log} {e : Event} {d : Option InstanceServer}

theorem stage_next (hop : Allowed .connect l e.op)
    (hconfig : ∀ c, e = ⟨.config, c⟩ → c.incus.project = project) (hknown : d = known l)
    (hbare : ∀ url x, ⟨.connect url, .ok x⟩ ∈ l → x.project = "default")
    (h : Stage project (publication l) d) :
    Stage project (publication (e :: l)) (incusDaemonAfter e d) := by
  obtain ⟨o, r⟩ := e
  rw [publication_cons]
  cases o with
  | setIncusDaemon d' =>
    cases hop.2 with
    | failed hpub =>
      rw [hpub]
      rfl
    | connected url x hpub hx =>
      rw [hpub]
      exact ⟨x, rfl, hbare url x hx⟩
    | project q x hpub hx =>
      rw [hpub] at h ⊢
      obtain ⟨⟨rfl, hq⟩, -⟩ := h
      exact ⟨_, rfl, (if_neg hq).symm⟩
    | target target x hpub hx =>
      rw [hpub] at h ⊢
      obtain ⟨y, hy, hproject⟩ := h
      cases hy.symm.trans (hknown.trans hx)
      exact ⟨_, rfl, hproject⟩
  | config =>
    change Stage project ((publication l).next ⟨.config, r⟩) d
    have hread := hconfig r rfl
    cases hpub : publication l with
    | connected =>
      rw [hpub] at h
      obtain ⟨x, hx, hdefault⟩ := h
      change Stage project (if r.incus.project = "" then .chosen else .choosing r.incus.project) d
      rw [hread]
      split
      · rename_i hnone
        exact ⟨x, hx, hdefault.trans (if_pos hnone).symm⟩
      · rename_i hsome
        exact ⟨⟨rfl, hsome⟩, x, hx, hdefault⟩
    | _ =>
      rw [hpub] at h
      exact h
  | _ => exact h

/-- Once the project is the configured one it stays so. -/
theorem proper_next (hop : Allowed .connect l e.op) (hknown : d = known l)
    (hstage : Stage project (publication l) d) (h : Proper project d) :
    Proper project (incusDaemonAfter e d) := by
  obtain ⟨o, r⟩ := e
  cases o with
  | setIncusDaemon d' =>
    obtain ⟨x, hx, hproject⟩ := h
    cases hop.2 with
    | failed hpub | connected _ _ hpub _ =>
      rw [hpub] at hstage
      cases hstage.symm.trans hx
    | project q y hpub hy =>
      rw [hpub] at hstage
      obtain ⟨⟨rfl, hq⟩, -⟩ := hstage
      exact ⟨_, rfl, (if_neg hq).symm⟩
    | target target y hpub hy =>
      cases hx.symm.trans (hknown.trans hy)
      exact ⟨_, rfl, hproject⟩
  | _ => exact h

theorem known_next (hknown : d = known l) (hread : ∀ x, e = ⟨.incusDaemon, x⟩ → x = d) :
    incusDaemonAfter e d = known (e :: l) := by
  obtain ⟨o, r⟩ := e
  cases o with
  | incusDaemon => exact (hread r rfl).symm
  | setIncusDaemon d' => rfl
  | _ => exact hknown

/-- Only the startup goroutine publishes a connection. -/
theorem incusDaemon_kept (hop : Allowed p l e.op) (hp : p ≠ .connect) : incusDaemonAfter e d = d := by
  obtain ⟨o, r⟩ := e
  cases o with
  | setIncusDaemon d' => exact absurd hop.1 hp
  | _ => rfl

end Events

/-- What becomes of the process when the environment acts. -/
inductive Process (s s' : Sys) : Prop
  | goesOn (hd : s'.world.incusDaemon = s.world.incusDaemon)
      (hconnect : ∀ u m, Runs s' u .connect m → Runs s u .connect m)
  | replaced (hd : s'.world.incusDaemon = none) (ht : s'.world.timers = [])
      (hall : ∀ u q m, Runs s' u q m → q = .connect ∧ m = [])

section Steps

variable {project : String} {s s' : Sys} {t : Nat} {p : Proc} {l : Log} {e : Event}

theorem OneConnect.process {e : Env} (h : OneConnect s) (hs : server.Step s (.env e) s') :
    Process s s' := by
  cases hs with
  | env henv =>
    rename_i w stop ps
    rcases h.env_cases henv with ⟨rfl, hps, hd⟩ | ⟨rfl, rfl, hd, ht⟩
    · refine .goesOn hd ?_
      rintro u m ⟨th, hth, ha, hp, hl⟩
      rcases server.get_after hth with ⟨-, hth⟩ | ⟨hstop, -⟩ | ⟨q, hq, rfl⟩
      · exact ⟨th, hth, ha, hp, hl⟩
      · cases hstop
      · exact absurd (hp ▸ hq : .connect ∈ ps) hps
    · refine .replaced hd ht ?_
      rintro u q m ⟨th, hth, ha, rfl, rfl⟩
      rcases server.get_after hth with ⟨hstop, -⟩ | ⟨-, th', -, rfl⟩ | ⟨q, hq, rfl⟩
      · cases hstop
      · cases ha
      · exact ⟨List.mem_singleton.mp hq, rfl⟩

/-- A startup goroutine is the thread that moves, or the thread that moves is none. -/
theorem Published.connect_cases (h : Published project s) (hm : ThreadStep s t p l e s') {u : Nat}
    {m : Log} (hr : Runs s' u .connect m) : (u = t ∧ p = .connect ∧ m = e :: l) ∨
      (Runs s u .connect m ∧ p ≠ .connect) := by
  rcases hm.runs_cases u _ m hr with ⟨rfl, hp, rfl⟩ | ⟨hu, hr⟩ | ⟨-, -, hq⟩
  · exact .inl ⟨rfl, hp.symm, rfl⟩
  · exact .inr ⟨hr, fun hp => hu (h.one.unique u t m l hr (hp ▸ hm.runs))⟩
  · rcases spawn_cases hm.allowed hq with heq | heq | ⟨f, heq⟩ <;> cases heq

theorem Published.threadStep (h : Published project s) (hm : ThreadStep s t p l e s') :
    Published project s' where
  config := by rw [hm.did.config, h.config]
  bare := by
    intro u q m url d hr hmem
    rcases hm.mem_cases hr hmem with ⟨rfl, -⟩ | ⟨m, hr, hmem⟩
    · exact congrArg InstanceServer.project (hm.did.truthful : d = ⟨"default", ""⟩)
    · exact h.bare u q m url d hr hmem
  one := h.one.threadStep hm
  known := by
    intro u m hr
    rw [hm.did.incusDaemon]
    rcases h.connect_cases hm hr with ⟨rfl, rfl, rfl⟩ | ⟨hr, hp⟩
    · exact known_next (h.known u l hm.runs) fun x hx => by
        subst hx
        exact hm.did.truthful
    · rw [incusDaemon_kept hm.allowed hp]
      exact h.known u m hr
  stage := by
    intro u m hr
    rw [hm.did.incusDaemon]
    rcases h.connect_cases hm hr with ⟨rfl, rfl, rfl⟩ | ⟨hr, hp⟩
    · refine stage_next hm.allowed (fun c hc => ?_) (h.known u l hm.runs)
        (fun url x hx => h.bare u _ l url x hm.runs.ran hx) (h.stage u l hm.runs)
      subst hc
      rw [(hm.did.truthful : c = s.world.config), h.config]
    · rw [incusDaemon_kept hm.allowed hp]
      exact h.stage u m hr

/-- The project stays the configured one within a process. -/
theorem Published.proper_after (h : Published project s) (hm : ThreadStep s t p l e s')
    (hproper : Proper project s.world.incusDaemon) : Proper project s'.world.incusDaemon := by
  rw [hm.did.incusDaemon]
  by_cases hp : p = .connect
  · subst hp
    exact proper_next hm.allowed (h.known t l hm.runs) (h.stage t l hm.runs) hproper
  · rw [incusDaemon_kept hm.allowed hp]
    exact hproper

theorem Published.proper_of_chosen (h : Published project s) (hr : Runs s t .connect l)
    (hl : publication l = .chosen) : Proper project s.world.incusDaemon := by
  have hstage := h.stage t l hr
  rw [hl] at hstage
  exact hstage

theorem Published.envStep {e : Env} (h : Published project s)
    (hconfig : s'.world.config.incus.project = project) (hs : server.Step s (.env e) s') :
    Published project s' := by
  have hm := env_step hs
  refine ⟨hconfig, fun u q m url d hr hmem => ?_, h.one.envStep hs, ?_, ?_⟩
  · exact h.bare u q m url d (hm.ran_of_mem hr hmem) hmem
  · intro u m hr
    cases h.one.process hs with
    | goesOn hd hconnect => exact hd.trans (h.known u m (hconnect u m hr))
    | replaced hd _ hall =>
      obtain ⟨-, rfl⟩ := hall u _ m hr
      exact hd
  · intro u m hr
    cases h.one.process hs with
    | goesOn hd hconnect => exact hd ▸ h.stage u m (hconnect u m hr)
    | replaced hd _ hall =>
      obtain ⟨-, rfl⟩ := hall u _ m hr
      exact hd

theorem Initial.published (h0 : Initial s) (hproject : s.world.config.incus.project = project) :
    Published project s where
  config := hproject
  bare := fun _ _ _ _ _ hr hmem => by rw [(h0.ran hr).2] at hmem; cases hmem
  one := h0.oneConnect
  known := fun _ _ hr => by rw [(h0.ran hr.ran).2]; exact h0.1
  stage := fun _ _ hr => by rw [(h0.ran hr.ran).2]; exact h0.1

end Steps

-- ============================================================================
-- Who has made an instance
-- ============================================================================

/-- An instance with the name of a random id was made by the thread that has drawn the id. -/
structure Makers (s : Sys) : Prop where
  drawn : ∀ t p l u, Ran s t p l → ⟨.newRandom, u⟩ ∈ l → u ∈ s.world.uuids
  once : ∀ t t' p p' l l' u, Ran s t p l → Ran s t' p' l' → ⟨.newRandom, u⟩ ∈ l →
    ⟨.newRandom, u⟩ ∈ l' → t = t'
  made : ∀ t p l u, Ran s t p l → ⟨.newRandom, u⟩ ∈ l → ∀ i ∈ s.world.instances, i.name = nameOf u →
    ∃ d c, ⟨.wait d c, .ok ()⟩ ∈ l ∧ c.makes = some i.name ∧ i.project = d.project

theorem project_of_made {d : InstanceServer} {c : Call} {is is' : Instances} {name : String}
    (h : InstancesAfter ⟨.wait d c, .ok ()⟩ is is') (hc : c.makes = some name) :
    ∃ x, is' = is ++ [x] ∧ x.project = d.project := by
  obtain ⟨a, h⟩ := h
  cases c with
  | copyInstance source n instanceOnly =>
    simp only [Call.complete] at h
    split at h
    · cases h
    · exact ⟨_, (Option.some.inj h).symm, rfl⟩
  | createInstance req =>
    simp only [Call.complete] at h
    split at h
    · cases h
    · exact ⟨_, (Option.some.inj h).symm, rfl⟩
  | _ => cases hc

theorem mem_of_drawn {l : Log} {u : String} (h : attempt l = .drawn u) : ⟨.newRandom, u⟩ ∈ l := by
  induction l with
  | nil => cases h
  | cons e l ih =>
    rcases drawn_next h with ⟨h, -⟩ | rfl
    · exact List.mem_cons_of_mem _ (ih h)
    · exact List.mem_cons_self ..

section Steps

variable {w₀ : World} {s s' : Sys} {t : Nat} {p : Proc} {l : Log} {e : Event}

theorem Makers.made_after (hnamed : Named w₀ s) (h : Makers s) (hm : ThreadStep s t p l e s') :
    ∀ v q m u, Ran s' v q m → ⟨.newRandom, u⟩ ∈ m → ∀ i ∈ s'.world.instances, i.name = nameOf u →
      ∃ d c, ⟨.wait d c, .ok ()⟩ ∈ m ∧ c.makes = some i.name ∧ i.project = d.project := by
  intro v q m u hr hu i hi hname
  rcases hm.ran_cases v q m hr with ⟨rfl, rfl, rfl⟩ | ⟨hv, hr⟩ | ⟨-, rfl, -⟩
  · rcases instance_cases hm hi with ⟨j, hj, hsame⟩ | ⟨d, c, -, rfl, hc, -, -, happend⟩
    · have hj' : j.name = nameOf u := hsame.name.symm.trans hname
      rcases List.mem_cons.mp hu with rfl | hu
      · -- no instance has the name of a new random id
        exact absurd (hnamed.instances j hj u hj') hm.did.truthful
      · obtain ⟨d, c, hmem, hc, hproject⟩ := h.made v q l u hm.runs.ran hu j hj hj'
        refine ⟨d, c, List.mem_cons_of_mem _ hmem, ?_, hsame.project.trans hproject⟩
        rw [hsame.name]
        exact hc
    · obtain ⟨x, hx, hproject⟩ := project_of_made hm.did.instances hc
      cases (List.append_cancel_left (happend.symm.trans hx) : [i] = [x])
      exact ⟨d, c, List.mem_cons_self .., hc, hproject⟩
  · rcases instance_cases hm hi with ⟨j, hj, hsame⟩ | ⟨d, c, u', -, -, hdrawn, hiu, -⟩
    · obtain ⟨d, c, hmem, hc, hproject⟩ :=
        h.made v q m u hr hu j hj (hsame.name.symm.trans hname)
      refine ⟨d, c, hmem, ?_, hsame.project.trans hproject⟩
      rw [hsame.name]
      exact hc
    · cases nameOf_injective (hname.symm.trans hiu)
      exact absurd (h.once v t q p m l u hr hm.runs.ran hu (mem_of_drawn hdrawn)) hv
  · cases hu

theorem Makers.threadStep (hnamed : Named w₀ s) (h : Makers s) (hm : ThreadStep s t p l e s') :
    Makers s' where
  drawn := by
    intro v q m u hr hu
    rcases hm.mem_cases hr hu with ⟨rfl, -⟩ | ⟨m, hr, hu⟩
    · rw [hm.did.uuids]
      exact List.mem_cons_self ..
    · exact uuids_after hm.did (h.drawn v q m u hr hu)
  once := by
    intro v v' q q' m m' u hr hr' hu hu'
    rcases hm.mem_cases hr hu with ⟨rfl, rfl, -⟩ | ⟨m, hr, hu⟩
    · rcases hm.mem_cases hr' hu' with ⟨-, rfl, -⟩ | ⟨m', hr', hu'⟩
      · rfl
      · exact absurd (h.drawn v' q' m' u hr' hu') hm.did.truthful
    · rcases hm.mem_cases hr' hu' with ⟨rfl, -⟩ | ⟨m', hr', hu'⟩
      · exact absurd (h.drawn v q m u hr hu) hm.did.truthful
      · exact h.once v v' q q' m m' u hr hr' hu hu'
  made := h.made_after hnamed hm

theorem Makers.envStep {e : Env} (h : Makers s) (hm : EnvStep s e s') : Makers s' where
  drawn := by
    intro v q m u hr hu
    rw [hm.uuids]
    have hr := hm.ran_of_mem hr hu
    exact h.drawn v q m u hr hu
  once := by
    intro v v' q q' m m' u hr hr' hu hu'
    have hr := hm.ran_of_mem hr hu
    have hr' := hm.ran_of_mem hr' hu'
    exact h.once v v' q q' m m' u hr hr' hu hu'
  made := by
    intro v q m u hr hu
    rw [hm.instances]
    have hr := hm.ran_of_mem hr hu
    exact h.made v q m u hr hu

theorem Initial.makers (h0 : Initial s) : Makers s := by
  constructor
  · intro t p l u hr hu
    rw [(h0.ran hr).2] at hu
    cases hu
  · intro t t' p p' l l' u hr hr' hu
    rw [(h0.ran hr).2] at hu
    cases hu
  · intro t p l u hr hu
    rw [(h0.ran hr).2] at hu
    cases hu

end Steps

-- ============================================================================
-- Who looks for it
-- ============================================================================

/-- A start request has recorded the active session `id` for an instance that it has made. -/
def Opens (s : Sys) (id : Nat) : Prop :=
  ∃ t r l row, Ran s t (.restStart r) l ∧ ⟨.query (.dbNew row), .ok id⟩ ∈ l ∧ row.status = 0

/-- The connections that threads have read to make instances, and to look for them. -/
structure Sited (project : String) (s : Sys) : Prop where
  chose : ∀ t r l d, Ran s t (.restStart r) l → Chose l d → d.project = projectOf project
  settled : ∀ t r l d, Runs s t (.restStart r) l → Chose l d → Proper project s.world.incusDaemon
  hourly : ∀ t l, Runs s t .hourlyResync l → Proper project s.world.incusDaemon
  reads : ∀ t l d, Ran s t .hourlyResync l → ⟨.incusDaemon, some d⟩ ∈ l →
    d.project = projectOf project
  connect : ∀ t l l' d, Ran s t .connect l → ⟨.incusDaemon, some d⟩ :: l' <:+ l →
    publication l' = .chosen → d.project = projectOf project
  unselected : ∀ id, Opens s id → ∀ t p l row, Ran s t p l →
    ⟨.query .selectAllocated, .ok (some (id, row))⟩ ∉ l
  rings : ∀ tm ∈ s.world.timers, tm.callback ≠ .hourlyResync
  timers : ∀ tm ∈ s.world.timers, ∀ id name, tm.callback = .cleanup id name → Opens s id →
    Proper project s.world.incusDaemon
  callbacks : ∀ t id name l, Runs s t (.cleanup id name) l → Opens s id →
    Proper project s.world.incusDaemon
  ended : ∀ t id name l d, Ran s t (.cleanup id name) l → Opens s id →
    ⟨.incusDaemon, some d⟩ ∈ l → d.project = projectOf project

/-- The configured project stays, and a start request that reads `incusDaemon` for the call that
    makes its instance finds a connection for this project. -/
structure Patient (project : String) (s : Sys) (l : Label) : Prop where
  config : ∀ c, l = .env (.reload c) ∨ l = .env (.restart c) → c.incus.project = project
  reads : ∀ t r m u d, l = .thread t ⟨.incusDaemon, some d⟩ → Runs s t (.restStart r) m →
    attempt m = .drawn u → aims m = true → Proper project s.world.incusDaemon

theorem chose_cases {l : Log} {e : Event} {d : InstanceServer} (h : Chose (e :: l) d) :
    Chose l d ∨ (e = ⟨.incusDaemon, some d⟩ ∧ (∃ u, attempt l = .drawn u) ∧ aims l = true) := by
  obtain ⟨l', u, hs, hu, haims⟩ := h
  rcases List.suffix_cons_iff.mp hs with heq | hs
  · cases heq
    exact .inr ⟨rfl, ⟨u, hu⟩, haims⟩
  · exact .inl ⟨l', u, hs, hu, haims⟩

theorem not_chose_nil {d : InstanceServer} : ¬ Chose [] d := by
  rintro ⟨l', u, hs, -⟩
  cases List.suffix_nil.mp hs

/-- What is read of a connection for the configured project. -/
theorem project_of_read {project : String} {w : World} {d : InstanceServer}
    (h : Proper project w.incusDaemon) (ht : Truthful w ⟨.incusDaemon, some d⟩) :
    d.project = projectOf project := by
  obtain ⟨x, hx, hproject⟩ := h
  cases hx.symm.trans (Eq.symm ht)
  exact hproject

/-- The hourly resync is started by the startup goroutine, once its connection is final. -/
theorem hourly_spawned {p : Proc} {l : Log} {o : Op} (h : Allowed p l o)
    (hq : .hourlyResync ∈ spawn o) : p = .connect ∧ publication l = .chosen := by
  cases o with
  | go q =>
    cases List.mem_singleton.mp hq
    rcases (h : _ ∨ _ ∨ _) with heq | ⟨-, hconnect⟩ | ⟨f, heq⟩
    · cases heq
    · exact hconnect
    · cases heq
  | _ => cases hq

section Steps

variable {w₀ : World} {project : String} {s s' : Sys} {t : Nat} {p : Proc} {l : Log} {e : Event}
  {id : Nat}

theorem opens_cases (hm : ThreadStep s t p l e s') (h : Opens s' id) : Opens s id ∨
    ((∃ row, e = ⟨.query (.dbNew row), .ok id⟩) ∧ id = s.world.db.sessions.nextId) := by
  obtain ⟨u, r, m, row, hr, hmem, hstatus⟩ := h
  rcases hm.mem_cases hr hmem with ⟨rfl, -⟩ | ⟨m, hr, hmem⟩
  · exact .inr ⟨⟨row, rfl⟩, hm.did.truthful⟩
  · exact .inl ⟨u, r, m, row, hr, hmem, hstatus⟩

/-- A session that was there before the step was recorded before it. -/
theorem opens_of_begun (hm : ThreadStep s t p l e s') (hb : Begun s.world.db id) (h : Opens s' id) :
    Opens s id := by
  rcases opens_cases hm h with h | ⟨-, hid⟩
  · exact h
  · have hle := hb.old
    rw [hid] at hle
    exact absurd hle (Nat.not_succ_le_self _)

theorem Opens.begun (hstarted : Started s) (h : Opens s id) : Begun s.world.db id := by
  obtain ⟨t, r, l, row, hr, hmem, hstatus⟩ := h
  exact hstarted.events t _ l _ id hr hmem ⟨rfl, hstatus⟩

theorem opens_envStep {e : Env} (hm : EnvStep s e s') (h : Opens s' id) : Opens s id := by
  obtain ⟨u, r, m, row, hr, hmem, hstatus⟩ := h
  exact ⟨u, r, m, row, hm.ran_of_mem hr hmem, hmem, hstatus⟩

/-- Nobody selects the row of a session that a request has recorded: it has never waited. -/
theorem Sited.unselected_after (hstarted : Started s) (h : Sited project s)
    (hm : ThreadStep s t p l e s') : ∀ id, Opens s' id → ∀ u q m row, Ran s' u q m →
      ⟨.query .selectAllocated, .ok (some (id, row))⟩ ∉ m := by
  intro id hopens u q m row hr hmem
  rcases hm.mem_cases hr hmem with ⟨rfl, -⟩ | ⟨m, hr, hmem⟩
  · rcases opens_cases hm hopens with hopens | ⟨⟨a, heq⟩, -⟩
    · have hsel : some (id, row) = s.world.db.selectAllocated := hm.did.truthful
      obtain ⟨hrow, hwaits⟩ := Sql.Table.mem_select.mp (oldest_mem hsel.symm)
      have hle := (hopens.begun hstarted).status row hrow
      rw [beq_iff_eq.mp (hwaits : (row.status == 2) = true)] at hle
      exact absurd hle (by decide)
    · cases heq
  · rcases opens_cases hm hopens with hopens | ⟨-, hid⟩
    · exact h.unselected id hopens u q m row hr hmem
    · have hle := hstarted.picked u q m id row hr hmem
      rw [hid] at hle
      exact absurd hle (Nat.not_succ_le_self _)

/-- The cleanup of a session that a request has recorded is armed when the project is settled. -/
theorem Sited.proper_of_arms (hsound : Sound s) (hpub : Published project s) (h : Sited project s)
    (hr : Runs s t p l) {d : Int} {name : String} (harm : MayArm p l d (.cleanup id name))
    (hopens : Opens s id) : Proper project s.world.incusDaemon := by
  have hl := hsound.allowed hr.ran
  cases harm with
  | started ip _ _ expiry c hp hs _ _ _ =>
    rcases hs with ⟨row, hclaim, -⟩ | ⟨row, ha, -⟩
    · exact absurd (mem_of_claimed hl hclaim).1 (h.unselected id hopens t p l row hr.ran)
    · obtain ⟨r, -, rfl, -⟩ := hp
      obtain ⟨d', c', hmem, hc⟩ := made_of_recorded hl (mem_of_recorded ha)
      exact h.settled t r l d' hr (chose_of_makes hl hmem hc)
  | restored e rest t' hp hrest _ _ _ =>
    subst hp
    obtain ⟨es, hes, -⟩ := listed_of_restoring hrest
    exact hpub.proper_of_chosen hr (chosen_of_dbActive hl hes)

theorem Sited.threadStep (hsound : Sound s) (hstarted : Started s) (hpub : Published project s)
    (h : Sited project s) (hC : Patient project s (.thread t e)) (hm : ThreadStep s t p l e s') :
    Sited project s' where
  chose := by
    intro u r m d hr hd
    rcases hm.ran_cases u _ m hr with ⟨rfl, rfl, rfl⟩ | ⟨-, hr⟩ | ⟨-, rfl, -⟩
    · rcases chose_cases hd with hd | ⟨rfl, ⟨v, hv⟩, haims⟩
      · exact h.chose u r l d hm.runs.ran hd
      · exact project_of_read (hC.reads u r l v d rfl hm.runs hv haims) hm.did.truthful
    · exact h.chose u r m d hr hd
    · exact absurd hd not_chose_nil
  settled := by
    intro u r m d hr hd
    refine hpub.proper_after hm ?_
    rcases hm.runs_cases u _ m hr with ⟨rfl, rfl, rfl⟩ | ⟨-, hr⟩ | ⟨-, rfl, -⟩
    · rcases chose_cases hd with hd | ⟨rfl, ⟨v, hv⟩, haims⟩
      · exact h.settled u r l d hm.runs hd
      · exact hC.reads u r l v d rfl hm.runs hv haims
    · exact h.settled u r m d hr hd
    · exact absurd hd not_chose_nil
  hourly := by
    intro u m hr
    refine hpub.proper_after hm ?_
    rcases hm.runs_cases u _ m hr with ⟨rfl, rfl, rfl⟩ | ⟨-, hr⟩ | ⟨-, -, hq⟩
    · exact h.hourly u l hm.runs
    · exact h.hourly u m hr
    · obtain ⟨rfl, hchosen⟩ := hourly_spawned hm.allowed hq
      exact hpub.proper_of_chosen hm.runs hchosen
  reads := by
    intro u m d hr hmem
    rcases hm.mem_cases hr hmem with ⟨rfl, rfl, rfl, -⟩ | ⟨m, hr, hmem⟩
    · exact project_of_read (h.hourly u l hm.runs) hm.did.truthful
    · exact h.reads u m d hr hmem
  connect := by
    intro u m m' d hr hs hchosen
    rcases hm.ran_cases u _ m hr with ⟨rfl, rfl, rfl⟩ | ⟨-, hr⟩ | ⟨-, rfl, -⟩
    · rcases List.suffix_cons_iff.mp hs with heq | hs
      · cases heq
        exact project_of_read (hpub.proper_of_chosen hm.runs hchosen) hm.did.truthful
      · exact h.connect u l m' d hm.runs.ran hs hchosen
    · exact h.connect u m m' d hr hs hchosen
    · cases List.suffix_nil.mp hs
  unselected := h.unselected_after hstarted hm
  rings := by
    intro tm htm
    rcases hm.timer_cases htm with htm | ⟨d, rfl, -⟩
    · exact h.rings tm htm
    · obtain ⟨due, q⟩ := tm
      cases (hm.allowed : MayArm p l d q) <;> exact nofun
  timers := by
    intro tm htm id name hcb hopens
    refine hpub.proper_after hm ?_
    rcases hm.timer_cases htm with htm | ⟨d, rfl, -⟩
    · exact h.timers tm htm id name hcb (opens_of_begun hm (hstarted.timers tm htm id name hcb) hopens)
    · have harm : MayArm p l d (.cleanup id name) := hcb ▸ hm.allowed
      have hbegun := begun_of_arms hsound hstarted hm.runs.ran harm
      exact h.proper_of_arms hsound hpub hm.runs harm (opens_of_begun hm hbegun hopens)
  callbacks := by
    intro u id name m hr hopens
    refine hpub.proper_after hm ?_
    have hold : ∀ v m, Runs s v (.cleanup id name) m → Proper project s.world.incusDaemon :=
      fun v m hr => h.callbacks v id name m hr
        (opens_of_begun hm (hstarted.callbacks v id name m hr.ran) hopens)
    rcases hm.runs_cases u _ m hr with ⟨rfl, rfl, rfl⟩ | ⟨-, hr⟩ | ⟨-, -, hq⟩
    · exact hold u l hm.runs
    · exact hold u m hr
    · exact absurd hq (cleanup_not_spawned hm.allowed)
  ended := by
    intro u id name m d hr hopens hmem
    rcases hm.mem_cases hr hmem with ⟨rfl, rfl, rfl, -⟩ | ⟨m, hr, hmem⟩
    · have hopens := opens_of_begun hm (hstarted.callbacks u id name l hm.runs.ran) hopens
      exact project_of_read (h.callbacks u id name l hm.runs hopens) hm.did.truthful
    · have hopens := opens_of_begun hm (hstarted.callbacks u id name m hr) hopens
      exact h.ended u id name m d hr hopens hmem

/-- Within the same process the project stays settled; a new one has nobody to look for anything
    yet. -/
theorem proper_env {e : Env} (hpub : Published project s) (hs : server.Step s (.env e) s')
    (hthread : ∃ u q m, Runs s' u q m ∧ q ≠ .connect) (h : Proper project s.world.incusDaemon) :
    Proper project s'.world.incusDaemon := by
  cases hpub.one.process hs with
  | goesOn hd _ => exact hd ▸ h
  | replaced _ _ hall =>
    obtain ⟨u, q, m, hr, hq⟩ := hthread
    exact absurd (hall u q m hr).1 hq

theorem Sited.envStep {e : Env} (hpub : Published project s) (h : Sited project s)
    (hs : server.Step s (.env e) s') : Sited project s' := by
  have hm := env_step hs
  constructor
  · intro u r m d hr hd
    rcases hm.ran_cases u _ m hr with hr | ⟨rfl, -⟩
    · exact h.chose u r m d hr hd
    · exact absurd hd not_chose_nil
  · intro u r m d hr hd
    refine proper_env hpub hs ⟨u, _, m, hr, nofun⟩ ?_
    rcases hm.runs_cases u _ m hr with hr | ⟨rfl, -⟩
    · exact h.settled u r m d hr hd
    · exact absurd hd not_chose_nil
  · intro u m hr
    refine proper_env hpub hs ⟨u, _, m, hr, nofun⟩ ?_
    rcases hm.runs_cases u _ m hr with hr | ⟨rfl, hq⟩
    · exact h.hourly u m hr
    · cases hq with
      | timer tm htm hcb => exact absurd hcb (h.rings tm htm)
      | _ => contradiction
  · intro u m d hr hmem
    have hr := hm.ran_of_mem hr hmem
    exact h.reads u m d hr hmem
  · intro u m m' d hr hs' hchosen
    rcases hm.ran_cases u _ m hr with hr | ⟨rfl, -⟩
    · exact h.connect u m m' d hr hs' hchosen
    · cases List.suffix_nil.mp hs'
  · intro id hopens u q m row hr hmem
    have hr := hm.ran_of_mem hr hmem
    exact h.unselected id (opens_envStep hm hopens) u q m row hr hmem
  · exact fun tm htm => h.rings tm (hm.timers tm htm)
  · intro tm htm id name hcb hopens
    have hold := h.timers tm (hm.timers tm htm) id name hcb (opens_envStep hm hopens)
    cases hpub.one.process hs with
    | goesOn hd _ => exact hd ▸ hold
    | replaced _ ht _ =>
      rw [ht] at htm
      cases htm
  · intro u id name m hr hopens
    have hopens := opens_envStep hm hopens
    refine proper_env hpub hs ⟨u, _, m, hr, nofun⟩ ?_
    rcases hm.runs_cases u _ m hr with hr | ⟨rfl, hq⟩
    · exact h.callbacks u id name m hr hopens
    · cases hq with
      | timer tm htm hcb => exact h.timers tm htm id name hcb hopens
      | _ => contradiction
  · intro u id name m d hr hopens hmem
    have hr := hm.ran_of_mem hr hmem
    exact h.ended u id name m d hr (opens_envStep hm hopens) hmem

theorem Initial.sited (h0 : Initial s) : Sited project s := by
  have hnone : ∀ {u q m}, Ran s u q m → m = [] := fun hr => (h0.ran hr).2
  constructor
  · exact fun u r m d hr hd => absurd (hnone hr ▸ hd) not_chose_nil
  · exact fun u r m d hr hd => absurd (hnone hr.ran ▸ hd) not_chose_nil
  · exact fun u m hr => nomatch (h0.ran hr.ran).1
  · exact fun u m d hr => nomatch (h0.ran hr).1
  · intro u m m' d hr hs
    rw [hnone hr] at hs
    cases List.suffix_nil.mp hs
  · intro id _ u q m row hr hmem
    rw [hnone hr] at hmem
    cases hmem
  · intro tm htm
    rw [h0.2.2.1] at htm
    cases htm
  · intro tm htm
    rw [h0.2.2.1] at htm
    cases htm
  · exact fun u id name m hr => nomatch (h0.ran hr.ran).1
  · exact fun u id name m d hr => nomatch (h0.ran hr).1

end Steps

-- ============================================================================
-- Every run
-- ============================================================================

/-- The operation deletes no instance but this one. -/
def DeletesOnly (name : String) (o : Op) : Prop := ∀ d n, o = .wait d (.deleteInstance n) → n = name

theorem cleanup_deletes (id : Nat) (name : String) :
    Prog.Performs (DeletesOnly name) (cleanup id name) := by
  have hdelete : ∀ d, Prog.Performs (DeletesOnly name) (deleteInstance d name) := by
    intro d
    unfold deleteInstance
    refine Prog.performs_then (fun _ _ h => nomatch h) fun r => ?_
    cases r with
    | error e => exact Prog.performs_pure _
    | ok _ =>
      refine Prog.performs_perform ?_
      rintro d' n heq
      cases heq
      rfl
  have hdaemon : Prog.Performs (DeletesOnly name) daemon := by
    unfold daemon
    refine Prog.performs_then (fun _ _ h => nomatch h) fun d => ?_
    cases d with
    | none => exact Prog.performs_then (fun _ _ h => nomatch h) fun stuck => nomatch stuck
    | some d => exact Prog.performs_pure d
  unfold cleanup forceDelete incusForceDelete
  refine Prog.Performs.bind (hdaemon.bind fun d => Prog.Performs.bind ?_ fun _ => Prog.performs_pure _)
    fun _ => Prog.performs_then (fun _ _ h => nomatch h) fun _ => Prog.performs_pure _
  refine Prog.performs_then (fun _ _ h => nomatch h) fun r => ?_
  cases r with
  | error e => exact hdelete d
  | ok _ => exact Prog.performs_then (fun _ _ h => nomatch h) fun _ => hdelete d

/-- A cleanup deletes the instance of its session and no other. -/
theorem cleanup_traced {C : Sys → Label → Prop} {s₀ s : Sys} (h0 : Initial s₀)
    (hrun : server.Run C s₀ s) {t id : Nat} {name : String} {l : Log} (hr : Ran s t (.cleanup id name) l)
    {d : InstanceServer} {n : String} {a : Except Error Unit}
    (hmem : ⟨.wait d (.deleteInstance n), a⟩ ∈ l) : n = name := by
  let J : Log → Prop := fun l => ∀ e ∈ l, DeletesOnly name e.op
  have hbody : Prog.Traces J (cleanup id name) (fun _ l => J l ∧ True) [] := by
    refine Prog.traces_mono (fun _ _ h => ⟨h, trivial⟩)
      ((cleanup_deletes id name).traces (fun o r l ho hl => ?_) fun e he => nomatch he)
    exact List.forall_mem_cons.mpr ⟨ho, hl⟩
  have hJ : J l := hr.traced (Machine.Run.traced (p := .cleanup id name) (F := fun _ => True) hbody
    h0.allStart hrun)
  exact hJ _ hmem d n rfl

/-- Where the instances of start requests are, and where the server looks for them. -/
structure Housed (project : String) (s : Sys) : Prop where
  /-- A request makes its instance in the configured project, -/
  made : ∀ t r l d c name, Ran s t (.restStart r) l → ⟨.wait d c, .ok ()⟩ ∈ l →
    c.makes = some name → d.project = projectOf project
  /-- where it stays: an instance with the name of a random id that a request has drawn. -/
  lives : ∀ t r l u i, Ran s t (.restStart r) l → ⟨.newRandom, u⟩ ∈ l → i ∈ s.world.instances →
    i.name = nameOf u → i.project = projectOf project
  /-- The active session that it records is for such an instance, -/
  named : ∀ t r l row id, Ran s t (.restStart r) l → ⟨.query (.dbNew row), .ok id⟩ ∈ l →
    ∃ u, ⟨.newRandom, u⟩ ∈ l ∧ row.instanceName = nameOf u
  /-- and its cleanup deletes this instance in the configured project, in this process or another. -/
  ended : ∀ t r l row id, Ran s t (.restStart r) l → ⟨.query (.dbNew row), .ok id⟩ ∈ l →
    row.status = 0 → ∀ v name m d n a, Ran s v (.cleanup id name) m →
      ⟨.wait d (.deleteInstance n), a⟩ ∈ m → d.project = projectOf project ∧ n = row.instanceName
  /-- Every resync lists the configured project, -/
  listed : ∀ t p l d a, Ran s t p l → ⟨.call d .getInstanceNames, a⟩ ∈ l →
    d.project = projectOf project
  /-- and deletes there. -/
  swept : ∀ t p l l' d n a, Ran s t p l → ⟨.wait d (.deleteInstance n), a⟩ :: l' <:+ l →
    pass l' ≠ .idle → d.project = projectOf project

section Runs

variable {w₀ : World} {project : String} {s : Sys} {t : Nat} {p : Proc} {l l' : Log}
  {d : InstanceServer}

/-- A resync uses connections that were read for it, which are final. -/
theorem Sited.of_pass (hl : Machine.LogAllowed Allowed p l) (h : Sited project s) (hr : Ran s t p l)
    (hs : ⟨.incusDaemon, some d⟩ :: l' <:+ l) (hpass : pass l' ≠ .idle) :
    d.project = projectOf project := by
  have hl' := hl.before hs
  rcases resyncs_of_pass hl' hpass with rfl | rfl
  · exact h.connect t l l' d hr hs (chosen_of_pass hl' hpass)
  · exact h.reads t l d hr (hs.subset (List.mem_cons_self ..))

theorem Sited.listed (hsound : Sound s) (h : Sited project s) (hr : Ran s t p l)
    {a : Except Error (List String)} (hmem : ⟨.call d .getInstanceNames, a⟩ ∈ l) :
    d.project = projectOf project := by
  obtain ⟨l₁, hs, hallowed⟩ := (hsound.allowed hr).mem hmem
  obtain ⟨hholding, l', rfl⟩ := hallowed
  refine h.of_pass (hsound.allowed hr) hr ((List.suffix_cons ..).trans hs) fun hidle => ?_
  have hpass : pass l' = .holding := hholding
  rw [hidle] at hpass
  cases hpass

theorem Sited.swept (hsound : Sound s) (h : Sited project s) (hr : Ran s t p l) {n : String}
    {a : Except Error Unit} (hs : ⟨.wait d (.deleteInstance n), a⟩ :: l' <:+ l)
    (hpass : pass l' ≠ .idle) : d.project = projectOf project := by
  have hallowed : Allowed p l' (.wait d (.deleteInstance n)) := hsound.allowed hr _ l' hs
  obtain ⟨-, m, hm, hsame⟩ := hallowed
  exact h.of_pass (hsound.allowed hr) hr (hm.trans ((List.suffix_cons ..).trans hs))
    (fun hidle => hpass (hsame.symm.trans hidle))

theorem Sited.deleted (hsound : Sound s) (h : Sited project s) {id : Nat} {name : String}
    (hr : Ran s t (.cleanup id name) l) (hopens : Opens s id) {n : String} {a : Except Error Unit}
    (hmem : ⟨.wait d (.deleteInstance n), a⟩ ∈ l) : d.project = projectOf project := by
  obtain ⟨l₁, hs, hallowed⟩ := (hsound.allowed hr).mem hmem
  obtain ⟨-, m, hm, -⟩ := hallowed
  refine h.ended t id name l d hr hopens (hs.subset (List.mem_cons_of_mem _ ?_))
  exact hm.subset (List.mem_cons_self ..)

/-- The callback of a session that a request has recorded is for its instance. -/
theorem name_of_callback (hnamed : Named w₀ s) {id : Nat} {name : String} {r : Request} {m : Log}
    {row : Session} {v : Nat} (hr : Ran s t (.restStart r) l)
    (hrow : ⟨.query (.dbNew row), .ok id⟩ ∈ l) (hcallback : Ran s v (.cleanup id name) m) :
    name = row.instanceName := by
  obtain ⟨a, ha, hname⟩ := hnamed.callbacks v _ m id name hcallback rfl
  rw [← hname, hnamed.unique id a row ha (.inr ⟨t, _, l, hr, hrow⟩)]

end Runs

/-- Where no start request reads an unfinished connection for the call that makes its instance,
    every instance that a start request makes is in the configured project, and there the cleanup
    of its session and every resync look for it. -/
theorem created_in_project {s₀ s : Sys} {project : String} (h0 : Initial s₀)
    (hw : WellFormed s₀.world) (hproject : s₀.world.config.incus.project = project)
    (hrun : server.Run (Patient project) s₀ s) : Housed project s := by
  have hkept : Sound s ∧ Regular s₀.world s ∧ Published project s ∧ Makers s ∧ Sited project s := by
    refine Machine.Run.invariant (I := fun s => Sound s ∧ Regular s₀.world s ∧ Published project s ∧
      Makers s ∧ Sited project s)
      ⟨h0.sound, h0.regular hw, h0.published hproject, h0.makers, h0.sited⟩ ?_ hrun
    rintro s l s' ⟨hsound, hregular, hpub, hmakers, hsited⟩ hC hs
    refine ⟨hsound.step hs, ?_⟩
    cases l with
    | thread t e =>
      obtain ⟨p, l, hm⟩ := thread_step hsound.follow hs
      exact ⟨hregular.threadStep hsound hm, hpub.threadStep hm, hmakers.threadStep hregular.named hm,
        hsited.threadStep hsound hregular.started hpub hC hm⟩
    | env e =>
      have hm := env_step hs
      refine ⟨hregular.envStep hm, hpub.envStep ?_ hs, hmakers.envStep hm, hsited.envStep hpub hs⟩
      rcases hm.config with hsame | ⟨c, he, hc⟩
      · rw [hsame, hpub.config]
      · rw [hc]
        exact hC.config c (he.imp (congrArg _) (congrArg _))
  obtain ⟨hsound, hregular, hpub, hmakers, hsited⟩ := hkept
  constructor
  · intro t r l d c name hr hmem hc
    exact hsited.chose t r l d hr (chose_of_makes (hsound.allowed hr) hmem hc)
  · intro t r l u i hr hu hi hname
    obtain ⟨d, c, hmem, hc, hi'⟩ := hmakers.made t _ l u hr hu i hi hname
    exact hi'.trans (hsited.chose t r l d hr (chose_of_makes (hsound.allowed hr) hmem hc))
  · intro t r l row id hr hrow
    obtain ⟨d, c, hmem, hc⟩ := made_of_recorded (hsound.allowed hr) hrow
    obtain ⟨l', hs, hallowed⟩ := (hsound.allowed hr).mem hmem
    obtain ⟨u, hu, hname⟩ := drawn_of_makes hallowed hc
    exact ⟨u, hs.subset (List.mem_cons_of_mem _ (mem_of_drawn hu)), hname⟩
  · intro t r l row id hr hrow hstatus v name m d n a hv hmem
    refine ⟨hsited.deleted hsound hv ⟨t, r, l, row, hr, hrow, hstatus⟩ hmem, ?_⟩
    rw [cleanup_traced h0 hrun hv hmem, name_of_callback hregular.named hr hrow hv]
  · exact fun t p l d a hr hmem => hsited.listed hsound hr hmem
  · exact fun t p l l' d n a hr hs hpass => hsited.swept hsound hr hs hpass

/-- The configured project stays. -/
def SameProject (project : String) (_ : Sys) (l : Label) : Prop :=
  ∀ c, l = .env (.reload c) ∨ l = .env (.restart c) → c.incus.project = project

/-- The test for `SameProject`. -/
def sameProject (project : String) (_ : Sys) : Label → Bool
  | .env (.reload c) | .env (.restart c) => c.incus.project == project
  | _ => true

theorem of_sameProject {project : String} (s : Sys) (l : Label) (h : sameProject project s l = true) :
    SameProject project s l := by
  rintro c (rfl | rfl) <;> exact beq_iff_eq.mp h

/-- The test for `Patient`. -/
def patient (project : String) (s : Sys) (l : Label) : Bool :=
  sameProject project s l &&
  match l with
  | .thread t ⟨.incusDaemon, _⟩ => s.threads[t]?.all fun th =>
    match attempt th.log with
    | .drawn _ => !aims th.log || s.world.incusDaemon.any fun d => d.project == projectOf project
    | _ => true
  | _ => true

theorem of_patient {project : String} (s : Sys) (l : Label) (h : patient project s l = true) :
    Patient project s l := by
  obtain ⟨hsame, h⟩ := Bool.and_eq_true_iff.mp h
  refine ⟨of_sameProject s l hsame, ?_⟩
  rintro t r m u d rfl ⟨th, hth, -, -, rfl⟩ hu haims
  simp only [hth, Option.all_some, hu, haims, Bool.not_true, Bool.false_or] at h
  obtain ⟨x, hx, hproject⟩ := (Option.any_eq_true ..).mp h
  exact ⟨x, hx, beq_iff_eq.mp hproject⟩

/-- A server that is configured with a project, and without a pool. -/
def projectServer : Sys :=
  let c := smallConfig 5 0
  bootSys (smallWorld []) { c with incus := { c.incus with project := "demo" } }

theorem projectServer_initial : Initial projectServer := bootSys_initial _ _

theorem projectServer_wellFormed : WellFormed projectServer.world :=
  ⟨fun _ _ h => absurd h List.not_mem_nil, fun _ _ h => absurd h List.not_mem_nil,
    fun _ _ _ _ h => absurd h List.not_mem_nil, fun _ h => absurd h List.not_mem_nil⟩

/-- The instances, by project and name. -/
def sites (s : Sys) : List (String × String) := s.world.instances.map fun i => (i.project, i.name)

/-- A request that comes when the startup goroutine is done: its instance is in the project. -/
theorem created_in_project_small : ∃ s, Housed "demo" s ∧ sites s = [("demo", "tryit-u0")] := by
  obtain ⟨s, hrun, hs⟩ := server.run_of_check (patient "demo") of_patient projectServer
    (oks 0 18 ++ act (.request (startRequest "192.0.2.1")) ++ oks 2 57)
    (fun s => sites s == [("demo", "tryit-u0")]) (by decide +kernel)
  exact ⟨s, created_in_project projectServer_initial projectServer_wellFormed rfl hrun,
    beq_iff_eq.mp hs⟩

/-- An instance that a request has made is in no project but "default". -/
def strayed (s : Sys) : Bool :=
  s.threads.any fun th =>
    match th.proc with
    | .restStart _ => th.log.any fun e =>
      match e with
      | ⟨.newRandom, u⟩ => s.world.instances.any fun i => i.name == nameOf u && i.project == "default"
      | _ => false
    | _ => false

theorem of_strayed {s : Sys} (h : strayed s = true) : ∃ t r l u i, Ran s t (.restStart r) l ∧
    ⟨.newRandom, u⟩ ∈ l ∧ i ∈ s.world.instances ∧ i.name = nameOf u ∧ i.project = "default" := by
  obtain ⟨th, hth, h⟩ := List.any_eq_true.mp h
  obtain ⟨t, ht⟩ := List.getElem?_of_mem hth
  split at h
  · rename_i r hp
    obtain ⟨e, he, h⟩ := List.any_eq_true.mp h
    split at h
    · rename_i u
      obtain ⟨i, hi, h⟩ := List.any_eq_true.mp h
      obtain ⟨hname, hproject⟩ := Bool.and_eq_true_iff.mp h
      exact ⟨t, r, th.log, u, i, ⟨th, ht, hp, rfl⟩, he, hi, beq_iff_eq.mp hname,
        beq_iff_eq.mp hproject⟩
    · cases h
  · cases h

/-- A request comes between the connection and `UseProject`: its instance is in "default". -/
theorem created_elsewhere : ¬ ∀ s₀ s project, Initial s₀ → WellFormed s₀.world →
    s₀.world.config.incus.project = project → server.Run (SameProject project) s₀ s →
    Housed project s := by
  intro hall
  obtain ⟨s, hrun, hs⟩ := server.run_of_check (sameProject "demo") of_sameProject projectServer
    (oks 0 4 ++ act (.request (startRequest "192.0.2.1")) ++ oks 1 57 ++ oks 0 14) strayed
    (by decide +kernel)
  have hhoused := hall _ s "demo" projectServer_initial projectServer_wellFormed rfl hrun
  obtain ⟨t, r, l, u, i, hr, hu, hi, hname, hproject⟩ := of_strayed hs
  have hdemo := hhoused.lives t r l u i hr hu hi hname
  rw [hproject] at hdemo
  exact absurd hdemo (by decide)

end IncusDemo
