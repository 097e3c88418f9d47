/-
  IncusDemo.Limits

  The limits on active sessions.  `restStartHandler` counts the active rows,
  and a request it lets in makes a row active much later, in one of two ways.
  Between the two nothing holds a place for the request.  The limits hold for
  as long as the test still passes when a row becomes active; that is so when
  no other request stands between its count and its own row.
-/

import IncusDemo.Handout

namespace IncusDemo

open Go Conc

-- ============================================================================
-- Counting active rows
-- ============================================================================

/-- The number of active rows other than row `id`. -/
def Db.othersActive (db : Db) (id : Nat) : Nat :=
  db.sessions.count fun i s => i != id && s.isActive

/-- The number of active rows from address `ip` other than row `id`. -/
def Db.othersActiveForIP (db : Db) (id : Nat) (ip : String) : Nat :=
  db.sessions.count fun i s => i != id && s.isActiveFor ip

/-- The table respects the limits of `c`. -/
structure WithinLimits (c : ServerConfig) (db : Db) : Prop where
  total : (db.activeCount : Int) ≤ c.server.limits.total
  perIP : c.server.limits.ip ≠ 0 → ∀ ip, (db.activeCountForIP ip : Int) ≤ c.server.limits.ip

/-- The limits of `c` leave room for a session from `ip` in row `id`. -/
structure Room (c : ServerConfig) (db : Db) (id : Nat) (ip : String) : Prop where
  total : (db.othersActive id : Int) < c.server.limits.total
  perIP : c.server.limits.ip ≠ 0 → (db.othersActiveForIP id ip : Int) < c.server.limits.ip

/-- The step makes row `id` active for a client at `ip`. -/
inductive Activates (s : Sys) : Label → Nat → String → Prop
  | inserts {t : Nat} {row : Session} {id : Nat} (hstatus : row.status = 0) :
    Activates s (.thread t ⟨.query (.dbNew row), .ok id⟩) id row.requestIP
  | claims {t : Nat} {expiry date : Int} {ip terms : String} {id : Nat} {a : Session}
      (ha : s.world.db.Row id a) :
    Activates s (.thread t ⟨.query (.updateAllocated expiry date ip terms id), .ok ()⟩) id ip

section Counts

variable {w w' : World} {t : Nat} {e : Event}

/-- Only an event that makes a row active raises a count of active rows. -/
theorem count_le_of_not_activates {q : Session → Bool} (hq : ∀ s, q s = true → s.status = 0)
    (hd : Did w t e w') (he : activates e = false) :
    w'.db.sessions.count (fun _ s => q s) ≤ w.db.sessions.count fun _ s => q s := by
  rw [hd.db]
  obtain ⟨o, r⟩ := e
  cases o with
  | query qu =>
    cases r with
    | error err => exact le_refl _
    | ok a =>
      cases qu with
      | dbNew row =>
        have hrow : q row = false := by
          by_contra h
          rw [Bool.not_eq_false] at h
          simp [activates, hq row h] at he
        simp only [dbAfter, Db.run, Sql.Table.count_insert, hrow, Bool.false_eq_true, if_false]
        exact le_refl _
      | dbDelete i => exact Sql.Table.count_delete_le w.db.sessions (fun j _ => j = i) fun _ s => q s
      | dbExpire i =>
        refine Sql.Table.count_update_le (t := w.db.sessions) (p := fun j _ => j = i)
          (q := fun _ s => q s) (f := Session.expired) fun _ a _ _ h => ?_
        cases hq a.expired h
      | updateAllocated => cases he
      | _ => exact le_refl _
  | _ => exact le_refl _

/-- The count after a row has become active. -/
theorem count_of_activates {s s' : Sys} {id : Nat} {ip : String} {q : Session → Bool}
    (hd : Did s.world t e s'.world) (h : Activates s (.thread t e) id ip) :
    ∃ b : Session, b.status = 0 ∧ b.requestIP = ip ∧
      s'.world.db.sessions.count (fun _ s => q s) =
        s.world.db.sessions.count (fun i s => i != id && q s) + if q b then 1 else 0 := by
  rw [hd.db]
  cases h with
  | inserts hstatus =>
    rename_i row
    refine ⟨row, hstatus, rfl, ?_⟩
    have hid : id = s.world.db.sessions.nextId := hd.truthful
    rw [hid, Sql.Table.count_ne_nextId]
    exact Sql.Table.count_insert _ _ _
  | claims ha =>
    rename_i expiry date terms a
    exact ⟨a.claim expiry date ip terms, rfl, rfl, Sql.Table.count_update_row ha⟩

/-- A claim of a row that is gone changes no count. -/
theorem count_of_claims_missing {q : Session → Bool} {x d : Int} {ip y : String} {id : Nat}
    (hd : Did w t ⟨.query (.updateAllocated x d ip y id), .ok ()⟩ w')
    (hmissing : ∀ a, ¬ w.db.Row id a) :
    w'.db.sessions.count (fun _ s => q s) = w.db.sessions.count fun _ s => q s := by
  rw [hd.db]
  exact congrArg (List.countP _) (Sql.Table.update_missing hmissing)

theorem status_of_isActive (s : Session) (h : s.isActive = true) : s.status = 0 := by
  simpa [Session.isActive] using h

theorem status_of_isActiveFor (ip : String) (s : Session) (h : s.isActiveFor ip = true) :
    s.status = 0 := by
  simp only [Session.isActiveFor, Bool.and_eq_true, beq_iff_eq] at h
  exact h.1

theorem othersActive_le (db : Db) (id : Nat) : db.othersActive id ≤ db.activeCount :=
  List.countP_mono_left fun _ _ h => (Bool.and_eq_true_iff.mp h).2

theorem othersActiveForIP_le (db : Db) (id : Nat) (ip : String) :
    db.othersActiveForIP id ip ≤ db.activeCountForIP ip :=
  List.countP_mono_left fun _ _ h => (Bool.and_eq_true_iff.mp h).2

/-- A step either makes a row active or raises no count of active rows. -/
theorem activates_or_counts_le {s s' : Sys} (hd : Did s.world t e s'.world) :
    (∃ id ip, Activates s (.thread t e) id ip) ∨
    (s'.world.db.activeCount ≤ s.world.db.activeCount ∧
      ∀ ip, s'.world.db.activeCountForIP ip ≤ s.world.db.activeCountForIP ip) := by
  by_cases he : activates e = true
  · obtain ⟨o, r⟩ := e
    unfold activates at he
    split at he
    · rename_i row id heq
      cases heq
      exact .inl ⟨id, _, .inserts (beq_iff_eq.mp he)⟩
    · rename_i x d ip y id a heq
      cases heq
      by_cases hrow : ∃ b, s.world.db.Row id b
      · obtain ⟨b, hb⟩ := hrow
        exact .inl ⟨id, ip, .claims hb⟩
      · have hmissing : ∀ b, ¬ s.world.db.Row id b := fun b hb => hrow ⟨b, hb⟩
        exact .inr ⟨le_of_eq (count_of_claims_missing hd hmissing),
          fun ip => le_of_eq (count_of_claims_missing hd hmissing)⟩
    · cases he
  · rw [Bool.not_eq_true] at he
    exact .inr ⟨count_le_of_not_activates status_of_isActive hd he,
      fun ip => count_le_of_not_activates (status_of_isActiveFor ip) hd he⟩

end Counts

-- ============================================================================
-- The exact condition
-- ============================================================================

/-- The configuration stays `c`. -/
def Fixed (c : ServerConfig) (_ : Sys) (l : Label) : Prop :=
  ∀ c', l = .env (.reload c') ∨ l = .env (.restart c') → c' = c

/-- When a row becomes active, the limits still leave room for it. -/
def StillAdmitted (c : ServerConfig) (s : Sys) (l : Label) : Prop :=
  ∀ id ip, Activates s l id ip → Room c s.world.db id ip

/-- Within the limits, a step stays within them exactly when it makes no row active for which
    there is no room. -/
theorem withinLimits_step {c : ServerConfig} {s s' : Sys} {l : Label} (hsound : Sound s)
    (h : WithinLimits c s.world.db) (hs : server.Step s l s') :
    WithinLimits c s'.world.db ↔ StillAdmitted c s l := by
  cases l with
  | env e =>
    rw [(env_step hs).db]
    exact ⟨fun _ _ _ ha => (nomatch ha), fun _ => h⟩
  | thread t e =>
    obtain ⟨p, l, hm⟩ := thread_step hsound.follow hs
    have hiff : ∀ id ip, Activates s (.thread t e) id ip →
        (WithinLimits c s'.world.db ↔ Room c s.world.db id ip) := by
      intro id ip ha
      have htotal : s'.world.db.activeCount = s.world.db.othersActive id + 1 := by
        obtain ⟨b, hb, -, hcount⟩ := count_of_activates (q := Session.isActive) hm.did ha
        rwa [if_pos (by simp [Session.isActive, hb])] at hcount
      have hip : ∀ ip', s'.world.db.activeCountForIP ip' =
          s.world.db.othersActiveForIP id ip' + if ip = ip' then 1 else 0 := by
        intro ip'
        obtain ⟨b, hb, hbip, hcount⟩ := count_of_activates (q := Session.isActiveFor ip') hm.did ha
        simp only [Session.isActiveFor, hb, hbip, beq_self_eq_true, Bool.true_and, beq_iff_eq] at hcount
        exact hcount
      constructor
      · intro h'
        have h₁ := h'.total
        rw [htotal] at h₁
        refine ⟨by omega, fun hne => ?_⟩
        have h₂ := h'.perIP hne ip
        rw [hip ip, if_pos rfl] at h₂
        omega
      · intro hroom
        have h₁ := hroom.total
        refine ⟨by omega, fun hne ip' => ?_⟩
        rw [hip ip']
        split
        · rename_i heq
          subst heq
          have h₂ := hroom.perIP hne
          omega
        · have h₂ := h.perIP hne ip'
          have h₃ := othersActiveForIP_le s.world.db id ip'
          omega
    constructor
    · exact fun h' id ip ha => (hiff id ip ha).mp h'
    · intro hroom
      rcases activates_or_counts_le hm.did with ⟨id, ip, ha⟩ | ⟨htotal, hip⟩
      · exact (hiff id ip ha).mpr (hroom id ip ha)
      · have h₁ := h.total
        refine ⟨by omega, fun hne ip => ?_⟩
        have h₂ := h.perIP hne ip
        have h₃ := hip ip
        omega

/-- A run keeps within the limits all the way exactly when every row that becomes active still
    has room. -/
theorem withinLimits_run {c : ServerConfig} {s₀ s : Sys} (h0 : Initial s₀)
    (hlimits : WithinLimits c s₀.world.db) :
    server.Run (fun s l => Fixed c s l ∧ StillAdmitted c s l) s₀ s ↔
      server.Run (fun s l => Fixed c s l ∧ WithinLimits c s.world.db) s₀ s ∧
        WithinLimits c s.world.db := by
  refine Machine.run_iff_of_step (G := fun s : Sys => WithinLimits c s.world.db) hlimits
    (fun _ _ h => h.2) ?_ ?_
  · intro s₁ l s₂ hrun hlim hs h
    exact ⟨⟨h.1, hlim⟩, (withinLimits_step (h0.sound.run hrun) hlim hs).mpr h.2⟩
  · intro s₁ l s₂ hrun h hs hnext
    exact ⟨h.1, (withinLimits_step (h0.sound.run hrun) h.2 hs).mp hnext⟩

-- ============================================================================
-- Requests that do not overlap
-- ============================================================================

/-- The event reads a number of active rows. -/
def counts : Event → Bool
  | ⟨.query .dbActiveCount, .ok _⟩ => true
  | ⟨.query (.dbActiveCountForIP _), .ok _⟩ => true
  | _ => false

/-- The request has had a count and has neither made a row active nor come to its end. -/
def Counting (s : Sys) (t : Nat) (l : Log) : Prop :=
  (∃ p, Busy s t p l) ∧ Unactivated l ∧ ∃ e ∈ l, counts e = true

/-- When a request makes a row active, no other request stands between its count and its row. -/
def Serial (s : Sys) (l : Label) : Prop :=
  ∀ t e, l = .thread t e → activates e = true → ∀ u m, u ≠ t → ¬ Counting s u m

/-- The counts that requests go by are not too low, and the configurations they have read are
    `c`. -/
structure Counted (c : ServerConfig) (s : Sys) : Prop where
  config : s.world.config = c
  read : ∀ t p l c', Busy s t p l → ⟨.config, c'⟩ ∈ l → c' = c
  total : ∀ t p l, Busy s t p l → Unactivated l → ∀ n, ⟨.query .dbActiveCount, .ok n⟩ ∈ l →
    (s.world.db.activeCount : Int) ≤ n
  perIP : ∀ t p l, Busy s t p l → Unactivated l → ∀ ip n,
    ⟨.query (.dbActiveCountForIP ip), .ok n⟩ ∈ l → (s.world.db.activeCountForIP ip : Int) ≤ n

theorem Counted.envStep {c : ServerConfig} {s s' : Sys} {e : Env} (h : Counted c s)
    (hfixed : Fixed c s (.env e)) (hm : EnvStep s e s') : Counted c s' where
  config := by
    rcases hm.config with heq | ⟨c', he, heq⟩
    · rw [heq, h.config]
    · rw [heq]
      exact hfixed c' (he.imp (congrArg _) (congrArg _))
  read := by
    intro u q m c' hb hr
    rcases hm.busy_cases u q m hb with hb | rfl
    · exact h.read u q m c' hb hr
    · cases hr
  total := by
    intro u q m hb hun n hn
    rw [hm.db]
    rcases hm.busy_cases u q m hb with hb | rfl
    · exact h.total u q m hb hun n hn
    · cases hn
  perIP := by
    intro u q m hb hun ip n hn
    rw [hm.db]
    rcases hm.busy_cases u q m hb with hb | rfl
    · exact h.perIP u q m hb hun ip n hn
    · cases hn

/-- The step of another thread that leaves this one counting raises no count. -/
theorem counts_le_of_serial {s s' : Sys} {t u : Nat} {p q : Proc} {l m : Log} {e : Event}
    (hserial : Serial s (.thread t e)) (hm : ThreadStep s t p l e s') (hu : u ≠ t)
    (hb : Busy s u q m) (hun : Unactivated m) (hn : ∃ e ∈ m, counts e = true) :
    s'.world.db.activeCount ≤ s.world.db.activeCount ∧
      ∀ ip, s'.world.db.activeCountForIP ip ≤ s.world.db.activeCountForIP ip := by
  have he : activates e = false := by
    by_contra h
    rw [Bool.not_eq_false] at h
    exact hserial t e rfl h u m hu ⟨⟨q, hb⟩, hun, hn⟩
  exact ⟨count_le_of_not_activates status_of_isActive hm.did he,
    fun ip => count_le_of_not_activates (status_of_isActiveFor ip) hm.did he⟩

theorem Counted.threadStep {c : ServerConfig} {s s' : Sys} {t : Nat} {p : Proc} {l : Log}
    {e : Event} (h : Counted c s) (hserial : Serial s (.thread t e))
    (hm : ThreadStep s t p l e s') : Counted c s' where
  config := hm.did.config.trans h.config
  read := by
    intro u q m c' hb hr
    rcases hm.busy_cases u q m hb with ⟨-, -, rfl⟩ | ⟨-, hb⟩ | ⟨-, rfl, -⟩
    · rcases List.mem_cons.mp hr with rfl | hr
      · exact (show c' = s.world.config from hm.did.truthful).trans h.config
      · exact h.read t p l c' hm.busy hr
    · exact h.read u q m c' hb hr
    · cases hr
  total := by
    intro u q m hb hun n hn
    rcases hm.busy_cases u q m hb with ⟨-, -, rfl⟩ | ⟨hu, hb⟩ | ⟨-, rfl, -⟩
    · obtain ⟨he, hun⟩ := List.forall_mem_cons.mp hun
      have hle := count_le_of_not_activates status_of_isActive hm.did he
      apply le_trans (Int.ofNat_le.mpr hle)
      rcases List.mem_cons.mp hn with rfl | hn
      · exact le_of_eq (show n = s.world.db.activeCount from hm.did.truthful).symm
      · exact h.total t p l hm.busy hun n hn
    · have hle := (counts_le_of_serial hserial hm hu hb hun ⟨_, hn, rfl⟩).1
      exact le_trans (Int.ofNat_le.mpr hle) (h.total u q m hb hun n hn)
    · cases hn
  perIP := by
    intro u q m hb hun ip n hn
    rcases hm.busy_cases u q m hb with ⟨-, -, rfl⟩ | ⟨hu, hb⟩ | ⟨-, rfl, -⟩
    · obtain ⟨he, hun⟩ := List.forall_mem_cons.mp hun
      have hle := count_le_of_not_activates (status_of_isActiveFor ip) hm.did he
      apply le_trans (Int.ofNat_le.mpr hle)
      rcases List.mem_cons.mp hn with rfl | hn
      · exact le_of_eq (show n = s.world.db.activeCountForIP ip from hm.did.truthful).symm
      · exact h.perIP t p l hm.busy hun ip n hn
    · have hle := (counts_le_of_serial hserial hm hu hb hun ⟨_, hn, rfl⟩).2 ip
      exact le_trans (Int.ofNat_le.mpr hle) (h.perIP u q m hb hun ip n hn)
    · cases hn

/-- A thread that makes a row active has been admitted and has made none active before. -/
theorem admitted_of_activates {s s' : Sys} {t : Nat} {p : Proc} {l : Log} {e : Event} {id : Nat}
    {ip : String} (hm : ThreadStep s t p l e s') (ha : Activates s (.thread t e) id ip) :
    Admitted l ip ∧ Unactivated l := by
  cases ha with
  | inserts hstatus =>
    rename_i row
    have hmay : MayInsert p l row := hm.allowed
    rcases hmay.kind with ⟨-, -, -, hadm, hun, -⟩ | ⟨htwo, -⟩
    · exact ⟨hadm, hun⟩
    · rw [hstatus] at htwo
      cases htwo
  | claims _ =>
    have hmay : MayClaim p l _ ip id := hm.allowed
    exact ⟨hmay.admitted, hmay.unactivated⟩

/-- A request that goes by counts that are not too low finds room. -/
theorem Counted.stillAdmitted {c : ServerConfig} {s s' : Sys} {t : Nat} {p : Proc} {l : Log}
    {e : Event} (h : Counted c s) (hm : ThreadStep s t p l e s') :
    StillAdmitted c s (.thread t e) := by
  intro id ip ha
  obtain ⟨⟨⟨n, c₁, hn, hc₁, hlt⟩, c₂, hc₂, hip⟩, hun⟩ := admitted_of_activates hm ha
  cases h.read t p l c₁ hm.busy hc₁
  cases h.read t p l c₂ hm.busy hc₂
  constructor
  · have h₁ := h.total t p l hm.busy hun n hn
    have h₂ := othersActive_le s.world.db id
    exact lt_of_le_of_lt (le_trans (Int.ofNat_le.mpr h₂) h₁) hlt
  · intro hne
    obtain ⟨m, hm', hlt⟩ := hip.resolve_left hne
    have h₁ := h.perIP t p l hm.busy hun ip m hm'
    have h₂ := othersActiveForIP_le s.world.db id ip
    exact lt_of_le_of_lt (le_trans (Int.ofNat_le.mpr h₂) h₁) hlt

theorem Initial.counted {s : Sys} (h : Initial s) : Counted s.world.config s where
  config := rfl
  read := fun _ _ _ _ hb hr => by rw [(h.ran hb.runs.ran).2] at hr; cases hr
  total := fun _ _ _ hb _ _ hr => by rw [(h.ran hb.runs.ran).2] at hr; cases hr
  perIP := fun _ _ _ hb _ _ _ hr => by rw [(h.ran hb.runs.ran).2] at hr; cases hr

theorem withinLimits_serial {c : ServerConfig} {s₀ s : Sys} (h0 : Initial s₀)
    (hc : s₀.world.config = c) (hlimits : WithinLimits c s₀.world.db)
    (hrun : server.Run (fun s l => Fixed c s l ∧ Serial s l) s₀ s) : WithinLimits c s.world.db := by
  subst hc
  have hinv := Machine.Run.invariant
    (I := fun s => Sound s ∧ Counted s₀.world.config s ∧ WithinLimits s₀.world.config s.world.db)
    ⟨h0.sound, h0.counted, hlimits⟩ ?_ hrun
  · exact hinv.2.2
  rintro s l s' ⟨hsound, hcounted, hlim⟩ ⟨hfixed, hserial⟩ hs
  refine ⟨hsound.step hs, ?_⟩
  cases l with
  | env e =>
    have hm := env_step hs
    refine ⟨hcounted.envStep hfixed hm, ?_⟩
    rw [hm.db]
    exact hlim
  | thread t e =>
    obtain ⟨p, l, hm⟩ := thread_step hsound.follow hs
    exact ⟨hcounted.threadStep hserial hm,
      (withinLimits_step hsound hlim hs).mpr (hcounted.stillAdmitted hm)⟩

/-- The limits hold in every state of a run exactly when, at every statement that makes a row
    active, the table still leaves room for it; and they hold when no request makes its row
    active while another stands between its count and its own row. -/
theorem limits_hold {c : ServerConfig} {s₀ s : Sys} (h0 : Initial s₀) (hc : s₀.world.config = c)
    (hlimits : WithinLimits c s₀.world.db) :
    (server.Run (fun s l => Fixed c s l ∧ StillAdmitted c s l) s₀ s ↔
      server.Run (fun s l => Fixed c s l ∧ WithinLimits c s.world.db) s₀ s ∧
        WithinLimits c s.world.db) ∧
    (server.Run (fun s l => Fixed c s l ∧ Serial s l) s₀ s → WithinLimits c s.world.db) :=
  ⟨withinLimits_run h0 hlimits, withinLimits_serial h0 hc hlimits⟩

/-- The test for `Serial`. -/
def serial (s : Sys) : Label → Bool
  | .thread t e =>
    !activates e || s.threads.zipIdx.all fun th =>
      th.2 == t || !th.1.alive || th.1.log.any activates || !th.1.log.any counts
  | .env (.reload _) | .env (.restart _) => false
  | .env _ => true

theorem of_serial (c : ServerConfig) (s : Sys) (l : Label) (h : serial s l = true) :
    Fixed c s l ∧ Serial s l := by
  constructor
  · rintro c' (rfl | rfl) <;> cases h
  · rintro t e rfl he u m hu ⟨⟨p, th, hth, halive, -, rfl, rfl⟩, hun, e', he', hcount⟩
    simp only [serial, he, Bool.not_true, Bool.false_or] at h
    have h := List.all_eq_true.mp h (th, u) (List.mk_mem_zipIdx_iff_getElem?.mpr hth)
    have hany : th.log.any activates = false := List.any_eq_false.mpr fun e he => by simp [hun e he]
    have hcounts : th.log.any counts = true := List.any_eq_true.mpr ⟨e', he', hcount⟩
    simp [hu, halive, hany, hcounts] at h

/-- The waiting rows count against no limit. -/
theorem twoRows_withinLimits (total : Int) (h : 0 ≤ total) :
    WithinLimits (smallConfig total 2) (twoRows total).world.db := ⟨h, fun h => absurd rfl h⟩

/-- Room for two sessions, and for one from each address. -/
def oneEach : ServerConfig :=
  { smallConfig 2 2 with server := { (smallConfig 2 2).server with limits := ⟨2, 1⟩ } }

/-- A server with two waiting rows. -/
def oneEachServer : Sys := bootSys (smallWorld [("a", "10.0.0.1"), ("b", "10.0.0.2")]) oneEach

theorem oneEachServer_withinLimits : WithinLimits oneEach oneEachServer.world.db := by
  refine ⟨by decide, fun _ ip => ?_⟩
  have hnone : oneEachServer.world.db.activeCountForIP ip = 0 := List.countP_eq_zero.mpr (by
    rintro r hr
    rcases List.mem_cons.mp hr with rfl | hr
    · exact Bool.false_ne_true
    · cases List.mem_singleton.mp hr
      exact Bool.false_ne_true)
  rw [hnone]
  decide

/-- Requests from two addresses fill the server, each with the session that its address may
    have. -/
theorem limits_hold_small : ∃ s : Sys, WithinLimits oneEach s.world.db ∧
    s.world.db.activeCount = 2 ∧ s.world.db.activeCountForIP "192.0.2.1" = 1 := by
  obtain ⟨s, hrun, hs⟩ := server.run_of_check serial (of_serial oneEach) oneEachServer
    (twoRequests ++ oks 1 19 ++ oks 2 19)
    (fun s => s.world.db.activeCount == 2 && s.world.db.activeCountForIP "192.0.2.1" == 1)
    (by decide +kernel)
  have hsmall := limits_hold (s := s) (bootSys_initial _ _) rfl oneEachServer_withinLimits
  obtain ⟨htotal, hip⟩ := Bool.and_eq_true_iff.mp hs
  exact ⟨s, hsmall.2 hrun, beq_iff_eq.mp htotal, beq_iff_eq.mp hip⟩

/-- The test for `Fixed`: the configuration is not touched. -/
def untouched (_ : Sys) : Label → Bool
  | .env (.reload _) | .env (.restart _) => false
  | _ => true

theorem of_untouched (c : ServerConfig) (s : Sys) (l : Label) (h : untouched s l = true) :
    Fixed c s l := by
  rintro c' (rfl | rfl) <;> cases h

/-- A server with room for one session gives two when both requests have their count first. -/
theorem limits_exceeded : ¬ ∀ c s₀ s, 0 ≤ c.server.limits.total → Initial s₀ → s₀.world.config = c →
    WithinLimits c s₀.world.db → server.Run (Fixed c) s₀ s → WithinLimits c s.world.db := by
  intro hall
  obtain ⟨s, hrun, hs⟩ := server.run_of_check untouched (of_untouched (smallConfig 1 2)) (twoRows 1)
    (twoRequests ++ oks 1 16 ++ oks 2 16 ++ oks 1 3 ++ oks 2 3)
    (fun s => s.world.db.activeCount == 2) (by decide +kernel)
  have h := (hall _ _ s (by decide) (twoRows_initial 1) rfl (twoRows_withinLimits 1 (by decide))
    hrun).total
  rw [beq_iff_eq.mp hs] at h
  exact absurd h (by decide)

end IncusDemo
