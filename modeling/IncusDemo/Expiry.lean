/-
  IncusDemo.Expiry

  Every session that was handed out has an end that is scheduled, and not
  before the expiry its client was told.  The statement is about runs in which
  the clock does not go backwards, a process keeps its configuration, no
  statement on the database fails, and calls of `dbGetAllocated` do not overlap.

  `Exclusive` is what the last assumption gives: a row that a request has
  picked has not begun.  So a row begins once, its expiry never changes after
  that (`Timed`), and a cleanup that is armed is pending, is running, or has
  ended the session (`Kept`).
-/

import IncusDemo.StartupLoop
import IncusDemo.StartupSafety

namespace IncusDemo

open Go Conc

/-- The assumptions on a step. -/
structure Orderly (s : Sys) (l : Label) : Prop where
  /-- The wall clock does not go backwards. -/
  forward : ∀ now, l = .env (.tick now) → s.world.clock ≤ now
  /-- A process keeps the configuration it was started with. -/
  constant : ∀ c, l ≠ .env (.reload c)
  /-- No statement on the database fails. -/
  succeeds : ∀ t q err, l ≠ .thread t ⟨.query q, .error err⟩
  /-- No call of `dbGetAllocated` runs its SELECT between the SELECT and the UPDATE of another. -/
  apart : ∀ t r, l = .thread t ⟨.query .selectAllocated, r⟩ → ∀ u q m id row, u ≠ t →
    Runs s u q m → claim m ≠ .picked id row

/-- The session that an event makes active, and the expiry it stores. -/
def activation : Event → Option (Nat × Int)
  | ⟨.query (.updateAllocated expiry _ _ _ id), .ok _⟩ => some (id, expiry)
  | ⟨.query (.dbNew row), .ok id⟩ => if row.status = 0 then some (id, row.instanceExpiry) else none
  | _ => none

/-- Some thread has made session `id` active, to expire at `x`. -/
def Activated (s : Sys) (id : Nat) (x : Int) : Prop :=
  ∃ t p l a, Ran s t p l ∧ a ∈ l ∧ activation a = some (id, x)

/-- Nothing shows that session `id` has begun. -/
structure NotBegun (s : Sys) (id : Nat) : Prop where
  events : ∀ u q m e, Ran s u q m → e ∈ m → ¬ Begins e id
  timers : ∀ tm ∈ s.world.timers, ∀ name, tm.callback ≠ .cleanup id name
  callbacks : ∀ u name m, ¬ Ran s u (.cleanup id name) m

-- ============================================================================
-- Activations
-- ============================================================================

section Activations

variable {p : Proc} {l : Log} {e : Event} {id : Nat} {x : Int}

theorem begins_of_activation (h : activation e = some (id, x)) : Begins e id := by
  unfold activation at h
  split at h
  · cases h
    rfl
  · split at h
    · rename_i hstatus
      cases h
      exact ⟨rfl, hstatus⟩
    · cases h
  · cases h

theorem activates_of_activation (h : activation e = some (id, x)) : activates e = true := by
  unfold activation at h
  split at h
  · rfl
  · split at h
    · rename_i hstatus
      exact beq_iff_eq.mpr hstatus
    · cases h
  · cases h

/-- A thread that makes a row active has not done so before. -/
theorem unactivated_of_activation (hop : Allowed p l e.op) (h : activation e = some (id, x)) :
    Unactivated l := by
  unfold activation at h
  split at h
  · have hmay : MayClaim p l _ _ _ := hop
    exact hmay.unactivated
  · rename_i row i
    split at h
    · rename_i hstatus
      have hmay : MayInsert p l row := hop
      rcases hmay.kind with hkind | hkind
      · exact hkind.2.2.2.2.1
      · rw [hstatus] at hkind
        cases hkind.1
    · cases h
  · cases h

/-- A thread makes one row active, once. -/
theorem activation_unique (hl : Machine.LogAllowed Allowed p l) {a b : Event} (ha : a ∈ l)
    (hb : b ∈ l) {i j : Nat} {y : Int} (ha' : activation a = some (i, x))
    (hb' : activation b = some (j, y)) : i = j ∧ x = y := by
  induction l with
  | nil => cases ha
  | cons e l ih =>
    have hfirst : ∀ {c : Event} {k : Nat} {z : Int}, activation e = some (k, z) → c ∈ l →
        activates c = true → False := by
      intro c k z he hc hact
      rw [unactivated_of_activation (hl e l List.suffix_rfl) he c hc] at hact
      cases hact
    rcases List.mem_cons.mp ha with hae | ha
    · rcases List.mem_cons.mp hb with hbe | hb
      · rw [hae, ← hbe, hb'] at ha'
        cases ha'
        exact ⟨rfl, rfl⟩
      · exact (hfirst (hae ▸ ha') hb (activates_of_activation hb')).elim
    · rcases List.mem_cons.mp hb with hbe | hb
      · exact (hfirst (hbe ▸ hb') ha (activates_of_activation ha')).elim
      · exact ih hl.tail ha hb

/-- The expiry that a session gets is what the clock and the configuration gave. -/
theorem sessionExpiry_of_activation (hl : Machine.LogAllowed Allowed p l) (he : e ∈ l)
    (h : activation e = some (id, x)) : SessionExpiry l x := by
  obtain ⟨l', hs, hop⟩ := hl.mem he
  have hmono : SessionExpiry l' x → SessionExpiry l x := by
    rintro ⟨t, c, ht, hc, hx⟩
    have hsub := (List.suffix_cons e l').trans hs |>.subset
    exact ⟨t, c, hsub ht, hsub hc, hx⟩
  apply hmono
  unfold activation at h
  split at h
  · cases h
    have hmay : MayClaim p l' x _ _ := hop
    exact hmay.expiry
  · rename_i row i
    split at h
    · rename_i hstatus
      cases h
      have hmay : MayInsert p l' row := hop
      rcases hmay.kind with hkind | hkind
      · exact hkind.2.2.1
      · rw [hstatus] at hkind
        cases hkind.1
    · cases h
  · cases h

/-- A request that has started a session has made its row active. -/
theorem activation_of_hasSession {ip name : String} (hl : Machine.LogAllowed Allowed p l)
    (hp : StartFrom p ip) (h : HasSession l id name x) :
    ∃ a ∈ l, activation a = some (id, x) := by
  rcases h with ⟨row, hc, -⟩ | ⟨row, ha, -, hx⟩
  · obtain ⟨-, date, ip', terms, hu, -⟩ := mem_of_claimed hl hc
    exact ⟨_, hu, rfl⟩
  · have hmem := mem_of_recorded ha
    refine ⟨_, hmem, ?_⟩
    rw [activation, if_pos (recorded_active hl hp hmem), hx]

end Activations

-- ============================================================================
-- Claims do not overlap
-- ============================================================================

/-- A row that a request has picked has not begun, and no other request has picked one. -/
structure Exclusive (s : Sys) : Prop where
  alone : ∀ t u p q l m id id' row row', Runs s t p l → Runs s u q m →
    claim l = .picked id row → claim m = .picked id' row' → t = u
  waiting : ∀ t p l id row, Runs s t p l → claim l = .picked id row →
    ∀ a, s.world.db.Row id a → a.status = 2
  fresh : ∀ t p l id row, Runs s t p l → claim l = .picked id row → NotBegun s id

section Steps

variable {w₀ : World} {s s' : Sys} {t : Nat} {p : Proc} {l : Log} {e : Event}

/-- A thread that has picked a row after its step had picked it before and not claimed it, or
    picks it now. -/
theorem picked_after (hm : ThreadStep s t p l e s') {id : Nat} {row : Session}
    (h : claim (e :: l) = .picked id row) :
    (claim l = .picked id row ∧ ∀ x date ip terms i,
      e ≠ ⟨.query (.updateAllocated x date ip terms i), .ok ()⟩) ∨
    e = ⟨.query .selectAllocated, .ok (some (id, row))⟩ := by
  rcases picked_next h with hl | he
  · refine .inl ⟨hl, ?_⟩
    rintro x date ip terms i rfl
    rw [claim_cons, hl] at h
    cases h
  · exact .inr he

/-- The row that the SELECT finds waits, so nothing shows that it has begun. -/
theorem notBegun_of_selected (hstarted : Started s) {id : Nat} {row : Session}
    (h : some (id, row) = s.world.db.selectAllocated) :
    s.world.db.Row id row ∧ row.status = 2 ∧ NotBegun s id := by
  obtain ⟨hrow, hstatus⟩ := Sql.Table.mem_select.mp (oldest_mem h.symm)
  have hstatus : row.status = 2 := beq_iff_eq.mp hstatus
  have hno : ¬ Begun s.world.db id := by
    intro hb
    have hle := hb.status row hrow
    omega
  exact ⟨hrow, hstatus, fun u q m e hr he hb => hno (hstarted.events u q m e id hr he hb),
    fun tm htm name hcb => hno (hstarted.timers tm htm id name hcb),
    fun u name m hr => hno (hstarted.callbacks u id name m hr)⟩

/-- The row that an event makes active had not begun before. -/
theorem notBegun_of_activation (hstarted : Started s) (h : Exclusive s)
    (hm : ThreadStep s t p l e s') {id : Nat} {x : Int} (he : activation e = some (id, x)) :
    NotBegun s id := by
  unfold activation at he
  split at he
  · rename_i expiry date ip terms i a
    cases he
    have hmay : MayClaim p l x ip id := hm.allowed
    obtain ⟨row, hpick⟩ := hmay.picked
    exact h.fresh t p l id row hm.runs hpick
  · rename_i row i
    split at he
    · cases he
      -- the id of a new row is larger than any id before
      have hid : id = s.world.db.sessions.nextId := hm.did.truthful
      have hno : ¬ Begun s.world.db id := by
        intro hb
        have hle := hb.old
        rw [hid] at hle
        exact Nat.not_succ_le_self _ hle
      exact ⟨fun u q m e hr he hb => hno (hstarted.events u q m e id hr he hb),
        fun tm htm name hcb => hno (hstarted.timers tm htm id name hcb),
        fun u name m hr => hno (hstarted.callbacks u id name m hr)⟩
    · cases he
  · cases he

theorem NotBegun.threadStep (hsound : Sound s) {id : Nat} (h : NotBegun s id)
    (hm : ThreadStep s t p l e s') (he : ¬ Begins e id) : NotBegun s' id where
  events := by
    intro u q m e' hr he'
    rcases hm.mem_cases hr he' with ⟨rfl, -⟩ | ⟨m, hr, he'⟩
    · exact he
    · exact h.events u q m e' hr he'
  timers := by
    intro tm htm name hcb
    rcases hm.timer_cases htm with htm | ⟨d, rfl, -⟩
    · exact h.timers tm htm name hcb
    · have harm : MayArm p l d (.cleanup id name) := hcb ▸ hm.allowed
      cases harm with
      | started ip _ _ expiry c hp hs _ _ _ =>
        obtain ⟨a, ha, hb⟩ := begins_of_hasSession (hsound.allowed hm.runs.ran) hp hs
        exact h.events t p l a hm.runs.ran ha hb
      | restored x rest now hp hl _ _ _ =>
        obtain ⟨es, hes, hx⟩ := listed_of_restoring hl
        exact h.events t p l _ hm.runs.ran hes ⟨x, hx, rfl⟩
  callbacks := by
    intro u name m hr
    rcases hm.ran_cases u _ m hr with ⟨-, rfl, -⟩ | ⟨-, hr⟩ | ⟨-, -, hq⟩
    · exact h.callbacks t name l hm.runs.ran
    · exact h.callbacks u name m hr
    · exact cleanup_not_spawned hm.allowed hq

theorem NotBegun.envStep {e : Env} {id : Nat} (h : NotBegun s id) (hm : EnvStep s e s') :
    NotBegun s' id where
  events := by
    intro u q m e' hr he'
    have hr := hm.ran_of_mem hr he'
    exact h.events u q m e' hr he'
  timers := fun tm htm => h.timers tm (hm.timers tm htm)
  callbacks := by
    intro u name m hr
    rcases hm.ran_cases u _ m hr with hr | ⟨-, hstart⟩
    · exact h.callbacks u name m hr
    · cases hstart with
      | timer tm htm hcb => exact h.timers tm htm name hcb
      | _ => contradiction

/-- A step begins no session that a thread has picked before and still has picked. -/
theorem Exclusive.not_begins (hstarted : Started s) (h : Exclusive s)
    (hm : ThreadStep s t p l e s') {v : Nat} {q : Proc} {m : Log} {id : Nat} {row : Session}
    (hr : Runs s v q m) (hpick : claim m = .picked id row)
    (hclaim : ∀ x date ip terms, e ≠ ⟨.query (.updateAllocated x date ip terms id), .ok ()⟩) :
    ¬ Begins e id := by
  intro hb
  unfold Begins at hb
  split at hb
  · rename_i x date ip terms i a
    subst hb
    exact hclaim x date ip terms rfl
  · rename_i row' i
    obtain ⟨rfl, -⟩ := hb
    have hid : i = s.world.db.sessions.nextId := hm.did.truthful
    have hle := hstarted.picked v q m i row hr.ran (mem_of_picked hpick)
    rw [hid] at hle
    exact Nat.not_succ_le_self _ hle
  · rename_i es
    obtain ⟨x, hx, rfl⟩ := hb
    have hes : es = s.world.db.listStatus 0 := hm.did.truthful
    rw [hes] at hx
    obtain ⟨a, ha, hstatus, -⟩ := row_of_listed hx
    rw [h.waiting v q m x.id row hr hpick a ha] at hstatus
    cases hstatus
  · exact hb

theorem Exclusive.threadStep (hsound : Sound s) (hstarted : Started s) (h : Exclusive s)
    (hC : Orderly s (.thread t e)) (hm : ThreadStep s t p l e s') : Exclusive s' := by
  -- who has picked a row after the step: the same thread as before, or the one that selects now
  have hcases : ∀ v q m id row, Runs s' v q m → claim m = .picked id row →
      (∃ m, Runs s v q m ∧ claim m = .picked id row ∧
        ∀ x date ip terms, e ≠ ⟨.query (.updateAllocated x date ip terms id), .ok ()⟩) ∨
      (v = t ∧ e = ⟨.query .selectAllocated, .ok (some (id, row))⟩) := by
    intro v q m id row hr hpick
    rcases hm.runs_cases v q m hr with ⟨rfl, rfl, rfl⟩ | ⟨hv, hr⟩ | ⟨-, rfl, -⟩
    · rcases picked_after hm hpick with ⟨hpick, hno⟩ | he
      · exact .inl ⟨l, hm.runs, hpick, fun x date ip terms => hno x date ip terms id⟩
      · exact .inr ⟨rfl, he⟩
    · refine .inl ⟨m, hr, hpick, ?_⟩
      rintro x date ip terms rfl
      have hmay : MayClaim p l x ip id := hm.allowed
      obtain ⟨row', hpick'⟩ := hmay.picked
      exact hv (h.alone v t q p m l id id row row' hr hm.runs hpick hpick')
    · cases hpick
  constructor
  · intro v u q r m n id id' row row' hr hr' hpick hpick'
    rcases hcases v q m id row hr hpick with ⟨m, hr, hpick, -⟩ | ⟨rfl, he⟩
    · rcases hcases u r n id' row' hr' hpick' with ⟨n, hr', hpick', -⟩ | ⟨rfl, he⟩
      · exact h.alone v u q r m n id id' row row' hr hr' hpick hpick'
      · by_contra hne
        exact hC.apart u _ (by rw [he]) v q m id row hne hr hpick
    · rcases hcases u r n id' row' hr' hpick' with ⟨n, hr', hpick', -⟩ | ⟨rfl, he'⟩
      · by_contra hne
        exact hC.apart v _ (by rw [he]) u r n id' row' (Ne.symm hne) hr' hpick'
      · rfl
  · intro v q m id row hr hpick a ha
    rcases hcases v q m id row hr hpick with ⟨m, hr, hpick, hno⟩ | ⟨rfl, rfl⟩
    · cases row_after hm.did ha with
      | kept ha => exact h.waiting v q m id row hr hpick a ha
      | inserted _ hid =>
        have hle := hstarted.picked v q m id row hr.ran (mem_of_picked hpick)
        rw [hid] at hle
        exact absurd hle (Nat.not_succ_le_self _)
      | expired b he hb _ =>
        subst he
        have hle := (begun_of_expires hstarted hm.runs.ran hm.allowed).status b hb
        rw [h.waiting v q m id row hr hpick b hb] at hle
        exact absurd hle (by decide)
      | claimed b x date ip terms he _ _ => exact absurd he (hno x date ip terms)
    · obtain ⟨hrow, hstatus, -⟩ := notBegun_of_selected hstarted hm.did.truthful
      have hdb : s'.world.db = s.world.db := hm.did.db
      rw [hdb] at ha
      rw [row_unique ha hrow, hstatus]
  · intro v q m id row hr hpick
    rcases hcases v q m id row hr hpick with ⟨m, hr, hpick, hno⟩ | ⟨rfl, rfl⟩
    · exact (h.fresh v q m id row hr hpick).threadStep hsound hm
        (h.not_begins hstarted hm hr hpick hno)
    · exact (notBegun_of_selected hstarted hm.did.truthful).2.2.threadStep hsound hm
        fun hb => hb

theorem Exclusive.envStep {e : Env} (h : Exclusive s) (hm : EnvStep s e s') : Exclusive s' := by
  constructor
  · intro v u q r m n id id' row row' hr hr' hpick hpick'
    rcases hm.runs_cases v q m hr with hr | ⟨rfl, -⟩
    · rcases hm.runs_cases u r n hr' with hr' | ⟨rfl, -⟩
      · exact h.alone v u q r m n id id' row row' hr hr' hpick hpick'
      · cases hpick'
    · cases hpick
  · intro v q m id row hr hpick
    rw [hm.db]
    rcases hm.runs_cases v q m hr with hr | ⟨rfl, -⟩
    · exact h.waiting v q m id row hr hpick
    · cases hpick
  · intro v q m id row hr hpick
    rcases hm.runs_cases v q m hr with hr | ⟨rfl, -⟩
    · exact (h.fresh v q m id row hr hpick).envStep hm
    · cases hpick

-- ============================================================================
-- Times
-- ============================================================================

/-- The times that are stored agree: an expiry does not change, and no timer is due before it. -/
structure Timed (s : Sys) : Prop where
  configs : ∀ t p l c, Runs s t p l → ⟨.config, c⟩ ∈ l → c = s.world.config
  clocks : ∀ t p l now, Runs s t p l → ⟨.now, now⟩ ∈ l → now ≤ s.world.clock
  rows : ∀ id x a, Activated s id x → s.world.db.Row id a → a.instanceExpiry = x
  single : ∀ id x y, Activated s id x → Activated s id y → x = y
  listed : ∀ t p l es e x, Ran s t p l → ⟨.query .dbActive, .ok es⟩ ∈ l → e ∈ es →
    Activated s e.id x → e.instanceExpiry = x
  due : ∀ tm ∈ s.world.timers, ∀ id name x, tm.callback = .cleanup id name → Activated s id x →
    x * 10 ^ 9 ≤ tm.due
  fired : ∀ t id name l x, Ran s t (.cleanup id name) l → Activated s id x →
    x * 10 ^ 9 ≤ s.world.clock.nano

theorem activated_cases (hm : ThreadStep s t p l e s') {id : Nat} {x : Int}
    (h : Activated s' id x) : Activated s id x ∨ activation e = some (id, x) := by
  obtain ⟨u, q, m, a, hr, ha, hact⟩ := h
  rcases hm.mem_cases hr ha with ⟨rfl, -⟩ | ⟨m, hr, ha⟩
  · exact .inr hact
  · exact .inl ⟨u, q, m, a, hr, ha, hact⟩

theorem activated_cases_env {e : Env} (hm : EnvStep s e s') {id : Nat} {x : Int}
    (h : Activated s' id x) : Activated s id x := by
  obtain ⟨u, q, m, a, hr, ha, hact⟩ := h
  have hr := hm.ran_of_mem hr ha
  exact ⟨u, q, m, a, hr, ha, hact⟩

theorem NotBegun.not_activated {id : Nat} {x : Int} (h : NotBegun s id) : ¬ Activated s id x := by
  rintro ⟨u, q, m, a, hr, ha, hact⟩
  exact h.events u q m a hr ha (begins_of_activation hact)

theorem Activated.begun (hstarted : Started s) {id : Nat} {x : Int} (h : Activated s id x) :
    Begun s.world.db id := by
  obtain ⟨u, q, m, a, hr, ha, hact⟩ := h
  exact hstarted.events u q m a id hr ha (begins_of_activation hact)

/-- The row that an event makes active has the expiry it stores. -/
theorem row_of_activation (hm : ThreadStep s t p l e s') {id : Nat} {x : Int} {a : Session}
    (he : activation e = some (id, x)) (ha : s'.world.db.Row id a) : a.instanceExpiry = x := by
  unfold activation at he
  split at he
  · cases he
    rw [hm.did.db] at ha
    obtain ⟨b, -, hs⟩ := Sql.Table.mem_update.mp ha
    simp only [decide_true, if_true] at hs
    rw [hs]
    rfl
  · rename_i row i
    split at he
    · cases he
      have hid : id = s.world.db.sessions.nextId := hm.did.truthful
      rw [hm.did.db] at ha
      rcases Sql.Table.mem_insert.mp ha with ha | ⟨-, rfl⟩
      · rw [hid] at ha
        exact absurd ha (Sql.Table.nextId_not_mem _ _)
      · rfl
    · cases he
  · cases he

/-- A delay that is counted from a reading of the clock ends no earlier than the second it is
    for. -/
theorem due_of_delay {clock now : Time} {x n d : Int} (hnow : now ≤ clock)
    (hd : parseDuration n = .ok d) (hx : x = now.unix + n) : x * 10 ^ 9 ≤ clock.nano + max d 0 := by
  obtain ⟨-, -, rfl⟩ := parseDuration_ok.mp hd
  have hle : now.nano ≤ clock.nano := Int.ofNat_le.mpr hnow
  have hunix := now.unix_le_nano
  omega

/-- The expiry that a request stores is the end of the delay it arms. -/
theorem Timed.due_of_started (h : Timed s) (hr : Runs s t p l) {x d : Int} {c : ServerConfig}
    (hx : SessionExpiry l x) (hc : ⟨.config, c⟩ ∈ l) (hd : parseDuration c.session.expiry = .ok d) :
    x * 10 ^ 9 ≤ s.world.clock.nano + max d 0 := by
  obtain ⟨now, c', hnow, hc', rfl⟩ := hx
  rw [h.configs t p l c' hr hc', ← h.configs t p l c hr hc]
  apply due_of_delay (h.clocks t p l now hr hnow) hd
  obtain ⟨hlo, hhi, -⟩ := parseDuration_ok.mp hd
  have hpos := now.unix_nonneg
  have hlt := now.unix_lt
  unfold maxSeconds at hlo hhi
  exact int64_of_bounds (by omega) (by omega)

/-- What is left of a session that was stored is the end of the delay that the startup
    goroutine arms. -/
theorem Timed.due_of_restored (h : Timed s) (hr : Runs s t p l) {x : Listed} {now : Time} {d : Int}
    (hrange : -2 ^ 63 ≤ x.instanceExpiry ∧ x.instanceExpiry < 2 ^ 63) (hnow : ⟨.now, now⟩ ∈ l)
    (hd : parseDuration (int64 (x.instanceExpiry - now.unix)) = .ok d) :
    x.instanceExpiry * 10 ^ 9 ≤ s.world.clock.nano + max d 0 := by
  apply due_of_delay (h.clocks t p l now hr hnow) hd
  obtain ⟨-, hhi, -⟩ := parseDuration_ok.mp hd
  have hnonneg := now.unix_nonneg
  have hlt := now.unix_lt
  -- a difference that wraps around comes out far larger than any duration
  have hsame : int64 (x.instanceExpiry - now.unix) = x.instanceExpiry - now.unix := by
    by_cases hlow : -2 ^ 63 ≤ x.instanceExpiry - now.unix
    · exact int64_of_bounds hlow (by omega)
    · rw [int64_of_underflow (by omega) (by omega)] at hhi
      unfold maxSeconds at hhi
      omega
  rw [hsame]
  omega

theorem Timed.due_after (hsound : Sound s) (h : Timed s) (hm : ThreadStep s t p l e s') {d : Int}
    {id : Nat} {name : String} {x : Int} (harm : MayArm p l d (.cleanup id name))
    (hact : Activated s id x) : x * 10 ^ 9 ≤ s.world.clock.nano + max d 0 := by
  cases harm with
  | started ip _ _ expiry c hp hs hexp hc hd =>
    obtain ⟨a, ha, hact'⟩ := activation_of_hasSession (hsound.allowed hm.runs.ran) hp hs
    rw [h.single id x expiry hact ⟨t, p, l, a, hm.runs.ran, ha, hact'⟩]
    exact h.due_of_started hm.runs hexp hc hd
  | restored e rest now hp hl hexam hd _ =>
    obtain ⟨es, hes, he⟩ := listed_of_restoring hl
    rw [← h.listed t p l es e x hm.runs.ran hes he hact]
    obtain ⟨l', -, hs, -⟩ := hexam
    refine h.due_of_restored hm.runs ?_ (hs.subset (List.mem_cons_self ..)) hd
    rw [h.listed t p l es e x hm.runs.ran hes he hact]
    obtain ⟨u, q, m, a, hr, ha, hact⟩ := hact
    obtain ⟨-, -, -, -, rfl⟩ := sessionExpiry_of_activation (hsound.allowed hr) ha hact
    exact int64_range _

theorem Timed.expiry_after (hstarted : Started s) (hexclusive : Exclusive s) (h : Timed s)
    (hm : ThreadStep s t p l e s') {id : Nat} {x : Int} {a : Session} (hact : Activated s' id x)
    (ha : s'.world.db.Row id a) : a.instanceExpiry = x := by
  rcases activated_cases hm hact with hact | he
  · cases row_after hm.did ha with
    | kept ha => exact h.rows id x a hact ha
    | inserted _ hid =>
      have hle := (hact.begun hstarted).old
      rw [hid] at hle
      exact absurd hle (Nat.not_succ_le_self _)
    | expired b _ hb hs =>
      rw [hs]
      exact h.rows id x b hact hb
    | claimed b y date ip terms he _ _ =>
      subst he
      exact absurd hact (notBegun_of_activation hstarted hexclusive hm rfl).not_activated
  · exact row_of_activation hm he ha

theorem Timed.listed_after (hstarted : Started s) (hexclusive : Exclusive s) (h : Timed s)
    (hm : ThreadStep s t p l e s') {u : Nat} {q : Proc} {m : Log} {es : List Listed} {y : Listed}
    {x : Int} (hr : Ran s' u q m) (hes : ⟨.query .dbActive, .ok es⟩ ∈ m) (hy : y ∈ es)
    (hact : Activated s' y.id x) : y.instanceExpiry = x := by
  rcases activated_cases hm hact with hact | he
  · rcases hm.mem_cases hr hes with ⟨rfl, -⟩ | ⟨m, hr, hes⟩
    · have hlist : es = s.world.db.listStatus 0 := hm.did.truthful
      rw [hlist] at hy
      obtain ⟨a, ha, -, hexpiry⟩ := row_of_listed hy
      rw [hexpiry]
      exact h.rows y.id x a hact ha
    · exact h.listed u q m es y x hr hes hy hact
  · -- what is listed has begun, so it is not made active now
    have hno := notBegun_of_activation hstarted hexclusive hm he
    rcases hm.mem_cases hr hes with ⟨rfl, -⟩ | ⟨m, hr, hes⟩
    · cases he
    · exact absurd ⟨y, hy, rfl⟩ (hno.events u q m _ hr hes)

theorem Timed.threadStep (hsound : Sound s) (hstarted : Started s) (hexclusive : Exclusive s)
    (h : Timed s) (hm : ThreadStep s t p l e s') : Timed s' where
  configs := by
    intro u q m c hr hc
    rw [hm.did.config]
    rcases hm.runs_cases u q m hr with ⟨rfl, rfl, rfl⟩ | ⟨-, hr⟩ | ⟨-, rfl, -⟩
    · rcases List.mem_cons.mp hc with rfl | hc
      · exact hm.did.truthful
      · exact h.configs u q l c hm.runs hc
    · exact h.configs u q m c hr hc
    · cases hc
  clocks := by
    intro u q m now hr hnow
    rw [hm.did.clock]
    rcases hm.runs_cases u q m hr with ⟨rfl, rfl, rfl⟩ | ⟨-, hr⟩ | ⟨-, rfl, -⟩
    · rcases List.mem_cons.mp hnow with rfl | hnow
      · have hclock : now = s.world.clock := hm.did.truthful
        exact hclock ▸ Nat.le_refl _
      · exact h.clocks u q l now hm.runs hnow
    · exact h.clocks u q m now hr hnow
    · cases hnow
  rows := fun id x a hact ha => h.expiry_after hstarted hexclusive hm hact ha
  single := by
    intro id x y hx hy
    rcases activated_cases hm hx with hx | hex
    · rcases activated_cases hm hy with hy | hey
      · exact h.single id x y hx hy
      · exact absurd hx (notBegun_of_activation hstarted hexclusive hm hey).not_activated
    · rcases activated_cases hm hy with hy | hey
      · exact absurd hy (notBegun_of_activation hstarted hexclusive hm hex).not_activated
      · rw [hex] at hey
        cases hey
        rfl
  listed := fun u q m es y x hr hes hy hact =>
    h.listed_after hstarted hexclusive hm hr hes hy hact
  due := by
    intro tm htm id name x hcb hact
    have hold : tm ∈ s.world.timers → x * 10 ^ 9 ≤ tm.due := by
      intro htm
      rcases activated_cases hm hact with hact | he
      · exact h.due tm htm id name x hcb hact
      · exact absurd hcb
          ((notBegun_of_activation hstarted hexclusive hm he).timers tm htm name)
    rcases hm.timer_cases htm with htm | ⟨d, rfl, hdue⟩
    · exact hold htm
    · have harm : MayArm p l d (.cleanup id name) := hcb ▸ hm.allowed
      rw [hdue]
      rcases activated_cases hm hact with hact | he
      · exact h.due_after hsound hm harm hact
      · cases he
  fired := by
    intro u id name m x hr hact
    rw [hm.did.clock]
    have hold : ∀ u m, Ran s u (.cleanup id name) m → x * 10 ^ 9 ≤ s.world.clock.nano := by
      intro u m hr
      rcases activated_cases hm hact with hact | he
      · exact h.fired u id name m x hr hact
      · exact absurd hr
          ((notBegun_of_activation hstarted hexclusive hm he).callbacks u name m)
    rcases hm.ran_cases u _ m hr with ⟨-, rfl, -⟩ | ⟨-, hr⟩ | ⟨-, -, hq⟩
    · exact hold t l hm.runs.ran
    · exact hold u m hr
    · exact absurd hq (cleanup_not_spawned hm.allowed)

theorem Timed.envStep {e : Env} (h : Timed s) (hC : Orderly s (.env e)) (hm : EnvStep s e s') :
    Timed s' where
  configs := by
    intro u q m c hr hc
    rcases hm.config with hconfig | ⟨c', hc' | hc', -⟩
    · rw [hconfig]
      rcases hm.runs_cases u q m hr with hr | ⟨rfl, -⟩
      · exact h.configs u q m c hr hc
      · cases hc
    · exact absurd (by rw [hc']) (hC.constant c')
    · rw [hm.restarted c' hc' u q m hr] at hc
      cases hc
  clocks := by
    intro u q m now hr hnow
    rcases hm.runs_cases u q m hr with hr | ⟨rfl, -⟩
    · have hle := h.clocks u q m now hr hnow
      rcases hm.clock with hclock | ⟨x, rfl, hclock⟩
      · rw [hclock]
        exact hle
      · rw [hclock]
        exact Nat.le_trans hle (hC.forward x rfl)
    · cases hnow
  rows := by
    rw [hm.db]
    exact fun id x a hact => h.rows id x a (activated_cases_env hm hact)
  single := fun id x y hx hy =>
    h.single id x y (activated_cases_env hm hx) (activated_cases_env hm hy)
  listed := by
    intro u q m es y x hr hes hy hact
    have hr := hm.ran_of_mem hr hes
    exact h.listed u q m es y x hr hes hy (activated_cases_env hm hact)
  due := fun tm htm id name x hcb hact =>
    h.due tm (hm.timers tm htm) id name x hcb (activated_cases_env hm hact)
  fired := by
    intro u id name m x hr hact
    have hact := activated_cases_env hm hact
    have hle : s.world.clock.nano ≤ s'.world.clock.nano := by
      rcases hm.clock with hclock | ⟨now, rfl, hclock⟩
      · rw [hclock]
      · rw [hclock]
        exact Int.ofNat_le.mpr (hC.forward now rfl)
    refine le_trans ?_ hle
    rcases hm.ran_cases u _ m hr with hr | ⟨-, hstart⟩
    · exact h.fired u id name m x hr hact
    · cases hstart with
      | timer tm htm hcb hdue => exact (h.due tm htm id name x hcb hact).trans hdue
      | _ => contradiction

-- ============================================================================
-- Cleanups
-- ============================================================================

/-- A cleanup for the session is pending or running. -/
def Pending (s : Sys) (id : Nat) (name : String) : Prop :=
  (∃ tm ∈ s.world.timers, tm.callback = .cleanup id name) ∨
  ∃ u m, Busy s u (.cleanup id name) m

/-- The session is over. -/
structure Over (db : Db) (id : Nat) : Prop where
  begun : Begun db id
  status : ∀ a, db.Row id a → a.status ≠ 0

/-- A cleanup that was armed is not lost. -/
structure Kept (s : Sys) : Prop where
  succeeded : ∀ t p l q err, Ran s t p l → ⟨.query q, .error err⟩ ∉ l
  expired : ∀ t p l id, Ran s t p l → ⟨.query (.dbExpire id), .ok ()⟩ ∈ l → Over s.world.db id
  armed : ∀ t p l d id name, Runs s t p l → ⟨.afterFunc d (.cleanup id name), ()⟩ ∈ l →
    Pending s id name ∨ Over s.world.db id

theorem Over.after (hexclusive : Exclusive s) {id : Nat}
    (h : Over s.world.db id) (hm : ThreadStep s t p l e s') : Over s'.world.db id where
  begun := h.begun.after hm.did
  status := by
    intro a ha
    cases row_after hm.did ha with
    | kept ha => exact h.status a ha
    | inserted _ hid =>
      have hle := h.begun.old
      rw [hid] at hle
      exact absurd hle (Nat.not_succ_le_self _)
    | expired b _ _ hs =>
      rw [hs]
      exact fun h => nomatch h
    | claimed b x date ip terms he hb _ =>
      subst he
      have hmay : MayClaim p l x ip id := hm.allowed
      obtain ⟨row, hpick⟩ := hmay.picked
      have hle := h.begun.status b hb
      rw [hexclusive.waiting t p l id row hm.runs hpick b hb] at hle
      exact absurd hle (by decide)

theorem Kept.succeeded_after (h : Kept s) (hC : Orderly s (.thread t e))
    (hm : ThreadStep s t p l e s') : ∀ u q m r err, Ran s' u q m → ⟨.query r, .error err⟩ ∉ m := by
  intro u q m r err hr hmem
  rcases hm.mem_cases hr hmem with ⟨rfl, -⟩ | ⟨m, hr, hmem⟩
  · exact hC.succeeds t r err rfl
  · exact h.succeeded u q m r err hr hmem

theorem Kept.expired_after (hstarted : Started s) (hexclusive : Exclusive s) (h : Kept s)
    (hm : ThreadStep s t p l e s') : ∀ u q m id, Ran s' u q m →
      ⟨.query (.dbExpire id), .ok ()⟩ ∈ m → Over s'.world.db id := by
  intro u q m id hr hmem
  rcases hm.mem_cases hr hmem with ⟨rfl, -⟩ | ⟨m, hr, hmem⟩
  · refine ⟨(begun_of_expires hstarted hm.runs.ran hm.allowed).after hm.did, fun a ha => ?_⟩
    rw [hm.did.db] at ha
    obtain ⟨b, -, hs⟩ := Sql.Table.mem_update.mp ha
    simp only [decide_true, if_true] at hs
    rw [hs]
    exact fun h => nomatch h
  · exact (h.expired u q m id hr hmem).after hexclusive hm

theorem Pending.threadStep (hstarted : Started s) (hexclusive : Exclusive s) (hkept : Kept s)
    (hC : Orderly s (.thread t e)) (hm : ThreadStep s t p l e s') {id : Nat} {name : String}
    (h : Pending s id name) : Pending s' id name ∨ Over s'.world.db id := by
  rcases h with ⟨tm, htm, hcb⟩ | ⟨u, m, hb⟩
  · exact .inl (.inl ⟨tm, hm.timer_stays htm, hcb⟩)
  · by_cases hu : u = t
    · subst hu
      obtain ⟨rfl, rfl⟩ := hb.runs.unique hm.runs
      rcases hm.busy_or_done with hb | hdone
      · exact .inl (.inr ⟨u, _, hb⟩)
      · -- a callback that has come to its end has expired the session
        obtain ⟨r, hr⟩ := hdone
        cases r with
        | error err => exact absurd hr (hkept.succeeded_after hC hm u _ _ _ err hm.runs'.ran)
        | ok a => exact .inr (hkept.expired_after hstarted hexclusive hm u _ _ id hm.runs'.ran hr)
    · exact .inl (.inr ⟨u, m, hm.busy_keeps u _ m hu hb⟩)

theorem Kept.threadStep (hstarted : Started s) (hexclusive : Exclusive s) (h : Kept s)
    (hC : Orderly s (.thread t e)) (hm : ThreadStep s t p l e s') : Kept s' where
  succeeded := h.succeeded_after hC hm
  expired := h.expired_after hstarted hexclusive hm
  armed := by
    intro u q m d id name hr hmem
    have hold : ∀ u q m, Runs s u q m → ⟨.afterFunc d (.cleanup id name), ()⟩ ∈ m →
        Pending s' id name ∨ Over s'.world.db id := by
      intro u q m hr hmem
      rcases h.armed u q m d id name hr hmem with hp | ho
      · exact hp.threadStep hstarted hexclusive h hC hm
      · exact .inr (ho.after hexclusive hm)
    rcases hm.runs_cases u q m hr with ⟨-, -, rfl⟩ | ⟨-, hr⟩ | ⟨-, rfl, -⟩
    · rcases List.mem_cons.mp hmem with rfl | hmem
      · refine .inl (.inl ⟨⟨s.world.clock.nano + max d 0, .cleanup id name⟩, ?_, rfl⟩)
        rw [hm.did.timers]
        exact List.mem_append_right _ (List.mem_singleton_self _)
      · exact hold t p l hm.runs hmem
    · exact hold u q m hr hmem
    · cases hmem

theorem Kept.envStep {e : Env} (h : Kept s) (hm : EnvStep s e s') : Kept s' where
  succeeded := by
    intro u q m r err hr hmem
    have hr := hm.ran_of_mem hr hmem
    exact h.succeeded u q m r err hr hmem
  expired := by
    intro u q m id hr hmem
    rw [hm.db]
    have hr := hm.ran_of_mem hr hmem
    exact h.expired u q m id hr hmem
  armed := by
    intro u q m d id name hr hmem
    have hne : m ≠ [] := List.ne_nil_of_mem hmem
    have hlive : ¬ ∀ u q m, Runs s' u q m → m = [] := fun hstop => hne (hstop u q m hr)
    rw [hm.db]
    rcases hm.runs_cases u q m hr with hr | ⟨rfl, -⟩
    · refine (h.armed u q m d id name hr hmem).imp_left fun hp => ?_
      rcases hp with ⟨tm, htm, hcb⟩ | ⟨v, n, hb⟩
      · rcases hm.timers_keep tm htm (by rw [hcb]; nofun) with htm | ⟨v, hv⟩ | hstop
        · exact .inl ⟨tm, htm, hcb⟩
        · exact .inr ⟨v, [], hcb ▸ hv⟩
        · exact absurd hstop hlive
      · exact .inr ⟨v, n, (hm.busy_keeps v _ n hb).resolve_right hlive⟩
    · exact absurd rfl hne

theorem Initial.exclusive (h0 : Initial s) : Exclusive s := by
  have hpicked : ∀ {t p l id row}, Runs s t p l → claim l ≠ .picked id row := fun hr h => by
    rw [(h0.ran hr.ran).2] at h
    cases h
  exact ⟨fun _ _ _ _ _ _ _ _ _ _ hr _ hpick _ => absurd hpick (hpicked hr),
    fun _ _ _ _ _ hr hpick => absurd hpick (hpicked hr),
    fun _ _ _ _ _ hr hpick => absurd hpick (hpicked hr)⟩

theorem Initial.timed (h0 : Initial s) : Timed s := by
  have hlog : ∀ {t p l}, Ran s t p l → ∀ e, e ∉ l := fun hr e he => by
    rw [(h0.ran hr).2] at he
    cases he
  have hnone : ∀ {id x}, ¬ Activated s id x := by
    rintro id x ⟨t, p, l, a, hr, ha, -⟩
    exact hlog hr a ha
  exact ⟨fun _ _ _ _ hr hc => absurd hc (hlog hr.ran _),
    fun _ _ _ _ hr hnow => absurd hnow (hlog hr.ran _), fun _ _ _ hact => absurd hact hnone,
    fun _ _ _ hact => absurd hact hnone, fun _ _ _ _ _ _ hr hes => absurd hes (hlog hr _),
    fun _ _ _ _ _ _ hact => absurd hact hnone, fun _ _ _ _ _ _ hact => absurd hact hnone⟩

theorem Initial.kept (h0 : Initial s) : Kept s := by
  have hlog : ∀ {t p l}, Ran s t p l → ∀ e, e ∉ l := fun hr e he => by
    rw [(h0.ran hr).2] at he
    cases he
  exact ⟨fun _ _ _ _ _ hr => hlog hr _, fun _ _ _ _ hr he => absurd he (hlog hr _),
    fun _ _ _ _ _ _ hr he => absurd he (hlog hr.ran _)⟩

end Steps

-- ============================================================================
-- Records
-- ============================================================================

section Records

variable {l : Log}

/-- The record of a session says its name and its expiry. -/
theorem json_injective {a b : Info} (h : a.json = b.json) : a.name = b.name ∧ a.expiry = b.expiry := by
  obtain ⟨id, name, ip, username, password, fqdn, status, expiry⟩ := a
  obtain ⟨id', name', ip', username', password', fqdn', status', expiry'⟩ := b
  cases fqdn <;> cases fqdn' <;> cases expiry <;> cases expiry' <;>
    simp [Info.json] at h ⊢ <;> simp [h]

/-- A record has at least five keys. -/
theorem json_ne_singleton {a : Info} {key : String} {v : Json} : a.json ≠ [(key, v)] := by
  intro h
  have := congrArg List.length h
  simp only [Info.json, List.length_append, List.length_cons] at this
  omega

/-- The record says the expiry that was stored, and the cleanup was armed before it was sent. -/
theorem delivered_armed {p : Proc} {ip : String} {id : Nat} {info : Info}
    (hl : Machine.LogAllowed Allowed p l) (hp : StartFrom p ip) (h : Delivered l id info) :
    ∃ x d a, a ∈ l ∧ activation a = some (id, x) ∧ info.expiry = some x ∧
      ⟨.afterFunc d (.cleanup id info.name), ()⟩ ∈ l := by
  obtain ⟨⟨x, hs⟩, hsent⟩ := h
  obtain ⟨a, ha, hact⟩ := activation_of_hasSession hl hp hs
  obtain ⟨l', hsuffix, hsend⟩ := hl.mem hsent
  have hsub := ((List.suffix_cons _ l').trans hsuffix).subset
  generalize hbody : info.json = body at hsend
  cases hsend with
  | progress msg => exact absurd hbody json_ne_singleton
  | error code => exact absurd hbody json_ne_singleton
  | answer q _ hq =>
    obtain ⟨r, protocol, hr, -⟩ := hp
    cases hr.symm.trans hq
  | record ip' id' info' y d hp' hs' hexp harmed _ =>
    obtain ⟨hname, hexpiry⟩ := json_injective hbody
    have hl' := hl.before hsuffix
    obtain ⟨b, hb, hact'⟩ := activation_of_hasSession hl' hp' hs'
    obtain ⟨rfl, rfl⟩ := activation_unique hl ha (hsub hb) hact hact'
    refine ⟨x, d, a, ha, hact, hexpiry.trans hexp, ?_⟩
    rw [hname]
    exact hsub harmed

end Records

/-- The present process has started session `id` in thread `u`, or its startup loop has gone past
    the session. -/
def InCharge (s : Sys) (u id : Nat) : Prop :=
  (∃ q m, Runs s u q m) ∨
  ∃ (t : Nat) (th : Thread) (es : List Listed) (i : Nat) (x : Listed), s.threads[t]? = some th ∧
    th.alive = true ∧ th.proc = .connect ∧ ⟨.query .dbActive, .ok es⟩ ∈ th.log ∧ es[i]? = some x ∧
    x.id = id ∧ GonePast th i

/-- What is promised of session `id` once thread `u` has sent its record. -/
structure EndScheduled (s : Sys) (u id : Nat) (info : Info) : Prop where
  /-- Some cleanup is pending or running. -/
  pending : ∀ a, s.world.db.Row id a → a.status = 0 → InCharge s u id → Pending s id info.name
  /-- The client knows the expiry in the row, and no cleanup is due or has fired before it. -/
  expiry : ∃ x, info.expiry = some x ∧ (∀ a, s.world.db.Row id a → a.instanceExpiry = x) ∧
    (∀ tm ∈ s.world.timers, ∀ name, tm.callback = .cleanup id name → x * 10 ^ 9 ≤ tm.due) ∧
    ∀ t name l, Ran s t (.cleanup id name) l → x * 10 ^ 9 ≤ s.world.clock.nano

/-- In every orderly run, over any number of restarts, every session whose request was answered
    has a scheduled end, and none before the expiry that the client was told. -/
theorem delivered_scheduled {s₀ s : Sys} (h0 : Initial s₀) (hw : WellFormed s₀.world)
    (hrun : server.Run Orderly s₀ s) {u : Nat} {q : Proc} {m : Log} {ip : String} {id : Nat}
    {info : Info} (hr : Ran s u q m) (hq : StartFrom q ip) (hd : Delivered m id info) :
    EndScheduled s u id info := by
  obtain ⟨hsound, hregular, hexclusive, htimed, hkept⟩ := invariant_run
    (I := fun s => Regular s₀.world s ∧ Exclusive s ∧ Timed s ∧ Kept s) h0.sound
    ⟨h0.regular hw, h0.exclusive, h0.timed, h0.kept⟩
    (fun s t p l e s' hs hI hC hm => ⟨hI.1.threadStep hs hm,
      hI.2.1.threadStep hs hI.1.started hC hm, hI.2.2.1.threadStep hs hI.1.started hI.2.1 hm,
      hI.2.2.2.threadStep hI.1.started hI.2.1 hC hm⟩)
    (fun s e s' _ hI hC hm => ⟨hI.1.envStep hm, hI.2.1.envStep hm, hI.2.2.1.envStep hC hm,
      hI.2.2.2.envStep hm⟩) hrun
  obtain ⟨x, d, a, ha, hact, hexpiry, harmed⟩ := delivered_armed (hsound.allowed hr) hq hd
  have hactivated : Activated s id x := ⟨u, q, m, a, hr, ha, hact⟩
  refine ⟨fun row hrow hstatus hcharge => ?_, x, hexpiry,
    fun row hrow => htimed.rows id x row hactivated hrow,
    fun tm htm name hcb => htimed.due tm htm id name x hcb hactivated,
    fun t name l hran => htimed.fired t id name l x hran hactivated⟩
  have hnot : ¬ Over s.world.db id := fun ho => ho.status row hrow hstatus
  rcases hcharge with ⟨q', m', hr'⟩ | ⟨t, th, es, i, y, hth, halive, hproc, hes, hi, rfl, hpast⟩
  · obtain ⟨rfl, rfl⟩ := hr.unique hr'.ran
    exact (hkept.armed u q m d id info.name hr' harmed).resolve_right hnot
  · -- the startup loop has armed its own callback for the session
    have hr' : Runs s t .connect th.log := ⟨th, hth, halive, hproc, rfl⟩
    obtain ⟨⟨x', hs⟩, -⟩ := hd
    have hname := hregular.named.name_unique
      (hregular.named.active t _ _ es y hr'.ran hes (List.mem_of_getElem? hi))
      (names_of_hasSession hsound hregular.named hr hs)
    rcases seenTo_of_gonePast h0 hrun hth halive hproc hes hi hpast with ⟨d', hd'⟩ | ⟨r, hexpired⟩
    · rw [← hname]
      exact (hkept.armed t _ _ d' y.id _ hr' hd').resolve_right hnot
    · cases r with
      | error err => exact absurd hexpired (hkept.succeeded t _ _ _ err hr'.ran)
      | ok a => exact absurd (hkept.expired t _ _ y.id hr'.ran hexpired) hnot

/-- The test for `Orderly`. -/
def orderly (s : Sys) (l : Label) : Bool :=
  match l with
  | .env (.tick now) => decide (s.world.clock ≤ now)
  | .env (.reload _) => false
  | .thread _ ⟨.query _, .error _⟩ => false
  | .thread _ ⟨.query .selectAllocated, _⟩ => s.threads.all fun th =>
    match claim th.log with
    | .picked _ _ => false
    | _ => true
  | _ => true

theorem of_orderly (s : Sys) (l : Label) (h : orderly s l = true) : Orderly s l := by
  constructor
  · rintro now rfl
    exact of_decide_eq_true h
  · rintro c rfl
    cases h
  · rintro t q err rfl
    cases q <;> cases h
  · rintro t r rfl u q m id row - ⟨th, hth, -, -, rfl⟩ hpick
    cases r with
    | error err => cases h
    | ok a =>
      have hth := List.all_eq_true.mp h th (List.mem_of_getElem? hth)
      rw [hpick] at hth
      cases hth

/-- The startup loop has come to its end. -/
def pastLoop (l : Log) : Bool :=
  l.any fun e =>
    match e with
    | ⟨.query .dbAllocated, _⟩ => true
    | _ => false

/-- A session that was answered, and that a restarted server has passed in its startup loop. -/
theorem delivered_scheduled_small : ∃ s info, EndScheduled s 2 1 info ∧
    (s.threads[4]?.any fun th => th.alive && pastLoop th.log &&
      s.world.timers.any fun tm => tm.callback == .cleanup 1 info.name) = true := by
  obtain ⟨s, hrun, hs⟩ := server.run_of_check orderly of_orderly (emptyServer 1)
    (oks 0 47 ++ act (.request (startRequest "192.0.2.1")) ++ oks 2 26 ++
      act (.restart (smallConfig 5 1)) ++ oks 4 10)
    (fun s => (s.threads[2]?.bind fun th => answeredWith th).any fun r => r.1 == 1 &&
      s.threads[4]?.any fun th => th.alive && pastLoop th.log &&
        s.world.timers.any fun tm => tm.callback == .cleanup 1 r.2.name) (by decide +kernel)
  obtain ⟨⟨id, info⟩, hinfo, hs⟩ := (Option.any_eq_true ..).mp hs
  obtain ⟨th, hth, hinfo⟩ := Option.bind_eq_some_iff.mp hinfo
  obtain ⟨hid, hs⟩ := Bool.and_eq_true_iff.mp hs
  cases beq_iff_eq.mp hid
  obtain ⟨⟨ip, hq⟩, hd⟩ := of_answeredWith hinfo
  exact ⟨s, info, delivered_scheduled (emptyServer_initial 1) (emptyServer_wellFormed 1) hrun
    ⟨th, hth, rfl, rfl⟩ hq hd, hs⟩

end IncusDemo
