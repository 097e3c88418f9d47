/-
  IncusDemo.Sessions

  The life of a row of `sessions`, over whole runs.  A row waits with status 2,
  is active with status 0 and ends with status 1; `Begun` says that it waits no
  longer.  That is stable under every statement the server runs, whatever the
  interleaving, and it holds of every session that a request has claimed or
  inserted, that the startup loop has listed, and that a cleanup callback is
  for (`Started`).
-/

import IncusDemo.Steps

namespace IncusDemo

open Go Conc

-- ============================================================================
-- Rows
-- ============================================================================

/-- Row `id` of the table is `s`. -/
def Db.Row (db : Db) (id : Nat) (s : Session) : Prop := (id, s) ∈ db.sessions.rows

/-- The session that `dbGetInstance` finds is that of a row with the id, an active one if asked. -/
theorem session_of_getInstance {db : Db} {id : String} {active : Bool} {f : Found}
    (h : db.getInstance id active = some f) :
    ∃ i a, db.Row i a ∧ a.uuid = id ∧ (active = true → a.status = 0) ∧ f = a.found i := by
  have hanswers := db.answers_run (.dbGetInstance id active)
  have hrun : (db.run (.dbGetInstance id active)).1 = some f := h
  rw [hrun] at hanswers
  exact db.session_of_answers hanswers

/-- Where a row of the table comes from, after an event. -/
inductive RowFrom (e : Event) (db : Db) (id : Nat) (s : Session) : Prop
  | kept (h : db.Row id s)
  | inserted (h : e = ⟨.query (.dbNew s), .ok id⟩) (hid : id = db.sessions.nextId)
  | expired (a : Session) (h : e = ⟨.query (.dbExpire id), .ok ()⟩) (ha : db.Row id a)
      (hs : s = a.expired)
  | claimed (a : Session) (expiry date : Int) (ip terms : String)
      (h : e = ⟨.query (.updateAllocated expiry date ip terms id), .ok ()⟩) (ha : db.Row id a)
      (hs : s = a.claim expiry date ip terms)

section Rows

variable {w w' : World} {t : Nat} {e : Event} {id : Nat} {s : Session}

theorem row_updateId {db : Db} {i : Nat} {f : Session → Session} (h : (db.updateId i f).Row id s) :
    db.Row id s ∨ (id = i ∧ ∃ a, db.Row id a ∧ s = f a) := by
  obtain ⟨a, ha, hs⟩ := Sql.Table.mem_update.mp h
  by_cases hi : id = i
  · simp only [hi, decide_true, if_true] at hs
    exact .inr ⟨hi, a, ha, hs⟩
  · simp only [hi, decide_false, Bool.false_eq_true, if_false] at hs
    exact .inl (hs ▸ ha)

theorem row_after (hd : Did w t e w') (h : w'.db.Row id s) : RowFrom e w.db id s := by
  rw [hd.db] at h
  obtain ⟨o, r⟩ := e
  cases o with
  | query q =>
    cases r with
    | error err => exact .kept h
    | ok a =>
      cases q with
      | dbNew row =>
        rcases Sql.Table.mem_insert.mp h with h | ⟨hid, rfl⟩
        · exact .kept h
        · have ha : a = w.db.sessions.nextId := hd.truthful
          rw [ha, ← hid]
          exact .inserted rfl hid
      | dbDelete i => exact .kept (Sql.Table.mem_delete.mp h).1
      | dbExpire i =>
        rcases row_updateId h with h | ⟨rfl, a, ha, hs⟩
        · exact .kept h
        · exact .expired a rfl ha hs
      | updateAllocated expiry date ip terms i =>
        rcases row_updateId h with h | ⟨rfl, a, ha, hs⟩
        · exact .kept h
        · exact .claimed a expiry date ip terms rfl ha hs
      | _ => exact .kept h
  | _ => exact .kept h

theorem seq_after (hd : Did w t e w') : w.db.sessions.seq ≤ w'.db.sessions.seq := by
  rw [hd.db]
  obtain ⟨o, r⟩ := e
  cases o with
  | query q =>
    cases r with
    | error err => exact le_refl _
    | ok a =>
      cases q with
      | dbNew row => exact Nat.le_succ _
      | _ => exact le_refl _
  | _ => exact le_refl _

theorem row_unique {db : Db} {a b : Session} (ha : db.Row id a) (hb : db.Row id b) : a = b :=
  Sql.Table.row_unique ha hb

theorem row_le_seq {db : Db} (h : db.Row id s) : id ≤ db.sessions.seq := Sql.Table.id_le_seq h

end Rows

/-- What `dbActive` and `dbAllocated` list are the rows of a status. -/
theorem mem_listStatus {db : Db} {status : Nat} {e : Listed} :
    e ∈ db.listStatus status ↔ ∃ a, db.Row e.id a ∧ a.status = status ∧ e = a.listed e.id := by
  constructor
  · intro h
    obtain ⟨⟨id, a⟩, ha, rfl⟩ := List.mem_map.mp h
    obtain ⟨hrow, hstatus⟩ := Sql.Table.mem_select.mp ha
    exact ⟨a, hrow, beq_iff_eq.mp hstatus, rfl⟩
  · rintro ⟨a, ha, hstatus, he⟩
    exact List.mem_map.mpr ⟨(e.id, a), Sql.Table.mem_select.mpr ⟨ha, beq_iff_eq.mpr hstatus⟩, he.symm⟩

/-- No session is listed twice. -/
theorem nodup_listStatus (db : Db) (status : Nat) : ((db.listStatus status).map Listed.id).Nodup := by
  unfold Db.listStatus
  rw [List.map_map]
  exact db.sessions.nodup_ids.sublist (List.filter_sublist.map _)

/-- `dbIsAllocated` says yes only to a row that waits. -/
theorem waiting_of_isAllocated {db : Db} {id : Nat} (h : true = (db.run (.dbIsAllocated id)).1) :
    ∃ a, db.Row id a ∧ a.status = 2 := by
  have hcount : db.sessions.count (fun i a => a.isAllocated && i == id) = 1 := beq_iff_eq.mp h.symm
  have hpos : 0 < db.sessions.count fun i a => a.isAllocated && i == id := by
    rw [hcount]
    exact Nat.one_pos
  obtain ⟨⟨i, a⟩, ha, hq⟩ := List.countP_pos_iff.mp hpos
  obtain ⟨hstatus, hid⟩ := Bool.and_eq_true_iff.mp hq
  cases beq_iff_eq.mp hid
  exact ⟨a, ha, beq_iff_eq.mp hstatus⟩

/-! ## Begun sessions -/

/-- The session with this id waits no longer, and never will again. -/
structure Begun (db : Db) (id : Nat) : Prop where
  old : id ≤ db.sessions.seq
  status : ∀ s, db.Row id s → s.status ≤ 1

theorem Begun.after {w w' : World} {t : Nat} {e : Event} {id : Nat} (h : Begun w.db id)
    (hd : Did w t e w') : Begun w'.db id where
  old := h.old.trans (seq_after hd)
  status := by
    intro s hs
    cases row_after hd hs with
    | kept hs => exact h.status s hs
    | inserted _ hid =>
      have := h.old
      rw [hid] at this
      exact absurd this (Nat.not_succ_le_self _)
    | expired a _ _ hs => rw [hs]; exact le_refl 1
    | claimed a _ _ _ _ _ _ hs => rw [hs]; exact Nat.zero_le 1

/-- The event shows that session `id` has begun. -/
def Begins (e : Event) (id : Nat) : Prop :=
  match e with
  | ⟨.query (.updateAllocated _ _ _ _ i), .ok _⟩ => i = id
  | ⟨.query (.dbNew row), .ok i⟩ => i = id ∧ row.status = 0
  | ⟨.query .dbActive, .ok es⟩ => ∃ l ∈ es, l.id = id
  | _ => False

-- ============================================================================
-- What a log says
-- ============================================================================

section Logs

variable {p : Proc} {l : Log} {e : Event} {id : Nat} {row : Session}

theorem picked_next (h : claim (e :: l) = .picked id row) :
    claim l = .picked id row ∨ e = ⟨.query .selectAllocated, .ok (some (id, row))⟩ := by
  rw [claim_cons] at h
  unfold Claim.next at h
  split at h
  · cases h
    exact .inr rfl
  · split at h
    · cases h
    · exact .inl h
  · cases h
  · exact .inl h

theorem mem_of_picked (h : claim l = .picked id row) :
    ⟨.query .selectAllocated, .ok (some (id, row))⟩ ∈ l := by
  induction l with
  | nil => cases h
  | cons e l ih =>
    rcases picked_next h with h | rfl
    · exact List.mem_cons_of_mem _ (ih h)
    · exact List.mem_cons_self ..

/-- A claim that a thread has after an event it had before, or has just committed. -/
theorem claimed_next {expiry : Int} (hop : Allowed p l e.op)
    (h : claim (e :: l) = .claimed id row expiry) :
    claim l = .claimed id row expiry ∨ (claim l = .picked id row ∧ ∃ date ip terms,
      StartFrom p ip ∧ e = ⟨.query (.updateAllocated expiry date ip terms id), .ok ()⟩) := by
  rw [claim_cons] at h
  unfold Claim.next at h
  split at h
  · cases h
  · rename_i expiry' date ip terms i _
    split at h
    · rename_i id' row' hpick
      cases h
      have hmay : MayClaim p l expiry ip i := hop
      obtain ⟨row'', hpick'⟩ := hmay.picked
      cases hpick.symm.trans hpick'
      exact .inr ⟨hpick, date, ip, terms, hmay.request, rfl⟩
    · exact .inl h
  · cases h
  · exact .inl h

/-- A claim is an UPDATE of the row that the SELECT before it found. -/
theorem mem_of_claimed {expiry : Int} (hl : Machine.LogAllowed Allowed p l)
    (h : claim l = .claimed id row expiry) :
    ⟨.query .selectAllocated, .ok (some (id, row))⟩ ∈ l ∧
      ∃ date ip terms, ⟨.query (.updateAllocated expiry date ip terms id), .ok ()⟩ ∈ l ∧
        StartFrom p ip := by
  induction l with
  | nil => cases h
  | cons e l ih =>
    rcases claimed_next (hl e l List.suffix_rfl) h with h | ⟨hpick, date, ip, terms, hp, rfl⟩
    · obtain ⟨hsel, date, ip, terms, hu, hp⟩ := ih hl.tail h
      exact ⟨List.mem_cons_of_mem _ hsel, date, ip, terms, List.mem_cons_of_mem _ hu, hp⟩
    · exact ⟨List.mem_cons_of_mem _ (mem_of_picked hpick), date, ip, terms,
        List.mem_cons_self .., hp⟩

theorem recorded_next (h : attempt (e :: l) = .recorded id row) :
    attempt l = .recorded id row ∨ e = ⟨.query (.dbNew row), .ok id⟩ := by
  have hcreate : (attempt l).create = .recorded id row → attempt l = .recorded id row := by
    intro h
    cases ha : attempt l <;> rw [ha] at h <;> first | exact h | cases h
  have hgive : (attempt l).giveUp = .recorded id row → attempt l = .recorded id row := by
    intro h
    cases ha : attempt l <;> rw [ha] at h <;> first | exact h | cases h
  rw [attempt_cons] at h
  unfold Attempt.next at h
  split at h
  · cases h
  · split at h
    · cases h
    · exact .inl h
  · exact .inl (hcreate h)
  · exact .inl (hcreate h)
  · cases h
  · split at h
    · cases h
    · exact .inl h
  · split at h
    · exact .inl (hgive h)
    · exact .inl h
  · cases h
    exact .inr rfl
  · exact .inl (hgive h)
  · exact .inl h

/-- What a state of the attempt was entered with. -/
theorem mem_of_recorded (h : attempt l = .recorded id row) : ⟨.query (.dbNew row), .ok id⟩ ∈ l := by
  induction l with
  | nil => cases h
  | cons e l ih =>
    rcases recorded_next h with h | rfl
    · exact List.mem_cons_of_mem _ (ih h)
    · exact List.mem_cons_self ..

/-- A session that a thread has after an event it had before, or gets by it. -/
theorem hasSession_next {name : String} {expiry : Int} (hop : Allowed p l e.op)
    (h : HasSession (e :: l) id name expiry) :
    HasSession l id name expiry ∨
      (∃ row date ip terms, claim l = .picked id row ∧
        e = ⟨.query (.updateAllocated expiry date ip terms id), .ok ()⟩) ∨
      ∃ row, e = ⟨.query (.dbNew row), .ok id⟩ ∧ row.instanceExpiry = expiry := by
  rcases h with ⟨row, hc, hn⟩ | ⟨row, ha, hn, hx⟩
  · rcases claimed_next hop hc with hc | ⟨hpick, date, ip, terms, -, he⟩
    · exact .inl (.inl ⟨row, hc, hn⟩)
    · exact .inr (.inl ⟨row, date, ip, terms, hpick, he⟩)
  · rcases recorded_next ha with ha | he
    · exact .inl (.inr ⟨row, ha, hn, hx⟩)
    · exact .inr (.inr ⟨row, he, hx⟩)

theorem not_hasSession_nil {name : String} {expiry : Int} : ¬ HasSession [] id name expiry := by
  rintro (⟨row, hc, -⟩ | ⟨row, ha, -⟩)
  · cases hc
  · cases ha

theorem not_startFrom_connect {ip : String} : ¬ StartFrom .connect ip := by
  rintro ⟨r, protocol, hr, -⟩
  cases hr

theorem mem_passed {x : Listed} {rest : List Listed} (h : x ∈ passed id rest) : x ∈ rest := by
  cases rest with
  | nil => exact h
  | cons a rest =>
    simp only [passed] at h
    split at h
    · exact List.mem_cons_of_mem _ h
    · exact h

theorem restoring_next {x : Listed} (h : x ∈ restoring (e :: l)) :
    x ∈ restoring l ∨ ∃ es, e = ⟨.query .dbActive, .ok es⟩ ∧ x ∈ es := by
  rw [restoring_cons] at h
  unfold restoringNext at h
  split at h
  · exact .inr ⟨_, rfl, h⟩
  · exact .inl (mem_passed h)
  · exact .inl (mem_passed h)
  · exact .inl h

theorem mem_of_restoring {x : Listed} (h : x ∈ restoring l) :
    ∃ es, ⟨.query .dbActive, .ok es⟩ ∈ l ∧ x ∈ es := by
  induction l with
  | nil => cases h
  | cons e l ih =>
    rcases restoring_next h with h | ⟨es, rfl, hx⟩
    · obtain ⟨es, hes, hx⟩ := ih h
      exact ⟨es, List.mem_cons_of_mem _ hes, hx⟩
    · exact ⟨es, List.mem_cons_self .., hx⟩

theorem former_next {x : Listed} (h : x ∈ former (e :: l)) :
    x ∈ former l ∨ ∃ es, e = ⟨.query .dbAllocated, .ok es⟩ ∧ x ∈ es := by
  rw [former_cons] at h
  unfold formerNext at h
  split at h
  · exact .inr ⟨_, rfl, h⟩
  · exact .inl (List.mem_of_mem_tail h)
  · exact .inl h

theorem mem_of_former {x : Listed} (h : x ∈ former l) :
    ∃ es, ⟨.query .dbAllocated, .ok es⟩ ∈ l ∧ x ∈ es := by
  induction l with
  | nil => cases h
  | cons e l ih =>
    rcases former_next h with h | ⟨es, rfl, hx⟩
    · obtain ⟨es, hes, hx⟩ := ih h
      exact ⟨es, List.mem_cons_of_mem _ hes, hx⟩
    · exact ⟨es, List.mem_cons_self .., hx⟩

/-- What is to be restored next has been listed. -/
theorem listed_of_restoring {x : Listed} {rest : List Listed} (h : restoring l = x :: rest) :
    ∃ es, ⟨.query .dbActive, .ok es⟩ ∈ l ∧ x ∈ es :=
  mem_of_restoring (by rw [h]; exact List.mem_cons_self ..)

theorem listed_of_former {x : Listed} {rest : List Listed} (h : former l = x :: rest) :
    ∃ es, ⟨.query .dbAllocated, .ok es⟩ ∈ l ∧ x ∈ es :=
  mem_of_former (by rw [h]; exact List.mem_cons_self ..)

/-- A thread in a pass was in it before, or has just taken the lock. -/
theorem pass_next (hop : Allowed p l e.op) (h : pass (e :: l) ≠ .idle) :
    e = ⟨.lock, ()⟩ ∨ pass l ≠ .idle := by
  rw [pass_cons] at h
  unfold Pass.next at h
  split at h
  · exact .inl rfl
  · exact absurd rfl h
  · refine .inr fun hidle => ?_
    have hhold : pass l = .holding := And.left hop
    rw [hidle] at hhold
    cases hhold
  · refine .inr fun hidle => ?_
    have hmem : _ ∈ (pass l).names := hop
    rw [hidle] at hmem
    cases hmem
  · exact .inr h

/-- The row that a start request records is active. -/
theorem recorded_active {ip : String} (hl : Machine.LogAllowed Allowed p l) (hp : StartFrom p ip)
    (h : ⟨.query (.dbNew row), .ok id⟩ ∈ l) : row.status = 0 := by
  obtain ⟨l', -, hmay⟩ := hl.mem h
  rcases hmay.kind with ⟨hs, -⟩ | ⟨-, -, hno⟩
  · exact hs
  · exact absurd hp (hno ip)

/-- A request that has started a session has an event that begins it. -/
theorem begins_of_hasSession {ip name : String} {expiry : Int}
    (hl : Machine.LogAllowed Allowed p l) (hp : StartFrom p ip) (h : HasSession l id name expiry) :
    ∃ e ∈ l, Begins e id := by
  rcases h with ⟨row, hc, -⟩ | ⟨row, ha, -⟩
  · obtain ⟨-, date, ip', terms, hu, -⟩ := mem_of_claimed hl hc
    exact ⟨_, hu, rfl⟩
  · have hm := mem_of_recorded ha
    exact ⟨_, hm, rfl, recorded_active hl hp hm⟩

end Logs

-- ============================================================================
-- Every run
-- ============================================================================

/-- Every session that anything in the system takes for started has begun. -/
structure Started (s : Sys) : Prop where
  picked : ∀ t p l id row, Ran s t p l → ⟨.query .selectAllocated, .ok (some (id, row))⟩ ∈ l →
    id ≤ s.world.db.sessions.seq
  events : ∀ t p l e id, Ran s t p l → e ∈ l → Begins e id → Begun s.world.db id
  timers : ∀ tm ∈ s.world.timers, ∀ id name, tm.callback = .cleanup id name → Begun s.world.db id
  callbacks : ∀ t id name l, Ran s t (.cleanup id name) l → Begun s.world.db id

theorem Initial.started {s : Sys} (h : Initial s) : Started s where
  picked := fun _ _ _ _ _ hr he => by rw [(h.ran hr).2] at he; cases he
  events := fun _ _ _ _ _ hr he => by rw [(h.ran hr).2] at he; cases he
  timers := fun tm htm => by rw [h.2.2.1] at htm; cases htm
  callbacks := fun _ _ _ _ hr => nomatch (h.ran hr).1

/-- A timer that a thread arms for a session is for one that has begun. -/
theorem begun_of_arms {s : Sys} {t : Nat} {p : Proc} {l : Log} {d : Int} {id : Nat} {name : String}
    (hsound : Sound s) (h : Started s) (hr : Ran s t p l) (harm : MayArm p l d (.cleanup id name)) :
    Begun s.world.db id := by
  cases harm with
  | started ip _ _ expiry c hp hs _ _ _ =>
    obtain ⟨e, he, hb⟩ := begins_of_hasSession (hsound.allowed hr) hp hs
    exact h.events t p l e id hr he hb
  | restored e rest t' hp hl _ _ _ =>
    obtain ⟨es, hes, he⟩ := listed_of_restoring hl
    exact h.events t p l _ _ hr hes ⟨e, he, rfl⟩

/-- The session of a new event has begun after it. -/
theorem begun_of_event {s : Sys} {t : Nat} {p : Proc} {l : Log} {e : Event} {s' : Sys} {id : Nat}
    (h : Started s) (hm : ThreadStep s t p l e s') (hb : Begins e id) : Begun s'.world.db id := by
  obtain ⟨o, r⟩ := e
  unfold Begins at hb
  split at hb
  · rename_i expiry date ip terms i a heq
    cases heq
    subst hb
    have hmay : MayClaim p l expiry ip i := hm.allowed
    obtain ⟨row, hpick⟩ := hmay.picked
    refine ⟨(h.picked t p l i row hm.runs.ran (mem_of_picked hpick)).trans (seq_after hm.did), ?_⟩
    intro s hs
    rw [hm.did.db] at hs
    obtain ⟨b, hb, hs⟩ := Sql.Table.mem_update.mp hs
    simp only [decide_true, if_true] at hs
    rw [hs]
    exact Nat.zero_le 1
  · rename_i row i heq
    cases heq
    obtain ⟨rfl, hstatus⟩ := hb
    have hi : i = s.world.db.sessions.nextId := hm.did.truthful
    constructor
    · rw [hm.did.db, hi]
      exact le_refl _
    · intro a ha
      rw [hm.did.db] at ha
      rcases Sql.Table.mem_insert.mp ha with ha | ⟨-, rfl⟩
      · rw [hi] at ha
        exact absurd ha (Sql.Table.nextId_not_mem _ _)
      · omega
  · rename_i es heq
    cases heq
    obtain ⟨a, ha, rfl⟩ := hb
    have hes : es = s.world.db.listStatus 0 := hm.did.truthful
    rw [hes] at ha
    obtain ⟨⟨i, row⟩, hrow, rfl⟩ := List.mem_map.mp ha
    obtain ⟨hrow, hstatus⟩ := Sql.Table.mem_select.mp hrow
    refine Begun.after ⟨row_le_seq hrow, fun b hb => ?_⟩ hm.did
    rw [row_unique hb hrow]
    rw [beq_iff_eq] at hstatus
    omega
  · cases hb

/-- The `go` statement never starts a cleanup. -/
theorem cleanup_not_spawned {p : Proc} {l : Log} {o : Op} (h : Allowed p l o) {id : Nat}
    {name : String} : Proc.cleanup id name ∉ spawn o := by
  intro hq
  rcases spawn_cases h hq with heq | heq | ⟨f, heq⟩ <;> cases heq

theorem Started.threadStep {s s' : Sys} {t : Nat} {p : Proc} {l : Log} {e : Event}
    (hsound : Sound s) (h : Started s) (hm : ThreadStep s t p l e s') : Started s' where
  picked := by
    intro u q m id row hr he
    rcases hm.mem_cases hr he with ⟨rfl, -⟩ | ⟨m, hr, he⟩
    · have hsel : some (id, row) = s.world.db.selectAllocated := hm.did.truthful
      have hrow := (Sql.Table.mem_select.mp (oldest_mem hsel.symm)).1
      exact (row_le_seq hrow).trans (seq_after hm.did)
    · exact (h.picked u q m id row hr he).trans (seq_after hm.did)
  events := by
    intro u q m e' id hr he hb
    rcases hm.mem_cases hr he with ⟨rfl, -⟩ | ⟨m, hr, he⟩
    · exact begun_of_event h hm hb
    · exact (h.events u q m e' id hr he hb).after hm.did
  timers := by
    intro tm htm id name hcb
    rcases hm.timer_cases htm with htm | ⟨d, rfl, -⟩
    · exact (h.timers tm htm id name hcb).after hm.did
    · have harm : MayArm p l d (.cleanup id name) := hcb ▸ hm.allowed
      exact (begun_of_arms hsound h hm.runs.ran harm).after hm.did
  callbacks := by
    intro u id name m hr
    rcases hm.ran_cases u _ m hr with ⟨-, rfl, rfl⟩ | ⟨-, hr⟩ | ⟨-, -, hq⟩
    · exact (h.callbacks t id name l hm.runs.ran).after hm.did
    · exact (h.callbacks u id name m hr).after hm.did
    · exact absurd hq (cleanup_not_spawned hm.allowed)

theorem Started.envStep {s s' : Sys} {e : Env} (h : Started s) (hm : EnvStep s e s') :
    Started s' where
  picked := by
    intro u q m id row hr he
    rw [hm.db]
    have hr := hm.ran_of_mem hr he
    exact h.picked u q m id row hr he
  events := by
    intro u q m e' id hr he hb
    rw [hm.db]
    have hr := hm.ran_of_mem hr he
    exact h.events u q m e' id hr he hb
  timers := by
    intro tm htm id name hcb
    rw [hm.db]
    exact h.timers tm (hm.timers tm htm) id name hcb
  callbacks := by
    intro u id name m hr
    rw [hm.db]
    rcases hm.ran_cases u _ m hr with hr | ⟨-, hq⟩
    · exact h.callbacks u id name m hr
    · cases hq with
      | timer tm htm hcb => exact h.timers tm htm id name hcb
      | _ => contradiction

/-- Only sessions that have begun are ever expired. -/
theorem begun_of_expires {s : Sys} {t : Nat} {p : Proc} {l : Log} {id : Nat} (h : Started s)
    (hr : Ran s t p l) (hexp : MayExpire p l id) : Begun s.world.db id := by
  cases hexp with
  | ended name hp =>
    subst hp
    exact h.callbacks t id name l hr
  | overdue e rest t' hp hl hid _ _ =>
    obtain ⟨es, hes, he⟩ := listed_of_restoring hl
    exact h.events t p l _ _ hr hes ⟨e, he, hid⟩

end IncusDemo
