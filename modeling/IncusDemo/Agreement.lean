/-
  IncusDemo.Agreement

  The record that `restStartHandler` sends, and what `restInfoHandler` answers
  about the same session right after it.  The record of an instance that was
  made for the request says everything the answer says.  The record of a
  pre-allocated instance is put together from the row and lacks the keys that
  only `instanceCreate` sets.
-/

import IncusDemo.Expiry
import IncusDemo.Identity
import IncusDemo.ReadOnly

namespace IncusDemo

open Go Conc

-- ============================================================================
-- Rows of new sessions
-- ============================================================================

/-- Row `id`, inserted as `row`, still says to `dbGetInstance` what it said then, and no request has
    ever found it waiting. -/
structure StillShown (s : Sys) (id : Nat) (row : Session) : Prop where
  shown : ∀ a, s.world.db.Row id a → a.uuid = row.uuid ∧ a.found id = row.found id
  unpicked : ∀ t p l a, Ran s t p l → ⟨.query .selectAllocated, .ok (some (id, a))⟩ ∉ l

/-- Rows that were inserted as active sessions are not changed, but for their status. -/
def FreshShown (s : Sys) : Prop :=
  ∀ t p l id row, Ran s t p l → ⟨.query (.dbNew row), .ok id⟩ ∈ l → row.status = 0 →
    StillShown s id row

section Steps

variable {s s' : Sys} {t : Nat} {p : Proc} {l : Log} {e : Event} {id : Nat} {row : Session}

theorem StillShown.threadStep (h : StillShown s id row) (hbegun : Begun s.world.db id)
    (hm : ThreadStep s t p l e s') : StillShown s' id row where
  shown := by
    intro a ha
    cases row_after hm.did ha with
    | kept ha => exact h.shown a ha
    | inserted _ hid =>
      have hold := hbegun.old
      rw [hid] at hold
      exact absurd hold (Nat.not_succ_le_self _)
    | expired b _ hb hab =>
      subst hab
      exact h.shown b hb
    | claimed b expiry date ip terms heq _ _ =>
      subst heq
      have hmay : MayClaim p l expiry ip id := hm.allowed
      obtain ⟨c, hpick⟩ := hmay.picked
      exact absurd (mem_of_picked hpick) (h.unpicked t p l c hm.runs.ran)
  unpicked := by
    intro u q m a hr hmem
    rcases hm.mem_cases hr hmem with ⟨rfl, -⟩ | ⟨m, hr, hmem⟩
    · -- the row that is selected waits
      have hselect : some (id, a) = s.world.db.selectAllocated := hm.did.truthful
      obtain ⟨hrow, hwaits⟩ := Sql.Table.mem_select.mp (oldest_mem hselect.symm)
      have hle := hbegun.status a hrow
      have hstatus : a.status = 2 := beq_iff_eq.mp hwaits
      rw [hstatus] at hle
      exact absurd hle (by decide)
    · exact h.unpicked u q m a hr hmem

/-- A row that has just been inserted is as it was inserted. -/
theorem stillShown_of_inserts (hstarted : Started s)
    (hm : ThreadStep s t p l ⟨.query (.dbNew row), .ok id⟩ s') : StillShown s' id row where
  shown := by
    have hid : id = s.world.db.sessions.nextId := hm.did.truthful
    intro a ha
    cases row_after hm.did ha with
    | kept ha =>
      rw [hid] at ha
      exact absurd ha (Sql.Table.nextId_not_mem _ a)
    | inserted heq _ =>
      cases heq
      exact ⟨rfl, rfl⟩
    | expired b heq _ _ => cases heq
    | claimed b expiry date ip terms heq _ _ => cases heq
  unpicked := by
    have hid : id = s.world.db.sessions.nextId := hm.did.truthful
    have hold : ∀ u q m a, Ran s u q m → ⟨.query .selectAllocated, .ok (some (id, a))⟩ ∉ m := by
      intro u q m a hr hmem
      have hle := hstarted.picked u q m id a hr hmem
      rw [hid] at hle
      exact absurd hle (Nat.not_succ_le_self _)
    intro u q m a hr hmem
    rcases hm.mem_cases hr hmem with ⟨heq, -⟩ | ⟨m, hr, hmem⟩
    · cases heq
    · exact hold u q m a hr hmem

theorem FreshShown.threadStep (hstarted : Started s) (h : FreshShown s)
    (hm : ThreadStep s t p l e s') : FreshShown s' := by
  have hold : ∀ u q m id row, Ran s u q m → ⟨.query (.dbNew row), .ok id⟩ ∈ m → row.status = 0 →
      StillShown s' id row := by
    intro u q m id row hr hmem hstatus
    exact (h u q m id row hr hmem hstatus).threadStep
      (hstarted.events u q m _ id hr hmem ⟨rfl, hstatus⟩) hm
  intro u q m id row hr hmem hstatus
  rcases hm.mem_cases hr hmem with ⟨rfl, -⟩ | ⟨m, hr, hmem⟩
  · exact stillShown_of_inserts hstarted hm
  · exact hold u q m id row hr hmem hstatus

theorem FreshShown.envStep {e : Env} (h : FreshShown s) (hm : EnvStep s e s') : FreshShown s' := by
  intro u q m id row hr hmem hstatus
  have hr := hm.ran_of_mem hr hmem
  have hshown := h u q m id row hr hmem hstatus
  refine ⟨fun a ha => hshown.shown a (hm.db ▸ ha), fun v q' n a hr' hmem' => ?_⟩
  exact hshown.unpicked v q' n a (hm.ran_of_mem hr' hmem') hmem'

end Steps

theorem freshShown_run {s₀ s : Sys} (h0 : Initial s₀) (hw : WellFormed s₀.world)
    (hrun : server.Run Machine.anyStep s₀ s) : Sound s ∧ Regular s₀.world s ∧ FreshShown s := by
  have hinit : FreshShown s₀ := fun t p l id row hr hmem => by
    rw [(h0.ran hr).2] at hmem
    cases hmem
  exact invariant_run (I := fun s => Regular s₀.world s ∧ FreshShown s) h0.sound
    ⟨h0.regular hw, hinit⟩
    (fun _ _ _ _ _ _ hs hI _ hm => ⟨hI.1.threadStep hs hm, hI.2.threadStep hI.1.started hm⟩)
    (fun _ _ _ _ hI _ hm => ⟨hI.1.envStep hm, hI.2.envStep hm⟩) hrun

-- ============================================================================
-- Answers about a session
-- ============================================================================

/-- `restInfoHandler` answers `r` with `body` when it runs on its own and nothing fails. -/
def Informs (w : World) (r : Request) (body : JsonObject) : Prop :=
  ∃ a, ⟨.encode body, a⟩ ∈ server.events 0 .ok (restInfoHandler r) w

theorem informs_iff {w : World} {r : Request} {body : JsonObject} : Informs w r body ↔
    r.method = "GET" ∧ ¬ (w.config.server.maintenance.enabled ∨ w.incusDaemon = none) ∧
      r.formValue "id" ≠ "" ∧ ∃ f, w.db.getInstance (r.formValue "id") false = some f ∧
        body = infoJson w.config.session.consoleOnly (r.formValue "id") f := by
  have hnone : ∀ {text : String} {code : Nat},
      server.events 0 .ok (perform (.httpError text code)) w = [⟨.httpError text code, ()⟩] :=
    Machine.events_perform rfl
  unfold Informs restInfoHandler
  by_cases hget : r.method ≠ "GET"
  · rw [if_pos hget, hnone]
    exact iff_of_false (by simp) fun h => hget h.1
  rw [if_neg hget, Machine.events_then rfl, Machine.events_then rfl]
  by_cases hdown : w.config.server.maintenance.enabled ∨ w.incusDaemon = none
  · rw [if_pos hdown, hnone]
    exact iff_of_false (by simp) fun h => h.2.1 hdown
  rw [if_neg hdown, Machine.events_then rfl, Machine.events_then rfl]
  by_cases hid : r.formValue "id" = ""
  · rw [if_pos hid, hnone]
    exact iff_of_false (by simp) fun h => h.2.2.1 hid
  have hquery : server.exec w 0 (.query (.dbGetInstance (r.formValue "id") false)) .ok =
    some (.ok (w.db.getInstance (r.formValue "id") false), w) := rfl
  rw [if_neg hid, Machine.events_then hquery]
  cases hfound : w.db.getInstance (r.formValue "id") false with
  | none =>
    simp only
    rw [hnone]
    exact iff_of_false (by simp) fun h => by simpa using h.2.2.2
  | some f =>
    have hwrite : server.exec w 0
        (.encode (infoJson w.config.session.consoleOnly (r.formValue "id") f)) .ok =
      some (.ok (), w) := rfl
    simp only
    rw [Machine.events_then rfl, Machine.events_then hwrite]
    simp only [Machine.events_pure]
    constructor
    · rintro ⟨a, ha⟩
      refine ⟨not_not.mp hget, hdown, hid, f, rfl, ?_⟩
      simp at ha
      exact ha.1
    · rintro ⟨-, -, -, f', hf', rfl⟩
      cases hf'
      exact ⟨.ok (), by simp⟩

-- ============================================================================
-- The record and the answer
-- ============================================================================

/-- What the record of a new session says, the answer says no more. -/
theorem infoJson_subset (consoleOnly : Bool) (uuid name ip password : String)
    (expiry date : Int) (requestIP terms : String) (id : Nat) :
    ∀ kv ∈ infoJson consoleOnly uuid
        ((activeRow (createdInfo consoleOnly uuid name ip password) expiry date requestIP terms).found id),
      kv ∈ { createdInfo consoleOnly uuid name ip password with expiry := some expiry : Info }.json := by
  cases consoleOnly <;> simp [infoJson, activeRow, createdInfo, Session.found, Info.json]

/-- The answer always says a status, and the record of a pre-allocated instance does not. -/
theorem not_infoJson_subset (consoleOnly : Bool) (uuid : String) (f : Found) (row : Session)
    (expiry : Int) : ¬ ∀ kv ∈ infoJson consoleOnly uuid f, kv ∈ (allocatedInfo row expiry).json := by
  intro h
  have hstatus := h ("status", .num StatusCode.instanceStarted.code)
    (by cases consoleOnly <;> simp [infoJson])
  simp [allocatedInfo, Info.json] at hstatus

/-- The row that `dbGetInstance` finds for a session that was made for its request. -/
theorem found_of_fresh {w₀ : World} {s : Sys} {t : Nat} {p : Proc} {l : Log} {id : Nat}
    {row : Session} {f : Found} (hregular : Regular w₀ s) (hfresh : FreshShown s)
    (hr : Ran s t p l) (hmem : ⟨.query (.dbNew row), .ok id⟩ ∈ l) (hstatus : row.status = 0)
    (hfound : s.world.db.getInstance row.uuid false = some f) : f = row.found id := by
  obtain ⟨i, a, ha, huuid, -, rfl⟩ := session_of_getInstance hfound
  obtain ⟨b, hb, hsame⟩ := hregular.named.rows i a ha
  have hid := hregular.named.apart i id b row hb (.inr ⟨t, p, l, hr, hmem⟩)
    (hsame.uuid.symm.trans huuid)
  subst hid
  exact ((hfresh t p l i row hr hmem hstatus).shown a ha).2

/-- A start request has sent the record, and `restInfoHandler` answers `body` about the session
    in the state right after it; no reload has changed the console mode since. -/
structure AskedAfter (s : Sys) (t : Nat) (l : Log) (record body : JsonObject) : Prop where
  sent : ∃ r, Runs s t (.restStart r) (⟨.encode record, .ok ()⟩ :: l)
  answered : ∃ r, ("id", .str (r.formValue "id")) ∈ record ∧ Informs s.world r body
  config : ∀ c, ⟨.config, c⟩ ∈ l → c.session.consoleOnly = s.world.config.session.consoleOnly

/-- In every state of every run, the record of a start request says everything that is answered
    about the session right after it exactly when the request was not served from the pool. -/
theorem record_agrees_iff {s₀ s : Sys} (h0 : Initial s₀) (hw : WellFormed s₀.world)
    (hrun : server.Run Machine.anyStep s₀ s) {t : Nat} {l : Log} {record body : JsonObject}
    (h : AskedAfter s t l record body) : (∀ kv ∈ body, kv ∈ record) ↔
      ∀ id row expiry, claim l ≠ .claimed id row expiry := by
  obtain ⟨hsound, hregular, hfresh⟩ := freshShown_run h0 hw hrun
  obtain ⟨r, hr⟩ := h.sent
  obtain ⟨q, hid, hinforms⟩ := h.answered
  obtain ⟨-, -, -, f, hfound, rfl⟩ := informs_iff.mp hinforms
  have hlogged := hsound.allowed hr.ran
  have hsend : MaySend (.restStart r) l record := hlogged _ _ List.suffix_rfl
  cases hsend with
  | progress msg => simp at hid
  | error code => simp at hid
  | answer q' _ hq => cases hq
  | record ip id info expiry d hp hs hexp harmed hrecord =>
    have hid : q.formValue "id" = info.id := by simpa [Info.json] using hid
    cases hrecord with
    | allocated id row expiry hclaim hinfo =>
      subst hinfo
      exact iff_of_false (not_infoJson_subset _ _ _ _ _) fun hno => hno id row expiry hclaim
    | fresh id c uuid name ip' password expiry date requestIP terms hattempt hclaim hc hinfo =>
      subst hinfo
      refine iff_of_true ?_ hclaim
      have hmem := mem_of_recorded hattempt
      rw [hid] at hfound ⊢
      have hf := found_of_fresh hregular hfresh hr.ran (List.mem_cons_of_mem _ hmem) rfl hfound
      rw [hf, ← h.config c hc]
      exact infoJson_subset _ _ _ _ _ _ _ _ _ _

/-- What thread `t` has written last, if it is a start request. -/
def lastRecord (t : Nat) (s : Sys) : Option (Request × JsonObject × Log) :=
  match s.threads[t]? with
  | some ⟨.restStart r, true, ⟨.encode record, .ok ()⟩ :: l, _⟩ => some (r, record, l)
  | _ => none

theorem runs_of_lastRecord {t : Nat} {s : Sys} {r : Request} {record : JsonObject} {l : Log}
    (h : lastRecord t s = some (r, record, l)) :
    Runs s t (.restStart r) (⟨.encode record, .ok ()⟩ :: l) := by
  unfold lastRecord at h
  split at h
  · rename_i r' record' l' k hth
    cases h
    exact ⟨_, hth, rfl, rfl, rfl⟩
  · cases h

/-- Every configuration that the thread has read has the console mode of now. -/
def sameMode (w : World) (e : Event) : Bool :=
  match e with
  | ⟨.config, c⟩ => c.session.consoleOnly == w.config.session.consoleOnly
  | _ => true

/-- Thread `t` has just sent the record of session `id`, `restInfoHandler` would answer, and `f`
    holds of what the thread did, the record and the answer. -/
def sent (t : Nat) (id : String) (f : Log → JsonObject → JsonObject → Bool) (s : Sys) : Bool :=
  match lastRecord t s, s.world.db.getInstance id false with
  | some (_, record, l), some found =>
    record.contains ("id", .str id) && l.all (sameMode s.world) && id != "" &&
      !s.world.config.server.maintenance.enabled && s.world.incusDaemon.isSome &&
      f l record (infoJson s.world.config.session.consoleOnly id found)
  | _, _ => false

theorem askedAfter_of_sent {t : Nat} {id : String} {f : Log → JsonObject → JsonObject → Bool}
    {s : Sys} (h : sent t id f s = true) :
    ∃ l record body, AskedAfter s t l record body ∧ f l record body = true := by
  unfold sent at h
  split at h
  · rename_i r record l found hlast hfound
    simp only [Bool.and_eq_true, List.contains_iff_mem, bne_iff_ne, Bool.not_eq_true',
      Option.isSome_iff_exists, List.all_eq_true] at h
    obtain ⟨⟨⟨⟨⟨hid, hmode⟩, hne⟩, hopen⟩, d, hd⟩, hf⟩ := h
    have hdown : ¬ (s.world.config.server.maintenance.enabled ∨ s.world.incusDaemon = none) := by
      simp [hopen, hd]
    refine ⟨l, record, infoJson s.world.config.session.consoleOnly id found, ⟨?_, ?_, ?_⟩, hf⟩
    · exact ⟨r, runs_of_lastRecord hlast⟩
    · exact ⟨infoRequest id, hid, informs_iff.mpr ⟨rfl, hdown, hne, found, hfound, rfl⟩⟩
    · exact fun c hc => beq_iff_eq.mp (hmode _ hc)
  · cases h

/-- The thread has claimed nothing from the pool. -/
def unclaimed (l : Log) : Bool :=
  match claim l with
  | .claimed _ _ _ => false
  | _ => true

/-- A session that is made for its request. -/
theorem record_agrees_small : ∃ s l record body, AskedAfter s 2 l record body ∧
    ((∀ kv ∈ body, kv ∈ record) ↔ ∀ id row expiry, claim l ≠ .claimed id row expiry) ∧
    ∀ kv ∈ body, kv ∈ record := by
  obtain ⟨s, hrun, hs⟩ := server.run_of_check Machine.noTest (fun _ _ _ => trivial) (emptyServer 0)
    (oks 0 14 ++ act (.request (startRequest "192.0.2.1")) ++ oks 2 56)
    (sent 2 "u0" fun l _ _ => unclaimed l) (by decide +kernel)
  obtain ⟨l, record, body, hasked, hl⟩ := askedAfter_of_sent hs
  have hiff := record_agrees_iff (emptyServer_initial 0) (emptyServer_wellFormed 0) hrun hasked
  refine ⟨s, l, record, body, hasked, hiff, hiff.mpr fun id row expiry heq => ?_⟩
  simp [unclaimed, heq] at hl

/-- The record of a session from the pool lacks a key of the answer. -/
theorem pooled_record_lacks_keys : ¬ ∀ s₀ s t l record body, Initial s₀ → WellFormed s₀.world →
    server.Run Machine.anyStep s₀ s → AskedAfter s t l record body →
    ∀ kv ∈ body, kv ∈ record := by
  intro hall
  obtain ⟨s, hrun, hs⟩ := server.run_of_check Machine.noTest (fun _ _ _ => trivial) (emptyServer 1)
    (oks 0 47 ++ act (.request (startRequest "192.0.2.1")) ++ oks 2 25)
    (sent 2 "u0" fun _ record body => body.any fun kv => !record.contains kv) (by decide +kernel)
  obtain ⟨l, record, body, hasked, hlacks⟩ := askedAfter_of_sent hs
  obtain ⟨kv, hkv, hnot⟩ := List.any_eq_true.mp hlacks
  have hmem := hall _ s 2 l record body (emptyServer_initial 1) (emptyServer_wellFormed 1) hrun
    hasked kv hkv
  simp [hmem] at hnot

end IncusDemo
