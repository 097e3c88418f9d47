/-
  IncusDemo.Ledger

  The life of a session, as its row tells it.

  A row waits, is claimed, and expires; it can also be inserted as an active one.
  What names the session never changes.  A claim sets the request and the
  expiry, and when every claim finds its row waiting nothing sets them again.
  So the answers that `restInfoHandler` gives about a session agree.
-/

import IncusDemo.Sql.Evolution
import IncusDemo.Agreement
import IncusDemo.Handout

namespace IncusDemo

open Conc Go Relation

-- ============================================================================
-- Turns
-- ============================================================================

/-- What a session can go through. -/
inductive Session.Turn : Session → Session → Prop
  | claim (s : Session) (expiry date : Int) (ip terms : String) (h : s.status = 2) :
    Turn s (s.claim expiry date ip terms)
  | expire (s : Session) (h : s.status = 0) : Turn s s.expired

/-- The same session: what a client is told of it, the expiry apart. -/
structure Session.Identical (a b : Session) : Prop where
  same : a.Same b
  username : a.instanceUsername = b.instanceUsername
  password : a.instancePassword = b.instancePassword

theorem Session.Identical.refl (a : Session) : a.Identical a := ⟨.refl a, rfl, rfl⟩

theorem Session.Identical.trans {a b c : Session} (h : a.Identical b) (h' : b.Identical c) :
    a.Identical c :=
  ⟨h.same.trans h'.same, h.username.trans h'.username, h.password.trans h'.password⟩

theorem Session.identical_expired (a : Session) : a.Identical a.expired := ⟨⟨rfl, rfl, rfl⟩, rfl, rfl⟩

theorem Session.identical_claim (a : Session) (expiry date : Int) (ip terms : String) :
    a.Identical (a.claim expiry date ip terms) := ⟨⟨rfl, rfl, rfl⟩, rfl, rfl⟩

/-- What the turns of a session leave as it is. -/
structure Session.Aged (a b : Session) : Prop where
  identical : a.Identical b
  /-- While it waits nothing is changed. -/
  waiting : b.status = 2 → b = a
  /-- Once it has begun nothing but its status is changed, and that once. -/
  begun : a.status ≠ 2 → b = a ∨ (a.status = 0 ∧ b = a.expired)

theorem Session.aged_of_turns {a b : Session} (h : ReflTransGen Session.Turn a b) : a.Aged b := by
  induction h with
  | refl => exact ⟨.refl a, fun _ => rfl, fun _ => .inl rfl⟩
  | @tail c _ _ hturn ih =>
    cases hturn with
    | claim expiry date ip terms hwaits =>
      refine ⟨ih.identical.trans (c.identical_claim ..), fun h2 => ?_, fun hbegun => ?_⟩
      · cases h2
      · rcases ih.begun hbegun with rfl | ⟨-, rfl⟩
        · exact absurd hwaits hbegun
        · cases hwaits
    | expire hactive =>
      refine ⟨ih.identical.trans c.identical_expired, fun h2 => ?_, fun hbegun => ?_⟩
      · cases h2
      · rcases ih.begun hbegun with rfl | ⟨-, rfl⟩
        · exact .inr ⟨hactive, rfl⟩
        · cases hactive

-- ============================================================================
-- Runs
-- ============================================================================

variable {w₀ : World} {s₀ s s' : Sys}

/-- An event leaves the sessions the same. -/
theorem evolves_did {w w' : World} {t : Nat} {e : Event} (hd : Did w t e w') :
    w.db.sessions.Evolves Session.Identical w'.db.sessions where
  seq := seq_after hd
  origin := by
    intro id b hb hold
    cases row_after hd hb with
    | kept hb => exact ⟨b, hb, .refl b⟩
    | inserted _ hid =>
      rw [hid] at hold
      exact absurd hold (Nat.not_succ_le_self _)
    | expired a _ ha hb => exact ⟨a, ha, hb ▸ a.identical_expired⟩
    | claimed a expiry date ip terms _ ha hb => exact ⟨a, ha, hb ▸ a.identical_claim ..⟩

/-- An event that claims no row but a waiting one is a turn of each session, or none. -/
theorem turns_did {t : Nat} {p : Proc} {l : Log} {e : Event} (hstarted : Started s)
    (hC : ClaimsWaiting s (.thread t e)) (hm : ThreadStep s t p l e s') :
    s.world.db.sessions.Evolves (ReflTransGen Session.Turn) s'.world.db.sessions where
  seq := seq_after hm.did
  origin := by
    intro id b hb hold
    cases row_after hm.did hb with
    | kept hb => exact ⟨b, hb, .refl⟩
    | inserted _ hid =>
      rw [hid] at hold
      exact absurd hold (Nat.not_succ_le_self _)
    | expired a he ha hb =>
      subst he hb
      refine ⟨a, ha, ?_⟩
      have hle := (begun_of_expires hstarted hm.runs.ran hm.allowed).status a ha
      by_cases hactive : a.status = 0
      · exact .single (.expire a hactive)
      · -- a row that has expired stays as it is
        have hone : a.status = 1 := by omega
        have hsame : a.expired = a := by
          cases a
          cases hone
          rfl
        rw [hsame]
    | claimed a expiry date ip terms he ha hb =>
      subst he hb
      obtain ⟨row, hrow, hwaits⟩ := hC id rfl
      cases row_unique ha hrow
      exact ⟨a, ha, .single (.claim a expiry date ip terms hwaits)⟩

/-- From any moment of a run on, the sessions take their turns as long as every claim finds its
    row waiting: each goes from waiting to active to expired, a turn is the only change of its
    row, and no id stands for two sessions. -/
theorem sessions_take_turns (h0 : Initial s₀) (hrun : server.Run Machine.anyStep s₀ s)
    (hrun' : server.Run ClaimsWaiting s s') :
    s.world.db.sessions.Evolves (ReflTransGen Session.Turn) s'.world.db.sessions := by
  obtain ⟨hsound, hstarted⟩ := invariant_run (I := Started) h0.sound h0.started
    (fun _ _ _ _ _ _ hs hI _ hm => hI.threadStep hs hm) (fun _ _ _ _ hI _ hm => hI.envStep hm) hrun
  refine (invariant_run (I := fun s' => Started s' ∧
    s.world.db.sessions.Evolves (ReflTransGen Session.Turn) s'.world.db.sessions) hsound
    ⟨hstarted, .refl (fun _ => .refl) _⟩ ?_ ?_ hrun').2.2
  · intro s₁ t p l e s₂ hs hI hC hm
    exact ⟨hI.1.threadStep hs hm, hI.2.trans (fun _ _ _ => .trans) (turns_did hI.1 hC hm)⟩
  · intro s₁ e s₂ _ hI _ hm
    refine ⟨hI.1.envStep hm, ?_⟩
    rw [hm.db]
    exact hI.2

/-- Row `id` has this status. -/
def hasStatus (id status : Nat) (s : Sys) : Bool :=
  s.world.db.sessions.rows.any fun r => r.1 == id && r.2.status == status

/-- A waiting session is claimed. -/
theorem sessions_take_turns_claim : ∃ s : Sys, hasStatus 1 2 (twoRows 5) = true ∧
    hasStatus 1 0 s = true ∧
    (twoRows 5).world.db.sessions.Evolves (ReflTransGen Session.Turn) s.world.db.sessions := by
  obtain ⟨s, hrun, hs⟩ := server.run_of_check claimsWaiting of_claimsWaiting (twoRows 5)
    (twoRequests ++ oks 1 19) (hasStatus 1 0) (by decide +kernel)
  exact ⟨s, by decide +kernel, hs, sessions_take_turns (twoRows_initial 5) .refl hrun⟩

theorem sessions_identical (hsound : Sound s) (hrun : server.Run Machine.anyStep s s') :
    s.world.db.sessions.Evolves Session.Identical s'.world.db.sessions := by
  refine (invariant_run (I := fun s' =>
    s.world.db.sessions.Evolves Session.Identical s'.world.db.sessions) hsound
    (.refl Session.Identical.refl _) ?_ ?_ hrun).2
  · intro s₁ t p l e s₂ _ hI _ hm
    exact hI.trans (fun _ _ _ => .trans) (evolves_did hm.did)
  · intro s₁ e s₂ _ hI _ hm
    rw [hm.db]
    exact hI

-- ============================================================================
-- Answers
-- ============================================================================

theorem Known.run {C : Sys → Label → Prop} (hsound : Sound s) {id : Nat} {a : Session}
    (h : Known w₀ s id a) (hrun : server.Run C s s') : Known w₀ s' id a :=
  (invariant_run (I := fun s => Known w₀ s id a) hsound h (fun _ _ _ _ _ _ _ hI _ hm => hI.threadStep hm)
    (fun _ _ _ _ hI _ hm => hI.envStep hm) hrun).2

/-- A random id leads to the same row at two moments. -/
theorem row_id_eq {C : Sys → Label → Prop} (hsound : Sound s) (hregular : Regular w₀ s)
    (hrun : server.Run C s s') {i j : Nat} {a b : Session} (ha : s.world.db.Row i a)
    (hb : s'.world.db.Row j b) (huuid : b.uuid = a.uuid) (hregular' : Regular w₀ s') : j = i := by
  obtain ⟨c, hc, hsame⟩ := hregular.named.rows i a ha
  obtain ⟨d, hd, hsame'⟩ := hregular'.named.rows j b hb
  refine hregular'.named.apart j i d c hd (hc.run hsound hrun) ?_
  rw [← hsame'.uuid, huuid, hsame.uuid]

/-- What is told about the same session differs in the expiry alone. -/
theorem mem_infoJson_iff {a b : Session} (h : a.Identical b) (consoleOnly : Bool) (id : String)
    (i : Nat) {kv : String × Json} (hk : kv.1 ≠ "expiry") :
    kv ∈ infoJson consoleOnly id (b.found i) ↔ kv ∈ infoJson consoleOnly id (a.found i) := by
  have hexpiry : ∀ n : Int, kv ≠ ("expiry", .num n) := fun n he => hk (congrArg Prod.fst he)
  unfold infoJson Session.found
  rw [h.same.name, h.same.ip, h.username, h.password]
  cases consoleOnly <;> simp [hexpiry]

theorem found_expired (a : Session) (i : Nat) : a.expired.found i = a.found i := rfl

/-- Whatever happens between two answers of `restInfoHandler` about a session, they agree on all
    but the expiry; and if the session had begun by the first and every claim in between finds
    its row waiting, they are the same. -/
theorem info_stays (h0 : Initial s₀) (hw : WellFormed s₀.world)
    (hrun : server.Run Machine.anyStep s₀ s) (hrun' : server.Run Machine.anyStep s s')
    {r r' : Request} {body body' : JsonObject} (hid : r'.formValue "id" = r.formValue "id")
    (hconsole : s'.world.config.session.consoleOnly = s.world.config.session.consoleOnly)
    (hbody : Informs s.world r body) (hbody' : Informs s'.world r' body') :
    (∀ kv : String × Json, kv.1 ≠ "expiry" → (kv ∈ body' ↔ kv ∈ body)) ∧
      (server.Run ClaimsWaiting s s' →
        (∀ i a, s.world.db.Row i a → a.uuid = r.formValue "id" → a.status ≠ 2) → body' = body) := by
  obtain ⟨hsound, hregular⟩ := Regular.run h0 hw hrun
  obtain ⟨-, hregular'⟩ := Regular.run h0 hw (hrun.trans hrun')
  obtain ⟨-, -, -, f, hf, rfl⟩ := informs_iff.mp hbody
  obtain ⟨-, -, -, f', hf', rfl⟩ := informs_iff.mp hbody'
  obtain ⟨i, a, ha, hua, -, rfl⟩ := session_of_getInstance hf
  obtain ⟨j, b, hb, hub, -, rfl⟩ := session_of_getInstance hf'
  have hij : j = i := row_id_eq hsound hregular hrun' ha hb (by rw [hub, hid, hua]) hregular'
  subst hij
  rw [hid, hconsole]
  refine ⟨fun kv hk => ?_, fun hclaims hbegun => ?_⟩
  · exact mem_infoJson_iff ((sessions_identical hsound hrun').of_rows ha hb) _ _ _ hk
  · have haged := Session.aged_of_turns ((sessions_take_turns h0 hrun hclaims).of_rows ha hb)
    rcases haged.begun (hbegun j a ha hua) with rfl | ⟨-, rfl⟩
    · rfl
    · rw [found_expired]

/-- `restInfoHandler` would answer about session `id`, and no row of it waits. -/
def told (id : String) (s : Sys) : Bool :=
  (s.world.db.getInstance id false).isSome && id != "" &&
    !s.world.config.server.maintenance.enabled && s.world.incusDaemon.isSome &&
    s.world.db.sessions.rows.all fun r => r.2.status != 2

theorem of_told {id : String} {s : Sys} (h : told id s = true) :
    (∃ body, Informs s.world (infoRequest id) body) ∧
      ∀ i a, s.world.db.Row i a → a.status ≠ 2 := by
  unfold told at h
  simp only [Bool.and_eq_true, bne_iff_ne, Bool.not_eq_true', Option.isSome_iff_exists,
    List.all_eq_true] at h
  obtain ⟨⟨⟨⟨⟨f, hf⟩, hne⟩, hopen⟩, d, hd⟩, hbegun⟩ := h
  have hdown : ¬ (s.world.config.server.maintenance.enabled ∨ s.world.incusDaemon = none) := by
    simp [hopen, hd]
  exact ⟨⟨_, informs_iff.mpr ⟨rfl, hdown, hne, f, hf, rfl⟩⟩, fun i a ha => hbegun (i, a) ha⟩

/-- A session is told of when it has started, and again when it has expired. -/
theorem info_stays_expired : ∃ (s s' : Sys) (body body' : JsonObject),
    hasStatus 1 0 s = true ∧ hasStatus 1 1 s' = true ∧
    Informs s.world (infoRequest "u0") body ∧ Informs s'.world (infoRequest "u0") body' ∧
    ((∀ kv : String × Json, kv.1 ≠ "expiry" → (kv ∈ body' ↔ kv ∈ body)) ∧ body' = body) := by
  obtain ⟨s, hrun, hs⟩ := server.run_of_check Machine.noTest (fun _ _ _ => trivial) (emptyServer 0)
    (oks 0 14 ++ act (.request (startRequest "192.0.2.1")) ++ oks 2 57)
    (fun s => hasStatus 1 0 s && told "u0" s && (server.steps claimsWaiting s
      (act (.tick ⟨4000000000000, by decide⟩) ++ act (.fire 0) ++ oks 3 6)).any fun s' =>
        hasStatus 1 1 s' && told "u0" s' &&
          s'.world.config.session.consoleOnly == s.world.config.session.consoleOnly)
    (by decide +kernel)
  obtain ⟨hs, hnext⟩ := Bool.and_eq_true_iff.mp hs
  obtain ⟨hactive, htold⟩ := Bool.and_eq_true_iff.mp hs
  obtain ⟨s', hrun', hs'⟩ := server.run_of_check claimsWaiting of_claimsWaiting s _ _ hnext
  obtain ⟨hs', hconsole⟩ := Bool.and_eq_true_iff.mp hs'
  obtain ⟨hexpired, htold'⟩ := Bool.and_eq_true_iff.mp hs'
  obtain ⟨⟨body, hbody⟩, hbegun⟩ := of_told htold
  obtain ⟨⟨body', hbody'⟩, -⟩ := of_told htold'
  have hstays := info_stays (emptyServer_initial 0) (emptyServer_wellFormed 0) hrun
    (hrun'.mono fun _ _ _ => trivial) rfl (beq_iff_eq.mp hconsole) hbody hbody'
  exact ⟨s, s', body, body', hactive, hexpired, hbody, hbody', hstays.1,
    hstays.2 hrun' fun i a ha _ => hbegun i a ha⟩

end IncusDemo
