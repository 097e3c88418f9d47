/-
  IncusDemo.Register

  The feedback of a session.  `dbRecordFeedback` reads the table and then, in a
  second statement, inserts a row or updates the rows that are there; two
  writers that have both read before either inserts leave two rows, and so does
  a writer whose SELECT is cut short before the row that is there.  There is
  one row a session for as long as no INSERT follows another one.

  What the table says does not suffer from it: the INSERT adds the row that the
  loop of `dbGetFeedback` keeps, and the UPDATE reaches every row.  Each session
  is a register that holds what was written last.  `dbGetFeedback` answers what
  the register holds unless its SELECT is cut short, which it does not notice.
-/

import IncusDemo.Steps

namespace IncusDemo

open Go Conc

-- ============================================================================
-- Rows of feedback
-- ============================================================================

/-- The table has feedback on the session. -/
def Db.HasFeedback (db : Db) (id : Nat) : Prop := ∃ i a, (i, a) ∈ db.feedback.rows ∧ a.sessionId = id

theorem getFeedback_eq_none {db : Db} {id : Nat} : db.getFeedback id = none ↔ ¬ db.HasFeedback id := by
  unfold Db.getFeedback Db.feedbackRows Db.HasFeedback
  rw [Option.map_eq_none_iff, List.getLast?_eq_none_iff, List.eq_nil_iff_forall_not_mem]
  constructor
  · rintro h ⟨i, a, ha, hid⟩
    exact h (i, a) (Sql.Table.mem_select.mpr ⟨ha, by simp [hid]⟩)
  · rintro h ⟨i, a⟩ ha
    obtain ⟨ha, hid⟩ := Sql.Table.mem_select.mp ha
    exact h ⟨i, a, ha, by simpa using hid⟩

/-- What a SELECT finds is there, whether it is cut short or not. -/
theorem hasFeedback_of_answers {db : Db} {id : Nat} {found : Nat × Feedback}
    (h : db.Answers (.dbGetFeedback id) (some found)) : db.HasFeedback id := by
  obtain ⟨n, h⟩ := h
  obtain ⟨r, hr, -⟩ := Option.map_eq_some_iff.mp h.symm
  obtain ⟨hmem, hid⟩ := Sql.Table.mem_select.mp (List.mem_of_mem_take (List.mem_of_getLast? hr))
  exact ⟨r.1, r.2, hmem, beq_iff_eq.mp hid⟩

section Statements

variable {db : Db} {e : Event}

/-- Only an INSERT brings feedback on another session, and no statement takes any away. -/
theorem hasFeedback_after {id : Nat} : (dbAfter e db).HasFeedback id ↔
    db.HasFeedback id ∨ ∃ f, e = ⟨.query (.insertFeedback id f), .ok ()⟩ := by
  obtain ⟨o, r⟩ := e
  cases o with
  | query q =>
    cases r with
    | error err =>
      refine ⟨.inl, fun h => h.resolve_right ?_⟩
      rintro ⟨f, hf⟩
      cases hf
    | ok a =>
      cases q with
      | insertFeedback id' f' =>
        simp only [dbAfter, Db.run, Db.HasFeedback, Sql.Table.mem_insert]
        constructor
        · rintro ⟨i, a, ha | ⟨-, rfl⟩, hid⟩
          · exact .inl ⟨i, a, ha, hid⟩
          · cases hid
            exact .inr ⟨f', rfl⟩
        · rintro (⟨i, a, ha, hid⟩ | ⟨f, hf⟩)
          · exact ⟨i, a, .inl ha, hid⟩
          · cases hf
            exact ⟨_, _, .inr ⟨rfl, rfl⟩, rfl⟩
      | updateFeedback f' id' =>
        simp only [dbAfter, Db.run, Db.HasFeedback, Sql.Table.mem_update]
        constructor
        · rintro ⟨i, b, ⟨a, ha, rfl⟩, hid⟩
          refine .inl ⟨i, a, ha, ?_⟩
          split at hid <;> exact hid
        · rintro (⟨i, a, ha, hid⟩ | ⟨f, hf⟩)
          · refine ⟨i, _, ⟨a, ha, rfl⟩, ?_⟩
            split <;> exact hid
          · cases hf
      | _ =>
        refine ⟨.inl, fun h => h.resolve_right ?_⟩
        rintro ⟨f, hf⟩
        cases hf
  | _ =>
    refine ⟨.inl, fun h => h.resolve_right ?_⟩
    rintro ⟨f, hf⟩
    cases hf

end Statements

-- ============================================================================
-- Runs
-- ============================================================================

/-- A request has inserted feedback on the session. -/
def Inserted (s : Sys) (id : Nat) : Prop :=
  ∃ t p l f, Ran s t p l ∧ ⟨.query (.insertFeedback id f), .ok ()⟩ ∈ l

/-- What the feedback of `s` has to do with what threads have read and written since `db₀`. -/
structure FeedbackKept (db₀ : Db) (s : Sys) : Prop where
  iff : ∀ id, s.world.db.HasFeedback id ↔ db₀.HasFeedback id ∨ Inserted s id
  selected : ∀ t p l id found, Ran s t p l → ⟨.query (.dbGetFeedback id), .ok (some found)⟩ ∈ l →
    s.world.db.HasFeedback id

theorem inserted_iff {s : Sys} {id : Nat} :
    Inserted s id ↔ ∃ f, Happened s ⟨.query (.insertFeedback id f), .ok ()⟩ := by
  constructor
  · rintro ⟨t, p, l, f, hr, hmem⟩
    exact ⟨f, t, p, l, hr, hmem⟩
  · rintro ⟨f, t, p, l, hr, hmem⟩
    exact ⟨t, p, l, f, hr, hmem⟩

theorem Initial.feedbackKept {s : Sys} (h : Initial s) : FeedbackKept s.world.db s where
  iff := by
    refine fun id => ⟨.inl, fun h' => h'.resolve_right fun hins => ?_⟩
    obtain ⟨f, hf⟩ := inserted_iff.mp hins
    exact h.not_happened _ hf
  selected := fun _ _ _ _ _ hr hmem => by rw [(h.ran hr).2] at hmem; cases hmem

/-- What has been inserted after a step: what was before, and what the step inserts. -/
theorem inserted_threadStep {s s' : Sys} {t : Nat} {p : Proc} {l : Log} {e : Event} {id : Nat}
    (hm : ThreadStep s t p l e s') : Inserted s' id ↔
      Inserted s id ∨ ∃ f, e = ⟨.query (.insertFeedback id f), .ok ()⟩ := by
  simp only [inserted_iff, happened_threadStep hm, exists_or, eq_comm]

theorem inserted_envStep {s s' : Sys} {e : Env} {id : Nat} (hm : EnvStep s e s') :
    Inserted s' id ↔ Inserted s id := by
  simp only [inserted_iff, happened_envStep hm]

theorem FeedbackKept.threadStep {db₀ : Db} {s s' : Sys} {t : Nat} {p : Proc} {l : Log} {e : Event}
    (h : FeedbackKept db₀ s) (hm : ThreadStep s t p l e s') : FeedbackKept db₀ s' where
  iff := fun id => by
    rw [hm.did.db, hasFeedback_after, inserted_threadStep hm, h.iff id, or_assoc]
  selected := by
    intro u q m id found hr hmem
    rw [hm.did.db, hasFeedback_after]
    refine .inl ?_
    rcases hm.mem_cases hr hmem with ⟨rfl, -⟩ | ⟨m, hr, hmem⟩
    · exact hasFeedback_of_answers hm.did.truthful
    · exact h.selected u q m id found hr hmem

theorem FeedbackKept.envStep {db₀ : Db} {s s' : Sys} {e : Env} (h : FeedbackKept db₀ s)
    (hm : EnvStep s e s') : FeedbackKept db₀ s' where
  iff := fun id => by rw [hm.db, inserted_envStep hm, h.iff id]
  selected := by
    intro u q m id found hr hmem
    rw [hm.db]
    have hr := hm.ran_of_mem hr hmem
    exact h.selected u q m id found hr hmem

theorem feedbackKept_run {C : Sys → Label → Prop} {s₀ s : Sys} (h0 : Initial s₀)
    (hrun : server.Run C s₀ s) : Sound s ∧ FeedbackKept s₀.world.db s :=
  invariant_run (I := FeedbackKept s₀.world.db) h0.sound h0.feedbackKept
    (fun _ _ _ _ _ _ _ hI _ hm => hI.threadStep hm) (fun _ _ _ _ hI _ hm => hI.envStep hm) hrun

-- ============================================================================
-- One row a session
-- ============================================================================

/-- A server that takes feedback, with one session. -/
def feedbackServer : Sys :=
  let c := smallConfig 5 0
  bootSys (smallWorld [("u0", "10.0.0.1")])
    { c with server := { c.server with feedback := { c.server.feedback with enabled := true } } }

theorem feedbackServer_initial : Initial feedbackServer := bootSys_initial _ _

/-- A client rates its session. -/
def rates (rating : Int) : Env :=
  .rest (.feedback ⟨⟨"POST", "", "192.0.2.1:50000", [("id", "u0")], true⟩, "", some ⟨rating, "", 0, ""⟩⟩)

/-- What `dbGetFeedback` reports about the session, but for the id of the row. -/
def Db.said (db : Db) (id : Nat) : Option Feedback := (db.getFeedback id).map Prod.snd

/-- What the step writes about the session. -/
def writeOf (id : Nat) : Label → Option Feedback
  | .thread _ ⟨.query (.insertFeedback i f), .ok _⟩ => if i = id then some f else none
  | .thread _ ⟨.query (.updateFeedback f i), .ok _⟩ => if i = id then some f else none
  | _ => none

/-- What was written last about the session, in steps of which the last one comes first. -/
def lastWrite (id : Nat) (ls : List Label) : Option Feedback := ls.findSome? (writeOf id)

theorem lastWrite_cons (id : Nat) (l : Label) (ls : List Label) :
    lastWrite id (l :: ls) = (writeOf id l).or (lastWrite id ls) := by
  unfold lastWrite
  rw [List.findSome?_cons]
  cases writeOf id l <;> rfl

theorem said_eq (db : Db) (id : Nat) : db.said id =
    (db.feedback.select fun _ r => r.sessionId == id).getLast?.map fun r => r.2.content := by
  unfold Db.said Db.getFeedback
  rw [Option.map_map]
  rfl

theorem said_eq_none {db : Db} {id : Nat} : db.said id = none ↔ ¬ db.HasFeedback id := by
  rw [← getFeedback_eq_none, Db.said, Option.map_eq_none_iff]

/-- The INSERT adds the row that is read. -/
theorem said_insert (db : Db) (id i : Nat) (f : Feedback) :
    ({ db with feedback := db.feedback.insert (FeedbackRow.of i f) } : Db).said id =
      (if i = id then some f else none).or (db.said id) := by
  simp only [said_eq, Sql.Table.select_insert, FeedbackRow.of_sessionId, beq_iff_eq]
  by_cases h : i = id
  · simp [h]
  · simp [h]

/-- The UPDATE reaches every row that may be read, if there is one. -/
theorem said_update {db : Db} {id i : Nat} {f : Feedback} (hrow : db.HasFeedback i) :
    ({ db with feedback :=
      db.feedback.update (fun _ r => r.sessionId == i) (FeedbackRow.set f) } : Db).said id =
      (if i = id then some f else none).or (db.said id) := by
  have hselect := Sql.Table.select_update (t := db.feedback) (p := fun _ r => r.sessionId == i)
    (q := fun _ r => r.sessionId == id) (f := FeedbackRow.set f) fun _ _ _ => rfl
  simp only [said_eq, hselect, List.getLast?_map, Option.map_map]
  cases hlast : (db.feedback.select fun _ r => r.sessionId == id).getLast? with
  | none =>
    have hne : i ≠ id := by
      rintro rfl
      rw [← not_not (a := db.HasFeedback i), ← said_eq_none, said_eq, hlast] at hrow
      exact hrow rfl
    rw [if_neg hne]
    rfl
  | some r =>
    have hid : r.2.sessionId = id :=
      beq_iff_eq.mp (Sql.Table.mem_select.mp (List.mem_of_getLast? hlast)).2
    by_cases h : i = id
    · simp [h, hid]
    · simp [h, hid, Ne.symm h]

/-- A step leaves what it writes, or else what was there. -/
theorem said_step {db₀ : Db} {s s' : Sys} {l : Label} (hsound : Sound s)
    (hkept : FeedbackKept db₀ s) (hs : server.Step s l s') (id : Nat) :
    s'.world.db.said id = (writeOf id l).or (s.world.db.said id) := by
  cases l with
  | env e =>
    rw [(env_step hs).db]
    rfl
  | thread t e =>
    obtain ⟨p, l, hm⟩ := thread_step hsound.follow hs
    rw [hm.did.db]
    obtain ⟨o, r⟩ := e
    cases o with
    | query q =>
      cases r with
      | error err => cases q <;> rfl
      | ok a =>
        cases q with
        | insertFeedback i f => exact said_insert s.world.db id i f
        | updateFeedback f i =>
          have hallowed : Allowed p l (.query (.updateFeedback f i)) := hm.allowed
          obtain ⟨found, hselect⟩ := hallowed
          exact said_update (hkept.selected t p l i found hm.runs.ran hselect)
        | _ => rfl
    | _ => rfl

/-- At any moment of any run the table says about a session what was written last about it, or
    what it said at the start. -/
theorem said_trace {s₀ s : Sys} {ls : List Label} (h0 : Initial s₀) (htrace : server.Trace s₀ ls s)
    (id : Nat) : s.world.db.said id = (lastWrite id ls).or (s₀.world.db.said id) := by
  induction htrace with
  | refl => rfl
  | tail htrace hs ih =>
    obtain ⟨hsound, hkept⟩ := feedbackKept_run h0 htrace.run
    rw [said_step hsound hkept hs, ih, lastWrite_cons, Option.or_assoc]

/-- The SELECT is not cut short, or there is nothing to read, or the last row that it has read says
    what the last row of the session says. -/
def EndsOnLast (db : Db) (id : Nat) : Choice → Prop
  | .cut n => ∀ r, (db.feedbackRows id).getLast? = some r →
    ∃ r', ((db.feedbackRows id).take n).getLast? = some r' ∧ r'.2.content = r.2.content
  | _ => True

/-- A SELECT that is cut short answers what the table says exactly when it ends on such a row. -/
theorem cut_says_iff (db : Db) (id n : Nat) :
    ((db.feedbackRows id).take n).getLast?.map (fun r => r.2.content) = db.said id ↔
      EndsOnLast db id (.cut n) := by
  have hsaid : db.said id = (db.feedbackRows id).getLast?.map fun r => r.2.content := said_eq db id
  rw [hsaid]
  cases hlast : (db.feedbackRows id).getLast? with
  | none =>
    have hrows := List.getLast?_eq_none_iff.mp hlast
    rw [hrows, List.take_nil]
    refine iff_of_true rfl fun r hr => ?_
    rw [hlast] at hr
    cases hr
  | some r =>
    rw [Option.map_some, Option.map_eq_some_iff]
    refine ⟨fun h r' hr' => ?_, fun h => h r hlast⟩
    cases hlast.symm.trans hr'
    exact h

/-- The feedback of each session is a register: at any moment of any run, what the table says is
    what was written last about this session, or what was there at the start, and it says nothing
    exactly when there was nothing and nothing has been written.  A SELECT without an error answers
    what the register holds exactly when it ends on a row that says what the last row says. -/
theorem feedback_register_iff {s₀ s : Sys} {ls : List Label} (h0 : Initial s₀)
    (htrace : server.Trace s₀ ls s) (id : Nat) :
    s.world.db.said id = (lastWrite id ls).or (s₀.world.db.said id) ∧
    (s.world.db.getFeedback id = none ↔
      s₀.world.db.getFeedback id = none ∧ ∀ l ∈ ls, writeOf id l = none) ∧
    ∀ t ch found w, exec s.world t (.query (.dbGetFeedback id)) ch = some (.ok found, w) →
      (found.map Prod.snd = (lastWrite id ls).or (s₀.world.db.said id) ↔
        EndsOnLast s.world.db id ch) := by
  have hsaid := said_trace h0 htrace id
  refine ⟨hsaid, ?_, fun t ch found w hexec => ?_⟩
  · rw [getFeedback_eq_none, ← said_eq_none, hsaid, Option.or_eq_none_iff, getFeedback_eq_none,
      ← said_eq_none, and_comm]
    exact and_congr Iff.rfl List.findSome?_eq_none_iff
  · rw [← hsaid]
    cases ch with
    | cut n =>
      cases hexec
      rw [← cut_says_iff, Option.map_map]
      rfl
    | ok =>
      cases hexec
      exact iff_of_true rfl trivial
    | _ => cases hexec

/-- Thread `t` is about to read the feedback on session `id`. -/
def asksFeedback (t id : Nat) (s : Sys) : Bool :=
  match s.threads[t]? with
  | some ⟨_, true, _, .op (.query (.dbGetFeedback i)) _⟩ => i == id
  | _ => false

/-- A client asks for the feedback on its session. -/
def asksBack : Env :=
  .rest (.feedback ⟨⟨"GET", "", "192.0.2.1:50000", [("id", "u0")], true⟩, "", none⟩)

/-- Two ratings that race leave two rows, and the second one is read; a SELECT that fails after the
    first row answers the first one. -/
theorem feedback_register_small : ∃ s w, exec s.world 3 (.query (.dbGetFeedback 1)) .ok =
      some (.ok (some (2, ⟨1, "", 0, ""⟩)), w) ∧
    exec s.world 3 (.query (.dbGetFeedback 1)) (.cut 1) = some (.ok (some (1, ⟨5, "", 0, ""⟩)), w) ∧
    ¬ EndsOnLast s.world.db 1 (.cut 1) ∧
    ∃ ls, lastWrite 1 ls = some ⟨1, "", 0, ""⟩ ∧ server.Trace feedbackServer ls s := by
  obtain ⟨s, hrun, hs⟩ := server.run_of_check Machine.noTest (fun _ _ _ => trivial) feedbackServer
    (act (rates 5) ++ act (rates 1) ++ oks 1 7 ++ oks 2 7 ++ oks 1 1 ++ oks 2 1)
    (fun s => s.world.db.getFeedback 1 == some (2, ⟨1, "", 0, ""⟩) &&
      s.world.db.cut 1 (.dbGetFeedback 1) == some (some (1, ⟨5, "", 0, ""⟩))) (by decide +kernel)
  obtain ⟨hfull, hcut⟩ := Bool.and_eq_true_iff.mp hs
  have hok : exec s.world 3 (.query (.dbGetFeedback 1)) .ok =
      some (.ok (some (2, ⟨1, "", 0, ""⟩)), s.world) := by
    rw [← beq_iff_eq.mp hfull]
    rfl
  have hcut : exec s.world 3 (.query (.dbGetFeedback 1)) (.cut 1) =
      some (.ok (some (1, ⟨5, "", 0, ""⟩)), s.world) := by
    change Option.map (fun a => (Except.ok a, s.world)) (s.world.db.cut 1 (.dbGetFeedback 1)) = _
    rw [beq_iff_eq.mp hcut]
    rfl
  obtain ⟨ls, htrace⟩ := hrun.trace
  obtain ⟨-, -, hregister⟩ := feedback_register_iff feedbackServer_initial htrace 1
  have hnone : feedbackServer.world.db.said 1 = none := rfl
  rw [hnone, Option.or_none] at hregister
  have hlast := (hregister 3 .ok _ _ hok).mpr trivial
  refine ⟨s, s.world, hok, hcut, fun hends => ?_, ls, hlast.symm, htrace⟩
  have hsame := (hregister 3 (.cut 1) _ _ hcut).mpr hends
  rw [← hlast] at hsame
  simp at hsame

/-- A rating has been recorded; the SELECT of the next request fails before it has read a row, and
    `dbGetFeedback` reports no feedback and no error. -/
theorem feedback_lost : ¬ ∀ s₀ s ls t id found s', Initial s₀ → server.Trace s₀ ls s →
    server.Step s (.thread t ⟨.query (.dbGetFeedback id), .ok found⟩) s' →
    found.map Prod.snd = (lastWrite id ls).or (s₀.world.db.said id) := by
  intro hall
  obtain ⟨s, hrun, hs⟩ := server.run_of_check Machine.noTest (fun _ _ _ => trivial) feedbackServer
    (act (rates 5) ++ oks 1 9 ++ act asksBack ++ oks 2 4)
    (fun s => asksFeedback 2 1 s && s.world.db.said 1 == some ⟨5, "", 0, ""⟩) (by decide +kernel)
  obtain ⟨hasks, hsaid⟩ := Bool.and_eq_true_iff.mp hs
  obtain ⟨ls, htrace⟩ := hrun.trace
  unfold asksFeedback at hasks
  split at hasks
  · rename_i p l i k hth
    cases beq_iff_eq.mp hasks
    have hexec : server.exec s.world 2 (.query (.dbGetFeedback 1)) (.cut 0) =
        some (Except.ok none, s.world) := rfl
    have hlost := hall _ _ _ _ _ _ _ feedbackServer_initial htrace (.thread hth rfl rfl hexec)
    rw [← said_trace feedbackServer_initial htrace, beq_iff_eq.mp hsaid] at hlost
    cases hlost
  · cases hasks

end IncusDemo
