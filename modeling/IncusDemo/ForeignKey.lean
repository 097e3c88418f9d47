/-
  IncusDemo.ForeignKey

  The foreign key of the feedback.  The schema declares it with a cascade, but
  no connection enforces it, so it is the server that would have to keep it.
  It does as long as no session meets both a DELETE of its row and an INSERT of
  feedback, in either order; nothing in the code keeps the two apart.
-/

import IncusDemo.Sql.Reference
import IncusDemo.Register
import IncusDemo.Sessions

namespace IncusDemo

open Go Conc

-- ============================================================================
-- Statements
-- ============================================================================

/-- `FOREIGN KEY (session_id) REFERENCES sessions (id)`. -/
def Db.Intact (db : Db) : Prop := Sql.References FeedbackRow.sessionId db.feedback db.sessions

/-- The answer is from row `id` of `sessions`. -/
inductive Shows (id : Nat) : Event → Prop
  | found (uuid : String) (active : Bool) (f : Found) (h : f.sessionId = id) :
      Shows id ⟨.query (.dbGetInstance uuid active), .ok (some f)⟩
  | waiting : Shows id ⟨.query (.dbIsAllocated id), .ok true⟩
  | former (es : List Listed) (e : Listed) (he : e ∈ es) (h : e.id = id) :
      Shows id ⟨.query .dbAllocated, .ok es⟩

theorem unreferenced_iff {db : Db} {id : Nat} :
    Sql.Unreferenced FeedbackRow.sessionId db.feedback id ↔ ¬ db.HasFeedback id := by
  constructor
  · rintro hno ⟨i, a, ha, hid⟩
    exact hno i a ha hid
  · exact fun hno i a ha hid => hno ⟨i, a, ha, hid⟩

section Statements

variable {db : Db} {w : World} {e : Event} {id : Nat}

/-- Rows are read where there are rows. -/
theorem has_of_shows (ht : Truthful w e) (h : Shows id e) : w.db.sessions.Has id := by
  cases h with
  | found uuid active f hid =>
    obtain ⟨i, a, ha, -, -, rfl⟩ := w.db.session_of_answers ht
    cases hid
    exact ⟨a, ha⟩
  | waiting =>
    obtain ⟨a, ha, -⟩ := waiting_of_isAllocated ht
    exact ⟨a, ha⟩
  | former es x hx hid =>
    have hanswer : es = w.db.listStatus 2 := ht
    obtain ⟨a, ha, -⟩ := mem_listStatus.mp (hanswer ▸ hx)
    cases hid
    exact ⟨a, ha⟩

/-- A row that is there after a statement was there before, and was not deleted, or has a new
    id. -/
theorem has_after : (dbAfter e db).sessions.Has id ↔
    (db.sessions.Has id ∧ e ≠ ⟨.query (.dbDelete id), .ok ()⟩) ∨
    ((∃ row i, e = ⟨.query (.dbNew row), .ok i⟩) ∧ id = db.sessions.nextId) := by
  have hkept : ∀ e' : Event, e' ≠ ⟨.query (.dbDelete id), .ok ()⟩ →
      (∀ row i, e' ≠ ⟨.query (.dbNew row), .ok i⟩) → (db.sessions.Has id ↔
        (db.sessions.Has id ∧ e' ≠ ⟨.query (.dbDelete id), .ok ()⟩) ∨
        ((∃ row i, e' = ⟨.query (.dbNew row), .ok i⟩) ∧ id = db.sessions.nextId)) := by
    intro e' hdelete hnew
    refine ⟨fun h => .inl ⟨h, hdelete⟩, ?_⟩
    rintro (⟨h, -⟩ | ⟨⟨row, i, heq⟩, -⟩)
    · exact h
    · exact absurd heq (hnew row i)
  obtain ⟨o, r⟩ := e
  cases o with
  | query q =>
    cases r with
    | error err => exact hkept _ (fun h => nomatch h) (fun _ _ h => nomatch h)
    | ok a =>
      cases q with
      | dbNew row =>
        refine Sql.Table.has_insert.trans (or_congr ?_ ?_)
        · exact ⟨fun h => ⟨h, fun heq => nomatch heq⟩, And.left⟩
        · exact ⟨fun h => ⟨⟨row, a, rfl⟩, h⟩, And.right⟩
      | dbDelete i =>
        refine Sql.Table.has_delete.trans ⟨fun h => .inl ⟨h.1, ?_⟩, ?_⟩
        · rintro heq
          cases heq
          exact h.2 rfl
        · rintro (⟨h, hne⟩ | ⟨⟨row, i, heq⟩, -⟩)
          · refine ⟨h, ?_⟩
            rintro rfl
            exact hne rfl
          · cases heq
      | dbExpire i =>
        exact Sql.Table.has_update.trans (hkept _ (fun h => nomatch h) (fun _ _ h => nomatch h))
      | updateAllocated expiry date ip terms i =>
        exact Sql.Table.has_update.trans (hkept _ (fun h => nomatch h) (fun _ _ h => nomatch h))
      | _ => exact hkept _ (fun h => nomatch h) (fun _ _ h => nomatch h)
  | _ => exact hkept _ (fun h => nomatch h) (fun _ _ h => nomatch h)

/-- The statements that keep the foreign key. -/
theorem intact_after (h : db.Intact) : (dbAfter e db).Intact ↔
    (∀ id, e = ⟨.query (.dbDelete id), .ok ()⟩ → ¬ db.HasFeedback id) ∧
    (∀ id f, e = ⟨.query (.insertFeedback id f), .ok ()⟩ → db.sessions.Has id) := by
  obtain ⟨o, r⟩ := e
  cases o with
  | query q =>
    cases r with
    | error err => exact iff_of_true h ⟨fun _ heq => (nomatch heq), fun _ _ heq => (nomatch heq)⟩
    | ok a =>
      cases q with
      | dbDelete id =>
        refine (Sql.references_delete_parent h).trans (unreferenced_iff.trans ⟨fun hno => ?_, ?_⟩)
        · refine ⟨fun id' heq => ?_, fun _ _ heq => (nomatch heq)⟩
          cases heq
          exact hno
        · exact fun hno => hno.1 id rfl
      | insertFeedback id f =>
        refine (Sql.references_insert_child h).trans ⟨fun hhas => ?_, fun hhas => hhas.2 id f rfl⟩
        refine ⟨fun _ heq => (nomatch heq), fun id' f' heq => ?_⟩
        cases heq
        exact hhas
      | dbNew row =>
        exact iff_of_true (Sql.references_insert_parent h)
          ⟨fun _ heq => (nomatch heq), fun _ _ heq => (nomatch heq)⟩
      | dbExpire id =>
        exact iff_of_true (Sql.references_update_parent h)
          ⟨fun _ heq => (nomatch heq), fun _ _ heq => (nomatch heq)⟩
      | updateAllocated expiry date ip terms id =>
        exact iff_of_true (Sql.references_update_parent h)
          ⟨fun _ heq => (nomatch heq), fun _ _ heq => (nomatch heq)⟩
      | updateFeedback f id =>
        exact iff_of_true (Sql.references_update_child (fun _ => rfl) h)
          ⟨fun _ heq => (nomatch heq), fun _ _ heq => (nomatch heq)⟩
      | _ => exact iff_of_true h ⟨fun _ heq => (nomatch heq), fun _ _ heq => (nomatch heq)⟩
  | _ => exact iff_of_true h ⟨fun _ heq => (nomatch heq), fun _ _ heq => (nomatch heq)⟩

end Statements

-- ============================================================================
-- Runs
-- ============================================================================

/-- A thread has deleted the row. -/
def Deleted (s : Sys) (id : Nat) : Prop := Happened s ⟨.query (.dbDelete id), .ok ()⟩

/-- What `sessions` has to do with what threads have read and deleted. -/
structure RowsKept (s : Sys) : Prop where
  shown : ∀ e id, Happened s e → Shows id e → s.world.db.sessions.Has id ∨ Deleted s id
  deleted : ∀ id, Deleted s id →
    id ≤ s.world.db.sessions.seq ∧ ¬ s.world.db.sessions.Has id

theorem Initial.rowsKept {s : Sys} (h : Initial s) : RowsKept s :=
  ⟨fun e _ hhap _ => absurd hhap (h.not_happened e), fun _ hdel => absurd hdel (h.not_happened _)⟩

section Steps

variable {s s' : Sys} {t : Nat} {p : Proc} {l : Log} {e : Event} {id : Nat}

/-- A thread deletes a row that it has read. -/
theorem shown_of_mayDelete (h : MayDelete p l id) : ∃ e ∈ l, Shows id e := by
  cases h with
  | unclaimed name _ hdoomed => exact ⟨_, hdoomed.1, .waiting⟩
  | former e rest _ hl hid =>
    obtain ⟨es, hes, he⟩ := listed_of_former hl
    exact ⟨_, hes, .former es e he hid⟩

theorem shown_of_looked (h : Looked l id) : ∃ e ∈ l, Shows id e := by
  obtain ⟨uuid, active, f, hf, hid⟩ := h
  exact ⟨_, hf, .found uuid active f hid⟩

/-- A row that the thread has read is there, unless it was deleted. -/
theorem RowsKept.of_shown (h : RowsKept s) (hr : Ran s t p l) (hshown : ∃ e ∈ l, Shows id e) :
    s.world.db.sessions.Has id ∨ Deleted s id := by
  obtain ⟨e, he, hshows⟩ := hshown
  exact h.shown e id ⟨t, p, l, hr, he⟩ hshows

theorem RowsKept.threadStep (h : RowsKept s) (hm : ThreadStep s t p l e s') : RowsKept s' := by
  constructor
  · intro x id hx hshows
    have hbefore : s.world.db.sessions.Has id ∨ Deleted s id := by
      rcases (happened_threadStep hm).mp hx with hx | rfl
      · exact h.shown x id hx hshows
      · exact .inl (has_of_shows hm.did.truthful hshows)
    unfold Deleted
    rw [hm.did.db, has_after, happened_threadStep hm]
    rcases hbefore with hhas | hdel
    · by_cases heq : e = ⟨.query (.dbDelete id), .ok ()⟩
      · exact .inr (.inr heq.symm)
      · exact .inl (.inl ⟨hhas, heq⟩)
    · exact .inr (.inl hdel)
  · intro id hdel
    have hold : id ≤ s.world.db.sessions.seq := by
      rcases (happened_threadStep hm).mp hdel with hdel | rfl
      · exact (h.deleted id hdel).1
      · rcases h.of_shown hm.runs.ran (shown_of_mayDelete hm.allowed) with hhas | hdel
        · exact hhas.le_seq
        · exact (h.deleted id hdel).1
    refine ⟨hold.trans (seq_after hm.did), ?_⟩
    rw [hm.did.db, has_after]
    rintro (⟨hhas, hne⟩ | ⟨-, hnew⟩)
    · rcases (happened_threadStep hm).mp hdel with hdel | heq
      · exact (h.deleted id hdel).2 hhas
      · exact hne heq.symm
    · -- a new id is larger than all that were given out
      have hlt : s.world.db.sessions.seq < s.world.db.sessions.nextId := Nat.lt_succ_self _
      omega

theorem RowsKept.envStep {e : Env} (h : RowsKept s) (hm : EnvStep s e s') : RowsKept s' := by
  constructor
  · intro x id hx hshows
    unfold Deleted
    rw [hm.db, happened_envStep hm]
    exact h.shown x id ((happened_envStep hm).mp hx) hshows
  · intro id hdel
    rw [hm.db]
    exact h.deleted id ((happened_envStep hm).mp hdel)

end Steps

theorem rowsKept_run {C : Sys → Label → Prop} {s₀ s : Sys} (h0 : Initial s₀)
    (hrun : server.Run C s₀ s) : Sound s ∧ RowsKept s :=
  invariant_run h0.sound h0.rowsKept (fun _ _ _ _ _ _ _ hI _ hm => hI.threadStep hm)
    (fun _ _ _ _ hI _ hm => hI.envStep hm) hrun

-- ============================================================================
-- The foreign key
-- ============================================================================

/-- The step deletes no session that has feedback, and inserts no feedback on a session that has
    been deleted. -/
structure Apart (s : Sys) (l : Label) : Prop where
  delete : ∀ t id, l = .thread t ⟨.query (.dbDelete id), .ok ()⟩ → ¬ s.world.db.HasFeedback id
  insert : ∀ t id f, l = .thread t ⟨.query (.insertFeedback id f), .ok ()⟩ → ¬ Deleted s id

/-- The session of an INSERT is there exactly when nobody has deleted it, for the handler has
    found it. -/
theorem has_iff_not_deleted {s s' : Sys} {t : Nat} {p : Proc} {l : Log} {id : Nat} {f : Feedback}
    (h : RowsKept s) (hm : ThreadStep s t p l ⟨.query (.insertFeedback id f), .ok ()⟩ s') :
    s.world.db.sessions.Has id ↔ ¬ Deleted s id := by
  have hallowed : Looked l id ∧ ⟨.query (.dbGetFeedback id), .ok none⟩ ∈ l := hm.allowed
  constructor
  · exact fun hhas hdel => (h.deleted id hdel).2 hhas
  · exact (h.of_shown hm.runs.ran (shown_of_looked hallowed.1)).resolve_right

theorem intact_step {s s' : Sys} {l : Label} (hsound : Sound s) (hkept : RowsKept s)
    (h : s.world.db.Intact) (hs : server.Step s l s') : s'.world.db.Intact ↔ Apart s l := by
  cases l with
  | env e =>
    rw [(env_step hs).db]
    exact iff_of_true h ⟨fun _ _ heq => (nomatch heq), fun _ _ _ heq => (nomatch heq)⟩
  | thread t e =>
    obtain ⟨p, l, hm⟩ := thread_step hsound.follow hs
    rw [hm.did.db, intact_after h]
    constructor
    · rintro ⟨hdelete, hinsert⟩
      constructor
      · intro u id heq
        cases heq
        exact hdelete id rfl
      · intro u id f heq
        cases heq
        exact (has_iff_not_deleted hkept hm).mp (hinsert id f rfl)
    · intro hapart
      constructor
      · rintro id rfl
        exact hapart.delete t id rfl
      · rintro id f rfl
        exact (has_iff_not_deleted hkept hm).mpr (hapart.insert t id f rfl)

/-- A run keeps the foreign key all the way exactly when it deletes no session with feedback and
    inserts no feedback on a deleted session. -/
theorem feedback_intact_iff {s₀ s : Sys} (h0 : Initial s₀) (hintact : s₀.world.db.Intact) :
    server.Run Apart s₀ s ↔
      server.Run (fun s _ => s.world.db.Intact) s₀ s ∧ s.world.db.Intact := by
  refine Machine.run_iff_of_step (G := fun s : Sys => s.world.db.Intact) hintact (fun _ _ h => h) ?_ ?_
  · intro s₁ l s₂ hrun h hs hapart
    obtain ⟨hsound, hkept⟩ := rowsKept_run h0 hrun
    exact ⟨h, (intact_step hsound hkept h hs).mpr hapart⟩
  · intro s₁ l s₂ hrun h hs hnext
    obtain ⟨hsound, hkept⟩ := rowsKept_run h0 hrun
    exact (intact_step hsound hkept h hs).mp hnext

/-- The test for `Apart`. -/
def apart (s : Sys) : Label → Bool
  | .thread _ ⟨.query (.dbDelete id), .ok _⟩ => s.world.db.feedback.rows.all fun r =>
    r.2.sessionId != id
  | .thread _ ⟨.query (.insertFeedback id _), .ok _⟩ => s.threads.all fun th => th.log.all fun e =>
    match e with
    | ⟨.query (.dbDelete i), .ok _⟩ => i != id
    | _ => true
  | _ => true

theorem of_apart (s : Sys) (l : Label) (h : apart s l = true) : Apart s l := by
  constructor
  · rintro t id rfl ⟨i, a, ha, hid⟩
    have h := List.all_eq_true.mp h (i, a) ha
    simp [hid] at h
  · rintro t id f rfl ⟨u, q, m, ⟨th, hth, rfl, rfl⟩, hmem⟩
    have h := List.all_eq_true.mp (List.all_eq_true.mp h th (List.mem_of_getElem? hth)) _ hmem
    simp at h

/-- A server that takes feedback, with a pool of one instance and no session. -/
def feedbackPool : Sys :=
  let c := smallConfig 5 1
  bootSys (smallWorld [])
    { c with server := { c.server with feedback := { c.server.feedback with enabled := true } } }

theorem feedbackPool_initial : Initial feedbackPool := bootSys_initial _ _

theorem feedbackPool_intact : feedbackPool.world.db.Intact := fun _ _ h => absurd h List.not_mem_nil

/-- The rows of both tables: the ids of the sessions, and the sessions that have feedback. -/
def keys (s : Sys) : List Nat × List Nat :=
  (s.world.db.sessions.rows.map Prod.fst, s.world.db.feedback.rows.map fun r => r.2.sessionId)

/-- The only instance of the pool is made and the clock moves: the callback of its timer runs, as
    thread 2. -/
def poolExpires (now : Time) : List (Sys → Action) := oks 0 47 ++ act (.tick now) ++ act (.fire 0)

/-- A client gets its session and rates it; only then the callback looks at the row. -/
theorem feedback_intact_small : ∃ s, s.world.db.Intact ∧ (keys s == ([1], [1])) = true := by
  obtain ⟨s, hrun, hs⟩ := server.run_of_check apart of_apart feedbackPool
    (poolExpires 3600000000000 ++ act (.request (startRequest "192.0.2.1")) ++ oks 3 26 ++
      act (rates 5) ++ oks 5 9 ++ oks 2 1)
    (fun s => keys s == ([1], [1])) (by decide +kernel)
  have hsmall := feedback_intact_iff feedbackPool_initial feedbackPool_intact (s := s)
  exact ⟨s, (hsmall.mp hrun).2, hs⟩

/-- The callback has found the row waiting before the client gets it, and deletes it after the
    rating is there. -/
theorem feedback_dangles : ¬ ∀ s₀ s, Initial s₀ → s₀.world.db.Intact →
    server.Run Machine.anyStep s₀ s → s.world.db.Intact := by
  intro hall
  obtain ⟨s, hrun, hs⟩ := server.run_of_check Machine.noTest (fun _ _ _ => trivial) feedbackPool
    (poolExpires 3600000000000 ++ oks 2 1 ++ act (.request (startRequest "192.0.2.1")) ++ oks 3 26 ++
      act (rates 5) ++ oks 5 9 ++ oks 2 6)
    (fun s => keys s == ([], [1])) (by decide +kernel)
  have hintact := hall _ s feedbackPool_initial feedbackPool_intact hrun
  obtain ⟨hnone, hone⟩ := Prod.mk.inj (beq_iff_eq.mp hs)
  have hmem : 1 ∈ s.world.db.feedback.rows.map fun r => r.2.sessionId := by simp [hone]
  obtain ⟨⟨i, b⟩, hb, hid⟩ := List.mem_map.mp hmem
  obtain ⟨a, ha⟩ := hintact i b hb
  have hrow := List.mem_map_of_mem (f := Prod.fst) ha
  rw [hnone] at hrow
  cases hrow

end IncusDemo
