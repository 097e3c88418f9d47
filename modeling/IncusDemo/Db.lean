/-
  IncusDemo.Db

  The database (db.go): its two tables and the statements the server runs on
  them.  Each statement is atomic.  A function of db.go that runs one statement
  is that statement; `dbGetAllocated` and `dbRecordFeedback`, which run two, are
  programs over them (Instance.lean, Feedback.lean).

  The connection string enables no foreign keys, so a statement on one table
  leaves the other as it is.

  A SELECT can also fail once it has answered some rows.  `dbQueryScan` asks
  `rows.Err` after its loop and returns that error, or starts over when the
  database was locked; of its attempts the last one is the statement.
  `dbGetInstance` and `dbGetFeedback` run `dbQuery`, which retries only what
  `db.Query` itself refuses, and loop over the rows without asking `rows.Err`:
  when the SELECT is cut short they go by the rows they have seen (`Db.cut`).
-/

import IncusDemo.Go.Std
import IncusDemo.Sql.Table

namespace IncusDemo

open Go Sql

/-- A row of `sessions` without its id.  The status is 0 for an active session, 1 for an
    expired one and 2 for a pre-allocated instance no client has claimed. -/
structure Session where
  uuid : String
  status : Nat
  instanceName : String
  instanceIP : String
  instanceUsername : String
  instancePassword : String
  instanceExpiry : Int
  requestDate : Int
  requestIP : String
  requestTerms : String
  deriving DecidableEq

/-- What a client says about its session. -/
structure Feedback where
  rating : Int
  email : String
  emailUse : Int
  message : String
  deriving DecidableEq

/-- A row of `feedback` without its id. -/
structure FeedbackRow where
  sessionId : Nat
  rating : Int
  email : String
  emailUse : Int
  feedback : String
  deriving DecidableEq

/-- The content of `database.sqlite3`. -/
structure Db where
  sessions : Table Session
  feedback : Table FeedbackRow

/-- What `dbActive` and `dbAllocated` read of a row. -/
structure Listed where
  id : Nat
  instanceName : String
  instanceExpiry : Int
  deriving DecidableEq

/-- What `dbGetInstance` reads of a row. -/
structure Found where
  sessionId : Nat
  instanceName : String
  instanceIP : String
  instanceUsername : String
  instancePassword : String
  instanceExpiry : Int
  deriving DecidableEq

namespace Session

/-- The row is active and counts against the limits. -/
def isActive (s : Session) : Bool := s.status == 0

/-- The row is active and was requested from `ip`. -/
def isActiveFor (ip : String) (s : Session) : Bool := s.status == 0 && s.requestIP == ip

/-- The row waits to be claimed. -/
def isAllocated (s : Session) : Bool := s.status == 2

/-- `UPDATE sessions SET status=0, instance_expiry=?, request_date=?, ...`. -/
def claim (expiry date : Int) (ip terms : String) (s : Session) : Session :=
  { s with status := 0, instanceExpiry := expiry, requestDate := date, requestIP := ip
           requestTerms := terms }

/-- `UPDATE sessions SET status=1`. -/
def expired (s : Session) : Session := { s with status := 1 }

def listed (id : Nat) (s : Session) : Listed := ⟨id, s.instanceName, s.instanceExpiry⟩

def found (id : Nat) (s : Session) : Found :=
  ⟨id, s.instanceName, s.instanceIP, s.instanceUsername, s.instancePassword, s.instanceExpiry⟩

end Session

namespace FeedbackRow

/-- The row that `dbRecordFeedback` inserts for a session. -/
def of (sessionId : Nat) (f : Feedback) : FeedbackRow :=
  ⟨sessionId, f.rating, f.email, f.emailUse, f.message⟩

/-- `UPDATE feedback SET rating=?, email=?, email_use=?, feedback=?`. -/
def set (f : Feedback) (r : FeedbackRow) : FeedbackRow :=
  { r with rating := f.rating, email := f.email, emailUse := f.emailUse, feedback := f.message }

/-- What the row says, whatever session it is for. -/
def content (r : FeedbackRow) : Feedback := ⟨r.rating, r.email, r.emailUse, r.feedback⟩

@[simp] theorem of_sessionId (id : Nat) (f : Feedback) : (of id f).sessionId = id := rfl

@[simp] theorem of_content (id : Nat) (f : Feedback) : (of id f).content = f := rfl

@[simp] theorem set_sessionId (f : Feedback) (r : FeedbackRow) :
    (r.set f).sessionId = r.sessionId := rfl

@[simp] theorem set_content (f : Feedback) (r : FeedbackRow) : (r.set f).content = f := rfl

end FeedbackRow

/-- `ORDER BY instance_expiry ASC LIMIT 1`: the first row of the least expiry. -/
def oldest : List (Nat × Session) → Option (Nat × Session)
  | [] => none
  | r :: rs =>
    match oldest rs with
    | none => some r
    | some b => if b.2.instanceExpiry < r.2.instanceExpiry then some b else some r

theorem oldest_mem {l : List (Nat × Session)} {r : Nat × Session} (h : oldest l = some r) :
    r ∈ l := by
  induction l with
  | nil => cases h
  | cons a l ih =>
    simp only [oldest] at h
    split at h
    · cases h
      exact List.mem_cons_self ..
    · rename_i b hb
      split at h
      · exact List.mem_cons_of_mem _ (ih (hb.trans h))
      · cases h
        exact List.mem_cons_self ..

-- ============================================================================
-- Statements
-- ============================================================================

/-- The `WHERE` clause of `dbGetStats`. -/
inductive StatsWhere where
  | all
  /-- `WHERE status=0`. -/
  | current
  /-- `WHERE request_date > creation`. -/
  | since (creation : Int)
  deriving DecidableEq

/-- The rows that the clause selects. -/
def StatsWhere.holds (w : StatsWhere) (s : Session) : Bool :=
  match w with
  | .all => true
  | .current => s.status == 0
  | .since creation => decide (creation < s.requestDate)

/-- The statements of db.go, by the function that runs them. -/
inductive Query where
  | dbShouldExist (name : String)
  | dbActive
  | dbAllocated
  | dbGetInstance (id : String) (active : Bool)
  | dbNew (row : Session)
  | dbDelete (id : Nat)
  | dbExpire (id : Nat)
  | dbIsAllocated (id : Nat)
  /-- The SELECT of `dbGetAllocated`. -/
  | selectAllocated
  /-- The UPDATE of `dbGetAllocated`. -/
  | updateAllocated (instanceExpiry requestDate : Int) (requestIP requestTerms : String) (id : Nat)
  | dbActiveCount
  | dbActiveCountForIP (ip : String)
  | dbNextExpire
  | dbGetFeedback (id : Nat)
  /-- The INSERT of `dbRecordFeedback`. -/
  | insertFeedback (id : Nat) (feedback : Feedback)
  /-- The UPDATE of `dbRecordFeedback`. -/
  | updateFeedback (feedback : Feedback) (id : Nat)
  /-- `SELECT count(request_ip)` or `SELECT count(distinct request_ip)`, of `dbGetStats`. -/
  | countRequestIP (unique : Bool) (where_ : StatsWhere)
  /-- `SELECT request_ip` or `SELECT distinct request_ip`, of `dbGetStats`. -/
  | selectRequestIP (unique : Bool) (where_ : StatsWhere)
  deriving DecidableEq

/-- What a statement answers when it does not fail. -/
abbrev Query.Res : Query → Type
  | .dbShouldExist _ => Bool
  | .dbActive | .dbAllocated => List Listed
  | .dbGetInstance _ _ => Option Found
  | .dbNew _ => Nat
  | .dbDelete _ | .dbExpire _ | .updateAllocated .. => Unit
  | .dbIsAllocated _ => Bool
  | .selectAllocated => Option (Nat × Session)
  | .dbActiveCount | .dbActiveCountForIP _ | .countRequestIP _ _ => Int
  | .dbNextExpire => Option Int
  | .dbGetFeedback _ => Option (Nat × Feedback)
  | .insertFeedback _ _ | .updateFeedback _ _ => Unit
  | .selectRequestIP _ _ => List String

namespace Db

variable (db : Db)

/-- `SELECT COUNT(id) FROM sessions WHERE instance_name=? AND status IN (0, 2)`, compared to 1. -/
def shouldExist (name : String) : Bool :=
  db.sessions.count (fun _ s => s.instanceName == name && (s.status == 0 || s.status == 2)) == 1

/-- `SELECT id, instance_name, instance_expiry FROM sessions WHERE status=?`. -/
def listStatus (status : Nat) : List Listed :=
  (db.sessions.select fun _ s => s.status == status).map fun r => r.2.listed r.1

/-- The rows that the SELECT of `dbGetInstance` goes through. -/
def instanceRows (id : String) (active : Bool) : List (Nat × Session) :=
  db.sessions.select fun _ s => (!active || s.status == 0) && s.uuid == id

/-- `dbGetInstance`: the loop over the rows keeps the last one; none is found when the id
    stays at -1. -/
def getInstance (id : String) (active : Bool) : Option Found :=
  (db.instanceRows id active).getLast?.map fun r => r.2.found r.1

/-- `SELECT ... FROM sessions WHERE status=2 ORDER BY instance_expiry ASC LIMIT 1`. -/
def selectAllocated : Option (Nat × Session) := oldest (db.sessions.select fun _ s => s.isAllocated)

/-- `UPDATE sessions SET f WHERE id=?`. -/
def updateId (id : Nat) (f : Session → Session) : Db :=
  { db with sessions := db.sessions.update (fun i _ => i = id) f }

/-- `DELETE FROM sessions WHERE id=?`. -/
def deleteId (id : Nat) : Db :=
  { db with sessions := db.sessions.delete fun i _ => i = id }

def activeCount : Nat := db.sessions.count fun _ s => s.isActive

def activeCountForIP (ip : String) : Nat := db.sessions.count fun _ s => s.isActiveFor ip

/-- `SELECT MIN(instance_expiry) FROM sessions WHERE status=0`, which is NULL over no rows. -/
def nextExpire : Option Int :=
  ((db.sessions.select fun _ s => s.isActive).map fun r => r.2.instanceExpiry).min?

/-- The rows that the SELECT of `dbGetFeedback` goes through. -/
def feedbackRows (id : Nat) : List (Nat × FeedbackRow) :=
  db.feedback.select fun _ r => r.sessionId == id

/-- `dbGetFeedback`: the loop over the rows keeps the last one; there is none when the id stays
    at -1. -/
def getFeedback (id : Nat) : Option (Nat × Feedback) :=
  (db.feedbackRows id).getLast?.map fun r => (r.1, r.2.content)

/-- `SELECT [distinct] request_ip FROM sessions WHERE ...`. -/
def requestIPs (unique : Bool) (w : StatsWhere) : List String :=
  let ips := (db.sessions.select fun _ s => w.holds s).map fun r => r.2.requestIP
  if unique then ips.dedup else ips

/-- A statement's answer and the database it leaves. -/
def run : (q : Query) → q.Res × Db
  | .dbShouldExist name => (db.shouldExist name, db)
  | .dbActive => (db.listStatus 0, db)
  | .dbAllocated => (db.listStatus 2, db)
  | .dbGetInstance id active => (db.getInstance id active, db)
  | .dbNew row => (db.sessions.nextId, { db with sessions := db.sessions.insert row })
  | .dbDelete id => ((), db.deleteId id)
  | .dbExpire id => ((), db.updateId id Session.expired)
  | .dbIsAllocated id => (db.sessions.count (fun i s => s.isAllocated && i == id) == 1, db)
  | .selectAllocated => (db.selectAllocated, db)
  | .updateAllocated expiry date ip terms id =>
    ((), db.updateId id (Session.claim expiry date ip terms))
  | .dbActiveCount => (db.activeCount, db)
  | .dbActiveCountForIP ip => (db.activeCountForIP ip, db)
  | .dbNextExpire => (db.nextExpire, db)
  | .dbGetFeedback id => (db.getFeedback id, db)
  | .insertFeedback id f =>
    ((), { db with feedback := db.feedback.insert (FeedbackRow.of id f) })
  | .updateFeedback f id =>
    ((), { db with feedback := db.feedback.update (fun _ r => r.sessionId == id) (FeedbackRow.set f) })
  | .countRequestIP unique w => ((db.requestIPs unique w).length, db)
  | .selectRequestIP unique w => (db.requestIPs unique w, db)

/-- What the functions that never ask `rows.Err` answer, without an error, when their SELECT
    fails after `n` rows. -/
def cut (n : Nat) : (q : Query) → Option q.Res
  | .dbGetInstance id active =>
    some (((db.instanceRows id active).take n).getLast?.map fun r => r.2.found r.1)
  | .dbGetFeedback id =>
    some (((db.feedbackRows id).take n).getLast?.map fun r => (r.1, r.2.content))
  | _ => none

/-- What a statement may answer when it reports no error. -/
def Answers : (q : Query) → q.Res → Prop
  | .dbGetInstance id active, a =>
    ∃ n, a = ((db.instanceRows id active).take n).getLast?.map fun r => r.2.found r.1
  | .dbGetFeedback id, a =>
    ∃ n, a = ((db.feedbackRows id).take n).getLast?.map fun r => (r.1, r.2.content)
  | q, a => a = (db.run q).1

theorem answers_run (q : Query) : db.Answers q (db.run q).1 := by
  cases q with
  | dbGetInstance id active =>
    exact ⟨(db.instanceRows id active).length, by rw [List.take_length]; rfl⟩
  | dbGetFeedback id => exact ⟨(db.feedbackRows id).length, by rw [List.take_length]; rfl⟩
  | _ => rfl

/-- The session that `dbGetInstance` finds is that of a row with the id, an active one if asked,
    whether its SELECT is cut short or not. -/
theorem session_of_answers {id : String} {active : Bool} {f : Found}
    (h : db.Answers (.dbGetInstance id active) (some f)) :
    ∃ i a, (i, a) ∈ db.sessions.rows ∧ a.uuid = id ∧ (active = true → a.status = 0) ∧
      f = a.found i := by
  obtain ⟨n, h⟩ := h
  obtain ⟨⟨i, a⟩, hlast, rfl⟩ := Option.map_eq_some_iff.mp h.symm
  obtain ⟨ha, hsel⟩ := Table.mem_select.mp (List.mem_of_mem_take (List.mem_of_getLast? hlast))
  simp only [Bool.and_eq_true, Bool.or_eq_true, Bool.not_eq_true', beq_iff_eq] at hsel
  exact ⟨i, a, ha, hsel.2, fun hactive => hsel.1.resolve_left (by simp [hactive]), rfl⟩

/-- A SELECT that is cut short leaves the database as it is, as it would in full. -/
theorem answers_cut {n : Nat} {q : Query} {a : q.Res} (h : db.cut n q = some a) :
    db.Answers q a ∧ (db.run q).2 = db := by
  cases q with
  | dbGetInstance id active => exact ⟨⟨n, (Option.some.inj h).symm⟩, rfl⟩
  | dbGetFeedback id => exact ⟨⟨n, (Option.some.inj h).symm⟩, rfl⟩
  | _ => cases h

end Db
end IncusDemo
