/-
  IncusDemo.Protocol

  The abstract view of a thread: what it is in the middle of, read off its log,
  and which operations it may perform there.

  A phase is a fold over the log, so it needs no bookkeeping in the state.
  `Allowed p l o` is the protocol: thread `p` may perform `o` after the log
  `l`.  It constrains the operations that the properties of the system depend
  on (who inserts, claims, expires and deletes rows, who makes and deletes
  instances, who holds the lock, who arms which timer, what feedback is stored
  on); every other operation is allowed.  Follows.lean proves that the code keeps to it.
-/

import IncusDemo.Server

namespace IncusDemo

open Go Conc

-- ============================================================================
-- Phases
-- ============================================================================

/-- Where a thread is with the instance it makes. -/
inductive Attempt where
  | idle
  /-- Holds the read lock; no name is drawn yet. -/
  | locked
  | drawn (u : String)
  /-- The instance exists; `instanceCreate` goes on. -/
  | made (u : String)
  /-- `instanceCreate` has returned it; no row is recorded for it yet. -/
  | returned (u : String)
  /-- It was returned, and will not be recorded. -/
  | abandoned (u : String)
  | recorded (id : Nat) (row : Session)

namespace Attempt

/-- The instance of the attempt has been made. -/
def create : Attempt → Attempt
  | .drawn u => .made u
  | a => a

/-- The returned instance is given up. -/
def giveUp : Attempt → Attempt
  | .returned u => .abandoned u
  | a => a

def next (a : Attempt) (e : Event) : Attempt :=
  match e with
  | ⟨.rLock, _⟩ => .locked
  | ⟨.newRandom, u⟩ =>
    match a with
    | .locked => .drawn u
    | a => a
  | ⟨.wait _ (.copyInstance ..), .ok _⟩ => a.create
  | ⟨.wait _ (.createInstance _), .ok _⟩ => a.create
  | ⟨.rUnlock none, _⟩ => .idle
  | ⟨.rUnlock (some _), _⟩ =>
    match a with
    | .made u => .returned u
    | a => a
  | ⟨.call _ (.updateInstanceState _ action _), _⟩ => if action = "stop" then a.giveUp else a
  | ⟨.query (.dbNew row), .ok id⟩ => .recorded id row
  | ⟨.query (.dbNew _), .error _⟩ => a.giveUp
  | _ => a

/-- The thread is inside `instanceCreate`. -/
def inside : Attempt → Bool
  | .locked | .drawn _ | .made _ => true
  | _ => false

/-- The random id of an attempt for which no row is recorded. -/
def unrecorded : Attempt → Option String
  | .drawn u | .made u | .returned u | .abandoned u => some u
  | _ => none

/-- The thread has made instance `u` and no row is recorded for it. -/
def owns (a : Attempt) (u : String) : Prop := a = .made u ∨ a = .returned u ∨ a = .abandoned u

end Attempt

/-- Where a thread is with the row it claims. -/
inductive Claim where
  | none
  /-- The SELECT of `dbGetAllocated` found the row; the UPDATE is still to come. -/
  | picked (id : Nat) (row : Session)
  | claimed (id : Nat) (row : Session) (instanceExpiry : Int)

namespace Claim

def next (c : Claim) (e : Event) : Claim :=
  match e with
  | ⟨.query .selectAllocated, .ok (some row)⟩ => .picked row.1 row.2
  | ⟨.query (.updateAllocated expiry _ _ _ _), .ok _⟩ =>
    match c with
    | .picked id row => .claimed id row expiry
    | c => c
  | ⟨.query (.updateAllocated ..), .error _⟩ => .none
  | _ => c

end Claim

/-- Where a thread is with a pass of `instanceResync`. -/
inductive Pass where
  | idle
  /-- Holds the write lock. -/
  | holding
  | listed (names : List String)
  /-- `dbShouldExist` has just denied `name`. -/
  | missing (names : List String) (name : String)

namespace Pass

/-- The names that the pass has listed. -/
def names : Pass → List String
  | .listed ns | .missing ns _ => ns
  | _ => []

def next (c : Pass) (e : Event) : Pass :=
  match e with
  | ⟨.lock, _⟩ => .holding
  | ⟨.unlock, _⟩ => .idle
  | ⟨.call _ .getInstanceNames, .ok ns⟩ => .listed ns
  | ⟨.query (.dbShouldExist name), .ok exists_⟩ =>
    if exists_ then .listed c.names else .missing c.names name
  | _ => c

end Pass

/-- Where the startup goroutine is with the connection that it publishes in `incusDaemon`. -/
inductive Publication where
  | connecting
  /-- The bare connection is published; `config.Incus.Project` is not read yet. -/
  | connected
  /-- `UseProject` is to come, for this project. -/
  | choosing (project : String)
  /-- The project of the connection is final. -/
  | chosen

namespace Publication

def next (a : Publication) (e : Event) : Publication :=
  match e with
  | ⟨.setIncusDaemon (some _), _⟩ =>
    match a with
    | .connecting => .connected
    | .choosing _ => .chosen
    | a => a
  | ⟨.config, c⟩ =>
    match a with
    | .connected => if c.incus.project = "" then .chosen else .choosing c.incus.project
    | a => a
  | _ => a

end Publication

/-- The connection as the startup goroutine knows it, which has published or read it last. -/
def knownNext (d : Option InstanceServer) (e : Event) : Option InstanceServer :=
  match e with
  | ⟨.setIncusDaemon d', _⟩ => d'
  | ⟨.incusDaemon, d'⟩ => d'
  | _ => d

/-- The rest of a list whose first entry may be session `id`. -/
def passed (id : Nat) : List Listed → List Listed
  | e :: rest => if e.id = id then rest else e :: rest
  | [] => []

/-- The active sessions that the startup loop has still to look at. -/
def restoringNext (rest : List Listed) (e : Event) : List Listed :=
  match e with
  | ⟨.query .dbActive, .ok es⟩ => es
  | ⟨.afterFunc _ (.cleanup id _), _⟩ => passed id rest
  | ⟨.query (.dbExpire id), _⟩ => passed id rest
  | _ => rest

/-- The former pre-allocated rows that the startup loop has still to delete. -/
def formerNext (rest : List Listed) (e : Event) : List Listed :=
  match e with
  | ⟨.query .dbAllocated, .ok es⟩ => es
  | ⟨.query (.dbDelete _), _⟩ => rest.tail
  | _ => rest

def attempt (l : Log) : Attempt := l.foldr (fun e a => a.next e) .idle

def claim (l : Log) : Claim := l.foldr (fun e c => c.next e) .none

def pass (l : Log) : Pass := l.foldr (fun e c => c.next e) .idle

def publication (l : Log) : Publication := l.foldr (fun e a => a.next e) .connecting

def known (l : Log) : Option InstanceServer := l.foldr (fun e d => knownNext d e) none

def restoring (l : Log) : List Listed := l.foldr (fun e rest => restoringNext rest e) []

def former (l : Log) : List Listed := l.foldr (fun e rest => formerNext rest e) []

@[simp] theorem attempt_cons (e : Event) (l : Log) : attempt (e :: l) = (attempt l).next e := rfl

@[simp] theorem claim_cons (e : Event) (l : Log) : claim (e :: l) = (claim l).next e := rfl

@[simp] theorem pass_cons (e : Event) (l : Log) : pass (e :: l) = (pass l).next e := rfl

@[simp] theorem publication_cons (e : Event) (l : Log) :
    publication (e :: l) = (publication l).next e := rfl

@[simp] theorem known_cons (e : Event) (l : Log) : known (e :: l) = knownNext (known l) e := rfl

@[simp] theorem restoring_cons (e : Event) (l : Log) :
    restoring (e :: l) = restoringNext (restoring l) e := rfl

@[simp] theorem former_cons (e : Event) (l : Log) : former (e :: l) = formerNext (former l) e := rfl

-- ============================================================================
-- The protocol
-- ============================================================================

/-- The name of the instance that is made for the random id `u`. -/
def nameOf (u : String) : String := "tryit-" ++ u

/-- The thread has read the clock as `t` and the configuration as `c`, and `expiry` is the end
    of a session that starts then. -/
def SessionExpiry (l : Log) (expiry : Int) : Prop :=
  ∃ t c, ⟨.now, t⟩ ∈ l ∧ ⟨.config, c⟩ ∈ l ∧ expiry = int64 (t.unix + c.session.expiry)

/-- Incus has reported `ip` as a global address of instance `name`. -/
def Reported (l : Log) (name ip : String) : Prop :=
  ∃ d net e a, ⟨.call d (.getInstanceState name), .ok net⟩ ∈ l ∧ e ∈ net ∧ a ∈ e.2 ∧
    a.scope = "global" ∧ a.address = ip

/-- The thread, whose callback is for row `id`, has found it waiting and not deleted it yet. -/
def Doomed (l : Log) (id : Nat) : Prop :=
  ⟨.query (.dbIsAllocated id), .ok true⟩ ∈ l ∧ ∀ r, ⟨.query (.dbDelete id), r⟩ ∉ l

/-- The event makes a row active. -/
def activates : Event → Bool
  | ⟨.query (.dbNew row), .ok _⟩ => row.status == 0
  | ⟨.query (.updateAllocated ..), .ok _⟩ => true
  | _ => false

/-- The thread has made no row active. -/
def Unactivated (l : Log) : Prop := ∀ e ∈ l, activates e = false

/-- The thread has found fewer active sessions than the limits allow, for a request from `ip`. -/
def Admitted (l : Log) (ip : String) : Prop :=
  (∃ n c, ⟨.query .dbActiveCount, .ok n⟩ ∈ l ∧ ⟨.config, c⟩ ∈ l ∧ n < c.server.limits.total) ∧
  (∃ c, ⟨.config, c⟩ ∈ l ∧ (c.server.limits.ip = 0 ∨
    ∃ n, ⟨.query (.dbActiveCountForIP ip), .ok n⟩ ∈ l ∧ n < c.server.limits.ip))

/-- The startup loop takes a session for over, at time `t`. -/
def overdue (e : Listed) (t : Time) : Prop :=
  ∀ d, parseDuration (int64 (e.instanceExpiry - t.unix)) = .ok d →
    int64 (e.instanceExpiry - t.unix) ≤ 0

/-- The startup loop has come to session `e` at time `t`. -/
def ExaminedAt (l : Log) (e : Listed) (t : Time) : Prop :=
  ∃ l' rest, ⟨.now, t⟩ :: l' <:+ l ∧ restoring l' = e :: rest

/-- The session that the thread has started for its request: the id of its row, the
    instance, and the expiry it stored. -/
def HasSession (l : Log) (id : Nat) (name : String) (expiry : Int) : Prop :=
  (∃ row, claim l = .claimed id row expiry ∧ row.instanceName = name) ∨
  (∃ row, attempt l = .recorded id row ∧ row.instanceName = name ∧ row.instanceExpiry = expiry)

/-- The thread serves a start request from address `ip`. -/
def StartFrom (p : Proc) (ip : String) : Prop :=
  ∃ r protocol, p = .restStart r ∧ restClientIP r = .ok (ip, protocol)

/-- The reasons for which a thread removes the instance `name`. -/
inductive MayRemove (p : Proc) (l : Log) (name : String) : Prop
  /-- It made the instance and gives it up. -/
  | own (u : String) (h : (attempt l).owns u) (hname : name = nameOf u)
  /-- Its request fails after it has started the session. -/
  | started (ip : String) (id : Nat) (expiry : Int) (hp : StartFrom p ip)
      (h : HasSession l id name expiry)
  /-- It ends the session. -/
  | ended (id : Nat) (hp : p = .cleanup id name)
  /-- Nobody has claimed it in time. -/
  | unclaimed (id : Nat) (hp : p = .allocateTimeout id name) (h : Doomed l id)
  /-- The startup loop found its session over. -/
  | overdue (e : Listed) (rest : List Listed) (t : Time) (hp : p = .connect)
      (h : restoring l = e :: rest) (hname : e.instanceName = name) (ht : ExaminedAt l e t)
      (hover : overdue e t)
  /-- It belongs to the pool of the process before. -/
  | former (e : Listed) (rest : List Listed) (hp : p = .connect) (h : former l = e :: rest)
      (hname : e.instanceName = name)
  /-- A resync found no row for it. -/
  | resync (names : List String) (h : pass l = .missing names name) (hmem : name ∈ names)
      (hpre : hasPrefix name "tryit-" = true)
  /-- The answer about its session could not be written. -/
  | unanswered (r : Request) (id : String) (f : Found) (hp : p = .rest (.info r))
      (h : ⟨.query (.dbGetInstance id false), .ok (some f)⟩ ∈ l) (hname : f.instanceName = name)

/-- The removals of an instance: for a reason, and within a resync only of what it has just found
    to have no row. -/
structure Removes (p : Proc) (l : Log) (name : String) : Prop where
  reason : MayRemove p l name
  outside : pass l = .idle ∨ ∃ names, pass l = .missing names name

/-- The rows that may be inserted. -/
structure MayInsert (p : Proc) (l : Log) (row : Session) : Prop where
  returned : attempt l = .returned row.uuid
  name : row.instanceName = nameOf row.uuid
  ip : row.instanceIP = "" ∨ Reported l row.instanceName row.instanceIP
  kind : (row.status = 0 ∧ StartFrom p row.requestIP ∧ SessionExpiry l row.instanceExpiry ∧
      Admitted l row.requestIP ∧ Unactivated l ∧ ∀ id r e, claim l ≠ .claimed id r e) ∨
    (row.status = 2 ∧ row.requestIP = "" ∧ ∀ ip, ¬ StartFrom p ip)

/-- The claims that may be committed. -/
structure MayClaim (p : Proc) (l : Log) (expiry : Int) (ip : String) (id : Nat) : Prop where
  request : StartFrom p ip
  picked : ∃ row, claim l = .picked id row
  idle : attempt l = .idle
  expiry : SessionExpiry l expiry
  admitted : Admitted l ip
  unactivated : Unactivated l

/-- The sessions that may be expired. -/
inductive MayExpire (p : Proc) (l : Log) (id : Nat) : Prop
  | ended (name : String) (hp : p = .cleanup id name)
  | overdue (e : Listed) (rest : List Listed) (t : Time) (hp : p = .connect)
      (h : restoring l = e :: rest) (hid : e.id = id) (ht : ExaminedAt l e t) (hover : overdue e t)

/-- The rows that may be deleted. -/
inductive MayDelete (p : Proc) (l : Log) (id : Nat) : Prop
  | unclaimed (name : String) (hp : p = .allocateTimeout id name) (h : Doomed l id)
  | former (e : Listed) (rest : List Listed) (hp : p = .connect) (h : former l = e :: rest)
      (hid : e.id = id)

/-- The timers that may be armed, with their delays. -/
inductive MayArm (p : Proc) (l : Log) (d : Int) : Proc → Prop
  /-- For the session that a request has started. -/
  | started (ip : String) (id : Nat) (name : String) (expiry : Int) (c : ServerConfig)
      (hp : StartFrom p ip) (h : HasSession l id name expiry) (hexp : SessionExpiry l expiry)
      (hc : ⟨.config, c⟩ ∈ l) (hd : parseDuration c.session.expiry = .ok d) :
      MayArm p l d (.cleanup id name)
  /-- For the row that was added to the pool. -/
  | allocated (id : Nat) (row : Session) (h : attempt l = .recorded id row)
      (hstatus : row.status = 2) :
      MayArm p l d (.allocateTimeout id row.instanceName)
  /-- For a session that an earlier process has started. -/
  | restored (e : Listed) (rest : List Listed) (t : Time) (hp : p = .connect)
      (h : restoring l = e :: rest) (ht : ExaminedAt l e t)
      (hd : parseDuration (int64 (e.instanceExpiry - t.unix)) = .ok d)
      (hpos : 0 < int64 (e.instanceExpiry - t.unix)) :
      MayArm p l d (.cleanup e.id e.instanceName)

/-- The record is that of the session: of the row that was claimed, or of the instance that was
    made and of the row that was inserted for it. -/
inductive RecordOf (l : Log) (info : Info) : Prop
  | allocated (id : Nat) (row : Session) (expiry : Int) (h : claim l = .claimed id row expiry)
      (hinfo : info = allocatedInfo row expiry)
  | fresh (id : Nat) (c : ServerConfig) (uuid name ip password : String)
      (expiry date : Int) (requestIP terms : String)
      (h : attempt l = .recorded id
        (activeRow (createdInfo c.session.consoleOnly uuid name ip password) expiry date requestIP terms))
      (hclaim : ∀ id row expiry, claim l ≠ .claimed id row expiry) (hc : ⟨.config, c⟩ ∈ l)
      (hinfo : info =
        { createdInfo c.session.consoleOnly uuid name ip password with expiry := some expiry })

/-- The objects that may be sent to the client. -/
inductive MaySend (p : Proc) (l : Log) : JsonObject → Prop
  | progress (msg : String) : MaySend p l [("message", .str msg)]
  | error (code : StatusCode) : MaySend p l [("status", .num code.code)]
  /-- The record of the session, whose end is scheduled by then. -/
  | record (ip : String) (id : Nat) (info : Info) (expiry d : Int) (hp : StartFrom p ip)
      (h : HasSession l id info.name expiry) (hexp : info.expiry = some expiry)
      (harmed : ⟨.afterFunc d (.cleanup id info.name), ()⟩ ∈ l) (hrecord : RecordOf l info) :
      MaySend p l info.json
  /-- The answer of another endpoint. -/
  | answer (q : RestRequest) (body : JsonObject) (hp : p = .rest q) : MaySend p l body

/-- The thread has found the session with row `id`. -/
def Looked (l : Log) (id : Nat) : Prop :=
  ∃ uuid active f, ⟨.query (.dbGetInstance uuid active), .ok (some f)⟩ ∈ l ∧ f.sessionId = id

/-- The connections that the startup goroutine may publish. -/
inductive MayPublish (l : Log) : Option InstanceServer → Prop
  | failed (h : publication l = .connecting) : MayPublish l none
  | connected (url : String) (d : InstanceServer) (h : publication l = .connecting)
      (hd : ⟨.connect url, .ok d⟩ ∈ l) : MayPublish l (some d)
  | project (project : String) (d : InstanceServer) (h : publication l = .choosing project)
      (hd : known l = some d) : MayPublish l (some { d with project := project })
  | target (target : String) (d : InstanceServer) (h : publication l = .chosen)
      (hd : known l = some d) : MayPublish l (some { d with target := target })

/-- A thread that reads `incusDaemon` now, with an instance to make, reads it for the call that
    makes the instance: it has read the configuration and is to create from an image, or has
    looked up the instance that is to be copied. -/
def aims : Log → Bool
  | ⟨.config, c⟩ :: _ => c.instance.source.instance == ""
  | ⟨.call _ (.getInstance _), .ok _⟩ :: _ => true
  | _ => false

/-- The thread has read the connection `d` for the call that makes its instance, and called. -/
def Aimed (l : Log) (d : InstanceServer) : Prop :=
  ∃ c r l', l = ⟨.call d c, r⟩ :: ⟨.incusDaemon, some d⟩ :: l' ∧ attempt l' = attempt l ∧
    aims l' = true

/-- The thread has read the connection `d`, within the same resync if it is in one. -/
def Held (l : Log) (d : InstanceServer) : Prop :=
  ∃ l', ⟨.incusDaemon, some d⟩ :: l' <:+ l ∧ pass l' = pass l

/-- Thread `p` may perform the operation after the log `l`. -/
def Allowed (p : Proc) (l : Log) : Op → Prop
  | .rLock => (attempt l).inside = false ∧ pass l = .idle
  | .rUnlock none => (attempt l).inside = true
  | .rUnlock (some name) => ∃ u, attempt l = .made u ∧ name = nameOf u
  | .announce | .lock => (attempt l).inside = false ∧ pass l = .idle ∧
      (p = .connect ∧ publication l = .chosen ∨ p = .hourlyResync)
  | .unlock => pass l ≠ .idle
  | .setIncusDaemon d => p = .connect ∧ MayPublish l d
  | .call d .getInstanceNames => pass l = .holding ∧ ∃ l', l = ⟨.incusDaemon, some d⟩ :: l'
  | .query (.dbShouldExist name) => name ∈ (pass l).names
  | .wait d (.copyInstance _ name _) => (∃ u, attempt l = .drawn u ∧ name = nameOf u) ∧ Aimed l d
  | .wait d (.createInstance req) => (∃ u, attempt l = .drawn u ∧ req.name = nameOf u) ∧ Aimed l d
  | .wait d (.deleteInstance name) => Removes p l name ∧ Held l d
  | .query (.dbNew row) => MayInsert p l row
  | .query (.updateAllocated expiry _ ip _ id) => MayClaim p l expiry ip id
  | .query (.dbExpire id) => MayExpire p l id
  | .query (.dbDelete id) => MayDelete p l id
  | .afterFunc d q => MayArm p l d q
  | .go q => q = .preAllocate ∨ (q = .hourlyResync ∧ p = .connect ∧ publication l = .chosen) ∨
      ∃ feedback, q = .email feedback
  | .encode body => MaySend p l body
  | .query .dbActive => p = .connect ∧ publication l = .chosen ∧ ∀ r, ⟨.query .dbActive, r⟩ ∉ l
  | .query .dbAllocated => p = .connect
  | .query (.insertFeedback id _) => Looked l id ∧ ⟨.query (.dbGetFeedback id), .ok none⟩ ∈ l
  | .query (.updateFeedback _ id) => ∃ found, ⟨.query (.dbGetFeedback id), .ok (some found)⟩ ∈ l
  | .dial ip _ => ∃ target row, p = .proxy target ∧ ip ≠ "" ∧ ip = row.instanceIP ∧
      ⟨.query (.dbGetInstance (splitFirst target '.') true), .ok (some row)⟩ ∈ l
  | _ => True

/-- What the log of a thread says when it has come to its end. -/
def Done : Proc → Log → Prop
  | .cleanup id _, l => ∃ r, ⟨.query (.dbExpire id), r⟩ ∈ l
  | _, _ => True

end IncusDemo
