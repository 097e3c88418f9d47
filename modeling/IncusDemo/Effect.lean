/-
  IncusDemo.Effect

  The operations that server code performs, and what each of them does to the
  world.  One operation is one atomic step: a read of a global variable, a
  statement on the database, one call of the Incus API, one write to a client.
  The environment decides through a `Choice` whether an operation that can fail
  does, and what the answers are that the server does not determine.
-/

import IncusDemo.Conc.Prog
import IncusDemo.Config
import IncusDemo.Db
import IncusDemo.Incus
import IncusDemo.Go.Net

namespace IncusDemo

open Go

-- ============================================================================
-- Requests and replies
-- ============================================================================

/-- What the handlers read of an `http.Request`, and whether its writer can flush. -/
structure Request where
  method : String
  forwardedFor : String
  remoteAddr : String
  form : StringMap
  flusher : Bool := true
  deriving DecidableEq

/-- `r.FormValue(key)`. -/
def Request.formValue (r : Request) (key : String) : String :=
  ((r.form.find? fun e => e.1 == key).map Prod.snd).getD ""

/-- A request for feedback.  `body` is what `json.NewDecoder(r.Body).Decode(&feedback)` makes of
    the body, if it makes anything of it. -/
structure FeedbackRequest extends Request where
  origin : String
  body : Option Feedback
  deriving DecidableEq

/-- A request for an endpoint other than `/1.0/start`. -/
inductive RestRequest where
  | status (r : Request)
  | terms (r : Request)
  | info (r : Request)
  | statistics (r : Request)
  | feedback (r : FeedbackRequest)
  deriving DecidableEq

/-- How `upgrader.Upgrade` of the websocket library fails. -/
inductive UpgradeError where
  /-- The request is no handshake that the library accepts, and it has told the client so. -/
  | refused
  /-- The connection fails once it has been taken over. -/
  | broken
  deriving DecidableEq

/-- A value of a JSON object. -/
inductive Json where
  | str (s : String)
  | num (n : Int)
  | bool (b : Bool)
  deriving DecidableEq

/-- A JSON object, in the order `encoding/json` writes the keys of a map. -/
abbrev JsonObject := List (String × Json)

-- ============================================================================
-- Operations
-- ============================================================================

/-- The functions that run on their own: handlers, goroutines and timer callbacks.  A
    closure is given by what it captures. -/
inductive Proc where
  /-- A request for `/1.0/start`. -/
  | restStart (r : Request)
  /-- `go instancePreAllocate()`. -/
  | preAllocate
  /-- The callback that ends a session: `incusForceDelete`, then `dbExpire`. -/
  | cleanup (instanceID : Nat) (instanceName : String)
  /-- The callback that `instancePreAllocate` arms for the row it inserted. -/
  | allocateTimeout (instanceID : Nat) (instanceName : String)
  /-- The goroutine of `run` that connects to Incus and restores the state. -/
  | connect
  /-- The goroutine that resyncs every hour. -/
  | hourlyResync
  /-- A connection to the proxy for the server name `target`. -/
  | proxy (target : String)
  /-- A request for another endpoint. -/
  | rest (q : RestRequest)
  /-- A request for `/1.0/console`. -/
  | console (r : Request)
  /-- `go emailFeedback(feedback)`. -/
  | email (feedback : Feedback)
  deriving DecidableEq

/-- Operations. -/
inductive Op where
  /-- Read the global `config`. -/
  | config
  /-- Read the global `incusDaemon`. -/
  | incusDaemon
  /-- Assign the global `incusDaemon`. -/
  | setIncusDaemon (d : Option InstanceServer)
  /-- `muCreate.RLock`. -/
  | rLock
  /-- `muCreate.RUnlock`, deferred by `instanceCreate`.  `returning` names the instance the
      function is about to return; it only serves to tell the unlocks apart. -/
  | rUnlock (returning : Option String)
  /-- The first half of `muCreate.Lock`: no other writer is there, and from now on no new reader
      gets in. -/
  | announce
  /-- The second half of `muCreate.Lock`: the last reader is gone. -/
  | lock
  | unlock
  /-- `time.Now()`. -/
  | now
  | sleep (seconds : Nat)
  /-- `uuid.NewRandom().String()`. -/
  | newRandom
  /-- The `go` statement. -/
  | go (p : Proc)
  /-- `time.AfterFunc` with a delay in nanoseconds. -/
  | afterFunc (d : Int) (p : Proc)
  /-- How many rounds an endless loop goes through before the run is over. -/
  | rounds
  /-- Never goes on. -/
  | halt
  | query (q : Query)
  /-- `ConnectIncusUnix`, or `ConnectIncus` with a URL. -/
  | connect (url : String)
  /-- A call on an Incus connection. -/
  | call (d : InstanceServer) (c : Call)
  /-- `op.Wait()` on the operation that call `c` started. -/
  | wait (d : InstanceServer) (c : Call)
  /-- The exit status in `op.Get().Metadata` after an exec, if it is there. -/
  | execReturn (d : InstanceServer) (name : String)
  | header (key value : String)
  | writeHeader (code : Nat)
  | flush
  /-- `json.NewEncoder(w).Encode(body)`. -/
  | encode (body : JsonObject)
  /-- `http.Error`. -/
  | httpError (text : String) (code : Nat)
  /-- `w.Write([]byte(text))`. -/
  | write (text : String)
  /-- `upgrader.Upgrade(w, r, nil)`. -/
  | upgrade
  /-- `<-execArgs.DataDone`. -/
  | dataDone
  /-- `util.IsTrue` of the Incus library. -/
  | isTrue (value : String)
  /-- `smtp.SendMail(server, nil, from, []string{to}, []byte(text))`. -/
  | sendMail (server sender recipient text : String)
  /-- The TLS handshake with a client of the proxy. -/
  | handshake
  /-- `tls.Dial("tcp", net.JoinHostPort(ip, port), ...)`. -/
  | dial (ip port : String)

/-- What an operation answers. -/
abbrev Ret : Op → Type
  | .config => ServerConfig
  | .incusDaemon => Option InstanceServer
  | .now => Time
  | .newRandom => String
  | .rounds => Nat
  | .halt => Empty
  | .query q => Except Error q.Res
  | .connect _ => Except Error InstanceServer
  | .call _ c => Except Error c.Res
  | .wait _ _ | .encode _ | .handshake | .dial _ _ | .write _ | .sendMail .. => Except Error Unit
  | .upgrade => Except UpgradeError Unit
  | .isTrue _ => Bool
  | .execReturn _ _ => Option Int
  | .setIncusDaemon _ | .rLock | .rUnlock _ | .announce | .lock | .unlock | .sleep _ | .go _
  | .afterFunc _ _ | .header _ _ | .writeHeader _ | .flush | .httpError _ _ | .dataDone => Unit

/-- Programs of the server. -/
abbrev Prog := Conc.Prog Op Ret

/-- Perform one operation. -/
abbrev perform (o : Op) : Prog (Ret o) := Conc.Prog.perform o

/-- The operations of a handler that only answers. -/
def Op.answers : Op → Bool
  | .config | .incusDaemon | .now | .header .. | .writeHeader _ | .flush | .encode _
  | .httpError .. | .write _ | .isTrue _ => true
  | .query .dbActiveCount | .query .dbNextExpire | .query (.dbGetInstance ..)
  | .query (.dbGetFeedback _) | .query (.countRequestIP ..) | .query (.selectRequestIP ..) => true
  | _ => false

-- ============================================================================
-- The world
-- ============================================================================

/-- A `sync.RWMutex` with the threads that hold it, and the one in `Lock` that waits for the
    readers to leave. -/
structure RWMutex where
  readers : List Nat
  waiting : Option Nat
  writer : Option Nat
  deriving DecidableEq

def RWMutex.free : RWMutex := ⟨[], none, none⟩

/-- No thread writes, or waits to: one more reader or writer is let in. -/
def RWMutex.admits (mu : RWMutex) : Prop := mu.writer = none ∧ mu.waiting = none

instance (mu : RWMutex) : Decidable mu.admits :=
  inferInstanceAs (Decidable (mu.writer = none ∧ mu.waiting = none))

/-- A pending timer: the time in nanoseconds from which it may fire, and its callback. -/
structure Timer where
  due : Int
  callback : Proc
  deriving DecidableEq

/-- Everything the operations act on.  `config` to `timers` belong to the running process
    and are lost when it stops; `uuids` are the random ids drawn so far. -/
structure World where
  config : ServerConfig
  incusDaemon : Option InstanceServer
  muCreate : RWMutex
  timers : List Timer
  clock : Time
  uuids : List String
  db : Db
  instances : Instances

/-- What the environment decides about one operation. -/
inductive Choice where
  | ok
  | fail (err : Error)
  | uuid (id : String)
  | rounds (n : Nat)
  | assigned (a : Assigned)
  | network (net : Network)
  | exit (status : Option Int)
  | flag (b : Bool)
  /-- A SELECT fails after `n` rows, and nobody asks for the error. -/
  | cut (n : Nat)
  deriving DecidableEq

namespace Choice

/-- The outcome of an operation that cannot fail. -/
def ifOk {α : Type} (ch : Choice) (a : α) : Option α :=
  match ch with
  | .ok => some a
  | _ => none

/-- The outcome of an operation that may fail, and then changes nothing. -/
def orFail {α : Type} (ch : Choice) (w : World) (a : α) (w' : World) :
    Option (Except Error α × World) :=
  match ch with
  | .ok => some (.ok a, w')
  | .fail e => some (.error e, w)
  | _ => none

end Choice

/-- The answer of a call that looks up an instance, which fails when there is none. -/
def orNotFound {α : Type} (i : Option Instance) (f : Instance → α) : Except Error α :=
  match i with
  | some i => .ok (f i)
  | none => .error "Instance not found"

/-- One call on an Incus connection: its answer, when the environment lets it through. -/
def answer (w : World) (d : InstanceServer) (ch : Choice) : (c : Call) → Option (Except Error c.Res)
  | .getInstance name => ch.ifOk (orNotFound (w.instances.get? d name) id)
  | .getInstanceState name =>
    match ch with
    | .network net =>
      match w.instances.get? d name with
      | some i => if Instances.reports i net then some (.ok net) else none
      | none => some (.error "Instance not found")
    | _ => none
  | .getInstanceNames => ch.ifOk (.ok (w.instances.names d))
  | .copyInstance .. => ch.ifOk (.ok ())
  | .createInstance _ => ch.ifOk (.ok ())
  | .updateInstance name _ => ch.ifOk (orNotFound (w.instances.get? d name) fun _ => ())
  | .updateInstanceState name _ _ => ch.ifOk (orNotFound (w.instances.get? d name) fun _ => ())
  | .execInstance name _ => ch.ifOk (orNotFound (w.instances.get? d name) fun _ => ())
  | .execConsole name _ => ch.ifOk (orNotFound (w.instances.get? d name) fun _ => ())
  | .deleteInstance name => ch.ifOk (orNotFound (w.instances.get? d name) fun _ => ())

/-- One call on an Incus connection; no call changes the world by itself. -/
def execCall (w : World) (d : InstanceServer) (c : Call) (ch : Choice) :
    Option (Except Error c.Res × World) :=
  match ch with
  | .fail e => some (.error e, w)
  | ch => (answer w d ch c).map fun r => (r, w)

/-- The end of the operation that call `c` started. -/
def execWait (w : World) (d : InstanceServer) (c : Call) (ch : Choice) :
    Option (Except Error Unit × World) :=
  match ch with
  | .fail e => some (.error e, w)
  | .assigned a =>
    match c.complete d a w.instances with
    | some is => some (.ok (), { w with instances := is })
    | none => some (.error "Operation failed", w)
  | _ => none

/-- One operation of thread `t`: its answer and the world after it, or `none` when it
    cannot happen (a lock that is held, a choice that does not fit). -/
def exec (w : World) (t : Nat) (o : Op) (ch : Choice) : Option (Ret o × World) :=
  match o with
  | .config => ch.ifOk (w.config, w)
  | .incusDaemon => ch.ifOk (w.incusDaemon, w)
  | .setIncusDaemon d => ch.ifOk ((), { w with incusDaemon := d })
  | .rLock =>
    if w.muCreate.admits then
      ch.ifOk ((), { w with muCreate := { w.muCreate with readers := t :: w.muCreate.readers } })
    else none
  | .rUnlock _ =>
    ch.ifOk ((), { w with muCreate := { w.muCreate with readers := w.muCreate.readers.erase t } })
  | .announce =>
    if w.muCreate.admits then
      ch.ifOk ((), { w with muCreate := { w.muCreate with waiting := some t } })
    else none
  | .lock =>
    if w.muCreate.waiting = some t ∧ w.muCreate.writer = none ∧ w.muCreate.readers = [] then
      ch.ifOk ((), { w with muCreate := { w.muCreate with waiting := none, writer := some t } })
    else none
  | .unlock => ch.ifOk ((), { w with muCreate := { w.muCreate with writer := none } })
  | .now => ch.ifOk (w.clock, w)
  | .sleep _ => ch.ifOk ((), w)
  | .newRandom =>
    match ch with
    | .uuid id => if id ∈ w.uuids then none else some (id, { w with uuids := id :: w.uuids })
    | _ => none
  | .go _ => ch.ifOk ((), w)
  | .afterFunc d p =>
    ch.ifOk ((), { w with timers := w.timers ++ [⟨w.clock.nano + max d 0, p⟩] })
  | .rounds =>
    match ch with
    | .rounds n => some (n, w)
    | _ => none
  | .halt => none
  | .query q =>
    match ch with
    | .cut n => (w.db.cut n q).map fun a => (.ok a, w)
    | ch => ch.orFail w (w.db.run q).1 { w with db := (w.db.run q).2 }
  | .connect _ => ch.orFail w ⟨"default", ""⟩ w
  | .call d c => execCall w d c ch
  | .wait d c => execWait w d c ch
  | .execReturn _ _ =>
    match ch with
    | .exit status => some (status, w)
    | _ => none
  | .header _ _ => ch.ifOk ((), w)
  | .writeHeader _ => ch.ifOk ((), w)
  | .flush => ch.ifOk ((), w)
  | .encode _ => ch.orFail w () w
  | .httpError _ _ => ch.ifOk ((), w)
  | .handshake => ch.orFail w () w
  | .dial _ _ => ch.orFail w () w
  | .write _ => ch.orFail w () w
  | .upgrade =>
    match ch with
    | .ok => some (.ok (), w)
    | .flag b => some (.error (if b then .refused else .broken), w)
    | _ => none
  | .dataDone => ch.ifOk ((), w)
  | .isTrue _ =>
    match ch with
    | .flag b => some (b, w)
    | _ => none
  | .sendMail .. => ch.orFail w () w

end IncusDemo
