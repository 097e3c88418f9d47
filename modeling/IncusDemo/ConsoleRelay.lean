/-
  IncusDemo.ConsoleRelay

  What `restConsoleHandler` (api_session.go) starts once the websocket is there:
  two pipes, a goroutine that copies the client's messages to the one, a
  goroutine that copies the other to the client, and the exec whose input and
  output the pipes are.  The handler waits for the exec and for its data, closes
  the pipes, and at last the connection.

  The handler of the control socket, which the Incus library starts, assigns
  the variable `err` of `restConsoleHandler`.  The handler therefore reads it
  back after each of its own assignments.
-/

import IncusDemo.Conc.Roles
import IncusDemo.Go.Copy
import IncusDemo.Go.Pipe
import IncusDemo.Console
import IncusDemo.Rwc

namespace IncusDemo
namespace ConsoleRelay

open Go Conc

-- ============================================================================
-- Programs
-- ============================================================================

inductive Proc where
  | handle
  /-- `go io.Copy(inWrite, connWrapper)`. -/
  | copyIn
  /-- `go io.Copy(connWrapper, outRead)`. -/
  | copyOut
  /-- The "Control socket handler". -/
  | control
  deriving DecidableEq

inductive Op where
  | go (p : Proc)
  /-- `incusDaemon.ExecInstance(instanceName, req, &execArgs)`. -/
  | execInstance
  /-- `op.Wait()`. -/
  | wait
  /-- Assign `err`. -/
  | setErr (err : Option Error)
  /-- Read `err`. -/
  | err
  /-- `<-execArgs.DataDone`. -/
  | dataDone
  /-- `inWrite.Close()`. -/
  | closeIn
  /-- `outRead.Close()`. -/
  | closeOut
  /-- `conn.Close()`. -/
  | close
  /-- How many rounds an endless loop goes through before the run is over. -/
  | rounds
  /-- Never goes on. -/
  | halt
  /-- `connWrapper.Read(buf)`. -/
  | read
  /-- `connWrapper.Write(bytes)`. -/
  | write (bytes : List UInt8)
  /-- `inWrite.Write(bytes)`, up to its return. -/
  | offer (bytes : List UInt8)
  /-- The return of `inWrite.Write`, of `n` bytes. -/
  | settle (n : Nat)
  /-- `outRead.Read(buf)`. -/
  | readOut
  /-- `conn.ReadMessage()` of the control socket. -/
  | readMessage
  deriving DecidableEq

abbrev Ret : Op → Type
  | .execInstance => Except Error Unit
  | .wait | .err | .readMessage => Option Error
  | .rounds => Nat
  | .halt => Empty
  | .read => List UInt8 × Option (ReadError ConnError)
  | .write _ => Nat × Option ConnError
  | .offer _ => Bool
  | .settle _ => Nat × Option Error
  | .readOut => List UInt8 × Option (ReadError Error)
  | .go _ | .setErr _ | .dataDone | .closeIn | .closeOut | .close => Unit

abbrev Prog := Conc.Prog Op Ret

abbrev perform (o : Op) : Prog (Ret o) := Conc.Prog.perform o

/-- `inWrite.Write(bytes)`. -/
def writeIn (bytes : List UInt8) : Prog (Nat × Option Error) := do
  if (← perform (.offer bytes)) = false then pure (0, some Pipe.closedPipe)
  else perform (.settle bytes.length)

def copyIn : Prog Unit := do
  let rounds ← perform .rounds
  let _ ← Go.copy (perform .read) writeIn (perform .halt) rounds

def copyOut : Prog Unit := do
  let rounds ← perform .rounds
  let _ ← Go.copy (perform .readOut) (fun bytes => perform (.write bytes)) (perform .halt) rounds

/-- The loop of the control socket handler. -/
def controlLoop : Nat → Prog Unit
  | 0 => do nomatch ← perform .halt
  | rounds + 1 => do
    let e ← perform .readMessage
    perform (.setErr e)
    if (← perform .err) ≠ none then pure () else controlLoop rounds

def control : Prog Unit := do
  let rounds ← perform .rounds
  controlLoop rounds

/-- "Connect to the instance", up to the deferred `conn.Close()`. -/
def connectInstance : Prog Unit := do
  perform (.go .copyIn)
  perform (.go .copyOut)
  match ← perform .execInstance with
  | .error e => do
    -- with `err` set back to nil the use of `op` panics, and the deferred call follows
    perform (.setErr (some e))
    let _ ← perform .err
  | .ok _ => do
    perform (.setErr none)
    if (← perform .err) ≠ none then pure ()
    else do
      let e ← perform .wait
      perform (.setErr e)
      if (← perform .err) ≠ none then pure ()
      else do
        perform .dataDone
        perform .closeIn
        perform .closeOut

/-- The rest of `restConsoleHandler`. -/
def handle : Prog Unit := do
  connectInstance
  perform .close

/-- The handler as the rest of the server sees it, where the handler of the control socket does not
    assign `err`: the exec, the wait for it and the wait for its data. -/
def seen {α : Type} (d : InstanceServer) (c : Call) (err : Option Error) :
    Prog α → IncusDemo.Prog α
  | .ret a => .ret a
  | .op .execInstance k => .op (.call d c) fun
    | .ok _ => seen d c err (k (.ok ()))
    | .error e => seen d c err (k (.error e))
  | .op .wait k => .op (.wait d c) fun
    | .ok _ => seen d c err (k none)
    | .error e => seen d c err (k (some e))
  | .op .dataDone k => .op .dataDone fun r => seen d c err (k r)
  | .op (.setErr e) k => seen d c e (k ())
  | .op .err k => seen d c err (k err)
  | .op .rounds k => .op .rounds fun r => seen d c err (k r)
  | .op .halt k => .op .halt fun r => seen d c err (k r)
  | .op .read k => seen d c err (k ([], none))
  | .op (.write bytes) k => seen d c err (k (bytes.length, none))
  | .op (.offer _) k => seen d c err (k true)
  | .op (.settle n) k => seen d c err (k (n, none))
  | .op .readOut k => seen d c err (k ([], none))
  | .op .readMessage k => seen d c err (k none)
  | .op (.go _) k | .op .closeIn k | .op .closeOut k | .op .close k => seen d c err (k ())

/-- It is the `execConsole` of the server. -/
theorem execConsole_eq (instanceName : String) (width height : Int) :
    execConsole instanceName width height = (do
      let c ← IncusDemo.perform .config
      let d ← daemon
      seen d (.execConsole instanceName (consoleRequest c width height)) none handle) := by
  unfold execConsole
  refine congrArg (_ >>= ·) (funext fun c => congrArg (daemon >>= ·) (funext fun d => ?_))
  -- the goroutines are not seen
  change _ = seen d (.execConsole instanceName (consoleRequest c width height)) none
    (.op .execInstance _)
  rw [seen]
  refine congrArg (Conc.Prog.op _) (funext fun r => ?_)
  rcases r with _ | _
  · rfl
  · change _ = seen d (.execConsole instanceName (consoleRequest c width height)) none (.op .wait _)
    rw [seen]
    refine congrArg (Conc.Prog.op _) (funext fun r => ?_)
    rcases r with _ | _ <;> rfl

-- ============================================================================
-- The machine
-- ============================================================================

/-- The connection to the client (`input`, `sent`, `broken` and `closed`), the pipes, the variable
    `err`, and what Incus does: whether an exec is under way, what it has written to its output,
    and whether its data is done. -/
structure World where
  input : WsWrapper
  sent : List Frame
  broken : Bool
  closed : Bool
  stdin : Pipe
  stdout : Pipe
  err : Option Error
  executing : Bool
  written : List UInt8
  dataDone : Bool
  started : List Proc

/-- The size of the buffer of `io.Copy`. -/
def bufferSize : Nat := 32 * 1024

inductive Choice where
  | ok
  | fail (err : Error)
  | rounds (n : Nat)
  /-- A read or write on the connection to the client fails. -/
  | broken (err : ConnError)

def exec (w : World) (_ : Nat) : (o : Op) → Choice → Option (Ret o × World)
  | .go p, .ok => some ((), { w with started := w.started ++ [p] })
  | .execInstance, .ok =>
    some (.ok (), { w with executing := true, started := w.started ++ [.control] })
  | .execInstance, .fail e => some (.error e, { w with started := w.started ++ [.control] })
  | .wait, .ok | .readMessage, .ok => some (none, w)
  | .wait, .fail e | .readMessage, .fail e => some (some e, w)
  | .setErr e, .ok => some ((), { w with err := e })
  | .err, .ok => some (w.err, w)
  | .dataDone, .ok => if w.dataDone then some ((), w) else none
  | .closeIn, .ok => some ((), { w with stdin := w.stdin.closeWrite })
  | .closeOut, .ok => some ((), { w with stdout := w.stdout.closeRead })
  | .close, .ok => some ((), { w with closed := true })
  | .rounds, .rounds n => some (n, w)
  | .read, .ok =>
    let r := w.input.read bufferSize
    some ((r.1, r.2.1), { w with input := r.2.2 })
  | .read, .broken e => if w.closed then some (([], some (.other e)), w) else none
  | .write bytes, .ok =>
    if w.closed ∨ w.broken then none
    else
      let r := WsWrapper.write w.sent bytes none
      some ((r.1, r.2.1), { w with sent := r.2.2 })
  | .write bytes, .broken e =>
    let r := WsWrapper.write w.sent bytes (some e)
    some ((r.1, r.2.1), { w with sent := r.2.2, broken := true })
  | .offer bytes, .ok =>
    let r := w.stdin.offer bytes
    some (r.1, { w with stdin := r.2 })
  | .settle n, .ok => (w.stdin.settle n).map fun r => (r.1, { w with stdin := r.2 })
  | .readOut, .ok =>
    (w.stdout.take bufferSize).map fun r => ((r.1, none), { w with stdout := r.2 })
  | .readOut, .fail _ => w.stdout.readError.map fun e => (([], some e), w)
  | _, _ => none

def spawn : Op → List Proc
  | .go p => [p]
  | .execInstance => [.control]
  | _ => []

/-- What Incus does with the two pipes. -/
inductive Env where
  /-- It reads from its standard input. -/
  | take (n : Nat)
  /-- It writes to its standard output. -/
  | put (bytes : List UInt8)
  /-- Its write fails, as the pipe has been closed. -/
  | giveUp
  /-- It closes `DataDone`: "closed when all data operations are done". -/
  | finish

def env (w : World) : Env → Option (World × Bool × List Proc)
  | .take n => (w.stdin.take n).map fun r => ({ w with stdin := r.2 }, false, [])
  | .put bytes =>
    if w.executing ∧ w.dataDone = false ∧ w.stdout.pending = [] ∧ w.stdout.done = false then
      some ({ w with stdout := (w.stdout.offer bytes).2, written := w.written ++ bytes }, false, [])
    else none
  | .giveUp =>
    if w.stdout.done then some ({ w with stdout := { w.stdout with pending := [] } }, false, [])
    else none
  | .finish =>
    if w.executing ∧ w.stdout.pending = [] then some ({ w with dataDone := true }, false, [])
    else none

def machine : Machine Op Ret World Choice Env Proc where
  exec := exec
  spawn := spawn
  body
    | .handle => handle
    | .copyIn => copyIn
    | .copyOut => copyOut
    | .control => control
  env := env

/-- The websocket is there, and `conn` is what will come over it. -/
def World.upgraded (conn : Incoming) : World :=
  ⟨⟨conn, none⟩, [], false, false, .new, .new, none, false, [], false, []⟩

def upgraded (conn : Incoming) : Sys Op Ret World Proc :=
  ⟨.upgraded conn, [machine.start .handle]⟩

end ConsoleRelay
end IncusDemo
