/-
  IncusDemo.Relay

  A connection to the TLS proxy from its first byte to its last: `proxyHandle`
  of proxy.go with the two goroutines that copy between the client and the
  instance, each half closing what it writes to, and with the deferred `Close`
  of both connections.

  The three threads run on a machine of their own.  Its environment is the two
  peers, which answer, send, read on and end their streams as they like or not
  at all, and decides how much a read yields and where a write fails.
-/

import IncusDemo.Conc.Roles
import IncusDemo.Go.Copy
import IncusDemo.Proxy

namespace IncusDemo
namespace Relay

open Go Conc

-- ============================================================================
-- Connections
-- ============================================================================

/-- The two connections. -/
inductive Side where
  | client
  | backend
  deriving DecidableEq

def Side.other : Side → Side
  | .client => .backend
  | .backend => .client

@[simp] theorem Side.other_other (s : Side) : s.other.other = s := by cases s <;> rfl

@[simp] theorem Side.other_ne (s : Side) : s.other ≠ s := by cases s <;> decide

@[simp] theorem Side.ne_other (s : Side) : s ≠ s.other := by cases s <;> decide

theorem Side.eq_or_other (s d : Side) : s = d ∨ s = d.other := by cases s <;> cases d <;> decide

/-- A `tls.Conn`: what has come and been read, how the peer's stream has ended, and what has been
    written.  A failed write breaks the connection for all later ones. -/
structure Conn where
  /-- The peer has answered the handshake, well or not, or it has come to nothing. -/
  answered : Bool
  isOpen : Bool
  unread : List UInt8
  taken : List UInt8
  ended : Option (ReadError Error)
  /-- How many bytes can be written before the peer reads on. -/
  room : Nat
  /-- The peer is gone, and the next write may find out. -/
  reset : Bool
  written : List UInt8
  broken : Bool
  shut : Bool
  closed : Bool

/-- A connection that has not been established. -/
def Conn.none : Conn := ⟨false, false, [], [], .none, 0, false, [], false, false, false⟩

/-- Everything that has come. -/
def Conn.received (c : Conn) : List UInt8 := c.taken ++ c.unread

/-- The size of the buffer of `io.Copy`. -/
def bufferSize : Nat := 32 * 1024

/-- What the environment decides about an operation. -/
inductive Choice where
  | ok
  | fail (err : Error)
  | row (r : Option Found)
  | rounds (n : Nat)
  /-- A read yields at most `n` bytes, and the end of the stream `together` with the last. -/
  | part (n : Nat) (together : Bool)
  /-- A write fails after `n` bytes. -/
  | cut (n : Nat) (err : Error)

/-- `c.Read(buf)`.  It waits for the peer; a connection that failed may fail the read early. -/
def Conn.read (c : Conn) : Choice → Option ((List UInt8 × Option (ReadError Error)) × Conn)
  | .part n together =>
    let bytes := c.unread.take (min n bufferSize)
    let rest := c.unread.drop (min n bufferSize)
    if bytes = [] ∨ c.closed then .none
    else some ((bytes, if together ∧ rest = [] then c.ended else .none),
      { c with unread := rest, taken := c.taken ++ bytes })
  | .ok =>
    match c.ended with
    | some .eof => if c.unread = [] then some (([], some .eof), c) else .none
    | some (.other e) => some (([], some (.other e)), c)
    | .none => .none
  | _ => .none

/-- `c.Write(bytes)`.  It waits for room, and fails where the peer is gone or a write has failed
    before. -/
def Conn.write (c : Conn) (bytes : List UInt8) : Choice → Option ((Nat × Option Error) × Conn)
  | .ok =>
    if c.broken ∨ c.shut ∨ c.closed ∨ c.room < bytes.length then .none
    else some ((bytes.length, .none),
      { c with room := c.room - bytes.length, written := c.written ++ bytes })
  | .cut n err =>
    if c.broken ∨ c.shut ∨ c.closed then some ((0, some err), { c with broken := true })
    else if c.reset then
      let sent := bytes.take (min n c.room)
      some ((sent.length, some err), { c with written := c.written ++ sent, broken := true })
    else .none
  | _ => .none

-- ============================================================================
-- proxyHandle
-- ============================================================================

/-- The handler, and the goroutine that copies from a connection to the other. -/
inductive Proc where
  | handle
  | copy (src : Side)
  deriving DecidableEq

inductive Op where
  /-- `tlsConn.Handshake()`. -/
  | handshake
  /-- `dbGetInstance(id, true)`. -/
  | dbGetInstance (id : String)
  /-- `tls.Dial("tcp", net.JoinHostPort(ip, port), tlsConfig)`. -/
  | dial (ip port : String)
  /-- `wg.Add(n)`. -/
  | add (n : Nat)
  | go (src : Side)
  /-- How many rounds an endless loop goes through before the run is over. -/
  | rounds
  /-- Never goes on. -/
  | halt
  | read (s : Side)
  | write (s : Side) (bytes : List UInt8)
  | closeWrite (s : Side)
  /-- `wg.Done()`, of the goroutine that copies from `src`. -/
  | done (src : Side)
  /-- `wg.Wait()`. -/
  | wait
  | close (s : Side)
  deriving DecidableEq

abbrev Ret : Op → Type
  | .handshake | .dial .. => Except Error Unit
  | .dbGetInstance _ => Except Error (Option Found)
  | .rounds => Nat
  | .halt => Empty
  | .read _ => List UInt8 × Option (ReadError Error)
  | .write .. => Nat × Option Error
  | .add _ | .go _ | .closeWrite _ | .done _ | .wait | .close _ => Unit

abbrev Prog := Conc.Prog Op Ret

abbrev perform (o : Op) : Prog (Ret o) := Conc.Prog.perform o

/-- The goroutine that copies from `src`. -/
def copyFrom (src : Side) : Prog Unit := do
  let rounds ← perform .rounds
  let _ ← Go.copy (perform (.read src)) (fun bytes => perform (.write src.other bytes))
    (perform .halt) rounds
  perform (.closeWrite src.other)
  perform (.done src)

/-- The copying in both directions. -/
def relay : Prog Unit := do
  perform (.add 2)
  perform (.go .backend)
  perform (.go .client)
  perform .wait

/-- What `proxyHandle` does before its deferred `conn.Close()`. -/
def serve (target : String) : Prog Unit := do
  match ← perform .handshake with
  | .error _ => pure ()
  | .ok _ =>
    let id := splitFirst target '.'
    match ← perform (.dbGetInstance id) with
    | .error _ => pure ()
    | .ok .none => pure ()
    | .ok (some row) =>
      if row.instanceIP = "" then pure ()
      else
        match ← perform (.dial row.instanceIP "8443") with
        | .error _ => pure ()
        | .ok _ => do
          relay
          perform (.close .backend)

/-- `proxyHandle` for a client that asks for the server name `target`. -/
def proxyHandle (target : String) : Prog Unit := do
  serve target
  perform (.close .client)

/-- A program of the proxy as the rest of the server sees it: the handshake, the look-up and the
    dial.  It does not see the copying. -/
def seen {α : Type} : Prog α → IncusDemo.Prog α
  | .ret a => .ret a
  | .op .handshake k => .op .handshake fun r => seen (k r)
  | .op (.dbGetInstance id) k => .op (.query (.dbGetInstance id true)) fun r => seen (k r)
  | .op (.dial ip port) k => .op (.dial ip port) fun r => seen (k r)
  | .op .rounds k => .op .rounds fun r => seen (k r)
  | .op .halt k => .op .halt fun r => seen (k r)
  | .op (.read _) k => seen (k ([], none))
  | .op (.write _ bytes) k => seen (k (bytes.length, none))
  | .op (.add _) k | .op (.go _) k | .op (.closeWrite _) k | .op (.done _) k | .op .wait k
  | .op (.close _) k => seen (k ())

/-- It is the `proxyHandle` of the server. -/
theorem seen_proxyHandle (target : String) :
    seen (proxyHandle target) = IncusDemo.proxyHandle target := by
  refine congrArg (@Conc.Prog.op IncusDemo.Op IncusDemo.Ret Unit .handshake) (funext fun r => ?_)
  rcases r with _ | _
  · rfl
  refine congrArg (@Conc.Prog.op IncusDemo.Op IncusDemo.Ret Unit _) (funext fun r => ?_)
  rcases r with _ | _ | row
  · rfl
  · rfl
  dsimp only [Conc.Prog.bind]
  by_cases hip : row.instanceIP = ""
  · rw [if_pos hip, if_pos hip]
    rfl
  · rw [if_neg hip, if_neg hip]
    refine congrArg (@Conc.Prog.op IncusDemo.Op IncusDemo.Ret Unit (.dial row.instanceIP "8443")) ?_
    refine funext fun r => ?_
    rcases r with _ | _ <;> rfl

-- ============================================================================
-- The machine
-- ============================================================================

/-- `started` are the goroutines, by what they copy from; the wait group is the number that was
    added to it and the goroutines that are done. -/
structure World where
  conn : Side → Conn
  started : List Side
  added : Nat
  finished : List Side

namespace World

variable (w : World)

def setConn (s : Side) (c : Conn) : World := { w with conn := Function.update w.conn s c }

@[simp] theorem setConn_self (s : Side) (c : Conn) : (w.setConn s c).conn s = c :=
  Function.update_self ..

theorem setConn_ne {s d : Side} (h : d ≠ s) (c : Conn) : (w.setConn s c).conn d = w.conn d :=
  Function.update_of_ne h ..

@[simp] theorem setConn_other (s : Side) (c : Conn) :
    (w.setConn s c).conn s.other = w.conn s.other := w.setConn_ne s.other_ne c

@[simp] theorem setConn_of_other (s : Side) (c : Conn) :
    (w.setConn s.other c).conn s = w.conn s := w.setConn_ne s.ne_other c

end World

def exec (w : World) (_ : Nat) : (o : Op) → Choice → Option (Ret o × World)
  | .handshake, .ok =>
    if (w.conn .client).answered then
      some (.ok (), w.setConn .client { w.conn .client with isOpen := true })
    else none
  | .handshake, .fail e => if (w.conn .client).answered then some (.error e, w) else none
  | .dbGetInstance _, .row r => some (.ok r, w)
  | .dbGetInstance _, .fail e => some (.error e, w)
  | .dial .., .ok =>
    if (w.conn .backend).answered then
      some (.ok (), w.setConn .backend { w.conn .backend with isOpen := true })
    else none
  | .dial .., .fail e => if (w.conn .backend).answered then some (.error e, w) else none
  | .add n, .ok => some ((), { w with added := w.added + n })
  | .go src, .ok => some ((), { w with started := w.started ++ [src] })
  | .rounds, .rounds n => some (n, w)
  | .read s, ch => ((w.conn s).read ch).map fun r => (r.1, w.setConn s r.2)
  | .write s bytes, ch => ((w.conn s).write bytes ch).map fun r => (r.1, w.setConn s r.2)
  | .closeWrite s, .ok => some ((), w.setConn s { w.conn s with shut := true })
  | .done src, .ok => some ((), { w with finished := w.finished ++ [src] })
  | .wait, .ok => if w.finished.length = w.added then some ((), w) else none
  | .close s, .ok => some ((), w.setConn s { w.conn s with closed := true })
  | _, _ => none

def spawn : Op → List Proc
  | .go src => [.copy src]
  | _ => []

/-- What the peers do. -/
inductive Env where
  /-- The peer answers the handshake, or it comes to nothing. -/
  | answer (s : Side)
  | arrive (s : Side) (bytes : List UInt8)
  /-- The peer ends its stream, or the connection fails. -/
  | finish (s : Side) (e : ReadError Error)
  /-- The peer reads on, and there is room for `n` bytes more. -/
  | drain (s : Side) (n : Nat)
  /-- The peer goes. -/
  | reset (s : Side)

def env (w : World) : Env → Option (World × Bool × List Proc)
  | .answer s => some (w.setConn s { w.conn s with answered := true }, false, [])
  | .arrive s bytes =>
    if (w.conn s).isOpen ∧ (w.conn s).ended = none then
      some (w.setConn s { w.conn s with unread := (w.conn s).unread ++ bytes }, false, [])
    else none
  | .finish s e =>
    if (w.conn s).isOpen ∧ (w.conn s).ended = none then
      some (w.setConn s { w.conn s with ended := some e }, false, [])
    else none
  | .drain s n =>
    some (w.setConn s { w.conn s with room := (w.conn s).room + n }, false, [])
  | .reset s => some (w.setConn s { w.conn s with reset := true }, false, [])

/-- The proxy for one client that asks for the server name `target`. -/
def machine (target : String) : Machine Op Ret World Choice Env Proc where
  exec := exec
  spawn := spawn
  body
    | .handle => proxyHandle target
    | .copy src => copyFrom src
  env := env

/-- Before the handshake. -/
def World.fresh : World := ⟨fun _ => .none, [], 0, []⟩

/-- The client has connected. -/
def accepted (target : String) : Sys Op Ret World Proc :=
  ⟨.fresh, [(machine target).start .handle]⟩

end Relay
end IncusDemo
