/-
  IncusDemo.Server

  The server as a system of threads: what each of its functions runs, what the
  environment does (requests, proxy connections, the clock, timers, a reload
  of the configuration, a stop of the process followed by a new start), and
  the states it starts from.
-/

import IncusDemo.Conc.System
import IncusDemo.Start
import IncusDemo.Proxy
import IncusDemo.Startup
import IncusDemo.Feedback
import IncusDemo.Console

namespace IncusDemo

open Go Conc

/-- What a thread runs. -/
def body : Proc → Prog Unit
  | .restStart r => restStartHandler r
  | .preAllocate => do
    let _ ← instancePreAllocate
  | .cleanup instanceID instanceName => cleanup instanceID instanceName
  | .allocateTimeout instanceID instanceName => allocateTimeout instanceID instanceName
  | .connect => connect
  | .hourlyResync => do
    let rounds ← perform .rounds
    hourlyResync rounds
  | .proxy target => proxyHandle target
  | .rest q => restHandler q
  | .console r => restConsoleHandler r
  | .email feedback => emailFeedback feedback

/-- The `go` statement starts a thread. -/
def spawn : Op → List Proc
  | .go p => [p]
  | _ => []

/-- What happens around the threads. -/
inductive Env where
  /-- The wall clock moves. -/
  | tick (t : Time)
  /-- The timer at this place fires. -/
  | fire (i : Nat)
  | request (r : Request)
  /-- A request for an endpoint other than `/1.0/start`. -/
  | rest (q : RestRequest)
  /-- A request for `/1.0/console`. -/
  | console (r : Request)
  | proxyConn (target : String)
  /-- The watcher stores a configuration; any value may be there while a reload is under way. -/
  | reload (c : ServerConfig)
  /-- The process stops, between any two steps, and a new one starts. -/
  | restart (c : ServerConfig)
  deriving DecidableEq

/-- A world as a new process finds it: the database, the instances and the clock stay. -/
def World.boot (w : World) (c : ServerConfig) : World :=
  { w with config := c, incusDaemon := none, muCreate := .free, timers := [] }

/-- The world after the environment acted, whether the process was stopped, and the threads
    that start. -/
def env (w : World) : Env → Option (World × Bool × List Proc)
  | .tick t => some ({ w with clock := t }, false, [])
  | .fire i =>
    match w.timers[i]? with
    | none => none
    | some tm =>
      if tm.due ≤ w.clock.nano then
        some ({ w with timers := w.timers.eraseIdx i }, false, [tm.callback])
      else none
  | .request r => some (w, false, [.restStart r])
  | .rest q => some (w, false, [.rest q])
  | .console r => some (w, false, [.console r])
  | .proxyConn target => some (w, false, [.proxy target])
  | .reload c => some ({ w with config := c }, false, [])
  | .restart c => some (w.boot c, true, [.connect])

/-- The server. -/
def server : Machine Op Ret World Choice Env Proc where
  exec := exec
  spawn := spawn
  body := body
  env := env

abbrev Sys := Conc.Sys Op Ret World Proc
abbrev Thread := Conc.Thread Op Ret Proc
abbrev Event := Conc.Event Op Ret
abbrev Log := Conc.Log Op Ret
abbrev Label := Conc.Label Op Ret Env
abbrev Action := Conc.Action Choice Env

/-- A server that has just been started. -/
def Initial (s : Sys) : Prop :=
  s.world.incusDaemon = none ∧ s.world.muCreate = .free ∧ s.world.timers = [] ∧
  s.threads = [server.start .connect]

/-- The server started with configuration `c` on a world. -/
def bootSys (w : World) (c : ServerConfig) : Sys := ⟨w.boot c, [server.start .connect]⟩

theorem bootSys_initial (w : World) (c : ServerConfig) : Initial (bootSys w c) :=
  ⟨rfl, rfl, rfl, rfl⟩

-- ============================================================================
-- A small server
-- ============================================================================

/-- A configuration with a limit on the sessions, a pool, and sessions of ten minutes. -/
def smallConfig (total allocated : Int) : ServerConfig :=
  { ServerConfig.zero with
    server := { ServerConfig.zero.server with limits := ⟨total, 0⟩, termsHash := "terms" }
    «instance» := { ServerConfig.zero.instance with
      allocate := ⟨allocated, 3600⟩
      source := { ServerConfig.zero.instance.source with instanceType := "container" } }
    session := { ServerConfig.zero.session with expiry := 600 } }

/-- The row of an instance that waits to be claimed. -/
def pooled (u ip : String) (expiry : Int) : Session :=
  ⟨u, 2, "tryit-" ++ u, ip, "admin", "secret", expiry, 0, "", ""⟩

/-- The instance of a row. -/
def container (u ip : String) : Instance :=
  ⟨"default", "tryit-" ++ u, "container", "Running", [], [], [], [], [ip]⟩

/-- A world with the given pool, in which all instances of the pool run. -/
def smallWorld (us : List (String × String)) : World where
  config := ServerConfig.zero
  incusDaemon := none
  muCreate := .free
  timers := []
  clock := 0
  uuids := us.map Prod.fst
  db := ⟨us.foldl (fun t u => t.insert (pooled u.1 u.2 3600)) Sql.Table.empty, Sql.Table.empty⟩
  instances := us.map fun u => container u.1 u.2

/-- A request for a session from an address. -/
def startRequest (ip : String) : Request := ⟨"GET", "", ip ++ ":50000", [("terms", "terms")], true⟩

/-- An address that no instance has. -/
def freeAddress (is : Instances) : String :=
  (["10.0.0.1", "10.0.0.2", "10.0.0.3"].find? fun ip => !is.any fun i => i.addresses.contains ip).getD ""

/-- A decision about an operation with which it does not fail. -/
def calm (w : World) : Op → Choice
  | .newRandom => .uuid (["u0", "u1", "u2", "u3", "u4", "u5"].getD w.uuids.length "u")
  | .rounds => .rounds 2
  | .wait _ _ => .assigned ⟨[freeAddress w.instances], []⟩
  | .call d (.getInstanceState name) =>
    .network [("eth0", ((w.instances.get? d name).elim [] Instance.addresses).map fun ip =>
      ⟨"inet", ip, "global"⟩)]
  | .execReturn _ _ => .exit (some 0)
  | .isTrue value => .flag (value == "true")
  | _ => .ok

/-- The next operation of thread `t`, with which nothing fails. -/
def go (t : Nat) (s : Sys) : Action :=
  match s.threads[t]? with
  | some ⟨_, _, _, .op o _⟩ => .thread t (calm s.world o)
  | _ => .thread t .ok

/-- Thread `t` goes on for `n` operations in which nothing fails. -/
def oks (t n : Nat) : List (Sys → Action) := List.replicate n (go t)

/-- The operation of thread `t` fails. -/
def failing (t : Nat) : List (Sys → Action) := [fun _ => .thread t (.fail "failed")]

/-- The environment acts. -/
def act (e : Env) : List (Sys → Action) := [fun _ => .env e]

end IncusDemo
