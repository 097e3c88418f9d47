/-
  IncusDemo.Startup

  The goroutine that `run` (main.go) starts once the database is open: it
  connects to Incus, arms the cleanup of the sessions that are still active,
  removes the former pre-allocated instances, resyncs, and fills the pool.
-/

import IncusDemo.Instance

namespace IncusDemo

open Go

/-- The loop that connects to the Incus daemon. -/
def connectLoop : Nat → Prog InstanceServer
  | 0 => do
    let stuck ← perform .halt
    nomatch stuck
  | rounds + 1 => do
    let c ← perform .config
    match ← perform (.connect c.incus.serverURL) with
    | .ok d =>
      perform (.setIncusDaemon (some d))
      pure d
    | .error _ =>
      perform (.setIncusDaemon none)
      perform (.sleep 1)
      connectLoop rounds

/-- `UseProject` and `UseTarget`, each published in `incusDaemon` as it is made. -/
def useProject : Prog Unit := do
  let c ← perform .config
  if c.incus.project ≠ "" then
    let d ← daemon
    perform (.setIncusDaemon (some { d with project := c.incus.project }))
  let c ← perform .config
  if c.incus.target ≠ "" then
    let d ← daemon
    perform (.setIncusDaemon (some { d with target := c.incus.target }))

/-- "Restore cleanup handler for existing instances", for one of them. -/
def restoreSession (e : Listed) : Prog Unit := do
  let now ← perform .now
  let duration := int64 (e.instanceExpiry - now.unix)
  match parseDuration duration with
  | .error _ =>
    forceDelete e.instanceName
    let _ ← perform (.query (.dbExpire e.id))
  | .ok timeDuration =>
    if duration ≤ 0 then
      forceDelete e.instanceName
      let _ ← perform (.query (.dbExpire e.id))
    else
      perform (.afterFunc timeDuration (.cleanup e.id e.instanceName))

/-- "Delete former pre-allocated instances", for one of them. -/
def deleteAllocated (e : Listed) : Prog Unit := do
  forceDelete e.instanceName
  let _ ← perform (.query (.dbDelete e.id))

/-- The part of the goroutine between the connection and the first allocation. -/
def recover : Prog (Except Error Unit) := do
  match ← perform (.query .dbActive) with
  | .error e => pure (.error e)
  | .ok instances =>
    instances.forM restoreSession
    match ← perform (.query .dbAllocated) with
    | .error e => pure (.error e)
    | .ok instances =>
      instances.forM deleteAllocated
      instanceResync

/-- "Allocate new instances", from the `i`-th on. -/
def allocateLoop : Nat → Int → Prog Unit
  | 0, _ => do
    let stuck ← perform .halt
    nomatch stuck
  | rounds + 1, i => do
    let c ← perform .config
    if i < c.instance.allocate.count then
      match ← instancePreAllocate with
      | .error _ => pure ()
      | .ok _ => allocateLoop rounds (i + 1)
    else pure ()

/-- The goroutine that connects and restores. -/
def connect : Prog Unit := do
  let rounds ← perform .rounds
  let _ ← connectLoop rounds
  useProject
  match ← recover with
  | .error _ => pure ()
  | .ok _ =>
    perform (.go .hourlyResync)
    let rounds ← perform .rounds
    allocateLoop rounds 0

/-- The goroutine that resyncs every hour. -/
def hourlyResync : Nat → Prog Unit
  | 0 => do
    let stuck ← perform .halt
    nomatch stuck
  | rounds + 1 => do
    perform (.sleep 3600)
    let _ ← instanceResync
    hourlyResync rounds

end IncusDemo
