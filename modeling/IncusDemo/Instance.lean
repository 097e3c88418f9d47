/-
  IncusDemo.Instance

  Making, starting and removing instances: session.go, `incusForceDelete` of
  utils.go and `dbGetAllocated` of db.go.

  A loop without a bound goes through a number of rounds that the environment
  picks when the loop is entered; once they are used up the thread stays where
  it is, so every finite run of the endless loop is a run of the model.
-/

import IncusDemo.Effect

namespace IncusDemo

open Go

/-- The status codes of the start API. -/
inductive StatusCode where
  | instanceStarted
  | instanceInvalidTerms
  | instanceServerFull
  | instanceQuotaReached
  | instanceUserBanned
  | instanceUnknownError
  deriving DecidableEq

/-- The number of a status code. -/
def StatusCode.code : StatusCode → Int
  | .instanceStarted => 0
  | .instanceInvalidTerms => 1
  | .instanceServerFull => 2
  | .instanceQuotaReached => 3
  | .instanceUserBanned => 4
  | .instanceUnknownError => 5

/-- The map `info` that describes a session.  The keys "id", "name", "ip", "username" and
    "password" are always there, the others only where the code stores them. -/
structure Info where
  id : String
  name : String
  ip : String
  username : String
  password : String
  fqdn : Option String
  status : Option StatusCode
  expiry : Option Int
  deriving DecidableEq

/-- `info` as a JSON object. -/
def Info.json (i : Info) : JsonObject :=
  (i.expiry.toList.map fun e => ("expiry", Json.num e)) ++
  (i.fqdn.toList.map fun f => ("fqdn", Json.str f)) ++
  [("id", .str i.id), ("ip", .str i.ip), ("name", .str i.name), ("password", .str i.password)] ++
  (i.status.toList.map fun s => ("status", Json.num s.code)) ++
  [("username", .str i.username)]

/-- `statusUpdate func(string)`, which may be nil. -/
abbrev StatusUpdate := Option (String → Prog Unit)

/-- `if statusUpdate != nil { statusUpdate(msg) }`. -/
def StatusUpdate.notify (su : StatusUpdate) (msg : String) : Prog Unit :=
  match su with
  | some f => f msg
  | none => pure ()

/-- The connection in `incusDaemon`.  It is read only after a check that it is not nil, or
    by code that starts after the connection is made; a nil connection would panic. -/
def daemon : Prog InstanceServer := do
  match ← perform .incusDaemon with
  | some d => pure d
  | none => do
    let stuck ← perform .halt
    nomatch stuck

/-- `d.DeleteInstance(name)`, and the wait for the operation. -/
def deleteInstance (d : InstanceServer) (name : String) : Prog (Except Error Unit) := do
  match ← perform (.call d (.deleteInstance name)) with
  | .error e => pure (.error e)
  | .ok _ => perform (.wait d (.deleteInstance name))

/-- `incusForceDelete`. -/
def incusForceDelete (d : InstanceServer) (name : String) : Prog (Except Error Unit) := do
  match ← perform (.call d (.updateInstanceState name "stop" true)) with
  | .ok _ =>
    let _ ← perform (.wait d (.updateInstanceState name "stop" true))
  | .error _ => pure ()
  deleteInstance d name

/-- `incusForceDelete(incusDaemon, name)`. -/
def forceDelete (name : String) : Prog Unit := do
  let d ← daemon
  let _ ← incusForceDelete d name

-- ============================================================================
-- instanceStart
-- ============================================================================

/-- The network interfaces whose addresses count. -/
def admittedInterface (instanceType netName : String) : Bool :=
  if instanceType = "container" then netName == "eth0"
  else ["enp5s0", "_venp5s0"].contains netName

/-- The addresses that count, for a setting of `Session.Network`. -/
def admittedAddress (network : String) (a : Address) : Bool :=
  a.address != "" && a.scope == "global" &&
  !(network == "ipv6" && a.family != "inet6") &&
  !(network == "ipv4" && a.family != "inet")

/-- The address that one round over the network state picks: the first that counts on an
    interface that counts, or "". -/
def selectAddress (instanceType network : String) : Network → String
  | [] => ""
  | (netName, addresses) :: rest =>
    if admittedInterface instanceType netName then
      match addresses.find? (admittedAddress network) with
      | some a => a.address
      | none => selectAddress instanceType network rest
    else selectAddress instanceType network rest

/-- The loop that waits for an address, with the rounds left in `timeout`. -/
def waitAddress (instanceName instanceType : String) : Nat → Prog (Except Error String)
  | 0 => pure (.ok "")
  | timeout + 1 => do
    let d ← daemon
    match ← perform (.call d (.getInstanceState instanceName)) with
    | .error e =>
      forceDelete instanceName
      pure (.error e)
    | .ok net =>
      let c ← perform .config
      let instanceIP := selectAddress instanceType c.session.network net
      if instanceIP ≠ "" then
        pure (.ok instanceIP)
      else
        perform (.sleep 1)
        waitAddress instanceName instanceType timeout

/-- The loop that waits for the ready command, with the rounds left in `timeout`. -/
def waitReady (instanceName : String) : Nat → Prog Unit
  | 0 => pure ()
  | timeout + 1 => do
    perform (.sleep 1)
    let c ← perform .config
    let d ← daemon
    match ← perform (.call d (.execInstance instanceName c.session.readyCommand.elems)) with
    | .error _ => waitReady instanceName timeout
    | .ok _ =>
      let _ ← perform (.wait d (.execInstance instanceName c.session.readyCommand.elems))
      match ← perform (.execReturn d instanceName) with
      | some 0 => pure ()
      | _ => waitReady instanceName timeout

/-- `instanceStart`: the address of the instance, or "". -/
def instanceStart (instanceName : String) (statusUpdate : StatusUpdate) :
    Prog (Except Error String) := do
  let d ← daemon
  match ← perform (.call d (.getInstance instanceName)) with
  | .error e =>
    forceDelete instanceName
    pure (.error e)
  | .ok ct =>
    if ct.status = "Running" then
      pure (.ok "")
    else
      statusUpdate.notify "Starting the instance"
      let d ← daemon
      match ← perform (.call d (.updateInstanceState instanceName "start" false)) with
      | .error e =>
        forceDelete instanceName
        pure (.error e)
      | .ok _ =>
        match ← perform (.wait d (.updateInstanceState instanceName "start" false)) with
        | .error e =>
          forceDelete instanceName
          pure (.error e)
        | .ok _ =>
          perform (.sleep 2)
          statusUpdate.notify "Waiting for console"
          match ← waitAddress instanceName ct.instanceType 30 with
          | .error e => pure (.error e)
          | .ok instanceIP =>
            let c ← perform .config
            if c.session.readyCommand.elems.length > 0 then
              waitReady instanceName 30
            pure (.ok instanceIP)

-- ============================================================================
-- instanceCreate
-- ============================================================================

/-- The source that a copy starts from: the configured profiles, and no volatile keys but
    the one that applies the copy templates. -/
def copySource (c : ServerConfig) (source : Instance) : Instance :=
  { source with
    profiles := c.instance.profiles.elems
    config := StringMap.set (source.config.filter fun e => !hasPrefix e.1 "volatile.")
      "volatile.apply_template" "copy" }

/-- The request that creates an instance from the configured image. -/
def imageRequest (c : ServerConfig) (instanceName : String) : InstancesPost where
  name := instanceName
  sourceType := "image"
  sourceAlias := c.instance.source.image
  sourceServer := "https://images.linuxcontainers.org"
  sourceProtocol := "simplestreams"
  instanceType := c.instance.source.instanceType
  profiles := c.instance.profiles.elems

/-- The cloud-init configuration of an instance with a login. -/
def userData (username password : String) : String :=
  "#cloud-config\nssh_pwauth: True\nmanage_etc_hosts: True\nusers:\n - name: " ++ username ++
  "\n   groups: sudo\n   plain_text_passwd: " ++ password ++
  "\n   lock_passwd: False\n   shell: /bin/bash\n"

/-- The devices of an instance with the configured disk limit on its root device. -/
def limitDevices (c : ServerConfig) (ct : Instance) : Devices :=
  if c.instance.limits.disk = "" then ct.devices
  else
    match ct.expandedDevices.get? "root" with
    | some root => ct.devices.set "root" (root.set "size" c.instance.limits.disk)
    | none => ct.devices.set "root" [("type", "disk"), ("path", "/"), ("size", c.instance.limits.disk)]

/-- The configuration keys of an instance with the configured limits and login. -/
def limitConfig (c : ServerConfig) (ct : Instance) (username password : String) : StringMap :=
  let m := ct.config
  let m :=
    if ct.instanceType = "container" then
      let m := m.set "security.nesting" "true"
      if c.instance.limits.processes > 0 then
        m.set "limits.processes" (toString c.instance.limits.processes)
      else m
    else m
  let m := if c.instance.limits.cpu > 0 then m.set "limits.cpu" (toString c.instance.limits.cpu) else m
  let m := if c.instance.limits.memory ≠ "" then m.set "limits.memory" c.instance.limits.memory else m
  if c.session.consoleOnly then m else m.set "user.user-data" (userData username password)

/-- The call that makes the instance: a copy of the configured source, or an image. -/
def makeInstance (c : ServerConfig) (instanceName : String) : Prog (Except Error Unit) := do
  if c.instance.source.instance ≠ "" then
    let d ← daemon
    match ← perform (.call d (.getInstance c.instance.source.instance)) with
    | .error e => pure (.error e)
    | .ok source =>
      let d ← daemon
      let copy := Call.copyInstance (copySource c source) instanceName true
      match ← perform (.call d copy) with
      | .error e => pure (.error e)
      | .ok _ => perform (.wait d copy)
  else
    let d ← daemon
    let create := Call.createInstance (imageRequest c instanceName)
    match ← perform (.call d create) with
    | .error e => pure (.error e)
    | .ok _ => perform (.wait d create)

/-- The update that sets the limits of a new instance; a failure deletes it. -/
def configureInstance (instanceName username password : String) : Prog (Except Error Unit) := do
  let d ← daemon
  match ← perform (.call d (.getInstance instanceName)) with
  | .error e =>
    forceDelete instanceName
    pure (.error e)
  | .ok ct =>
    let c ← perform .config
    let put := InstancePut.mk (limitConfig c ct username password) (limitDevices c ct)
    let d ← daemon
    match ← perform (.call d (.updateInstance instanceName put)) with
    | .error e =>
      forceDelete instanceName
      pure (.error e)
    | .ok _ =>
      match ← perform (.wait d (.updateInstance instanceName put)) with
      | .error e =>
        forceDelete instanceName
        pure (.error e)
      | .ok _ => pure (.ok ())

/-- The record that `instanceCreate` returns. -/
def createdInfo (consoleOnly : Bool) (id instanceName instanceIP password : String) : Info where
  id := id
  name := instanceName
  ip := instanceIP
  username := if consoleOnly then "" else "admin"
  password := if consoleOnly then "" else password
  fqdn := some (if consoleOnly then "" else instanceName ++ ".incus")
  status := some .instanceStarted
  expiry := none

/-- The body of `instanceCreate`, between taking and releasing the read lock. -/
def createLocked (statusUpdate : StatusUpdate) : Prog (Except Error Info) := do
  statusUpdate.notify "Creating the instance"
  let id ← perform .newRandom
  let instanceName := "tryit-" ++ id
  let instancePassword ← perform .newRandom
  let c ← perform .config
  match ← makeInstance c instanceName with
  | .error e => pure (.error e)
  | .ok _ =>
    statusUpdate.notify "Configuring the instance"
    match ← configureInstance instanceName "admin" instancePassword with
    | .error e => pure (.error e)
    | .ok _ =>
      match ← instanceStart instanceName statusUpdate with
      | .error e =>
        forceDelete instanceName
        pure (.error e)
      | .ok instanceIP =>
        let c ← perform .config
        pure (.ok (createdInfo c.session.consoleOnly id instanceName instanceIP instancePassword))

/-- The instance of a record that is returned without an error. -/
def returnedName : Except Error Info → Option String
  | .ok info => some info.name
  | .error _ => none

/-- `instanceCreate`.  Its first argument is never used. -/
def instanceCreate (statusUpdate : StatusUpdate) : Prog (Except Error Info) := do
  perform .rLock
  let result ← createLocked statusUpdate
  perform (.rUnlock (returnedName result))
  pure result

-- ============================================================================
-- dbGetAllocated
-- ============================================================================

/-- `dbGetAllocated`: the id and the row it claimed. -/
def dbGetAllocated (instanceExpiry requestDate : Int) (requestIP requestTerms : String) :
    Prog (Except Error (Nat × Session)) := do
  let c ← perform .config
  if c.instance.allocate.count = 0 then
    pure (.error "Pre-allocated instances isn't enabled")
  else
    match ← perform (.query .selectAllocated) with
    | .error e => pure (.error e)
    | .ok none => pure (.error "sql: no rows in result set")
    | .ok (some row) =>
      if row.1 = 0 then
        pure (.error "No available pre-allocated instances")
      else
        match ← perform (.query
          (.updateAllocated instanceExpiry requestDate requestIP requestTerms row.1)) with
        | .error e => pure (.error e)
        | .ok _ => pure (.ok row)

-- ============================================================================
-- instancePreAllocate
-- ============================================================================

/-- The loop that creates an instance until it succeeds. -/
def createUntilOk : Nat → Prog Info
  | 0 => do
    let stuck ← perform .halt
    nomatch stuck
  | rounds + 1 => do
    match ← instanceCreate none with
    | .ok info => pure info
    | .error _ =>
      perform (.sleep 30)
      createUntilOk rounds

/-- The row that `instancePreAllocate` inserts. -/
def allocatedRow (info : Info) (instanceExpiry : Int) : Session where
  uuid := info.id
  status := 2
  instanceName := info.name
  instanceIP := info.ip
  instanceUsername := info.username
  instancePassword := info.password
  instanceExpiry := instanceExpiry
  requestDate := 0
  requestIP := ""
  requestTerms := ""

/-- `instancePreAllocate`. -/
def instancePreAllocate : Prog (Except Error Unit) := do
  let rounds ← perform .rounds
  let info ← createUntilOk rounds
  let c ← perform .config
  match parseDuration c.instance.allocate.expiry with
  | .error e =>
    forceDelete info.name
    pure (.error e)
  | .ok duration =>
    let now ← perform .now
    let c ← perform .config
    let instanceExpiry := int64 (now.unix + c.instance.allocate.expiry)
    match ← perform (.query (.dbNew (allocatedRow info instanceExpiry))) with
    | .error e =>
      forceDelete info.name
      pure (.error e)
    | .ok instanceID =>
      perform (.afterFunc duration (.allocateTimeout instanceID info.name))
      pure (.ok ())

/-- The callback that `instancePreAllocate` arms. -/
def allocateTimeout (instanceID : Nat) (instanceName : String) : Prog Unit := do
  match ← perform (.query (.dbIsAllocated instanceID)) with
  | .ok true =>
    forceDelete instanceName
    let _ ← perform (.query (.dbDelete instanceID))
    let _ ← instancePreAllocate
  | _ => pure ()

/-- The callback that ends a session, armed by `restStartHandler` and by `run`. -/
def cleanup (instanceID : Nat) (instanceName : String) : Prog Unit := do
  forceDelete instanceName
  let _ ← perform (.query (.dbExpire instanceID))

-- ============================================================================
-- instanceResync
-- ============================================================================

/-- The loop of `instanceResync` over the instances it listed. -/
def resyncNames : List String → Prog (Except Error Unit)
  | [] => pure (.ok ())
  | instanceName :: rest => do
    if hasPrefix instanceName "tryit-" then
      match ← perform (.query (.dbShouldExist instanceName)) with
      | .error e => pure (.error e)
      | .ok true => resyncNames rest
      | .ok false =>
        forceDelete instanceName
        resyncNames rest
    else resyncNames rest

/-- The body of `instanceResync`, between taking and releasing the write lock. -/
def resyncLocked : Prog (Except Error Unit) := do
  let d ← daemon
  match ← perform (.call d .getInstanceNames) with
  | .error e => pure (.error e)
  | .ok instanceNames => resyncNames instanceNames

/-- `instanceResync`. -/
def instanceResync : Prog (Except Error Unit) := do
  perform .announce
  perform .lock
  let result ← resyncLocked
  perform .unlock
  pure result

end IncusDemo
