/-
  IncusDemo.Start

  The handler of `/1.0/start` (`restStartHandler` of api_session.go), with
  `restClientIP` and `restStartError` of utils.go.
-/

import IncusDemo.Instance

namespace IncusDemo

open Go

/-- `restClientIP`: the address of the client and its protocol. -/
def restClientIP (r : Request) : Except Error (String × String) :=
  let address :=
    if r.forwardedFor ≠ "" then r.forwardedFor
    else
      match splitHostPort r.remoteAddr with
      | .ok (host, _) => host
      | .error _ => r.remoteAddr
  match parseIP address with
  | none => .error ("Invalid address: " ++ address)
  | some ip => .ok (address, if isIPv4 ip then "IPv4" else "IPv6")

/-- `restStartError`. -/
def restStartError (code : StatusCode) : Prog Unit := do
  match ← perform (.encode [("status", .num code.code)]) with
  | .error _ => perform (.httpError "Internal server error" 500)
  | .ok _ => pure ()

/-- The closure `statusUpdate` of `restStartHandler`. -/
def statusUpdate (msg : String) : Prog Unit := do
  let _ ← perform (.encode [("message", .str msg)])
  perform .flush

/-- A session that a request has got: the id of its row and the record for the client. -/
structure Acquired where
  instanceID : Nat
  info : Info

/-- The record of a pre-allocated instance. -/
def allocatedInfo (row : Session) (instanceExpiry : Int) : Info where
  id := row.uuid
  name := row.instanceName
  ip := row.instanceIP
  username := row.instanceUsername
  password := row.instancePassword
  fqdn := none
  status := none
  expiry := some instanceExpiry

/-- "Use a pre-created instance": `none` when the handler has answered with an error. -/
def useAllocated (id : Nat) (row : Session) (instanceExpiry : Int) : Prog (Option Acquired) := do
  let info := allocatedInfo row instanceExpiry
  perform (.go .preAllocate)
  match ← instanceStart row.instanceName (some statusUpdate) with
  | .error _ =>
    restStartError .instanceUnknownError
    pure none
  | .ok _ => pure (some ⟨id, info⟩)

/-- The row that `restStartHandler` inserts. -/
def activeRow (info : Info) (instanceExpiry requestDate : Int) (requestIP requestTerms : String) :
    Session where
  uuid := info.id
  status := 0
  instanceName := info.name
  instanceIP := info.ip
  instanceUsername := info.username
  instancePassword := info.password
  instanceExpiry := instanceExpiry
  requestDate := requestDate
  requestIP := requestIP
  requestTerms := requestTerms

/-- "Fallback to creating a new one": `none` when the handler has answered with an error. -/
def useFresh (requestDate : Int) (requestIP requestTerms : String) : Prog (Option Acquired) := do
  match ← instanceCreate (some statusUpdate) with
  | .error _ =>
    restStartError .instanceUnknownError
    pure none
  | .ok info =>
    let now ← perform .now
    let c ← perform .config
    let instanceExpiry := int64 (now.unix + c.session.expiry)
    match ← perform
      (.query (.dbNew (activeRow info instanceExpiry requestDate requestIP requestTerms))) with
    | .error _ =>
      forceDelete info.name
      restStartError .instanceUnknownError
      pure none
    | .ok instanceID => pure (some ⟨instanceID, { info with expiry := some instanceExpiry }⟩)

/-- "Setup cleanup code", and the final answer. -/
def deliver (a : Acquired) : Prog Unit := do
  let c ← perform .config
  match parseDuration c.session.expiry with
  | .error _ =>
    forceDelete a.info.name
    restStartError .instanceUnknownError
  | .ok duration =>
    perform (.afterFunc duration (.cleanup a.instanceID a.info.name))
    match ← perform (.encode a.info.json) with
    | .error _ =>
      forceDelete a.info.name
      restStartError .instanceUnknownError
    | .ok _ => perform .flush

/-- "Create the instance": a pre-allocated one when there is one, else a new one. -/
def startSession (requestDate : Int) (requestIP requestTerms : String) : Prog Unit := do
  let now ← perform .now
  let c ← perform .config
  let instanceExpiry := int64 (now.unix + c.session.expiry)
  match ← dbGetAllocated instanceExpiry requestDate requestIP requestTerms with
  | .ok (id, row) =>
    match ← useAllocated id row instanceExpiry with
    | none => pure ()
    | some a => deliver a
  | .error _ =>
    match ← useFresh requestDate requestIP requestTerms with
    | none => pure ()
    | some a => deliver a

/-- The count the handler goes by: a failed query counts as a full server. -/
def countOr (result : Except Error Int) (limit : Int) : Int :=
  match result with
  | .ok n => n
  | .error _ => limit

/-- The limits: the handler goes on only below both. -/
def admitSession (requestDate : Int) (requestIP requestTerms : String) : Prog Unit := do
  let count ← perform (.query .dbActiveCount)
  let c ← perform .config
  if countOr count c.server.limits.total ≥ c.server.limits.total then
    restStartError .instanceServerFull
  else
    let count ← perform (.query (.dbActiveCountForIP requestIP))
    let c ← perform .config
    if c.server.limits.ip ≠ 0 ∧ countOr count c.server.limits.ip ≥ c.server.limits.ip then
      restStartError .instanceQuotaReached
    else startSession requestDate requestIP requestTerms

/-- The checks on the request once the answer has begun. -/
def checkRequest (r : Request) : Prog Unit := do
  let requestDate ← perform .now
  match restClientIP r with
  | .error _ => restStartError .instanceUnknownError
  | .ok (requestIP, _) =>
    let requestTerms := r.formValue "terms"
    if requestTerms = "" then
      perform (.httpError "Missing terms hash" 400)
    else
      let c ← perform .config
      if requestTerms ≠ c.server.termsHash then
        restStartError .instanceInvalidTerms
      else
        let c ← perform .config
        if requestIP ∈ c.server.blocklist.elems then
          restStartError .instanceUserBanned
        else admitSession requestDate.unix requestIP requestTerms

/-- `restStartHandler`. -/
def restStartHandler (r : Request) : Prog Unit := do
  if r.method ≠ "GET" then
    perform (.httpError "Not implemented" 501)
  else
    let c ← perform .config
    let d ← perform .incusDaemon
    if c.server.maintenance.enabled ∨ d = none then
      perform (.httpError "Server in maintenance mode" 500)
    else
      perform (.header "Access-Control-Allow-Origin" "*")
      perform (.header "Content-Type" "text/plain")
      perform (.header "Transfer-Encoding" "chunked")
      perform (.writeHeader 200)
      if ¬ r.flusher then
        perform (.httpError "Internal server error" 500)
      else
        perform .flush
        checkRequest r

end IncusDemo
