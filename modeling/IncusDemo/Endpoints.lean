/-
  IncusDemo.Endpoints

  The handlers of `/1.0`, `/1.0/terms` and `/1.0/info` (api_status.go,
  api_terms.go and `restInfoHandler` of api_session.go).
-/

import IncusDemo.Start

namespace IncusDemo

open Go Conc.Prog

/-- The program only answers. -/
abbrev Answers {α : Type} (prog : Prog α) : Prop := prog.Performs fun o => o.answers = true

/-- The values of "server_status". -/
inductive ServerStatusCode where
  | serverOperational
  | serverMaintenance
  deriving DecidableEq

/-- The number of a server status. -/
def ServerStatusCode.code : ServerStatusCode → Int
  | .serverOperational => 0
  | .serverMaintenance => 1

/-- What `restStatusHandler` has found out when it answers. -/
structure StatusReport where
  address : String
  protocol : String
  instanceCount : Int
  instanceNext : Int
  failure : Bool

/-- The answer of `restStatusHandler`, for the configuration and the connection it finds. -/
def StatusReport.json (s : StatusReport) (c : ServerConfig) (d : Option InstanceServer) :
    JsonObject :=
  let operational := ¬ c.server.maintenance.enabled ∧ ¬ s.failure ∧ d ≠ none
  [("client_address", .str s.address), ("client_protocol", .str s.protocol),
    ("feedback", .bool c.server.feedback.enabled), ("instance_count", .num s.instanceCount),
    ("instance_max", .num c.server.limits.total), ("instance_next", .num s.instanceNext)] ++
  (if operational then [("server_status", .num ServerStatusCode.serverOperational.code)]
    else [("server_message", .str c.server.maintenance.message),
      ("server_status", .num ServerStatusCode.serverMaintenance.code)]) ++
  [("session_console_only", .bool c.session.consoleOnly), ("session_network", .str c.session.network)]

/-- "Get some instance data": the count, the next expiry on a full server, and whether a query
    has failed. -/
def instanceData : Prog (Int × Int × Bool) := do
  let count ← perform (.query .dbActiveCount)
  let c ← perform .config
  let instanceCount := countOr count 0
  let failure := count.toBool.not
  if instanceCount ≥ c.server.limits.total then
    match ← perform (.query .dbNextExpire) with
    | .ok (some expire) => pure (instanceCount, expire, failure)
    | .ok none => pure (instanceCount, 0, true)
    | .error _ => pure (instanceCount, 0, true)
  else pure (instanceCount, 0, failure)

/-- `json.NewEncoder(w).Encode(body)` as the last thing a handler does. -/
def reply (body : JsonObject) : Prog Unit := do
  match ← perform (.encode body) with
  | .error _ => perform (.httpError "Internal server error" 500)
  | .ok _ => pure ()

theorem reply_answers (body : JsonObject) : Answers (reply body) := by
  unfold reply
  refine performs_then rfl fun r => ?_
  cases r with
  | error e => exact performs_perform rfl
  | ok _ => exact performs_pure _

theorem instanceData_answers : Answers instanceData := by
  unfold instanceData
  refine performs_then rfl fun n => performs_then rfl fun c => ?_
  refine performs_ite (performs_then rfl fun r => ?_) (performs_pure _)
  rcases r with e | (_ | expire) <;> exact performs_pure _

/-- `restStatusHandler`. -/
def restStatusHandler (r : Request) : Prog Unit := do
  if r.method ≠ "GET" then
    perform (.httpError "Not implemented" 501)
  else
    perform (.header "Access-Control-Allow-Origin" "*")
    perform (.header "Content-Type" "application/json")
    match restClientIP r with
    | .error _ => perform (.httpError "Internal server error" 500)
    | .ok (address, protocol) =>
      let (instanceCount, instanceNext, failure) ← instanceData
      let c ← perform .config
      let d ← perform .incusDaemon
      reply (StatusReport.json ⟨address, protocol, instanceCount, instanceNext, failure⟩ c d)

theorem restStatusHandler_answers (r : Request) : Answers (restStatusHandler r) := by
  unfold restStatusHandler
  refine performs_ite (performs_perform rfl) ?_
  refine performs_then rfl fun _ => performs_then rfl fun _ => ?_
  split
  · exact performs_perform rfl
  · refine instanceData_answers.bind fun data => ?_
    exact performs_then rfl fun c => performs_then rfl fun d => reply_answers _

/-- `restTermsHandler`. -/
def restTermsHandler (r : Request) : Prog Unit := do
  if r.method ≠ "GET" then
    perform (.httpError "Not implemented" 501)
  else
    perform (.header "Access-Control-Allow-Origin" "*")
    perform (.header "Content-Type" "application/json")
    let c ← perform .config
    reply [("hash", .str c.server.termsHash), ("terms", .str c.server.terms)]

theorem restTermsHandler_answers (r : Request) : Answers (restTermsHandler r) := by
  unfold restTermsHandler
  refine performs_ite (performs_perform rfl) ?_
  refine performs_then rfl fun _ => performs_then rfl fun _ => ?_
  exact performs_then rfl fun c => reply_answers _

/-- The answer of `restInfoHandler` about the session `id`. -/
def infoJson (consoleOnly : Bool) (id : String) (f : Found) : JsonObject :=
  if consoleOnly then
    [("expiry", .num f.instanceExpiry), ("id", .str id),
      ("status", .num StatusCode.instanceStarted.code)]
  else
    [("expiry", .num f.instanceExpiry), ("fqdn", .str (f.instanceName ++ ".incus")), ("id", .str id),
      ("ip", .str f.instanceIP), ("password", .str f.instancePassword),
      ("status", .num StatusCode.instanceStarted.code), ("username", .str f.instanceUsername)]

/-- `restInfoHandler`.  A failure to write the answer deletes the instance. -/
def restInfoHandler (r : Request) : Prog Unit := do
  if r.method ≠ "GET" then
    perform (.httpError "Not implemented" 501)
  else
    let c ← perform .config
    let d ← perform .incusDaemon
    if c.server.maintenance.enabled ∨ d = none then
      perform (.httpError "Server in maintenance mode" 500)
    else
      perform (.header "Access-Control-Allow-Origin" "*")
      perform (.header "Content-Type" "application/json")
      let id := r.formValue "id"
      if id = "" then
        perform (.httpError "Missing session id" 400)
      else
        match ← perform (.query (.dbGetInstance id false)) with
        | .ok (some f) =>
          let c ← perform .config
          match ← perform (.encode (infoJson c.session.consoleOnly id f)) with
          | .error _ =>
            forceDelete f.instanceName
            perform (.httpError "Internal server error" 500)
          | .ok _ => pure ()
        | _ => perform (.httpError "Session not found" 404)

end IncusDemo
