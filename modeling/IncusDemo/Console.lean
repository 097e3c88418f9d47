/-
  IncusDemo.Console

  The handler of `/1.0/console` (`restConsoleHandler` of api_session.go).  Once
  the session is open it lasts until Incus says that the console has come to its
  end; the goroutines that copy between the websocket and the console go through
  `wsWrapper` (Rwc.lean) and are no threads of the model.
-/

import IncusDemo.Start
import IncusDemo.Go.Strconv

namespace IncusDemo

open Go Conc.Prog

/-- The operations of the handler of a console. -/
def Op.attends : Op → Bool
  | .config | .incusDaemon | .halt | .header .. | .httpError .. | .upgrade | .dataDone
  | .call _ (.execConsole ..) | .wait _ (.execConsole ..) | .query (.dbGetInstance ..) => true
  | _ => false

/-- The program performs no other operations. -/
abbrev Attends {α : Type} (prog : Prog α) : Prop := prog.Performs fun o => o.attends = true

/-- A width or a height, with what it is when the request has none. -/
def sizeOr (r : Request) (key fallback : String) : String :=
  if r.formValue key = "" then fallback else r.formValue key

def Request.width (r : Request) : String := sizeOr r "width" "150"

def Request.height (r : Request) : String := sizeOr r "height" "20"

/-- The environment of a console. -/
def consoleEnvironment : StringMap := [("HOME", "/root"), ("TERM", "xterm"), ("USER", "root")]

/-- The exec request of a console. -/
def consoleRequest (c : ServerConfig) (width height : Int) : InstanceExecPost where
  command := c.session.command.elems
  waitForWS := true
  interactive := true
  environment := consoleEnvironment
  width := width
  height := height

/-- "Connect to the instance". -/
def execConsole (instanceName : String) (width height : Int) : Prog Unit := do
  let c ← perform .config
  let req := consoleRequest c width height
  let d ← daemon
  match ← perform (.call d (.execConsole instanceName req)) with
  | .error _ => pure ()
  | .ok _ =>
    match ← perform (.wait d (.execConsole instanceName req)) with
    | .error _ => pure ()
    | .ok _ => perform .dataDone

theorem execConsole_attends (instanceName : String) (width height : Int) :
    Attends (execConsole instanceName width height) := by
  unfold execConsole daemon
  refine performs_then rfl fun c => Performs.bind (performs_then rfl fun d => ?_) fun d => ?_
  · cases d with
    | none => exact performs_then rfl fun stuck => nomatch stuck
    | some d => exact performs_pure d
  · refine performs_then rfl fun r => ?_
    cases r with
    | error e => exact performs_pure _
    | ok _ =>
      refine performs_then rfl fun r => ?_
      cases r with
      | error e => exact performs_pure _
      | ok _ => exact performs_perform rfl

/-- "Setup websocket with the client". -/
def upgradeConsole (instanceName : String) (width height : Int) : Prog Unit := do
  match ← perform .upgrade with
  | .error _ => perform (.httpError "Internal server error" 500)
  | .ok _ => execConsole instanceName width height

/-- A width or a height as a number.  The error is reported, and the handler goes on with the
    value that comes with it. -/
def parseSize (size : String) : Prog Int :=
  if (atoi size).2 ≠ none then do
    perform (.httpError "Invalid width value" 400)
    pure (atoi size).1
  else pure (atoi size).1

/-- "Get console width and height". -/
def openConsole (r : Request) (instanceName : String) : Prog Unit := do
  let widthInt ← parseSize r.width
  let heightInt ← parseSize r.height
  upgradeConsole instanceName widthInt heightInt

/-- `restConsoleHandler`. -/
def restConsoleHandler (r : Request) : Prog Unit := do
  if r.method ≠ "GET" then
    perform (.httpError "Not implemented" 501)
  else
    let c ← perform .config
    let d ← perform .incusDaemon
    if c.server.maintenance.enabled ∨ d = none then
      perform (.httpError "Server in maintenance mode" 500)
    else
      perform (.header "Access-Control-Allow-Origin" "*")
      let id := r.formValue "id"
      if id = "" then
        perform (.httpError "Missing session id" 400)
      else
        match ← perform (.query (.dbGetInstance id true)) with
        | .ok (some f) => openConsole r f.instanceName
        | _ => perform (.httpError "Session not found" 404)

theorem openConsole_attends (r : Request) (instanceName : String) :
    Attends (openConsole r instanceName) := by
  have herror : ∀ text code, Attends (perform (.httpError text code)) := fun _ _ =>
    performs_perform rfl
  have hsize : ∀ size, Attends (parseSize size) := fun size =>
    performs_ite (performs_then rfl fun _ => performs_pure _) (performs_pure _)
  unfold openConsole upgradeConsole
  refine (hsize _).bind fun _ => (hsize _).bind fun _ => ?_
  refine performs_then rfl fun upgraded => ?_
  cases upgraded with
  | error e => exact herror _ _
  | ok _ => exact execConsole_attends _ _ _

theorem restConsoleHandler_attends (r : Request) : Attends (restConsoleHandler r) := by
  have herror : ∀ text code, Attends (perform (.httpError text code)) := fun _ _ =>
    performs_perform rfl
  unfold restConsoleHandler
  refine performs_ite (herror _ _) (performs_then rfl fun c => performs_then rfl fun d => ?_)
  refine performs_ite (herror _ _) (performs_then rfl fun _ => ?_)
  refine performs_ite (herror _ _) (performs_then rfl fun found => ?_)
  rcases found with e | (_ | f)
  · exact herror _ _
  · exact herror _ _
  · exact openConsole_attends r _

end IncusDemo
