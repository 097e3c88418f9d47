/-
  IncusDemo.Statistics

  The handler of `/1.0/statistics` (api_statistics.go), with `dbGetStats` of
  db.go.
-/

import IncusDemo.Endpoints

namespace IncusDemo

open Go Conc.Prog

/-- The length in seconds of the periods that reach back from now. -/
def periodSeconds : String → Option Int
  | "hour" => some 3600
  | "day" => some (3600 * 24)
  | "week" => some (3600 * 24 * 7)
  | "month" => some (3600 * 732)
  | "year" => some (3600 * 8766)
  | _ => none

/-- "Deal with period filter". -/
def statsWhere (period : String) : Prog StatsWhere := do
  if period = "current" then
    pure .current
  else
    match periodSeconds period with
    | some seconds =>
      let now ← perform .now
      pure (.since (now.unix - seconds))
    | none => pure .all

/-- The stored address is one of the network's. -/
def inNetwork (network : IPNet) (ip : String) : Bool := (parseIP ip).any network.contains

/-- `dbGetStats`. -/
def dbGetStats (period : String) (unique : Bool) (network : Option IPNet) :
    Prog (Except Error Int) := do
  let where_ ← statsWhere period
  match network with
  | none => perform (.query (.countRequestIP unique where_))
  | some network =>
    match ← perform (.query (.selectRequestIP unique where_)) with
    | .error e => pure (.error e)
    | .ok result => pure (.ok (result.countP (inNetwork network)))

/-- The periods a client may ask for. -/
def periods : List String := ["", "total", "current", "hour", "day", "week", "month", "year"]

/-- "Network filtering". -/
def statsNetwork (requestNetwork : String) : Except Error (Option IPNet) :=
  if requestNetwork = "" then .ok none else (parseCIDR requestNetwork).map some

/-- `restStatisticsHandler`. -/
def restStatisticsHandler (r : Request) : Prog Unit := do
  if r.method ≠ "GET" then
    perform (.httpError "Not implemented" 501)
  else
    perform (.header "Access-Control-Allow-Origin" "*")
    perform (.header "Content-Type" "application/json")
    let c ← perform .config
    if r.formValue "key" ∉ c.server.statisticsKeys.elems then
      perform (.httpError "Invalid authentication key" 401)
    else
      let statsUnique ← perform (.isTrue (r.formValue "unique"))
      let requestPeriod := r.formValue "period"
      if requestPeriod ∉ periods then
        perform (.httpError "Invalid period" 400)
      else
        let statsPeriod := if requestPeriod = "" then "total" else requestPeriod
        match statsNetwork (r.formValue "network") with
        | .error _ => perform (.httpError "Invalid network" 400)
        | .ok network =>
          match ← dbGetStats statsPeriod statsUnique network with
          | .error _ => perform (.httpError "Unable to retrieve statistics" 500)
          | .ok count =>
            let _ ← perform (.write (toString count ++ "\n"))

theorem statsWhere_answers (period : String) : Answers (statsWhere period) := by
  unfold statsWhere
  refine performs_ite (performs_pure _) ?_
  split
  · exact performs_then rfl fun now => performs_pure _
  · exact performs_pure _

theorem dbGetStats_answers (period : String) (unique : Bool) (network : Option IPNet) :
    Answers (dbGetStats period unique network) := by
  unfold dbGetStats
  refine (statsWhere_answers period).bind fun w => ?_
  cases network with
  | none => exact performs_perform rfl
  | some network =>
    refine performs_then rfl fun r => ?_
    cases r with
    | error e => exact performs_pure _
    | ok result => exact performs_pure _

theorem restStatisticsHandler_answers (r : Request) : Answers (restStatisticsHandler r) := by
  unfold restStatisticsHandler
  refine performs_ite (performs_perform rfl) ?_
  refine performs_then rfl fun _ => performs_then rfl fun _ =>
    performs_then rfl fun c => ?_
  refine performs_ite (performs_perform rfl) (performs_then rfl fun unique => ?_)
  refine performs_ite (performs_perform rfl) ?_
  dsimp only
  cases statsNetwork (r.formValue "network") with
  | error e => exact performs_perform rfl
  | ok network =>
    refine (dbGetStats_answers _ _ _).bind fun count => ?_
    cases count with
    | error e => exact performs_perform rfl
    | ok n => exact performs_then rfl fun _ => performs_pure _

end IncusDemo
