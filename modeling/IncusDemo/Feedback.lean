/-
  IncusDemo.Feedback

  The handlers of `/1.0/feedback` (api_feedback.go), with `dbRecordFeedback` of
  db.go.
-/

import IncusDemo.Endpoints
import IncusDemo.Statistics

namespace IncusDemo

open Go Conc.Prog

/-- `dbRecordFeedback`: an UPDATE when the SELECT has found a row, else an INSERT. -/
def dbRecordFeedback (id : Nat) (feedback : Feedback) : Prog (Except Error Unit) := do
  match ← perform (.query (.dbGetFeedback id)) with
  | .error e => pure (.error e)
  | .ok none => perform (.query (.insertFeedback id feedback))
  | .ok (some _) => perform (.query (.updateFeedback feedback id))

/-- `restFeedbackPostHandler`. -/
def restFeedbackPostHandler (r : FeedbackRequest) : Prog Unit := do
  perform (.header "Access-Control-Allow-Origin" "*")
  perform (.header "Content-Type" "application/json")
  let id := r.formValue "id"
  if id = "" then
    perform (.httpError "Missing session id" 400)
  else
    match ← perform (.query (.dbGetInstance id false)) with
    | .ok (some f) =>
      let now ← perform .now
      let c ← perform .config
      if now.unix > int64 (f.instanceExpiry + int64 (c.server.feedback.timeout * 60)) then
        perform (.httpError "Feedback timeout has been reached" 400)
      else
        match r.body with
        | none => perform (.httpError "Invalid JSON data" 400)
        | some feedback =>
          match ← dbRecordFeedback f.sessionId feedback with
          | .error _ => perform (.httpError "Unable to record feedback data" 500)
          | .ok _ =>
            let c ← perform .config
            if c.server.feedback.email.server ≠ "" then
              perform (.go (.email feedback))
    | _ => perform (.httpError "Session not found" 404)

/-- The answer of `restFeedbackGetHandler`. -/
def feedbackJson (f : Feedback) : JsonObject :=
  [("email", .str f.email), ("email_use", .num f.emailUse), ("feedback", .str f.message),
    ("rating", .num f.rating)]

/-- `restFeedbackGetHandler`. -/
def restFeedbackGetHandler (r : FeedbackRequest) : Prog Unit := do
  perform (.header "Access-Control-Allow-Origin" "*")
  perform (.header "Content-Type" "application/json")
  let id := r.formValue "id"
  if id = "" then
    perform (.httpError "Missing session id" 400)
  else
    match ← perform (.query (.dbGetInstance id false)) with
    | .ok (some f) =>
      match ← perform (.query (.dbGetFeedback f.sessionId)) with
      | .ok (some (_, feedback)) => reply (feedbackJson feedback)
      | _ => perform (.httpError "No existing feedback" 404)
    | _ => perform (.httpError "Session not found" 404)

theorem restFeedbackGetHandler_answers (r : FeedbackRequest) : Answers (restFeedbackGetHandler r) := by
  have herror : ∀ text code, Answers (perform (.httpError text code)) := fun _ _ =>
    performs_perform rfl
  unfold restFeedbackGetHandler
  refine performs_then rfl fun _ => performs_then rfl fun _ => ?_
  refine performs_ite (herror _ _) (performs_then rfl fun found => ?_)
  rcases found with e | (_ | f)
  · exact herror _ _
  · exact herror _ _
  · refine performs_then rfl fun feedback => ?_
    rcases feedback with e | (_ | ⟨id, feedback⟩)
    · exact herror _ _
    · exact herror _ _
    · exact reply_answers _

/-- `restFeedbackHandler`. -/
def restFeedbackHandler (r : FeedbackRequest) : Prog Unit := do
  let c ← perform .config
  if ¬ c.server.feedback.enabled then
    perform (.httpError "Feedback reporting is disabled" 400)
  else if r.method = "POST" then
    restFeedbackPostHandler r
  else if r.method = "GET" then
    restFeedbackGetHandler r
  else if r.method = "OPTIONS" then
    if r.origin ≠ "" then
      perform (.header "Access-Control-Allow-Origin" "*")
      perform (.header "Access-Control-Allow-Methods" "GET, POST, PUT, DELETE, OPTIONS")
      perform (.header "Access-Control-Allow-Headers" "Content-Type")
  else
    perform (.httpError "Not implemented" 501)

/-- A request that is no POST records nothing. -/
theorem restFeedbackHandler_answers {r : FeedbackRequest} (h : r.method ≠ "POST") :
    Answers (restFeedbackHandler r) := by
  unfold restFeedbackHandler
  rw [if_neg h]
  refine performs_then rfl fun c => performs_ite (performs_perform rfl) ?_
  apply performs_ite (restFeedbackGetHandler_answers r)
  refine performs_ite (performs_ite ?_ (performs_pure _)) (performs_perform rfl)
  exact performs_then rfl fun _ => performs_then rfl fun _ => performs_perform rfl

/-- `emailTpl`, filled in. -/
def emailText (sender recipient subject : String) (rating : Int) (email message : String) : String :=
  "From: " ++ sender ++ "\nTo: " ++ recipient ++ "\nSubject: " ++ subject ++
  "\n\nYou received some new user feedback from try-it.\n\n" ++
  (if rating > 0 then "Rating: " ++ toString rating ++ " / 5\n" else "") ++
  (if email ≠ "" then "E-mail: " ++ email ++ "\n" else "") ++
  (if message ≠ "" then "Message:\n\"\"\"\n" ++ message ++ "\n\"\"\"" else "") ++ "\n"

/-- `emailFeedback`. -/
def emailFeedback (feedback : Feedback) : Prog Unit := do
  if (feedback.email = "" ∨ feedback.emailUse = 0) ∧ feedback.rating = 0 ∧ feedback.message = "" then
    pure ()
  else
    let c ← perform .config
    let email := if feedback.emailUse > 0 then feedback.email else ""
    let settings := c.server.feedback.email
    let text := emailText settings.from settings.«to» settings.subject feedback.rating email
      feedback.message
    let c ← perform .config
    let settings := c.server.feedback.email
    let _ ← perform (.sendMail settings.server settings.from settings.«to» text)

/-- The handler of a request for an endpoint other than `/1.0/start`. -/
def restHandler : RestRequest → Prog Unit
  | .status r => restStatusHandler r
  | .terms r => restTermsHandler r
  | .info r => restInfoHandler r
  | .statistics r => restStatisticsHandler r
  | .feedback r => restFeedbackHandler r

end IncusDemo
