/-
  IncusDemo.Mail

  The mail about feedback.  Whether there is anything to say is decided twice:
  `emailFeedback` returns early when rating and `email_use` are zero, the
  template leaves a section out when they are not positive.  The two differ on
  negative numbers.
-/

import IncusDemo.Steps

namespace IncusDemo

open Go Conc Conc.Prog

-- ============================================================================
-- The text
-- ============================================================================

/-- The sections of `emailTpl` that are filled in. -/
def emailSections (rating : Int) (email message : String) : List String :=
  (if rating > 0 then ["Rating: " ++ toString rating ++ " / 5\n"] else []) ++
  (if email ≠ "" then ["E-mail: " ++ email ++ "\n"] else []) ++
  (if message ≠ "" then ["Message:\n\"\"\"\n" ++ message ++ "\n\"\"\""] else [])

/-- The part of `emailTpl` before the sections. -/
def emailHeader (sender recipient subject : String) : String :=
  "From: " ++ sender ++ "\nTo: " ++ recipient ++ "\nSubject: " ++ subject ++
  "\n\nYou received some new user feedback from try-it.\n\n"

/-- The text of a mail is its header and its sections. -/
theorem emailText_eq (sender recipient subject : String) (rating : Int) (email message : String) :
    emailText sender recipient subject rating email message =
      emailHeader sender recipient subject ++ String.join (emailSections rating email message) ++
        "\n" := by
  unfold emailText emailHeader emailSections
  by_cases hrating : rating > 0 <;> by_cases hemail : email = "" <;>
    by_cases hmessage : message = "" <;>
    simp [hrating, hemail, hmessage, String.append_assoc]

/-- The address that the template is given. -/
def Feedback.givenEmail (f : Feedback) : String := if f.emailUse > 0 then f.email else ""

/-- The sections of the mail about some feedback. -/
def Feedback.sections (f : Feedback) : List String :=
  emailSections f.rating f.givenEmail f.message

theorem sections_eq_nil_iff {f : Feedback} : f.sections = [] ↔
    f.rating ≤ 0 ∧ (f.emailUse ≤ 0 ∨ f.email = "") ∧ f.message = "" := by
  unfold Feedback.sections emailSections Feedback.givenEmail
  by_cases hrating : f.rating > 0 <;> by_cases huse : f.emailUse > 0 <;>
    simp [hrating, huse] <;> grind

/-- The early return of `emailFeedback`. -/
def Feedback.IsEmpty (f : Feedback) : Prop :=
  (f.email = "" ∨ f.emailUse = 0) ∧ f.rating = 0 ∧ f.message = ""

/-- A negative number is all that there is to say: the rating is negative, or so is the
    `email_use` of an address, and no section is filled in. -/
def Feedback.OnlyNegative (f : Feedback) : Prop :=
  (f.rating < 0 ∨ (f.email ≠ "" ∧ f.emailUse < 0)) ∧ f.rating ≤ 0 ∧
    (f.emailUse ≤ 0 ∨ f.email = "") ∧ f.message = ""

-- ============================================================================
-- What is sent
-- ============================================================================

/-- A mail that is handed to `smtp.SendMail`. -/
structure Mail where
  server : String
  sender : String
  recipient : String
  text : String

/-- The mail that an operation hands over, whether or not it is taken. -/
def mailOf : Event → Option Mail
  | ⟨.sendMail server sender recipient text, _⟩ => some ⟨server, sender, recipient, text⟩
  | _ => none

/-- The mails that a thread has handed over, the last one first. -/
def mails (l : Log) : List Mail := l.filterMap mailOf

/-- The mail about some feedback, for the two readings of the configuration. -/
def Feedback.mail (f : Feedback) (c₁ c₂ : ServerConfig) : Mail :=
  let settings := c₂.server.feedback.email
  ⟨settings.server, settings.from, settings.«to»,
    emailText c₁.server.feedback.email.from c₁.server.feedback.email.«to»
      c₁.server.feedback.email.subject f.rating f.givenEmail f.message⟩

/-- What `emailFeedback` has done when it returns. -/
def Mailed (f : Feedback) (l : Log) : Prop :=
  (f.IsEmpty ∧ configs l = [] ∧ mails l = []) ∨
  (¬ f.IsEmpty ∧ ∃ c₁ c₂, configs l = [c₂, c₁] ∧ mails l = [f.mail c₁ c₂])

theorem emailFeedback_traces (f : Feedback) :
    (emailFeedback f).Traces (fun _ => True) (fun _ l => True ∧ Mailed f l) [] := by
  unfold emailFeedback
  refine traces_ite (fun hempty => ⟨trivial, .inl ⟨hempty, rfl, rfl⟩⟩) fun hsay => ?_
  refine traces_then trivial fun c₁ => traces_then trivial fun c₂ => traces_then trivial fun sent => ?_
  exact ⟨trivial, .inr ⟨hsay, c₁, c₂, rfl, rfl⟩⟩

/-- In every run, a thread that has come to the end of `emailFeedback` has handed over the mail
    about its feedback, or none when there was nothing to say. -/
theorem mailed_of_returned {s₀ s : Sys} (h0 : Initial s₀) (hrun : server.Run Machine.anyStep s₀ s)
    {t : Nat} {f : Feedback} {l : Log} (hr : Returned s t (.email f) l) : Mailed f l :=
  hr.traced (hrun.traced (p := .email f) (emailFeedback_traces f) h0.allStart)

theorem mails_ne_nil_iff {f : Feedback} {l : Log} (h : Mailed f l) : mails l ≠ [] ↔ ¬ f.IsEmpty := by
  rcases h with ⟨hempty, -, hmails⟩ | ⟨hsay, c₁, c₂, -, hmails⟩
  · simp [hmails, hempty]
  · simp [hmails, hsay]

/-- The feedback without its address. -/
def Feedback.withoutEmail (f : Feedback) : Feedback := { f with email := "" }

/-- What a thread that ran `emailFeedback` with log `l` has sent agrees with the template, and an
    address without consent makes no difference to it. -/
structure MailAgrees (f : Feedback) (l : Log) : Prop where
  sends : mails l ≠ [] ↔ f.sections ≠ []
  untold : f.emailUse ≤ 0 → ∀ s₀ s t l', Initial s₀ → server.Run Machine.anyStep s₀ s →
    Returned s t (.email f.withoutEmail) l' →
    (mails l ≠ [] ↔ mails l' ≠ []) ∧ (configs l = configs l' → mails l = mails l')

/-- The two decisions differ exactly when negative numbers are all there is. -/
theorem agree_iff {f : Feedback} : (¬ f.IsEmpty ↔ f.sections ≠ []) ↔ ¬ f.OnlyNegative := by
  rw [Ne, sections_eq_nil_iff]
  unfold Feedback.IsEmpty Feedback.OnlyNegative
  grind

/-- In every run: `emailFeedback` sends a mail just when it has a section, and regardless of an
    address without consent, if and only if negative numbers are not all that the feedback has. -/
theorem mail_agrees_iff {s₀ s : Sys} (h0 : Initial s₀) (hrun : server.Run Machine.anyStep s₀ s)
    {t : Nat} {f : Feedback} {l : Log} (hr : Returned s t (.email f) l) :
    MailAgrees f l ↔ ¬ f.OnlyNegative := by
  have hmailed := mailed_of_returned h0 hrun hr
  have hsends : (mails l ≠ [] ↔ f.sections ≠ []) ↔ ¬ f.OnlyNegative := by
    rw [mails_ne_nil_iff hmailed, agree_iff]
  refine ⟨fun h => hsends.mp h.sends, fun h => ⟨hsends.mpr h, ?_⟩⟩
  intro huse s₁ s' t' l' h1 hrun' hr'
  have hmailed' := mailed_of_returned h1 hrun' hr'
  -- with or without the address there is the same to say
  have hempty : f.IsEmpty ↔ f.withoutEmail.IsEmpty := by
    unfold Feedback.OnlyNegative at h
    unfold Feedback.IsEmpty Feedback.withoutEmail
    grind
  have hmail : ∀ c₁ c₂, f.withoutEmail.mail c₁ c₂ = f.mail c₁ c₂ := by
    intro c₁ c₂
    unfold Feedback.mail Feedback.givenEmail Feedback.withoutEmail
    simp [Int.not_lt.mpr huse]
  refine ⟨by rw [mails_ne_nil_iff hmailed, mails_ne_nil_iff hmailed', hempty], fun hconfigs => ?_⟩
  rcases hmailed with ⟨-, hc, hm⟩ | ⟨-, c₁, c₂, hc, hm⟩ <;>
    rcases hmailed' with ⟨-, hc', hm'⟩ | ⟨-, c₁', c₂', hc', hm'⟩
  · rw [hm, hm']
  · simp [hc, hc'] at hconfigs
  · simp [hc, hc'] at hconfigs
  · rw [hc, hc'] at hconfigs
    obtain ⟨rfl, rfl⟩ : c₂ = c₂' ∧ c₁ = c₁' := by simpa using hconfigs
    rw [hm, hm', hmail]

/-- A server that takes feedback and sends it on, with one session. -/
def mailServer : Sys :=
  let c := smallConfig 5 0
  let email := { c.server.feedback.email with server := "mail:25" }
  bootSys (smallWorld [("u0", "10.0.0.1")])
    { c with server := { c.server with feedback := { c.server.feedback with
      enabled := true, email := email } } }

theorem mailServer_initial : Initial mailServer := bootSys_initial _ _

/-- A client gives feedback about its session. -/
def gives (f : Feedback) : Env :=
  .rest (.feedback ⟨⟨"POST", "", "192.0.2.1:50000", [("id", "u0")], true⟩, "", some f⟩)

/-- Thread `t` has come to the end of `emailFeedback`, and `g` holds of its log. -/
def mailing (t : Nat) (f : Feedback) (g : Log → Bool) (s : Sys) : Bool :=
  match s.threads[t]? with
  | some ⟨.email f', true, l, .ret _⟩ => f' == f && g l
  | _ => false

theorem returned_of_mailing {t : Nat} {f : Feedback} {g : Log → Bool} {s : Sys}
    (h : mailing t f g s = true) : ∃ l, Returned s t (.email f) l ∧ g l = true := by
  unfold mailing at h
  split at h
  · rename_i f' l u hth
    obtain ⟨hf, hg⟩ := Bool.and_eq_true_iff.mp h
    cases beq_iff_eq.mp hf
    exact ⟨l, ⟨_, hth, rfl, rfl, rfl, rfl⟩, hg⟩
  · cases h

/-- A rating with a comment is sent on. -/
theorem mail_agrees_small : ∃ s l, Returned s 2 (.email ⟨4, "", 0, "thanks"⟩) l ∧
    MailAgrees ⟨4, "", 0, "thanks"⟩ l := by
  obtain ⟨s, hrun, hs⟩ := server.run_of_check Machine.noTest (fun _ _ _ => trivial) mailServer
    (act (gives ⟨4, "", 0, "thanks"⟩) ++ oks 1 10 ++ oks 2 3)
    (mailing 2 ⟨4, "", 0, "thanks"⟩ fun _ => true) (by decide +kernel)
  obtain ⟨l, hr, -⟩ := returned_of_mailing hs
  have hpositive : ¬ Feedback.OnlyNegative ⟨4, "", 0, "thanks"⟩ := by
    simp [Feedback.OnlyNegative]
  exact ⟨s, l, hr, (mail_agrees_iff mailServer_initial hrun hr).mpr hpositive⟩

/-- A mail without any section is sent about a negative rating. -/
theorem mail_about_nothing : ¬ ∀ s₀ s t f l, Initial s₀ → server.Run Machine.anyStep s₀ s →
    Returned s t (.email f) l → MailAgrees f l := by
  intro hall
  obtain ⟨s, hrun, hs⟩ := server.run_of_check Machine.noTest (fun _ _ _ => trivial) mailServer
    (act (gives ⟨-1, "", 0, ""⟩) ++ oks 1 10 ++ oks 2 3)
    (mailing 2 ⟨-1, "", 0, ""⟩ fun l => !(mails l).isEmpty) (by decide +kernel)
  obtain ⟨l, hr, hl⟩ := returned_of_mailing hs
  have hsections := (hall _ s 2 _ l mailServer_initial hrun hr).sends.mp (by simpa using hl)
  exact hsections rfl

end IncusDemo
