/-
  IncusDemo.PoolSize

  The size of the pool.  Whoever takes an instance out of the pool owes a
  replacement (Pool.lean); here a replacement is started, and a waiting row
  inserted, only by a thread that owes it.  So what waits and what is owed
  together stay as many as they are, as long as every claim and every deletion
  finds its row waiting.
-/

import IncusDemo.Connection
import IncusDemo.Handout
import IncusDemo.Pool
import Mathlib.Algebra.BigOperators.Group.List.Basic

namespace IncusDemo

open Go Conc Conc.Prog

-- ============================================================================
-- What is paid
-- ============================================================================

/-- Operations that put no waiting row in, start no replacement and open no account. -/
def frugal : Op → Bool
  | .query (.dbNew row) => row.status != 2
  | .go .preAllocate | .go .hourlyResync => false
  | _ => true

/-- The program performs no other operations. -/
abbrev Frugal {α : Type} (prog : Prog α) : Prop := prog.Performs fun o => frugal o = true

/-- One row more pays for one replacement that is owed. -/
def Owing (n : Nat) (p : Proc) (a : Account) : Prop :=
  debt n p { a with inserted := a.inserted + 1 } + 1 = debt n p a

/-- What a thread puts in or starts it has owed, unless a statement has failed or the
    configuration has changed. -/
def Pays (c : ServerConfig) (n : Nat) (p : Proc) (l : Log) : Op → Prop
  | .query (.dbNew row) => row.status = 2 → Smooth c l → Owing n p (account l)
  | .go .preAllocate => debt n p { account l with replaced := true } + 1 = debt n p (account l)
  | .go .hourlyResync => (account l).begun = false
  | _ => True

/-- Weakest preconditions of server programs over logs, under `Pays`. -/
abbrev Spends {α : Type} (c : ServerConfig) (n : Nat) (p : Proc) (prog : Prog α)
    (Q : α → Log → Prop) (l : Log) : Prop :=
  Conc.Prog.wp Machine.logStep (Pays c n p) prog Q l

section Spends

variable {c : ServerConfig} {n : Nat} {p : Proc} {l : Log} {α β : Type}

theorem frugal_of_early (o : Op) (h : early o = true) : frugal o = true := by
  cases o with
  | query q => cases q <;> first | rfl | cases h
  | go q => cases q <;> first | rfl | cases h
  | _ => rfl

theorem frugal_of_works (o : Op) (h : o.works = true) : frugal o = true :=
  frugal_of_early o (early_of_works o h)

theorem frugal_of_answers (o : Op) (h : o.answers = true) : frugal o = true := by
  cases o with
  | query q => cases q <;> first | rfl | cases h
  | go q => cases h
  | _ => rfl

theorem frugal_of_attends (o : Op) (h : o.attends = true) : frugal o = true := by
  cases o with
  | query q => cases q <;> first | rfl | cases h
  | go q => cases h
  | _ => rfl

theorem pays_of_frugal {o : Op} (h : frugal o = true) : Pays c n p l o := by
  cases o with
  | query q =>
    cases q with
    | dbNew row => exact fun hstatus => absurd hstatus (bne_iff_ne.mp h)
    | _ => trivial
  | go q => cases q <;> trivial
  | _ => trivial

/-- A frugal operation starts no replacement. -/
theorem replaced_of_frugal {o : Op} (h : frugal o = true) (r : Ret o) (l : Log) :
    (account (⟨o, r⟩ :: l)).replaced = (account l).replaced := by
  cases o with
  | query q => cases r <;> cases q <;> rfl
  | go q => cases q <;> first | rfl | cases h
  | _ => rfl

theorem spends_op {o : Op} {Q : Ret o → Log → Prop} :
    Spends c n p (perform o) Q l ↔ Pays c n p l o ∧ ∀ r, Q r (⟨o, r⟩ :: l) := by
  simp only [Spends, perform, Conc.Prog.wp_perform, Machine.logStep]
  exact and_congr Iff.rfl ⟨fun h r => h r _ rfl, fun h r _ hl => hl ▸ h r⟩

theorem spends_bind {m : Prog α} {f : α → Prog β} {Q : β → Log → Prop} :
    Spends c n p (m >>= f) Q l ↔ Spends c n p m (fun a l' => Spends c n p (f a) Q l') l :=
  Conc.Prog.wp_bind _ _

theorem spends_ite {b : Prop} [Decidable b] {m m' : Prog α} {Q : α → Log → Prop}
    (h : b → Spends c n p m Q l) (h' : ¬ b → Spends c n p m' Q l) :
    Spends c n p (if b then m else m') Q l :=
  (Conc.Prog.wp_ite _ _ _).mpr ⟨h, h'⟩

/-- What the operations of a frugal program keep holds at its end. -/
theorem spends_invariant {prog : Prog α} {P : Op → Prop} {I : Log → Prop} (hperforms : prog.Performs P)
    (hfrugal : ∀ o, P o → frugal o = true) (hI : ∀ l o r, I l → P o → I (⟨o, r⟩ :: l)) (hl : I l)
    {Q : α → Log → Prop} (h : ∀ a l', I l' → Q a l') : Spends c n p prog Q l := by
  refine Conc.Prog.wp_mono h
    (hperforms.wp (fun _ o _ ho => pays_of_frugal (hfrugal o ho)) (fun l₁ o r l₂ h₁ ho hs => ?_) hl)
  rw [show l₂ = ⟨o, r⟩ :: l₁ from hs]
  exact hI l₁ o r h₁ ho

/-- A frugal program that is the last of a thread. -/
theorem spends_frugal {prog : Prog α} (h : Frugal prog) : Spends c n p prog (fun _ _ => True) l :=
  spends_invariant (I := fun _ => True) h (fun _ ho => ho) (fun _ _ _ _ _ => trivial) trivial
    fun _ _ _ => trivial

/-- A program off the books. -/
theorem spends_works {prog : Prog α} (hworks : Works prog) {Q : α → Log → Prop}
    (h : ∀ a l', SameBooks l l' → Q a l') : Spends c n p prog Q l :=
  spends_invariant hworks frugal_of_works
    (fun l₁ o r h₁ ho => h₁.trans (.cons (off_of_works o ho) r l₁)) (.refl l) h

/-- An operation off the books, and what follows it. -/
theorem spends_then {o : Op} {f : Ret o → Prog α} {Q : α → Log → Prop}
    (hoff : offTheBooks o = true) (h : ∀ r l', SameBooks l l' → Spends c n p (f r) Q l') :
    Spends c n p (perform o >>= f) Q l :=
  spends_bind.mpr (spends_op.mpr
    ⟨pays_of_frugal (frugal_of_early o (early_of_off o hoff)), fun r => h r _ (.cons hoff r l)⟩)

end Spends

-- ============================================================================
-- The code pays what it owes
-- ============================================================================

section Bodies

variable {c : ServerConfig} {n : Nat} {p : Proc} {l : Log}

/-- `instancePreAllocate` inserts the row that is owed. -/
theorem instancePreAllocate_spends (howing : Smooth c l → Owing n p (account l))
    {Q : Except Error Unit → Log → Prop}
    (hok : ∀ l', (∀ e ∈ l, e ∈ l') →
      account l' = { account l with inserted := (account l).inserted + 1 } → Q (.ok ()) l')
    (herror : ∀ e l', Q (.error e) l') : Spends c n p instancePreAllocate Q l := by
  have hgiveUp : ∀ {name : String} {e : Error} {l₁ : Log}, Spends c n p
      (do forceDelete name; pure (.error e) : Prog (Except Error Unit)) Q l₁ := by
    intro name e l₁
    rw [spends_bind]
    exact spends_works (forceDelete_works name) fun _ l₂ _ => herror e l₂
  unfold instancePreAllocate
  refine spends_then rfl fun rounds l₁ h₁ => ?_
  rw [spends_bind]
  refine spends_works (createUntilOk_works rounds) fun info l₂ h₂ => ?_
  refine spends_then rfl fun c' l₃ h₃ => ?_
  have h₃ := (h₁.trans h₂).trans h₃
  cases hduration : parseDuration c'.instance.allocate.expiry with
  | error e => exact hgiveUp
  | ok duration =>
    refine spends_then rfl fun now l₄ h₄ => spends_then rfl fun c'' l₅ h₅ => ?_
    have h₅ := (h₃.trans h₄).trans h₅
    rw [spends_bind]
    refine spends_op.mpr ⟨fun _ hsmooth => ?_, fun r => ?_⟩
    · rw [h₅.account]
      exact howing (hsmooth.mono h₅.mem)
    · cases r with
      | error e => exact hgiveUp
      | ok id =>
        refine spends_then rfl fun _ l₆ h₆ => hok l₆ (fun e he => ?_) ?_
        · exact h₆.mem e (List.mem_cons_of_mem _ (h₅.mem e he))
        · rw [h₆.account, account_cons, h₅.account]
          rfl

theorem preAllocate_spends : Spends c n .preAllocate (body .preAllocate) (fun _ _ => True) [] := by
  change Spends c n .preAllocate (instancePreAllocate >>= fun _ => pure ()) _ []
  rw [spends_bind]
  refine instancePreAllocate_spends (fun _ => ?_) (fun _ _ _ => trivial) fun _ _ => trivial
  rfl

theorem allocateTimeout_spends {id : Nat} {name : String} :
    Spends c n (.allocateTimeout id name) (allocateTimeout id name) (fun _ _ => True) [] := by
  unfold allocateTimeout
  refine spends_then rfl fun r l₁ h₁ => ?_
  rcases r with e | (_ | _)
  · trivial
  · trivial
  · rw [spends_bind]
    refine spends_works (forceDelete_works name) fun _ l₂ h₂ => ?_
    have h₂ := h₁.trans h₂
    rw [spends_bind]
    refine spends_op.mpr ⟨trivial, fun r => ?_⟩
    rw [spends_bind]
    refine instancePreAllocate_spends (fun hsmooth => ?_) (fun _ _ _ => trivial) fun _ _ => trivial
    cases r with
    | error e => exact absurd (List.mem_cons_self ..) (hsmooth.answered _ e)
    | ok _ =>
      rw [account_cons, h₂.account]
      rfl

/-! The startup goroutine. -/

theorem spends_early {α : Type} {prog : Prog α} (hearly : Early prog) (hl : Unopened l)
    {Q : α → Log → Prop} (h : ∀ a l', Unopened l' → Q a l') : Spends c n .connect prog Q l := by
  refine spends_invariant hearly frugal_of_early (fun l₁ o r h₁ ho => ?_) hl h
  cases o with
  | query q =>
    cases r with
    | error e =>
      unfold Unopened
      rw [(SameBooks.failed q e l₁).account]
      exact h₁
    | ok a => cases q <;> first | exact h₁ | cases ho
  | go q => cases q <;> first | exact h₁ | cases ho
  | _ => exact h₁

theorem allocateLoop_spends (hcount : c.instance.allocate.count = n) (rounds : Nat) {i : Int}
    (hi : (account l).inserted = i) (hbegun : (account l).begun = true) :
    Spends c n .connect (allocateLoop rounds i) (fun _ _ => True) l := by
  induction rounds generalizing l i with
  | zero => exact spends_then rfl fun stuck => nomatch stuck
  | succ rounds ih =>
    unfold allocateLoop
    rw [spends_bind]
    refine spends_op.mpr ⟨trivial, fun c' => spends_ite (fun hmore => ?_) fun _ => trivial⟩
    have hsame : account (⟨.config, c'⟩ :: l) = account l := rfl
    rw [spends_bind]
    refine instancePreAllocate_spends (fun hsmooth => ?_) (fun l₁ _ hl₁ => ?_) fun _ _ => trivial
    · have hc : c' = c := hsmooth.config c' (List.mem_cons_self ..)
      rw [hc, hcount] at hmore
      unfold Owing debt
      rw [hsame, hbegun]
      simp only [if_true]
      omega
    · apply ih
      · rw [hl₁, hsame, ← hi]
        simp
      · rw [hl₁, hsame]
        exact hbegun

theorem connect_spends (hcount : c.instance.allocate.count = n) :
    Spends c n .connect connect (fun _ _ => True) [] := by
  unfold connect
  have hnil : Unopened [] := ⟨rfl, rfl⟩
  rw [spends_bind]
  refine spends_early (performs_perform rfl) hnil fun rounds l₁ h₁ => ?_
  rw [spends_bind]
  refine spends_early (connectLoop_early rounds) h₁ fun _ l₂ h₂ => ?_
  rw [spends_bind]
  refine spends_early useProject_early h₂ fun _ l₃ h₃ => ?_
  rw [spends_bind]
  refine spends_early recover_early h₃ fun r l₄ h₄ => ?_
  cases r with
  | error e => trivial
  | ok _ =>
    rw [spends_bind]
    refine spends_op.mpr ⟨h₄.1, fun _ => spends_then rfl fun rounds l₅ h₅ => ?_⟩
    apply allocateLoop_spends hcount rounds
    · rw [h₅.account, account_cons]
      simp [Account.next, h₄.2]
    · rw [h₅.account]
      rfl

/-! Start requests. -/

theorem restStartError_frugal (code : StatusCode) : Frugal (restStartError code) := by
  unfold restStartError
  refine performs_then rfl fun r => ?_
  cases r with
  | error e => exact performs_perform rfl
  | ok _ => exact performs_pure _

theorem deliverSome_frugal (acquired : Option Acquired) :
    Frugal (match acquired with | none => pure () | some a => deliver a) := by
  have hgiveUp : ∀ a : Acquired, Frugal (do
      forceDelete a.info.name
      restStartError .instanceUnknownError) := fun a =>
    ((forceDelete_works _).mono frugal_of_works).bind fun _ => restStartError_frugal _
  cases acquired with
  | none => exact performs_pure _
  | some a =>
    change Frugal (deliver a)
    unfold deliver
    refine performs_then rfl fun c => ?_
    split
    · exact hgiveUp a
    · refine performs_then rfl fun _ => performs_then rfl fun r => ?_
      cases r with
      | error e => exact hgiveUp a
      | ok _ => exact performs_perform rfl

theorem useFresh_frugal (date : Int) (ip terms : String) : Frugal (useFresh date ip terms) := by
  have hrefuse : Frugal (do restStartError .instanceUnknownError; pure none : Prog (Option Acquired)) :=
    (restStartError_frugal _).bind fun _ => performs_pure _
  unfold useFresh
  refine ((instanceCreate_works statusUpdate_works).mono frugal_of_works).bind fun r => ?_
  cases r with
  | error e => exact hrefuse
  | ok info =>
    refine performs_then rfl fun now => performs_then rfl fun c => performs_then rfl fun r => ?_
    cases r with
    | error e => exact ((forceDelete_works _).mono frugal_of_works).bind fun _ => hrefuse
    | ok id => exact performs_pure _

/-- A frugal operation of a handler that has started no replacement, and what follows it. -/
theorem spends_unreplaced {α : Type} {o : Op} {f : Ret o → Prog α} {Q : α → Log → Prop}
    (hfrugal : frugal o = true) (hl : (account l).replaced = false)
    (h : ∀ r l', (account l').replaced = false → Spends c n p (f r) Q l') :
    Spends c n p (perform o >>= f) Q l := by
  refine spends_bind.mpr (spends_op.mpr ⟨pays_of_frugal hfrugal, fun r => h r _ ?_⟩)
  rw [replaced_of_frugal hfrugal]
  exact hl

/-- `dbGetAllocated` starts no replacement, and has claimed the row that it returns. -/
theorem dbGetAllocated_spends {expiry date : Int} {ip terms : String}
    {Q : Except Error (Nat × Session) → Log → Prop} (hl : (account l).replaced = false)
    (hok : ∀ row l', (account l').replaced = false → (account l').claimed = true → Q (.ok row) l')
    (herror : ∀ e l', Q (.error e) l') :
    Spends c n p (dbGetAllocated expiry date ip terms) Q l := by
  unfold dbGetAllocated
  refine spends_unreplaced rfl hl fun c' l₁ h₁ => spends_ite (fun _ => herror _ _) fun _ => ?_
  refine spends_unreplaced rfl h₁ fun a l₂ h₂ => ?_
  rcases a with e | (_ | row)
  · exact herror _ _
  · exact herror _ _
  · refine spends_ite (fun _ => herror _ _) fun _ => ?_
    rw [spends_bind]
    refine spends_op.mpr ⟨trivial, fun a => ?_⟩
    cases a with
    | error e => exact herror _ _
    | ok _ => exact hok row _ h₂ rfl

theorem startSession_spends {r : Request} {date : Int} {ip terms : String}
    (hl : (account l).replaced = false) :
    Spends c n (.restStart r) (startSession date ip terms) (fun _ _ => True) l := by
  unfold startSession
  refine spends_unreplaced rfl hl fun now l₁ h₁ => spends_unreplaced rfl h₁ fun c' l₂ h₂ => ?_
  rw [spends_bind]
  refine dbGetAllocated_spends h₂ (fun row l₃ h₃ hclaimed => ?_) fun e l₃ => ?_
  · -- the replacement is for the row that has been claimed
    dsimp only
    unfold useAllocated
    rw [spends_bind, spends_bind]
    have howes : debt n (.restStart r) { account l₃ with replaced := true } + 1 =
        debt n (.restStart r) (account l₃) := by
      simp [debt, hclaimed, h₃]
    refine spends_op.mpr ⟨howes, fun _ => ?_⟩
    rw [← spends_bind]
    refine spends_frugal (Performs.bind ?_ deliverSome_frugal)
    refine ((instanceStart_works _ statusUpdate_works).mono frugal_of_works).bind fun r => ?_
    cases r with
    | error e => exact (restStartError_frugal _).bind fun _ => performs_pure _
    | ok _ => exact performs_pure _
  · exact spends_frugal ((useFresh_frugal date ip terms).bind deliverSome_frugal)

theorem restStartHandler_spends {r : Request} :
    Spends c n (.restStart r) (restStartHandler r) (fun _ _ => True) [] := by
  have hrefuse : ∀ {code l}, Spends c n (.restStart r) (restStartError code) (fun _ _ => True) l :=
    spends_frugal (restStartError_frugal _)
  have herror : ∀ {text code l}, Spends c n (.restStart r) (perform (.httpError text code))
      (fun _ _ => True) l := spends_frugal (performs_perform rfl)
  have hadmit : ∀ {l date ip terms}, (account l).replaced = false →
      Spends c n (.restStart r) (admitSession date ip terms) (fun _ _ => True) l := by
    intro l date ip terms hl
    unfold admitSession
    refine spends_unreplaced rfl hl fun count l₁ h₁ => spends_unreplaced rfl h₁ fun c' l₂ h₂ => ?_
    refine spends_ite (fun _ => hrefuse) fun _ => ?_
    refine spends_unreplaced rfl h₂ fun count l₃ h₃ => spends_unreplaced rfl h₃ fun c' l₄ h₄ => ?_
    exact spends_ite (fun _ => hrefuse) fun _ => startSession_spends h₄
  have hcheck : ∀ {l}, (account l).replaced = false →
      Spends c n (.restStart r) (checkRequest r) (fun _ _ => True) l := by
    intro l hl
    unfold checkRequest
    refine spends_unreplaced rfl hl fun date l₁ h₁ => ?_
    split
    · exact hrefuse
    · refine spends_ite (fun _ => herror) fun _ => spends_unreplaced rfl h₁ fun c' l₂ h₂ => ?_
      refine spends_ite (fun _ => hrefuse) fun _ => spends_unreplaced rfl h₂ fun c' l₃ h₃ => ?_
      exact spends_ite (fun _ => hrefuse) fun _ => hadmit h₃
  unfold restStartHandler
  refine spends_ite (fun _ => herror) fun _ => ?_
  refine spends_unreplaced rfl rfl fun c' l₁ h₁ => spends_unreplaced rfl h₁ fun d l₂ h₂ => ?_
  refine spends_ite (fun _ => herror) fun _ => ?_
  refine spends_unreplaced rfl h₂ fun _ l₃ h₃ => spends_unreplaced rfl h₃ fun _ l₄ h₄ => ?_
  refine spends_unreplaced rfl h₄ fun _ l₅ h₅ => spends_unreplaced rfl h₅ fun _ l₆ h₆ => ?_
  refine spends_ite (fun _ => herror) fun _ => ?_
  exact spends_unreplaced rfl h₆ fun _ l₇ h₇ => hcheck h₇

/-! The other threads take no part. -/

theorem cleanup_frugal (id : Nat) (name : String) : Frugal (cleanup id name) := by
  unfold cleanup
  refine ((forceDelete_works name).mono frugal_of_works).bind fun _ => ?_
  exact performs_then rfl fun _ => performs_pure _

theorem hourlyResync_frugal (rounds : Nat) : Frugal (hourlyResync rounds) := by
  induction rounds with
  | zero => exact performs_then rfl fun stuck => nomatch stuck
  | succ rounds ih =>
    unfold hourlyResync
    refine performs_then rfl fun _ => ?_
    exact (instanceResync_early.mono frugal_of_early).bind fun _ => ih

theorem proxyHandle_frugal (target : String) : Frugal (proxyHandle target) := by
  unfold proxyHandle
  refine performs_then rfl fun r => ?_
  cases r with
  | error e => exact performs_pure _
  | ok _ =>
    refine performs_then rfl fun found => ?_
    rcases found with e | (_ | row)
    · exact performs_pure _
    · exact performs_pure _
    · refine performs_ite (performs_pure _) ?_
      exact performs_then rfl fun _ => performs_pure _

theorem emailFeedback_frugal (feedback : Feedback) : Frugal (emailFeedback feedback) := by
  unfold emailFeedback
  refine performs_ite (performs_pure _) ?_
  refine performs_then rfl fun c => performs_then rfl fun c => ?_
  exact performs_then rfl fun _ => performs_pure _

theorem restFeedbackPostHandler_frugal (r : FeedbackRequest) :
    Frugal (restFeedbackPostHandler r) := by
  have herror : ∀ text code, Frugal (perform (.httpError text code)) := fun _ _ =>
    performs_perform rfl
  have hrecord : ∀ id feedback, Frugal (dbRecordFeedback id feedback) := by
    intro id feedback
    unfold dbRecordFeedback
    refine performs_then rfl fun found => ?_
    rcases found with e | (_ | f)
    · exact performs_pure _
    · exact performs_perform rfl
    · exact performs_perform rfl
  unfold restFeedbackPostHandler
  refine performs_then rfl fun _ => performs_then rfl fun _ => ?_
  refine performs_ite (herror _ _) (performs_then rfl fun found => ?_)
  rcases found with e | (_ | f)
  · exact herror _ _
  · exact herror _ _
  · refine performs_then rfl fun now => performs_then rfl fun c => performs_ite (herror _ _) ?_
    split
    · exact herror _ _
    · refine (hrecord _ _).bind fun recorded => ?_
      cases recorded with
      | error e => exact herror _ _
      | ok _ =>
        refine performs_then rfl fun c => ?_
        exact performs_ite (performs_perform rfl) (performs_pure _)

theorem restInfoHandler_frugal (r : Request) : Frugal (restInfoHandler r) := by
  have herror : ∀ text code, Frugal (perform (.httpError text code)) := fun _ _ =>
    performs_perform rfl
  unfold restInfoHandler
  refine performs_ite (herror _ _) (performs_then rfl fun c => performs_then rfl fun d => ?_)
  refine performs_ite (herror _ _) (performs_then rfl fun _ => performs_then rfl fun _ => ?_)
  refine performs_ite (herror _ _) (performs_then rfl fun found => ?_)
  rcases found with e | (_ | f)
  · exact herror _ _
  · exact herror _ _
  · refine performs_then rfl fun c => performs_then rfl fun r => ?_
    cases r with
    | error e => exact ((forceDelete_works _).mono frugal_of_works).bind fun _ => herror _ _
    | ok _ => exact performs_pure _

theorem restHandler_frugal (q : RestRequest) : Frugal (restHandler q) := by
  cases q with
  | status r => exact (restStatusHandler_answers r).mono frugal_of_answers
  | terms r => exact (restTermsHandler_answers r).mono frugal_of_answers
  | statistics r => exact (restStatisticsHandler_answers r).mono frugal_of_answers
  | info r => exact restInfoHandler_frugal r
  | feedback r =>
    by_cases h : r.method = "POST"
    · change Frugal (restFeedbackHandler r)
      unfold restFeedbackHandler
      refine performs_then rfl fun c => performs_ite (performs_perform rfl) ?_
      rw [if_pos h]
      exact restFeedbackPostHandler_frugal r
    · exact (restFeedbackHandler_answers h).mono frugal_of_answers

/-- Every thread pays what it owes. -/
theorem body_spends (hcount : c.instance.allocate.count = n) (p : Proc) :
    Machine.Follows (Pays c n) (fun _ _ => True) (server.start p) := by
  intro _
  cases p with
  | restStart r => exact restStartHandler_spends
  | preAllocate => exact preAllocate_spends
  | allocateTimeout id name => exact allocateTimeout_spends
  | connect => exact connect_spends hcount
  | cleanup id name => exact spends_frugal (cleanup_frugal id name)
  | hourlyResync =>
    exact spends_frugal (performs_then rfl fun rounds => hourlyResync_frugal rounds)
  | proxy target => exact spends_frugal (proxyHandle_frugal target)
  | rest q => exact spends_frugal (restHandler_frugal q)
  | console r => exact spends_frugal ((restConsoleHandler_attends r).mono frugal_of_attends)
  | email feedback => exact spends_frugal (emailFeedback_frugal feedback)

end Bodies

-- ============================================================================
-- One event
-- ============================================================================

section Events

variable {w w' : World} {t : Nat} {e : Event} {c : ServerConfig} {n : Nat} {p : Proc} {l : Log}

/-- The row that the event takes out of the table or claims. -/
def taker : Event → Option Nat
  | ⟨.query (.updateAllocated _ _ _ _ id), .ok _⟩ => some id
  | ⟨.query (.dbDelete id), .ok _⟩ => some id
  | _ => none

/-- The pool after an event that takes no row but a waiting one. -/
theorem waiting_did_le (hd : Did w t e w')
    (hwaits : ∀ id, taker e = some id → ∃ row, w.db.Row id row ∧ row.status = 2) :
    waiting w'.db + taken e ≤ waiting w.db + added e := by
  -- the row that is taken counts before the event
  have hrow : ∀ id, taker e = some id → ∃ row, w.db.Row id row ∧
      waiting w.db = w.db.sessions.count (fun j b => j != id && b.isAllocated) + 1 := by
    intro id hid
    obtain ⟨row, hrow, hstatus⟩ := hwaits id hid
    have hcount := Sql.Table.count_row hrow fun _ s => s.isAllocated
    have hyes : row.isAllocated = true := beq_iff_eq.mpr hstatus
    rw [hyes, if_pos rfl] at hcount
    exact ⟨row, hrow, hcount⟩
  unfold waiting at hrow ⊢
  rw [hd.db]
  obtain ⟨o, r⟩ := e
  cases o with
  | query q =>
    cases r with
    | error err => cases q <;> exact le_refl _
    | ok x =>
      cases q with
      | dbNew row => exact (Sql.Table.count_insert w.db.sessions row fun _ s => s.isAllocated).le
      | dbDelete id =>
        obtain ⟨row, -, hcount⟩ := hrow id rfl
        have hothers := Sql.Table.count_delete_row w.db.sessions id fun _ s => s.isAllocated
        rw [hcount]
        exact (Nat.add_le_add_right hothers.le 1)
      | updateAllocated expiry date ip terms id =>
        obtain ⟨row, hmem, hcount⟩ := hrow id rfl
        have hothers := @Sql.Table.count_update_row _ w.db.sessions id row (fun _ s => s.isAllocated)
          (Session.claim expiry date ip terms) hmem
        rw [hcount]
        exact (Nat.add_le_add_right hothers.le 1)
      | dbExpire id =>
        have hle : (w.db.sessions.update (fun i _ => i = id) Session.expired).count
            (fun _ s => s.isAllocated) ≤ w.db.sessions.count fun _ s => s.isAllocated := by
          refine Sql.Table.count_update_le fun i a _ _ hexpired => ?_
          cases hexpired
        exact hle
      | _ => exact le_refl _
  | _ => exact le_refl _

theorem debt_inserted_le (n : Nat) (p : Proc) (a : Account) :
    debt n p { a with inserted := a.inserted + 1 } ≤ debt n p a := by
  cases p <;> simp only [debt] <;> first | omega | (split <;> omega)

/-- What the thread owes after the event, with what the event puts in and starts, comes out of
    what it owed before and what the event takes out. -/
theorem owed_paid {o : Op} {r : Ret o} (hallowed : Allowed p l o) (hpays : Pays c n p l o)
    (hsmooth : Smooth c l) (hbegun : p = .connect → (account l).begun = true) :
    owed n p (⟨o, r⟩ :: l) + added ⟨o, r⟩ + replacements o ≤ owed n p l + taken ⟨o, r⟩ := by
  -- an event that leaves the account alone puts nothing in
  have hsame : account (⟨o, r⟩ :: l) = account l → added ⟨o, r⟩ = 0 → replacements o = 0 →
      owed n p (⟨o, r⟩ :: l) + added ⟨o, r⟩ + replacements o ≤ owed n p l + taken ⟨o, r⟩ := by
    intro haccount hadded hstarted
    unfold owed
    rw [haccount, hadded, hstarted]
    omega
  cases o with
  | query q =>
    cases r with
    | error err => exact hsame (SameBooks.failed q err l).account (by cases q <;> rfl) rfl
    | ok a =>
      cases q with
      | updateAllocated expiry date ip terms id =>
        change debt n p { account l with claimed := true } + 0 + 0 ≤ debt n p (account l) + 1
        cases p <;> simp only [debt] <;> first | omega | (split <;> omega)
      | dbDelete id =>
        change debt n p { account l with deleted := true } + 0 + 0 ≤ debt n p (account l) + 1
        cases p <;> simp only [debt] <;> first | omega | (split <;> omega)
      | dbNew row =>
        by_cases hstatus : row.status = 2
        · have howing : debt n p { account l with inserted := (account l).inserted + 1 } + 1 =
              debt n p (account l) := hpays hstatus hsmooth
          have hadded : added ⟨.query (.dbNew row), .ok a⟩ = 1 := if_pos (beq_iff_eq.mpr hstatus)
          rw [hadded]
          exact howing.le
        · have hadded : added ⟨.query (.dbNew row), .ok a⟩ = 0 :=
            if_neg fun hyes => hstatus (beq_iff_eq.mp hyes)
          rw [hadded]
          exact debt_inserted_le n p (account l)
      | _ => exact hsame rfl rfl rfl
  | go q =>
    cases q with
    | preAllocate =>
      have howes : debt n p { account l with replaced := true } + 1 = debt n p (account l) := hpays
      exact howes.le
    | hourlyResync =>
      -- the account is opened once
      have hnot : (account l).begun = false := hpays
      rcases hallowed with hq | ⟨-, hp, -⟩ | ⟨f, hq⟩
      · cases hq
      · rw [hbegun hp] at hnot
        cases hnot
      · cases hq
    | _ => exact hsame rfl rfl rfl
  | _ => exact hsame rfl rfl rfl

/-- Nothing but a replacement owes anything when it starts. -/
theorem spawned_le {o : Op} (hallowed : Allowed p l o) :
    ((server.spawn o).map fun q => (server.start q).share (owed n)).sum ≤ replacements o := by
  cases o with
  | go q =>
    rcases hallowed with rfl | ⟨rfl, -, -⟩ | ⟨f, rfl⟩
    · exact le_refl 1
    · exact le_refl 0
    · have hzero : (server.start (.email f)).share (owed n) = 0 := by
        unfold Thread.share
        split <;> rfl
      change [(server.start (.email f)).share (owed n)].sum ≤ 0
      rw [hzero]
      exact le_refl 0
  | _ => exact Nat.zero_le _

end Events

-- ============================================================================
-- Runs
-- ============================================================================

/-- The row that a step takes out of the table or claims. -/
def takes : Label → Option Nat
  | .thread _ e => taker e
  | .env _ => none

/-- No statement fails, the configuration stays `c`, the process goes on, and a row that is claimed
    or deleted waits. -/
structure Tidy (c : ServerConfig) (s : Sys) (l : Label) : Prop extends Undisturbed c s l where
  stays : ∀ c', l ≠ .env (.restart c')
  waits : ∀ id, takes l = some id → ∃ row, s.world.db.Row id row ∧ row.status = 2

/-- The threads pay what they owe, and no timer starts one that owes anything. -/
structure Paying (c : ServerConfig) (n : Nat) (s : Sys) : Prop where
  follow : Machine.AllFollow (Pays c n) (fun _ _ => True) s
  timers : ∀ tm ∈ s.world.timers, owed n tm.callback [] = 0

section Runs

variable {c : ServerConfig} {n : Nat} {s s' : Sys} {t : Nat} {p : Proc} {l : Log} {e : Event}

theorem Initial.paying (hcount : c.instance.allocate.count = n) (h : Initial s) : Paying c n s where
  follow := by
    intro t th hth
    rw [h.2.2.2] at hth
    cases List.mem_singleton.mp (List.mem_of_getElem? hth)
    exact body_spends hcount .connect
  timers := by
    intro tm htm
    rw [h.2.2.1] at htm
    cases htm

theorem Paying.threadStep (hcount : c.instance.allocate.count = n) (h : Paying c n s)
    (hm : ThreadStep s t p l e s') (hs : server.Step s (.thread t e) s') : Paying c n s' where
  follow := h.follow.step (body_spends hcount) hs
  timers := by
    intro tm htm
    rcases hm.timer_cases htm with htm | ⟨d, rfl, -⟩
    · exact h.timers tm htm
    · have harm : MayArm p l d tm.callback := hm.allowed
      generalize tm.callback = q at harm ⊢
      cases harm <;> rfl

theorem Paying.envStep {e : Env} (hcount : c.instance.allocate.count = n) (h : Paying c n s)
    (hs : server.Step s (.env e) s') : Paying c n s' where
  follow := h.follow.step (body_spends hcount) hs
  timers := fun tm htm => h.timers tm ((env_step hs).timers tm htm)

/-- The obligations of the thread that moves are met. -/
theorem meets_of_step {ok : Proc → Log → Op → Prop} {fin : Proc → Log → Prop}
    (h : Machine.AllFollow ok fin s) (hm : ThreadStep s t p l e s')
    (hs : server.Step s (.thread t e) s') : ok p l e.op := by
  obtain ⟨th, hth, halive, -, rfl, rfl⟩ := hm.busy
  cases hs with
  | thread hth' _ hprog _ =>
    cases hth.symm.trans hth'
    exact (h _ _ hth).op halive hprog

/-- A step of a thread takes from the pool what it adds to what is owed, and the other way round. -/
theorem size_threadStep {d : Int} (hvalid : parseDuration c.instance.allocate.expiry = .ok d)
    (hcount : c.instance.allocate.count = n) (h : PoolKept c n s) (hpaying : Paying c n s)
    {v : Nat} (hfilling : Filling s v) (hC : Tidy c s (.thread t e)) (hm : ThreadStep s t p l e s')
    (hs : server.Step s (.thread t e) s') :
    waiting s'.world.db + pending n s' = waiting s.world.db + pending n s := by
  have hbegun : p = .connect → (account l).begun = true := by
    rintro rfl
    obtain ⟨m, hr, hbegun⟩ := hfilling
    obtain ⟨-, rfl⟩ := (h.one.unique v t m l hr hm.runs ▸ hr).unique hm.runs
    exact hbegun
  have hfollow := h.follow.step (body_keeps hvalid hcount) hs
  have hsmooth := smooth_threadStep h hC.toUndisturbed hm
  have hlower : waiting s.world.db + pending n s ≤ waiting s'.world.db + pending n s' := by
    obtain ⟨hpending, -⟩ := pending_thread hfollow hsmooth hm hs
    have hwaiting := waiting_did hm.did fun id ho => by
      have hallowed := hm.allowed
      rw [ho] at hallowed
      exact begun_of_expires h.started hm.runs.ran hallowed
    have howed : owed n p l + taken e ≤ owed n p (e :: l) + added e + replacements e.op :=
      owed_step hm.allowed (meets_of_step h.follow hm hs) hbegun
    omega
  have hupper : waiting s'.world.db + pending n s' ≤ waiting s.world.db + pending n s := by
    obtain ⟨th, th', hth, -, hth', -, hproc, hlog, htotal⟩ := Machine.total_thread (f := owed n) hs
    obtain ⟨th₀, hth₀, rfl, rfl⟩ := hm.runs.ran
    cases hth₀.symm.trans hth
    have hshare : th'.share (owed n) ≤ owed n th.proc (e :: th.log) := by
      rw [← hproc, ← hlog]
      unfold Thread.share
      split
      · exact le_refl _
      · exact Nat.zero_le _
    have hspawned := spawned_le (n := n) hm.allowed
    have hpaid : owed n th.proc (e :: th.log) + added e + replacements e.op ≤
        owed n th.proc th.log + taken e :=
      owed_paid hm.allowed (meets_of_step hpaying.follow hm hs) (h.smooth t _ _ hm.runs.ran) hbegun
    have hwaiting := waiting_did_le hm.did hC.waits
    unfold pending
    omega
  exact le_antisymm hupper hlower

/-- The environment lets the process go on, and what it starts owes nothing. -/
theorem env_goesOn {e : Env} {w : World} {stop : Bool} {ps : List Proc} (hpaying : Paying c n s)
    (hC : Tidy c s (.env e)) (henv : env s.world e = some (w, stop, ps)) :
    stop = false ∧ ∀ q ∈ ps, owed n q [] = 0 := by
  cases e with
  | fire i =>
    simp only [env] at henv
    split at henv
    · cases henv
    · rename_i tm htm
      split at henv
      · cases henv
        refine ⟨rfl, fun q hq => ?_⟩
        rw [List.mem_singleton.mp hq]
        exact hpaying.timers tm (List.mem_of_getElem? htm)
      · cases henv
  | restart c' => exact absurd rfl (hC.stays c')
  | tick t | reload c' =>
    cases henv
    exact ⟨rfl, fun q hq => absurd hq List.not_mem_nil⟩
  | request r | rest r | console r | proxyConn r =>
    cases henv
    refine ⟨rfl, fun q hq => ?_⟩
    rw [List.mem_singleton.mp hq]
    rfl

theorem size_envStep {e : Env} (hpaying : Paying c n s) (hC : Tidy c s (.env e))
    (hs : server.Step s (.env e) s') :
    waiting s'.world.db + pending n s' = waiting s.world.db + pending n s := by
  rw [(env_step hs).db]
  cases hs with
  | env henv =>
    rename_i w stop ps
    obtain ⟨rfl, hps⟩ := env_goesOn hpaying hC henv
    have hzero : ((ps.map server.start).map (Thread.share (owed n))).sum = 0 := by
      refine List.sum_eq_zero fun k hk => ?_
      rw [List.map_map] at hk
      obtain ⟨q, hq, rfl⟩ := List.mem_map.mp hk
      change (server.start q).share (owed n) = 0
      unfold Thread.share
      split
      · exact hps q hq
      · rfl
    unfold pending Sys.total Machine.after
    simp only [Bool.false_eq_true, if_false, List.map_append, List.sum_append]
    rw [hzero, Nat.add_zero]

theorem begun_cons (e : Event) (h : (account l).begun = true) : (account (e :: l)).begun = true := by
  obtain ⟨o, r⟩ := e
  cases o with
  | query q => cases r <;> cases q <;> exact h
  | go q =>
    cases q with
    | hourlyResync => rfl
    | _ => exact h
  | _ => exact h

theorem Filling.threadStep {v : Nat} (h : Filling s v) (hm : ThreadStep s t p l e s') :
    Filling s' v := by
  obtain ⟨m, hr, hbegun⟩ := h
  by_cases hv : v = t
  · subst hv
    obtain ⟨rfl, rfl⟩ := hr.unique hm.runs
    exact ⟨_, hm.runs', begun_cons e hbegun⟩
  · exact ⟨m, hm.keeps v _ m hv hr, hbegun⟩

theorem Filling.envStep {v : Nat} {e : Env} (h : Filling s v) (hpaying : Paying c n s)
    (hC : Tidy c s (.env e)) (hs : server.Step s (.env e) s') : Filling s' v := by
  obtain ⟨m, ⟨th, hth, halive, hp, hl⟩, hbegun⟩ := h
  cases hs with
  | env henv =>
    rename_i w stop ps
    obtain ⟨rfl, -⟩ := env_goesOn hpaying hC henv
    refine ⟨m, ⟨th, ?_, halive, hp, hl⟩, hbegun⟩
    exact (List.getElem?_append_left (List.getElem?_eq_some_iff.mp hth).1).trans hth

/-- From the moment the startup goroutine has begun its allocation loop, the waiting rows and the
    replacements under way stay as many as they are, in every run in which no statement fails
    and every row that is claimed or deleted waits. -/
theorem pool_size_stays {s₀ : Sys} {d : Int} (h0 : Initial s₀) (hconfig : s₀.world.config = c)
    (hcount : c.instance.allocate.count = n)
    (hvalid : parseDuration c.instance.allocate.expiry = .ok d)
    (hrun : server.Run (Undisturbed c) s₀ s) (hfilling : Filling s t)
    (hrun' : server.Run (Tidy c) s s') :
    waiting s'.world.db + pending n s' = waiting s.world.db + pending n s := by
  have hstep : ∀ s l s', (Sound s ∧ PoolKept c n s ∧ Paying c n s) → Undisturbed c s l →
      server.Step s l s' → Sound s' ∧ PoolKept c n s' ∧ Paying c n s' := by
    rintro s l s' ⟨hsound, hkept, hpaying⟩ hC hs
    refine ⟨hsound.step hs, ?_⟩
    cases l with
    | thread u e =>
      obtain ⟨p, m, hm⟩ := thread_step hsound.follow hs
      exact ⟨hkept.threadStep hvalid hcount hsound hC hm hs, hpaying.threadStep hcount hm hs⟩
    | env e => exact ⟨hkept.envStep hvalid hcount hC hs, hpaying.envStep hcount hs⟩
  have hstart := Machine.Run.invariant (I := fun s => Sound s ∧ PoolKept c n s ∧ Paying c n s)
    ⟨h0.sound, h0.poolKept hvalid hcount hconfig, h0.paying hcount⟩ hstep hrun
  refine (Machine.Run.invariant (I := fun s₁ => (Sound s₁ ∧ PoolKept c n s₁ ∧ Paying c n s₁) ∧
    Filling s₁ t ∧ waiting s₁.world.db + pending n s₁ = waiting s.world.db + pending n s)
    ⟨hstart, hfilling, rfl⟩ ?_ hrun').2.2
  rintro s₁ l s₂ ⟨⟨hsound, hkept, hpaying⟩, hfilling, hsize⟩ hC hs
  refine ⟨hstep s₁ l s₂ ⟨hsound, hkept, hpaying⟩ hC.toUndisturbed hs, ?_⟩
  cases l with
  | thread u e =>
    obtain ⟨p, m, hm⟩ := thread_step hsound.follow hs
    refine ⟨hfilling.threadStep hm, ?_⟩
    rw [size_threadStep hvalid hcount hkept hpaying hfilling hC hm hs, hsize]
  | env e =>
    refine ⟨hfilling.envStep hpaying hC hs, ?_⟩
    rw [size_envStep hpaying hC hs, hsize]

end Runs

/-- The test for `Tidy`. -/
def tidy (c : ServerConfig) (s : Sys) (l : Label) : Bool :=
  undisturbed c s l && (match l with | .env (.restart _) => false | _ => true) &&
    (takes l).all fun id => s.world.db.sessions.rows.any fun r => r.1 == id && r.2.status == 2

theorem of_tidy {c : ServerConfig} (s : Sys) (l : Label) (h : tidy c s l = true) : Tidy c s l where
  toUndisturbed := by
    unfold tidy at h
    simp only [Bool.and_eq_true] at h
    exact of_undisturbed s l h.1.1
  stays := by
    rintro c' rfl
    simp [tidy] at h
  waits := by
    intro id hid
    simp only [tidy, hid, Option.all_some, List.any_eq_true, Bool.and_eq_true, beq_iff_eq] at h
    obtain ⟨-, ⟨i, row⟩, hrow, rfl, hstatus⟩ := h
    exact ⟨row, hrow, hstatus⟩

/-- The pool is filled, and its instance claimed. -/
theorem pool_size_stays_small : ∃ s s' : Sys, waiting s.world.db = 0 ∧ waiting s'.world.db = 0 ∧
    hasClaimed 1 2 s' = true ∧
    waiting s'.world.db + pending 1 s' = waiting s.world.db + pending 1 s := by
  obtain ⟨s, hrun, hs⟩ := server.run_of_check (undisturbed (smallConfig 5 1)) of_undisturbed
    (emptyServer 1) (oks 0 16) (fun s => filling 0 s && waiting s.world.db == 0 &&
      (server.steps (tidy (smallConfig 5 1)) s
        (oks 0 31 ++ act (.request (startRequest "192.0.2.1")) ++ oks 2 19)).any fun s' =>
          waiting s'.world.db == 0 && hasClaimed 1 2 s')
    (by decide +kernel)
  obtain ⟨hs, hnext⟩ := Bool.and_eq_true_iff.mp hs
  obtain ⟨hfilling, hnone⟩ := Bool.and_eq_true_iff.mp hs
  obtain ⟨s', hrun', hs'⟩ := server.run_of_check (tidy (smallConfig 5 1)) of_tidy s _ _ hnext
  obtain ⟨hnone', hclaimed⟩ := Bool.and_eq_true_iff.mp hs'
  exact ⟨s, s', beq_iff_eq.mp hnone, beq_iff_eq.mp hnone', hclaimed,
    pool_size_stays (n := 1) (d := 3600000000000) (emptyServer_initial 1) rfl rfl
      (by decide +kernel) hrun (of_filling hfilling) hrun'⟩

/-- Two requests that claim the same row owe two replacements for it. -/
example : (server.steps Machine.noTest (emptyServer 1) (oks 0 47 ++
    act (.request (startRequest "192.0.2.1")) ++ act (.request (startRequest "192.0.2.2")) ++
    oks 2 18 ++ oks 3 18 ++ oks 2 2 ++ oks 3 2)).any
      (fun s => waiting s.world.db + pending 1 s == 2) = true := by decide +kernel

end IncusDemo
