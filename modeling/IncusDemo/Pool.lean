/-
  IncusDemo.Pool

  The pool of pre-allocated instances.  A claim and a timeout callback take a
  row out of it and owe a replacement, the startup loop owes the instances that
  it has not made yet, and whoever is to make an instance owes it until its row
  is inserted.  What waits and what is owed together never fall below the size
  that the pool is configured with.
-/

import IncusDemo.Conc.Account
import IncusDemo.Timeout
import IncusDemo.Works

namespace IncusDemo

open Go Conc Conc.Prog

-- ============================================================================
-- What is owed
-- ============================================================================

/-- What a thread has done to the pool. -/
structure Account where
  /-- An UPDATE of `dbGetAllocated` has committed. -/
  claimed : Bool
  /-- `go instancePreAllocate()`. -/
  replaced : Bool
  /-- A row was deleted. -/
  deleted : Bool
  /-- `go` on the hourly resync, which stands before the loop that fills the pool. -/
  begun : Bool
  /-- How many rows were inserted. -/
  inserted : Nat
  deriving DecidableEq

def Account.next (a : Account) (e : Event) : Account :=
  match e with
  | ⟨.query (.updateAllocated ..), .ok _⟩ => { a with claimed := true }
  | ⟨.query (.dbDelete _), .ok _⟩ => { a with deleted := true }
  | ⟨.query (.dbNew _), .ok _⟩ => { a with inserted := a.inserted + 1 }
  | ⟨.go .preAllocate, _⟩ => { a with replaced := true }
  | ⟨.go .hourlyResync, _⟩ => { a with begun := true }
  | _ => a

def account (l : Log) : Account := l.foldr (fun e a => a.next e) ⟨false, false, false, false, 0⟩

@[simp] theorem account_cons (e : Event) (l : Log) : account (e :: l) = (account l).next e := rfl

/-- How many rows a thread with this account is still to insert, or to have inserted by a thread it
    starts, in a server with a pool of `n`. -/
def debt (n : Nat) (p : Proc) (a : Account) : Nat :=
  match p with
  | .restStart _ => if a.claimed && !a.replaced then 1 else 0
  | .preAllocate => 1 - a.inserted
  | .allocateTimeout _ _ => if a.deleted then 1 - a.inserted else 0
  | .connect => if a.begun then n - a.inserted else 0
  | _ => 0

/-- How many rows the thread owes after the log `l`. -/
def owed (n : Nat) (p : Proc) (l : Log) : Nat := debt n p (account l)

section Debt

variable (n : Nat) (p : Proc) (a : Account)

theorem debt_replaced : debt n p a ≤ debt n p { a with replaced := true } + 1 := by
  cases p with
  | restStart r =>
    simp only [debt]
    split <;> omega
  | _ => exact Nat.le_succ _

theorem debt_begun : debt n p a ≤ debt n p { a with begun := true } := by
  cases p with
  | connect =>
    simp only [debt, if_true]
    split <;> omega
  | _ => exact le_refl _

theorem debt_inserted : debt n p a ≤ debt n p { a with inserted := a.inserted + 1 } + 1 := by
  cases p <;> simp only [debt] <;> first | omega | (split <;> omega)

end Debt

/-- The number of rows that wait to be claimed. -/
def waiting (db : Db) : Nat := db.sessions.count fun _ s => s.isAllocated

/-- The replacements that are under way. -/
def pending (n : Nat) (s : Sys) : Nat := s.total (owed n)

-- ============================================================================
-- The code keeps account
-- ============================================================================

/-- Operations that leave the account as it is. -/
def offTheBooks : Op → Bool
  | .query (.updateAllocated ..) | .query (.dbDelete _) | .query (.dbNew _) => false
  | .go .preAllocate | .go .hourlyResync => false
  | _ => true

/-- No debt is lost with the operation: a thread that owes nothing takes a row out, and the
    startup goroutine opens its account before it inserts anything. -/
def Books (p : Proc) (l : Log) (o : Op) : Prop :=
  match p, o with
  | .restStart _, .query (.updateAllocated ..) =>
    (account l).claimed = false ∧ (account l).replaced = false
  | .allocateTimeout _ _, .query (.dbDelete _) =>
    (account l).deleted = false ∧ (account l).inserted = 0
  | .connect, .query (.dbDelete _) => (account l).begun = false
  | .connect, .go .hourlyResync => (account l).inserted = 0
  | _, _ => True

/-- No statement has failed, and the configuration was `c` whenever it was read. -/
structure Smooth (c : ServerConfig) (l : Log) : Prop where
  answered : ∀ q e, ⟨.query q, .error e⟩ ∉ l
  config : ∀ c', ⟨.config, c'⟩ ∈ l → c' = c

/-- A thread that has come to its end owes nothing. -/
def Settled (c : ServerConfig) (n : Nat) (p : Proc) (l : Log) : Prop := Smooth c l → owed n p l = 0

/-- `l'` continues `l` with the same account. -/
structure SameBooks (l l' : Log) : Prop where
  mem : ∀ e ∈ l, e ∈ l'
  account : account l' = account l

/-- Weakest preconditions of server programs over logs, under `Books`. -/
abbrev Keeps {α : Type} (p : Proc) (prog : Prog α) (Q : α → Log → Prop) (l : Log) : Prop :=
  Conc.Prog.wp Machine.logStep (Books p) prog Q l

section Keeps

variable {c : ServerConfig} {p : Proc} {l l' : Log} {α β : Type}

theorem Smooth.mono (hmem : ∀ e ∈ l, e ∈ l') (h : Smooth c l') : Smooth c l :=
  ⟨fun q e he => h.answered q e (hmem _ he), fun c' hc => h.config c' (hmem _ hc)⟩

theorem SameBooks.refl (l : Log) : SameBooks l l := ⟨fun _ h => h, rfl⟩

theorem SameBooks.trans {l₁ l₂ l₃ : Log} (h : SameBooks l₁ l₂) (h' : SameBooks l₂ l₃) :
    SameBooks l₁ l₃ := ⟨fun e he => h'.mem e (h.mem e he), h'.account.trans h.account⟩

theorem SameBooks.cons {o : Op} (h : offTheBooks o = true) (r : Ret o) (l : Log) :
    SameBooks l (⟨o, r⟩ :: l) where
  mem := fun _ he => List.mem_cons_of_mem _ he
  account := by
    cases o with
    | query q => cases q <;> first | rfl | cases h
    | go q => cases q <;> first | rfl | cases h
    | _ => rfl

/-- A statement that fails leaves no trace in the account. -/
theorem SameBooks.failed (q : Query) (e : Error) (l : Log) :
    SameBooks l (⟨.query q, .error e⟩ :: l) where
  mem := fun _ he => List.mem_cons_of_mem _ he
  account := by cases q <;> rfl

theorem books_of_off {o : Op} (h : offTheBooks o = true) : Books p l o := by
  cases o with
  | query q => cases q <;> cases p <;> trivial
  | go q => cases q <;> cases p <;> trivial
  | _ => cases p <;> trivial

theorem off_of_works (o : Op) (h : o.works = true) : offTheBooks o = true := by
  cases o <;> first | rfl | cases h

theorem keeps_op {o : Op} {Q : Ret o → Log → Prop} :
    Keeps p (perform o) Q l ↔ Books p l o ∧ ∀ r, Q r (⟨o, r⟩ :: l) := by
  simp only [Keeps, perform, Conc.Prog.wp_perform, Machine.logStep]
  exact and_congr Iff.rfl ⟨fun h r => h r _ rfl, fun h r _ hl => hl ▸ h r⟩

theorem keeps_bind {m : Prog α} {f : α → Prog β} {Q : β → Log → Prop} :
    Keeps p (m >>= f) Q l ↔ Keeps p m (fun a l' => Keeps p (f a) Q l') l := Conc.Prog.wp_bind _ _

theorem keeps_ite {b : Prop} [Decidable b] {m m' : Prog α} {Q : α → Log → Prop}
    (h : b → Keeps p m Q l) (h' : ¬ b → Keeps p m' Q l) : Keeps p (if b then m else m') Q l :=
  (Conc.Prog.wp_ite _ _ _).mpr ⟨h, h'⟩

/-- What the operations of a program keep holds at its end. -/
theorem keeps_invariant {prog : Prog α} {P : Op → Prop} {I : Log → Prop} (hperforms : prog.Performs P)
    (hbooks : ∀ l o, I l → P o → Books p l o) (hI : ∀ l o r, I l → P o → I (⟨o, r⟩ :: l)) (hl : I l)
    {Q : α → Log → Prop} (h : ∀ a l', I l' → Q a l') : Keeps p prog Q l := by
  refine Conc.Prog.wp_mono h (hperforms.wp hbooks (fun l₁ o r l₂ h₁ ho hs => ?_) hl)
  rw [show l₂ = ⟨o, r⟩ :: l₁ from hs]
  exact hI l₁ o r h₁ ho

/-- A program off the books. -/
theorem keeps_off {prog : Prog α} (hoff : prog.Performs fun o => offTheBooks o = true)
    {Q : α → Log → Prop} (h : ∀ a l', SameBooks l l' → Q a l') : Keeps p prog Q l :=
  keeps_invariant hoff (fun _ _ _ ho => books_of_off ho)
    (fun l₁ _ r h₁ ho => h₁.trans (.cons ho r l₁)) (.refl l) h

theorem keeps_works {prog : Prog α} (hworks : Works prog) {Q : α → Log → Prop}
    (h : ∀ a l', SameBooks l l' → Q a l') : Keeps p prog Q l :=
  keeps_off (hworks.mono off_of_works) h

/-- An operation off the books, and what follows it. -/
theorem keeps_then {o : Op} {f : Ret o → Prog α} {Q : α → Log → Prop}
    (hoff : offTheBooks o = true) (h : ∀ r l', SameBooks l l' → Keeps p (f r) Q l') :
    Keeps p (perform o >>= f) Q l :=
  keeps_bind.mpr (keeps_op.mpr ⟨books_of_off hoff, fun r => h r _ (.cons hoff r l)⟩)

end Keeps

section Bodies

variable {c : ServerConfig} {n : Nat} {p : Proc} {l : Log}

theorem createUntilOk_works (rounds : Nat) : Works (createUntilOk rounds) := by
  induction rounds with
  | zero => exact performs_then rfl fun stuck => nomatch stuck
  | succ rounds ih =>
    unfold createUntilOk
    refine (instanceCreate_works noUpdate_works).bind fun r => ?_
    cases r with
    | error e => exact performs_then rfl fun _ => ih
    | ok info => exact performs_pure _

theorem books_dbNew (row : Session) : Books p l (.query (.dbNew row)) := by cases p <;> trivial

/-- Given up for an error, in a run that is not smooth. -/
theorem keeps_giveUp {α : Type} {name : String} {e : Error} {Q : Except Error α → Log → Prop}
    (h : ∀ l', SameBooks l l' → Q (.error e) l') :
    Keeps p (do forceDelete name; pure (.error e) : Prog (Except Error α)) Q l := by
  rw [keeps_bind]
  exact keeps_works (forceDelete_works name) fun _ l' h' => h l' h'

/-- `instancePreAllocate` inserts a row, unless something fails. -/
theorem instancePreAllocate_keeps {d : Int} (hvalid : parseDuration c.instance.allocate.expiry = .ok d)
    {Q : Except Error Unit → Log → Prop}
    (hok : ∀ l', (∀ e ∈ l, e ∈ l') →
      account l' = { account l with inserted := (account l).inserted + 1 } → Q (.ok ()) l')
    (herror : ∀ e l', SameBooks l l' → ¬ Smooth c l' → Q (.error e) l') :
    Keeps p instancePreAllocate Q l := by
  unfold instancePreAllocate
  refine keeps_then rfl fun rounds l₁ h₁ => ?_
  rw [keeps_bind]
  refine keeps_works (createUntilOk_works rounds) fun info l₂ h₂ => ?_
  have h₂ := h₁.trans h₂
  rw [keeps_bind]
  refine keeps_op.mpr ⟨books_of_off rfl, fun c' => ?_⟩
  have h₃ : SameBooks l (⟨.config, c'⟩ :: l₂) := h₂.trans (.cons rfl c' l₂)
  cases hduration : parseDuration c'.instance.allocate.expiry with
  | error e =>
    refine keeps_giveUp fun l₄ h₄ => herror e l₄ (h₃.trans h₄) fun hsmooth => ?_
    rw [hsmooth.config c' (h₄.mem _ (List.mem_cons_self ..)), hvalid] at hduration
    cases hduration
  | ok duration =>
    refine keeps_then rfl fun now l₄ h₄ => keeps_then rfl fun c'' l₅ h₅ => ?_
    have h₅ := (h₃.trans h₄).trans h₅
    rw [keeps_bind]
    refine keeps_op.mpr ⟨books_dbNew _, fun r => ?_⟩
    cases r with
    | error e =>
      refine keeps_giveUp fun l₆ h₆ => herror e l₆ ((h₅.trans (.failed _ e l₅)).trans h₆) ?_
      exact fun hsmooth => hsmooth.answered _ e (h₆.mem _ (List.mem_cons_self ..))
    | ok id =>
      refine keeps_then rfl fun _ l₆ h₆ => hok l₆ (fun e he => ?_) ?_
      · exact h₆.mem e (List.mem_cons_of_mem _ (h₅.mem e he))
      · rw [h₆.account, account_cons, h₅.account]
        rfl

theorem preAllocate_keeps {d : Int} (hvalid : parseDuration c.instance.allocate.expiry = .ok d) :
    Keeps .preAllocate (body .preAllocate) (fun _ => Settled c n .preAllocate) [] := by
  change Keeps .preAllocate (instancePreAllocate >>= fun _ => pure ()) _ []
  rw [keeps_bind]
  refine instancePreAllocate_keeps hvalid (fun l _ hl _ => ?_) fun e l _ hrough hsmooth => ?_
  · simp only [owed, debt, hl]
    rfl
  · exact absurd hsmooth hrough

theorem allocateTimeout_keeps {d : Int} (hvalid : parseDuration c.instance.allocate.expiry = .ok d)
    {id : Nat} {name : String} :
    Keeps (.allocateTimeout id name) (allocateTimeout id name)
      (fun _ => Settled c n (.allocateTimeout id name)) [] := by
  unfold allocateTimeout
  have hkept : ∀ {l : Log}, (account l).deleted = false → Settled c n (.allocateTimeout id name) l := by
    intro l hl _
    simp [owed, debt, hl]
  refine keeps_then rfl fun r l₁ h₁ => ?_
  rcases r with e | (_ | _)
  · exact hkept (by rw [h₁.account]; rfl)
  · exact hkept (by rw [h₁.account]; rfl)
  · rw [keeps_bind]
    refine keeps_works (forceDelete_works name) fun _ l₂ h₂ => ?_
    have h₂ := h₁.trans h₂
    rw [keeps_bind]
    refine keeps_op.mpr ⟨⟨by rw [h₂.account]; rfl, by rw [h₂.account]; rfl⟩, fun r => ?_⟩
    rw [keeps_bind]
    refine instancePreAllocate_keeps hvalid (fun l₃ _ hl₃ _ => ?_) fun e l₃ _ hrough hsmooth => ?_
    · have hinserted : (account l₃).inserted = 1 := by
        rw [hl₃, account_cons, h₂.account]
        cases r <;> rfl
      simp [owed, debt, hinserted]
    · exact absurd hsmooth hrough

/-! The startup goroutine. -/

/-- Operations before the loop that fills the pool. -/
def early : Op → Bool
  | .query (.dbDelete _) => true
  | o => offTheBooks o

theorem early_of_off (o : Op) (h : offTheBooks o = true) : early o = true := by
  cases o with
  | query q => cases q <;> first | rfl | cases h
  | _ => exact h

theorem early_of_works (o : Op) (h : o.works = true) : early o = true :=
  early_of_off o (off_of_works o h)

abbrev Early {α : Type} (prog : Prog α) : Prop := prog.Performs fun o => early o = true

theorem daemon_early : Early daemon := daemon_works.mono early_of_works

theorem connectLoop_early (rounds : Nat) : Early (connectLoop rounds) := by
  induction rounds with
  | zero => exact performs_then rfl fun stuck => nomatch stuck
  | succ rounds ih =>
    unfold connectLoop
    refine performs_then rfl fun c => performs_then rfl fun r => ?_
    cases r with
    | error e => exact performs_then rfl fun _ => performs_then rfl fun _ => ih
    | ok d => exact performs_then rfl fun _ => performs_pure _

theorem useProject_early : Early useProject := by
  have htarget : Early (do
      let c ← perform .config
      if c.incus.target ≠ "" then
        let d ← daemon
        perform (.setIncusDaemon (some { d with target := c.incus.target }))) := by
    refine performs_then rfl fun c => performs_ite ?_ (performs_pure _)
    exact daemon_early.bind fun d => performs_perform rfl
  unfold useProject
  refine performs_then rfl fun c => performs_ite ?_ htarget
  exact daemon_early.bind fun d => performs_then rfl fun _ => htarget

theorem forM_early {ι : Type} {f : ι → Prog Unit} (hf : ∀ i, Early (f i)) (is : List ι) :
    Early (is.forM f) := by
  induction is with
  | nil => exact performs_pure _
  | cons i is ih => exact (hf i).bind fun _ => ih

theorem restoreSession_early (e : Listed) : Early (restoreSession e) := by
  have hexpire : Early (do
      forceDelete e.instanceName
      let _ ← perform (.query (.dbExpire e.id))) :=
    ((forceDelete_works _).mono early_of_works).bind fun _ => performs_then rfl fun _ =>
      performs_pure _
  unfold restoreSession
  refine performs_then rfl fun now => ?_
  dsimp only
  split
  · exact hexpire
  · exact performs_ite hexpire (performs_perform rfl)

theorem instanceResync_early : Early instanceResync := by
  have hnames : ∀ names, Early (resyncNames names) := by
    intro names
    induction names with
    | nil => exact performs_pure _
    | cons name rest ih =>
      unfold resyncNames
      refine performs_ite (performs_then rfl fun r => ?_) ih
      rcases r with e | (_ | _)
      · exact performs_pure _
      · exact ((forceDelete_works name).mono early_of_works).bind fun _ => ih
      · exact ih
  unfold instanceResync resyncLocked
  refine performs_then rfl fun _ => performs_then rfl fun _ => Performs.bind ?_ fun r =>
    performs_then rfl fun _ => performs_pure _
  refine daemon_early.bind fun d => performs_then rfl fun r => ?_
  cases r with
  | error e => exact performs_pure _
  | ok names => exact hnames names

theorem recover_early : Early recover := by
  unfold recover
  refine performs_then rfl fun r => ?_
  cases r with
  | error e => exact performs_pure _
  | ok es =>
    refine (forM_early restoreSession_early es).bind fun _ => performs_then rfl fun r => ?_
    cases r with
    | error e => exact performs_pure _
    | ok es =>
      refine (forM_early (fun e => ?_) es).bind fun _ => instanceResync_early
      exact ((forceDelete_works _).mono early_of_works).bind fun _ => performs_then rfl fun _ =>
        performs_pure _

/-- The account of the startup goroutine is not open yet. -/
def Unopened (l : Log) : Prop := (account l).begun = false ∧ (account l).inserted = 0

theorem keeps_early {α : Type} {prog : Prog α} (hearly : Early prog) (hl : Unopened l)
    {Q : α → Log → Prop} (h : ∀ a l', Unopened l' → Q a l') : Keeps .connect prog Q l := by
  refine keeps_invariant hearly (fun l₁ o h₁ ho => ?_) (fun l₁ o r h₁ ho => ?_) hl h
  · cases o with
    | query q => cases q <;> first | exact h₁.1 | trivial
    | go q => cases q <;> trivial
    | _ => trivial
  · cases o with
    | query q =>
      cases r with
      | error e =>
        unfold Unopened
        rw [(SameBooks.failed q e l₁).account]
        exact h₁
      | ok a => cases q <;> first | exact h₁ | cases ho
    | go q => cases q <;> first | exact h₁ | cases ho
    | _ => exact h₁

theorem allocateLoop_keeps {d : Int} (hvalid : parseDuration c.instance.allocate.expiry = .ok d)
    (hcount : c.instance.allocate.count = n) (rounds : Nat) {i : Int} (hi : (account l).inserted = i) :
    Keeps .connect (allocateLoop rounds i) (fun _ => Settled c n .connect) l := by
  induction rounds generalizing l i with
  | zero => exact keeps_then rfl fun stuck => nomatch stuck
  | succ rounds ih =>
    unfold allocateLoop
    rw [keeps_bind]
    refine keeps_op.mpr ⟨books_of_off rfl, fun c' => ?_⟩
    refine keeps_ite (fun _ => ?_) (fun hdone hsmooth => ?_)
    · rw [keeps_bind]
      refine instancePreAllocate_keeps hvalid (fun l₁ _ hl₁ => ?_) fun e l₁ _ hrough hsmooth => ?_
      · apply ih
        rw [hl₁, ← hi]
        simp [Account.next]
      · exact absurd hsmooth hrough
    · have hc : c' = c := hsmooth.config c' (List.mem_cons_self ..)
      rw [hc, hcount] at hdone
      have hsame : account (⟨.config, c'⟩ :: l) = account l := rfl
      have hle : n - (account l).inserted = 0 := by omega
      simp [owed, debt, hsame, hle]

theorem connect_keeps {d : Int} (hvalid : parseDuration c.instance.allocate.expiry = .ok d)
    (hcount : c.instance.allocate.count = n) :
    Keeps .connect connect (fun _ => Settled c n .connect) [] := by
  unfold connect
  have hnil : Unopened [] := ⟨rfl, rfl⟩
  rw [keeps_bind]
  refine keeps_early (performs_perform rfl) hnil fun rounds l₁ h₁ => ?_
  rw [keeps_bind]
  refine keeps_early (connectLoop_early rounds) h₁ fun _ l₂ h₂ => ?_
  rw [keeps_bind]
  refine keeps_early useProject_early h₂ fun _ l₃ h₃ => ?_
  rw [keeps_bind]
  refine keeps_early recover_early h₃ fun r l₄ h₄ => ?_
  cases r with
  | error e => exact fun _ => by simp [owed, debt, h₄.1]
  | ok _ =>
    rw [keeps_bind]
    refine keeps_op.mpr ⟨h₄.2, fun _ => keeps_then rfl fun rounds l₅ h₅ => ?_⟩
    apply allocateLoop_keeps hvalid hcount rounds
    rw [h₅.account, account_cons]
    simp [Account.next, h₄.2]

/-! Start requests. -/

/-- Operations other than the UPDATE of `dbGetAllocated`. -/
def unclaiming : Op → Bool
  | .query (.updateAllocated ..) => false
  | _ => true

theorem unclaiming_of_works (o : Op) (h : o.works = true) : unclaiming o = true := by
  cases o with
  | query q => cases h
  | _ => rfl

abbrev Unclaiming {α : Type} (prog : Prog α) : Prop := prog.Performs fun o => unclaiming o = true

theorem restStartError_unclaiming (code : StatusCode) : Unclaiming (restStartError code) := by
  unfold restStartError
  refine performs_then rfl fun r => ?_
  cases r with
  | error e => exact performs_perform rfl
  | ok _ => exact performs_pure _

/-- The answer after an error. -/
theorem refuse_unclaiming {α : Type} (a : α) :
    Unclaiming (do restStartError .instanceUnknownError; pure a : Prog α) :=
  (restStartError_unclaiming _).bind fun _ => performs_pure _

theorem deliver_unclaiming (a : Acquired) : Unclaiming (deliver a) := by
  have hgiveUp : Unclaiming (do
      forceDelete a.info.name
      restStartError .instanceUnknownError) :=
    ((forceDelete_works _).mono unclaiming_of_works).bind fun _ => restStartError_unclaiming _
  unfold deliver
  refine performs_then rfl fun c => ?_
  split
  · exact hgiveUp
  · refine performs_then rfl fun _ => performs_then rfl fun r => ?_
    cases r with
    | error e => exact hgiveUp
    | ok _ => exact performs_perform rfl

theorem deliverSome_unclaiming (acquired : Option Acquired) :
    Unclaiming (match acquired with | none => pure () | some a => deliver a) := by
  cases acquired with
  | none => exact performs_pure _
  | some a => exact deliver_unclaiming a

theorem useFresh_unclaiming (date : Int) (ip terms : String) : Unclaiming (useFresh date ip terms) := by
  unfold useFresh
  refine ((instanceCreate_works statusUpdate_works).mono unclaiming_of_works).bind fun r => ?_
  cases r with
  | error e => exact refuse_unclaiming _
  | ok info =>
    refine performs_then rfl fun now => performs_then rfl fun c => performs_then rfl fun r => ?_
    cases r with
    | error e =>
      exact ((forceDelete_works _).mono unclaiming_of_works).bind fun _ => refuse_unclaiming _
    | ok id => exact performs_pure _

/-- A handler that has claimed nothing, or has started the replacement, owes nothing. -/
theorem settled_restStart {r : Request} (h : (account l).claimed = false ∨ (account l).replaced = true) :
    Settled c n (.restStart r) l := by
  intro _
  rcases h with h | h <;> simp [owed, debt, h]

/-- What is left once the handler has claimed nothing, or has started the replacement. -/
theorem keeps_unclaiming {α : Type} {r : Request} {prog : Prog α} (hprog : Unclaiming prog)
    (h : (account l).claimed = false ∨ (account l).replaced = true) :
    Keeps (.restStart r) prog (fun _ => Settled c n (.restStart r)) l := by
  refine keeps_invariant (I := fun l => (account l).claimed = false ∨ (account l).replaced = true)
    hprog (fun l₁ o _ ho => ?_) (fun l₁ o a h₁ ho => ?_) h fun _ l' h' => settled_restStart h'
  · cases o with
    | query q => cases q <;> trivial
    | _ => trivial
  · cases o with
    | query q =>
      cases a with
      | error e =>
        rw [(SameBooks.failed q e l₁).account]
        exact h₁
      | ok _ => cases q <;> first | exact h₁ | cases ho
    | go q => cases q <;> first | exact h₁ | exact .inr rfl
    | _ => exact h₁

theorem startSession_keeps {r : Request} {date : Int} {ip terms : String}
    (hclaimed : (account l).claimed = false) (hreplaced : (account l).replaced = false) :
    Keeps (.restStart r) (startSession date ip terms) (fun _ => Settled c n (.restStart r)) l := by
  have hfresh : ∀ l₁, SameBooks l l₁ → Keeps (.restStart r) (do
      match ← useFresh date ip terms with
      | none => pure ()
      | some a => deliver a) (fun _ => Settled c n (.restStart r)) l₁ := fun l₁ h₁ =>
    keeps_unclaiming ((useFresh_unclaiming date ip terms).bind deliverSome_unclaiming)
      (.inl (by rw [h₁.account, hclaimed]))
  unfold startSession dbGetAllocated
  refine keeps_then rfl fun now l₁ h₁ => keeps_then rfl fun c' l₂ h₂ => ?_
  have h₂ := h₁.trans h₂
  rw [keeps_bind]
  refine keeps_then rfl fun c'' l₃ h₃ => keeps_ite (fun _ => hfresh l₃ (h₂.trans h₃)) fun _ => ?_
  have h₃ := h₂.trans h₃
  refine keeps_then rfl fun a l₄ h₄ => ?_
  have h₄ := h₃.trans h₄
  rcases a with e | (_ | row)
  · exact hfresh l₄ h₄
  · exact hfresh l₄ h₄
  · refine keeps_ite (fun _ => hfresh l₄ h₄) fun _ => ?_
    rw [keeps_bind]
    refine keeps_op.mpr ⟨⟨by rw [h₄.account, hclaimed], by rw [h₄.account, hreplaced]⟩, fun a => ?_⟩
    cases a with
    | error e => exact hfresh _ (h₄.trans (.failed _ e l₄))
    | ok _ =>
      -- the replacement is started at once
      apply (Conc.Prog.wp_pure _).mpr
      dsimp only
      rw [keeps_bind]
      unfold useAllocated
      rw [keeps_bind]
      refine keeps_op.mpr ⟨trivial, fun _ => ?_⟩
      rw [← keeps_bind]
      refine keeps_unclaiming (Performs.bind ?_ deliverSome_unclaiming) (.inr rfl)
      refine ((instanceStart_works _ statusUpdate_works).mono unclaiming_of_works).bind fun r => ?_
      cases r with
      | error e => exact refuse_unclaiming _
      | ok _ => exact performs_pure _

/-- A step of the handler before it looks for a session, and what follows. -/
theorem restStartHandler_keeps {r : Request} :
    Keeps (.restStart r) (restStartHandler r) (fun _ => Settled c n (.restStart r)) [] := by
  -- nothing is claimed when the handler refuses the request
  have hrefuse : ∀ {prog : Prog Unit} {l : Log}, Unclaiming prog → account l = account [] →
      Keeps (.restStart r) prog (fun _ => Settled c n (.restStart r)) l := fun hprog hl =>
    keeps_unclaiming hprog (.inl (by rw [hl]; rfl))
  have hadmit : ∀ {l date ip terms}, account l = account [] → Keeps (.restStart r)
      (admitSession date ip terms) (fun _ => Settled c n (.restStart r)) l := by
    intro l date ip terms hl
    unfold admitSession
    refine keeps_then rfl fun count l₁ h₁ => keeps_then rfl fun c' l₂ h₂ => ?_
    have h₂ := (h₁.trans h₂).account.trans hl
    refine keeps_ite (fun _ => hrefuse (restStartError_unclaiming _) h₂) fun _ => ?_
    refine keeps_then rfl fun count l₃ h₃ => keeps_then rfl fun c' l₄ h₄ => ?_
    have h₄ := (h₃.trans h₄).account.trans h₂
    refine keeps_ite (fun _ => hrefuse (restStartError_unclaiming _) h₄) fun _ => ?_
    exact startSession_keeps (by rw [h₄]; rfl) (by rw [h₄]; rfl)
  have hcheck : ∀ {l}, account l = account [] → Keeps (.restStart r) (checkRequest r)
      (fun _ => Settled c n (.restStart r)) l := by
    intro l hl
    unfold checkRequest
    refine keeps_then rfl fun date l₁ h₁ => ?_
    have h₁ := h₁.account.trans hl
    split
    · exact hrefuse (restStartError_unclaiming _) h₁
    · refine keeps_ite (fun _ => hrefuse (performs_perform rfl) h₁) fun _ => ?_
      refine keeps_then rfl fun c' l₂ h₂ => ?_
      have h₂ := h₂.account.trans h₁
      refine keeps_ite (fun _ => hrefuse (restStartError_unclaiming _) h₂) fun _ => ?_
      refine keeps_then rfl fun c' l₃ h₃ => ?_
      have h₃ := h₃.account.trans h₂
      exact keeps_ite (fun _ => hrefuse (restStartError_unclaiming _) h₃) fun _ => hadmit h₃
  unfold restStartHandler
  refine keeps_ite (fun _ => hrefuse (performs_perform rfl) rfl) fun _ => ?_
  refine keeps_then rfl fun c' l₁ h₁ => keeps_then rfl fun d l₂ h₂ => ?_
  have h₂ := (h₁.trans h₂).account
  refine keeps_ite (fun _ => hrefuse (performs_perform rfl) h₂) fun _ => ?_
  refine keeps_then rfl fun _ l₃ h₃ => keeps_then rfl fun _ l₄ h₄ => keeps_then rfl fun _ l₅ h₅ =>
    keeps_then rfl fun _ l₆ h₆ => ?_
  have h₆ := (((h₃.trans h₄).trans h₅).trans h₆).account.trans h₂
  refine keeps_ite (fun _ => hrefuse (performs_perform rfl) h₆) fun _ => ?_
  refine keeps_then rfl fun _ l₇ h₇ => hcheck (h₇.account.trans h₆)

/-- The threads that owe nothing whatever they do. -/
theorem keeps_free {α : Type} {prog : Prog α} {Q : α → Log → Prop} (hbooks : ∀ l o, Books p l o)
    (h : ∀ a l', Q a l') : Keeps p prog Q l := by
  have hall : prog.Performs fun _ => True := by
    induction prog with
    | ret a => exact performs_pure a
    | op o k ih => exact ⟨trivial, ih⟩
  exact keeps_invariant (I := fun _ => True) hall (fun l o _ _ => hbooks l o)
    (fun _ _ _ _ _ => trivial) trivial fun a l' _ => h a l'

/-- Every thread keeps account, and owes nothing at its end. -/
theorem body_keeps {d : Int} (hvalid : parseDuration c.instance.allocate.expiry = .ok d)
    (hcount : c.instance.allocate.count = n) (p : Proc) :
    Machine.Follows Books (Settled c n) (server.start p) := by
  intro _
  cases p with
  | restStart r => exact restStartHandler_keeps
  | preAllocate => exact preAllocate_keeps hvalid
  | allocateTimeout id name => exact allocateTimeout_keeps hvalid
  | connect => exact connect_keeps hvalid hcount
  | cleanup _ _ | hourlyResync | proxy _ | rest _ | console _ | email _ =>
    exact keeps_free (fun _ _ => trivial) fun _ _ _ => rfl

end Bodies

-- ============================================================================
-- One event
-- ============================================================================

/-- How many waiting rows the event may take out of the pool. -/
def taken : Event → Nat
  | ⟨.query (.updateAllocated ..), .ok _⟩ => 1
  | ⟨.query (.dbDelete _), .ok _⟩ => 1
  | _ => 0

/-- How many waiting rows the event puts into the pool. -/
def added : Event → Nat
  | ⟨.query (.dbNew row), .ok _⟩ => if row.isAllocated then 1 else 0
  | _ => 0

/-- How many replacements the event starts. -/
def replacements : Op → Nat
  | .go .preAllocate => 1
  | _ => 0

section Events

variable {w w' : World} {t : Nat} {e : Event} {n : Nat} {p : Proc} {l : Log}

/-- The pool after an event that expires no waiting row. -/
theorem waiting_did (hd : Did w t e w') (hbegun : ∀ id, e.op = .query (.dbExpire id) → Begun w.db id) :
    waiting w.db + added e ≤ waiting w'.db + taken e := by
  unfold waiting
  rw [hd.db]
  obtain ⟨o, r⟩ := e
  cases o with
  | query q =>
    cases r with
    | error err => cases q <;> exact le_refl _
    | ok x =>
      cases q with
      | dbNew row =>
        have hcount := Sql.Table.count_insert w.db.sessions row fun _ s => s.isAllocated
        exact hcount.ge
      | dbDelete id => exact Sql.Table.count_le_delete w.db.sessions id fun _ s => s.isAllocated
      | updateAllocated expiry date ip terms id =>
        exact Sql.Table.count_le_update w.db.sessions id (fun _ s => s.isAllocated) _
      | dbExpire id =>
        have hsame : (w.db.sessions.update (fun i _ => i = id) Session.expired).count
            (fun _ s => s.isAllocated) = w.db.sessions.count fun _ s => s.isAllocated := by
          refine Sql.Table.count_update_eq fun i a ha hi => ?_
          have hi : i = id := of_decide_eq_true hi
          subst hi
          have hle := (hbegun i rfl).status a ha
          have hne : a.status ≠ 2 := by omega
          simp [Session.isAllocated, Session.expired, hne]
        exact hsame.ge
      | _ => exact le_refl _
  | _ => exact le_refl _

/-- What the thread owes after the event, with what the event puts in and starts, covers what it
    owed before and what the event takes out. -/
theorem owed_step {o : Op} {r : Ret o} (hallowed : Allowed p l o) (hbooks : Books p l o)
    (hbegun : p = .connect → (account l).begun = true) :
    owed n p l + taken ⟨o, r⟩ ≤ owed n p (⟨o, r⟩ :: l) + added ⟨o, r⟩ + replacements o := by
  -- an event that leaves the account alone takes nothing out
  have hsame : account (⟨o, r⟩ :: l) = account l → taken ⟨o, r⟩ = 0 →
      owed n p l + taken ⟨o, r⟩ ≤ owed n p (⟨o, r⟩ :: l) + added ⟨o, r⟩ + replacements o := by
    intro haccount htaken
    unfold owed
    rw [haccount, htaken]
    omega
  cases o with
  | query q =>
    cases r with
    | error err => exact hsame (SameBooks.failed q err l).account (by cases q <;> rfl)
    | ok a =>
      cases q with
      | updateAllocated expiry date ip terms id =>
        obtain ⟨request, protocol, rfl, -⟩ := (hallowed : MayClaim p l expiry ip id).request
        obtain ⟨hclaimed, hreplaced⟩ := hbooks
        simp only [owed, debt, taken, account_cons, Account.next, hclaimed, hreplaced]
        simp only [Bool.false_and, Bool.false_eq_true, if_false, Bool.not_false, Bool.true_and,
          if_true]
        omega
      | dbDelete id =>
        cases (hallowed : MayDelete p l id) with
        | unclaimed name hp _ =>
          subst hp
          obtain ⟨hdeleted, hinserted⟩ := hbooks
          simp only [owed, debt, taken, account_cons, Account.next, hdeleted, hinserted]
          simp only [Bool.false_eq_true, if_false, if_true]
          omega
        | former e rest hp _ _ =>
          subst hp
          have hnot : (account l).begun = false := hbooks
          rw [hbegun rfl] at hnot
          cases hnot
      | dbNew row =>
        rcases (hallowed : MayInsert p l row).kind with
          ⟨-, ⟨request, protocol, rfl, -⟩, -⟩ | ⟨hstatus, -, -⟩
        · exact Nat.le_add_right _ _
        · have hadded : added ⟨.query (.dbNew row), .ok a⟩ = 1 := by
            simp [added, Session.isAllocated, hstatus]
          rw [hadded]
          exact debt_inserted n p (account l)
      | _ => exact hsame rfl rfl
  | go q =>
    cases q with
    | preAllocate => exact debt_replaced n p (account l)
    | hourlyResync => exact debt_begun n p (account l)
    | _ => exact hsame rfl rfl
  | _ => exact hsame rfl rfl

/-- A replacement that is started is owed. -/
theorem replacements_le (o : Op) :
    replacements o ≤ ((server.spawn o).map fun q => (server.start q).share (owed n)).sum := by
  cases o with
  | go q =>
    cases q with
    | preAllocate => exact le_refl 1
    | _ => exact Nat.zero_le _
  | _ => exact Nat.zero_le _

end Events

-- ============================================================================
-- One startup goroutine
-- ============================================================================

/-- A process has one startup goroutine, and no timer starts another. -/
structure OneConnect (s : Sys) : Prop where
  unique : ∀ t u l m, Runs s t .connect l → Runs s u .connect m → t = u
  timers : ∀ tm ∈ s.world.timers, tm.callback ≠ .connect

section OneConnect

variable {s s' : Sys} {t : Nat} {p : Proc} {l : Log} {e : Event}

theorem Initial.oneConnect (h : Initial s) : OneConnect s where
  unique := by
    have hzero : ∀ t l, Runs s t .connect l → t = 0 := by
      rintro t l ⟨th, hth, -⟩
      rw [h.2.2.2] at hth
      have hlt := (List.getElem?_eq_some_iff.mp hth).1
      simpa using hlt
    intro t u l m ht hu
    rw [hzero t l ht, hzero u m hu]
  timers := by
    intro tm htm
    rw [h.2.2.1] at htm
    cases htm

theorem OneConnect.threadStep (h : OneConnect s) (hm : ThreadStep s t p l e s') : OneConnect s' where
  unique := by
    have hspawned : .connect ∉ spawn e.op := by
      intro hq
      rcases spawn_cases hm.allowed hq with h | h | ⟨f, h⟩ <;> cases h
    -- a thread that runs the goroutine now has run it before
    have hold : ∀ u m, Runs s' u .connect m → ∃ m', Runs s u .connect m' := by
      intro u m hr
      rcases hm.runs_cases u _ m hr with ⟨rfl, hp, -⟩ | ⟨-, hr⟩ | ⟨-, -, hq⟩
      · exact ⟨l, hp ▸ hm.runs⟩
      · exact ⟨m, hr⟩
      · exact absurd hq hspawned
    intro u v m m' hu hv
    obtain ⟨_, hu⟩ := hold u m hu
    obtain ⟨_, hv⟩ := hold v m' hv
    exact h.unique u v _ _ hu hv
  timers := by
    intro tm htm
    rw [hm.did.timers] at htm
    obtain ⟨o, r⟩ := e
    cases o with
    | afterFunc d q =>
      rcases List.mem_append.mp htm with htm | htm
      · exact h.timers tm htm
      · cases List.mem_singleton.mp htm
        cases (hm.allowed : MayArm p l d q) <;> exact nofun
    | _ => exact h.timers tm htm

/-- The environment lets the process go on, or replaces it by one that starts. -/
theorem OneConnect.env_cases {e : Env} {w : World} {stop : Bool} {ps : List Proc} (h : OneConnect s)
    (henv : env s.world e = some (w, stop, ps)) :
    (stop = false ∧ .connect ∉ ps ∧ w.incusDaemon = s.world.incusDaemon) ∨
    (stop = true ∧ ps = [.connect] ∧ w.incusDaemon = none ∧ w.timers = []) := by
  cases e with
  | fire i =>
    simp only [env] at henv
    split at henv
    · cases henv
    · rename_i tm htm
      split at henv
      · cases henv
        refine .inl ⟨rfl, fun hmem => ?_, rfl⟩
        exact h.timers tm (List.mem_of_getElem? htm) (List.mem_singleton.mp hmem).symm
      · cases henv
  | restart c =>
    cases henv
    exact .inr ⟨rfl, rfl, rfl, rfl⟩
  | _ =>
    cases henv
    exact .inl ⟨rfl, by simp, rfl⟩

theorem OneConnect.envStep {e : Env} (h : OneConnect s) (hs : server.Step s (.env e) s') :
    OneConnect s' where
  unique := by
    cases hs with
    | env henv =>
      rename_i w stop ps
      -- a goroutine that was there, or the only one that starts
      rcases h.env_cases henv with ⟨rfl, hps, -⟩ | ⟨rfl, rfl, -, -⟩
      · have hold : ∀ u m, Runs ⟨w, server.after s.threads false ps⟩ u .connect m →
            Runs s u .connect m := by
          rintro u m ⟨th, hth, ha, hp, hl⟩
          rcases server.get_after hth with ⟨-, hth⟩ | ⟨hstop, -⟩ | ⟨q, hq, rfl⟩
          · exact ⟨th, hth, ha, hp, hl⟩
          · cases hstop
          · exact absurd (hp ▸ hq : .connect ∈ ps) hps
        exact fun u v m m' hu hv => h.unique u v m m' (hold u m hu) (hold v m' hv)
      · -- all threads were stopped, and one stands behind them
        have hlast : ∀ u m, Runs ⟨w, server.after s.threads true [.connect]⟩ u .connect m →
            u = s.threads.length := by
          rintro u m ⟨th, hth, ha, -, -⟩
          unfold Machine.after at hth
          rw [if_pos rfl] at hth
          by_cases hu : u < s.threads.length
          · rw [List.getElem?_append_left (by simpa using hu), List.getElem?_map] at hth
            obtain ⟨th', -, rfl⟩ := Option.map_eq_some_iff.mp hth
            cases ha
          · have hlt := (List.getElem?_eq_some_iff.mp hth).1
            simp at hlt
            omega
        intro u v m m' hu hv
        rw [hlast u m hu, hlast v m' hv]
  timers := fun tm htm => h.timers tm ((env_step hs).timers tm htm)

end OneConnect

-- ============================================================================
-- Runs
-- ============================================================================

/-- No statement fails, and the configuration stays `c`. -/
structure Undisturbed (c : ServerConfig) (_ : Sys) (l : Label) : Prop where
  answered : ∀ t q err, l ≠ .thread t ⟨.query q, .error err⟩
  reload : ∀ c', l = .env (.reload c') → c' = c
  restart : ∀ c', l = .env (.restart c') → c' = c

/-- The startup goroutine, thread `t`, has begun its allocation loop. -/
def Filling (s : Sys) (t : Nat) : Prop :=
  ∃ l, Runs s t .connect l ∧ (account l).begun = true

/-- What holds in every state of an undisturbed run, for a pool of `n`. -/
structure PoolKept (c : ServerConfig) (n : Nat) (s : Sys) : Prop where
  started : Started s
  follow : Machine.AllFollow Books (Settled c n) s
  smooth : ∀ t p l, Ran s t p l → Smooth c l
  config : s.world.config = c
  one : OneConnect s
  full : ∀ t, Filling s t → n ≤ waiting s.world.db + pending n s

section Runs

variable {c : ServerConfig} {n : Nat} {s s' : Sys} {t : Nat} {p : Proc} {l : Log} {e : Event}

theorem smooth_nil : Smooth c [] := ⟨fun _ _ h => absurd h List.not_mem_nil,
  fun _ h => absurd h List.not_mem_nil⟩

theorem smooth_threadStep (h : PoolKept c n s) (hC : Undisturbed c s (.thread t e))
    (hm : ThreadStep s t p l e s') : ∀ u q m, Ran s' u q m → Smooth c m := by
  intro u q m hr
  rcases hm.ran_cases u q m hr with ⟨rfl, rfl, rfl⟩ | ⟨-, hr⟩ | ⟨-, rfl, -⟩
  · have hold := h.smooth u q l hm.runs.ran
    refine ⟨fun qu err hmem => ?_, fun c' hmem => ?_⟩
    · rcases List.mem_cons.mp hmem with rfl | hmem
      · exact hC.answered u qu err rfl
      · exact hold.answered qu err hmem
    · rcases List.mem_cons.mp hmem with rfl | hmem
      · exact (hm.did.truthful : c' = s.world.config).trans h.config
      · exact hold.config c' hmem
  · exact h.smooth u q m hr
  · exact smooth_nil

/-- What waits and what is pending never fall with a step of a thread; a thread is left with what
    it owes, whether it has come to its end or not. -/
theorem pending_thread (hfollow : Machine.AllFollow Books (Settled c n) s')
    (hsmooth : ∀ u q m, Ran s' u q m → Smooth c m) (hm : ThreadStep s t p l e s')
    (hs : server.Step s (.thread t e) s') :
    pending n s + owed n p (e :: l) + replacements e.op ≤ pending n s' + owed n p l ∧
      owed n p (e :: l) + pending n s ≤ pending n s' + owed n p l := by
  obtain ⟨th, th', hth, -, hth', halive', hproc, hlog, htotal⟩ := Machine.total_thread (f := owed n) hs
  have hran := hm.runs.ran
  obtain ⟨th₀, hth₀, rfl, rfl⟩ := hran
  cases hth₀.symm.trans hth
  have hshare : owed n th.proc (e :: th.log) ≤ th'.share (owed n) := by
    by_cases hrunning : th'.running = true
    · rw [Thread.share_of_running hrunning, hproc, hlog]
    · have hend : th'.prog = .ret () := by
        cases hprog : th'.prog with
        | ret a => rfl
        | op o k => exact absurd (Thread.running_of_op halive' hprog) hrunning
      have hsettled := (hfollow t th' hth').done halive' hend
        (hsmooth t th'.proc th'.log ⟨th', hth', rfl, rfl⟩)
      rw [hproc, hlog] at hsettled
      omega
  have hspawn := replacements_le (n := n) e.op
  unfold pending
  omega

/-- The loop begins with `go` on the hourly resync, and then owes all instances. -/
theorem owed_of_begins (hbooks : Books .connect l e.op) (hbefore : (account l).begun = false)
    (hbegun : (account (e :: l)).begun = true) :
    owed n .connect l = 0 ∧ owed n .connect (e :: l) = n := by
  obtain ⟨o, r⟩ := e
  have hnot : account (⟨o, r⟩ :: l) ≠ account l := by
    intro heq
    rw [heq, hbefore] at hbegun
    cases hbegun
  cases o with
  | go q =>
    cases q with
    | hourlyResync =>
      have hinserted : (account l).inserted = 0 := hbooks
      simp [owed, debt, Account.next, hbefore, hinserted]
    | preAllocate =>
      have hstill : (account l).begun = true := hbegun
      rw [hbefore] at hstill
      cases hstill
    | _ => exact absurd rfl hnot
  | query q =>
    cases r with
    | error err => exact absurd (SameBooks.failed q err l).account hnot
    | ok a =>
      have hsame : (account (⟨.query q, .ok a⟩ :: l)).begun = (account l).begun := by
        cases q <;> rfl
      rw [hsame, hbefore] at hbegun
      cases hbegun
  | _ => exact absurd rfl hnot

theorem PoolKept.threadStep {d : Int} (hvalid : parseDuration c.instance.allocate.expiry = .ok d)
    (hcount : c.instance.allocate.count = n) (hsound : Sound s) (h : PoolKept c n s)
    (hC : Undisturbed c s (.thread t e)) (hm : ThreadStep s t p l e s')
    (hs : server.Step s (.thread t e) s') : PoolKept c n s' := by
  have hfollow := h.follow.step (body_keeps hvalid hcount) hs
  have hsmooth := smooth_threadStep h hC hm
  refine ⟨h.started.threadStep hsound hm, hfollow, hsmooth, hm.did.config.trans h.config,
    h.one.threadStep hm, ?_⟩
  rintro u ⟨m, hr, hbegun⟩
  have hbooks : Books p l e.op := by
    obtain ⟨th, hth, halive, -, rfl, rfl⟩ := hm.busy
    cases hs with
    | thread hth' _ hprog _ =>
      cases hth.symm.trans hth'
      exact (h.follow _ _ hth).op halive hprog
  obtain ⟨hpending, hown⟩ := pending_thread hfollow hsmooth hm hs
  by_cases hfilling : ∃ v, Filling s v
  · obtain ⟨v, m', hr', hbegun'⟩ := hfilling
    have hfull := h.full v ⟨m', hr', hbegun'⟩
    have hwaiting := waiting_did hm.did fun id ho => by
      have hallowed := hm.allowed
      rw [ho] at hallowed
      exact begun_of_expires h.started hm.runs.ran hallowed
    have howed : owed n p l + taken e ≤ owed n p (e :: l) + added e + replacements e.op :=
      owed_step hm.allowed hbooks fun hp => by
        obtain ⟨-, rfl⟩ := (h.one.unique v t m' l hr' (hp ▸ hm.runs) ▸ hr').unique hm.runs
        exact hbegun'
    omega
  · -- the loop begins with this step
    rcases hm.runs_cases u _ m hr with ⟨rfl, rfl, rfl⟩ | ⟨-, hr⟩ | ⟨-, rfl, -⟩
    · have hbefore : (account l).begun = false := by
        rw [← Bool.not_eq_true]
        exact fun hb => hfilling ⟨u, l, hm.runs, hb⟩
      obtain ⟨hnothing, hall⟩ := owed_of_begins (n := n) hbooks hbefore hbegun
      omega
    · exact absurd ⟨u, m, hr, hbegun⟩ hfilling
    · cases hbegun

theorem PoolKept.envStep {e : Env} {d : Int}
    (hvalid : parseDuration c.instance.allocate.expiry = .ok d)
    (hcount : c.instance.allocate.count = n) (h : PoolKept c n s) (hC : Undisturbed c s (.env e))
    (hs : server.Step s (.env e) s') : PoolKept c n s' := by
  have hm := env_step hs
  refine ⟨h.started.envStep hm, h.follow.step (body_keeps hvalid hcount) hs, ?_, ?_,
    h.one.envStep hs, ?_⟩
  · intro u q m hr
    rcases hm.ran_cases u q m hr with hr | ⟨rfl, -⟩
    · exact h.smooth u q m hr
    · exact smooth_nil
  · rcases hm.config with hc | ⟨c', rfl | rfl, hc⟩
    · exact hc.trans h.config
    · exact hc.trans (hC.reload c' rfl)
    · exact hc.trans (hC.restart c' rfl)
  · rintro u ⟨m, ⟨th, hth, halive, hp, rfl⟩, hbegun⟩
    have hdb := hm.db
    cases hs with
    | env henv =>
      rename_i w stop ps
      rcases server.get_after hth with ⟨rfl, hold⟩ | ⟨-, th', -, rfl⟩ | ⟨q, -, rfl⟩
      · have hfull := h.full u ⟨th.log, ⟨th, hold, halive, hp, rfl⟩, hbegun⟩
        have htotal := server.total_env (s := s) (f := owed n) w ps
        rw [hdb]
        exact hfull.trans (Nat.add_le_add_left htotal _)
      · cases halive
      · cases hbegun

theorem Initial.poolKept {d : Int} (hvalid : parseDuration c.instance.allocate.expiry = .ok d)
    (hcount : c.instance.allocate.count = n) (h : Initial s) (hconfig : s.world.config = c) :
    PoolKept c n s where
  started := h.started
  follow := by
    intro t th hth
    rw [h.2.2.2] at hth
    cases List.mem_singleton.mp (List.mem_of_getElem? hth)
    exact body_keeps hvalid hcount .connect
  smooth := fun t p l hr => (h.ran hr).2 ▸ smooth_nil
  config := hconfig
  one := h.oneConnect
  full := by
    rintro t ⟨l, hr, hbegun⟩
    rw [(h.ran hr.ran).2] at hbegun
    cases hbegun

/-- In every state that an undisturbed run reaches after the startup goroutine has begun its
    allocation loop, the waiting rows and the replacements under way are at least as many as the
    configuration asks for. -/
theorem pool_never_short {s₀ : Sys} {d : Int} (h0 : Initial s₀) (hconfig : s₀.world.config = c)
    (hcount : c.instance.allocate.count = n)
    (hvalid : parseDuration c.instance.allocate.expiry = .ok d)
    (hrun : server.Run (Undisturbed c) s₀ s) (hfilling : Filling s t) :
    n ≤ waiting s.world.db + pending n s := by
  have hkept : Sound s ∧ PoolKept c n s := by
    refine Machine.Run.invariant (I := fun s => Sound s ∧ PoolKept c n s)
      ⟨h0.sound, h0.poolKept hvalid hcount hconfig⟩ ?_ hrun
    rintro s l s' ⟨hsound, h⟩ hC hs
    refine ⟨hsound.step hs, ?_⟩
    cases l with
    | thread u e =>
      obtain ⟨p, m, hm⟩ := thread_step hsound.follow hs
      exact h.threadStep hvalid hcount hsound hC hm hs
    | env e => exact h.envStep hvalid hcount hC hs
  exact hkept.2.full t hfilling

end Runs

/-- The test for `Undisturbed`. -/
def undisturbed (c : ServerConfig) (_ : Sys) : Label → Bool
  | .thread _ ⟨.query _, .error _⟩ => false
  | .env (.reload c') | .env (.restart c') => c' == c
  | _ => true

theorem of_undisturbed {c : ServerConfig} (s : Sys) (l : Label) (h : undisturbed c s l = true) :
    Undisturbed c s l where
  answered := by
    rintro t q err rfl
    cases h
  reload := by
    rintro c' rfl
    exact beq_iff_eq.mp h
  restart := by
    rintro c' rfl
    exact beq_iff_eq.mp h

/-- The test for `Filling`. -/
def filling (t : Nat) (s : Sys) : Bool :=
  match s.threads[t]? with
  | some th => th.alive && th.proc == .connect && (account th.log).begun
  | none => false

theorem of_filling {t : Nat} {s : Sys} (h : filling t s = true) : Filling s t := by
  unfold filling at h
  split at h
  · rename_i th hth
    simp only [Bool.and_eq_true, beq_iff_eq] at h
    exact ⟨th.log, ⟨th, hth, h.1.1, h.1.2, rfl⟩, h.2⟩
  · cases h

/-- A request takes the only waiting instance, and owes its replacement. -/
theorem pool_never_short_small : ∃ s, 1 ≤ waiting s.world.db + pending 1 s ∧
    waiting s.world.db = 0 ∧ hasClaimed 1 2 s = true := by
  obtain ⟨s, hrun, hs⟩ := server.run_of_check (undisturbed (smallConfig 5 1)) of_undisturbed
    (emptyServer 1) (oks 0 47 ++ act (.request (startRequest "192.0.2.1")) ++ oks 2 19)
    (fun s => filling 0 s && (waiting s.world.db == 0 && hasClaimed 1 2 s)) (by decide +kernel)
  obtain ⟨hfilling, hs⟩ := Bool.and_eq_true_iff.mp hs
  obtain ⟨hnone, hclaimed⟩ := Bool.and_eq_true_iff.mp hs
  have hkept := pool_never_short (n := 1) (d := 3600000000000) (emptyServer_initial 1) rfl rfl
    (by decide +kernel) hrun (of_filling hfilling)
  exact ⟨s, hkept, beq_iff_eq.mp hnone, hclaimed⟩

end IncusDemo
