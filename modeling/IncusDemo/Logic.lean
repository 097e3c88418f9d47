/-
  IncusDemo.Logic

  The functions of the server gone through once, for every program logic.  A
  logic says of a program and of its results what it likes (`S`), as long as
  composition keeps it; it admits some operations (`P`) and promises something
  of their answers (`R`).  The functions that handle one instance need only
  that their operations on that instance are admitted; those that start,
  restore and end sessions need also that the names they read, from rows and
  from the records of new instances, are names that may be handled (`ServerLogic`).

  `Contract.Meets` with an invariant of the log is such a logic, whatever the
  contract.
-/

import IncusDemo.Console
import IncusDemo.Endpoints
import IncusDemo.Startup
import IncusDemo.Works

namespace IncusDemo

open Go

/-- The instance that a call acts on, or makes; none when it only looks. -/
def Call.target : Call → Option String
  | .getInstance _ | .getInstanceState _ | .getInstanceNames => none
  | .copyInstance _ name _ => some name
  | .createInstance req => some req.name
  | .updateInstance name _ | .updateInstanceState name .. | .execInstance name _
  | .execConsole name _ | .deleteInstance name => some name

/-- The operations of a function that handles instance `name`. -/
def Op.handles (name : String) : Op → Bool
  | .config | .sleep _ | .flush | .execReturn .. => true
  | .encode body => progress body
  | .call _ c | .wait _ c => c.target.all (· == name)
  | _ => false

/-- The operations that neither use the connection nor take or release the lock. -/
def Op.plain : Op → Bool
  | .rLock | .rUnlock _ | .announce | .lock | .unlock | .halt | .newRandom | .call .. | .wait ..
  | .execReturn .. => false
  | _ => true

/-- A predicate of programs and their results that composition keeps, and that holds of the
    operations in `P` with what `R` says of the answers. -/
structure Logic (P : Op → Prop) (R : (o : Op) → Ret o → Prop)
    (S : (α : Type) → Prog α → (α → Prop) → Prop) : Prop where
  pure : ∀ {α : Type} {a : α} {Q : α → Prop}, Q a → S α (pure a) Q
  op : ∀ o, P o → S (Ret o) (perform o) (R o)
  daemon : S InstanceServer daemon fun _ => True
  bind : ∀ {α β : Type} {m : Prog α} {f : α → Prog β} {Q : α → Prop} {Q' : β → Prop},
    S α m Q → (∀ a, Q a → S β (f a) Q') → S β (m >>= f) Q'
  mono : ∀ {α : Type} {m : Prog α} {Q Q' : α → Prop}, S α m Q → (∀ a, Q a → Q' a) → S α m Q'

namespace Logic

variable {P : Op → Prop} {R : (o : Op) → Ret o → Prop}
  {S : (α : Type) → Prog α → (α → Prop) → Prop} {name : String} {α : Type} {Q : α → Prop}

/-- What says nothing of the result. -/
abbrev Any {α : Type} : α → Prop := fun _ => True

section Rules

variable (h : Logic P R S)

include h

theorem step {o : Op} {f : Ret o → Prog α} (ho : P o) (hf : ∀ r, R o r → S α (f r) Q) :
    S α (perform o >>= f) Q := h.bind (h.op o ho) hf

theorem last {o : Op} (ho : P o) : S (Ret o) (perform o) Any := h.mono (h.op o ho) fun _ _ => trivial

omit h in
theorem ite {c : Prop} [Decidable c] {m m' : Prog α} (hm : S α m Q) (hm' : S α m' Q) :
    S α (if c then m else m') Q := by
  split
  · exact hm
  · exact hm'

theorem noUpdate (msg : String) : S Unit (StatusUpdate.notify none msg) Any := h.pure trivial

end Rules

-- ============================================================================
-- Functions that handle an instance
-- ============================================================================

section Instance

variable (h : Logic P R S) (hP : ∀ o, o.handles name = true → P o)

include hP

theorem calls {d : InstanceServer} {c : Call} (hc : c.target = none ∨ c.target = some name) :
    P (.call d c) ∧ P (.wait d c) := by
  have hall : c.target.all (· == name) = true := by
    rcases hc with hc | hc <;> simp [hc]
  exact ⟨hP _ hall, hP _ hall⟩

include h

theorem deleteInstance (d : InstanceServer) : S _ (deleteInstance d name) Any := by
  unfold IncusDemo.deleteInstance
  have hc := calls hP (d := d) (c := .deleteInstance name) (.inr rfl)
  refine h.step hc.1 fun r _ => ?_
  cases r with
  | error e => exact h.pure trivial
  | ok _ => exact h.last hc.2

theorem forceDelete : S _ (forceDelete name) Any := by
  unfold IncusDemo.forceDelete incusForceDelete
  refine h.bind h.daemon fun d _ => h.bind (Q := Any) ?_ fun _ _ => h.pure trivial
  have hc := calls hP (d := d) (c := .updateInstanceState name "stop" true) (.inr rfl)
  refine h.step hc.1 fun r _ => ?_
  cases r with
  | error e => exact h.deleteInstance hP d
  | ok _ => exact h.step hc.2 fun _ _ => h.deleteInstance hP d

/-- An instance is given up for an error. -/
theorem giveUp {e : Error} {Q : Except Error α → Prop} (hQ : Q (.error e)) :
    S (Except Error α) (do IncusDemo.forceDelete name; Pure.pure (.error e)) Q :=
  h.bind (h.forceDelete hP) fun _ _ => h.pure hQ

theorem statusUpdate (msg : String) : S _ (StatusUpdate.notify (some statusUpdate) msg) Any :=
  h.step (hP _ (beq_self_eq_true _)) fun _ _ => h.last (hP .flush rfl)

theorem waitAddress (instanceType : String) (timeout : Nat) :
    S _ (waitAddress name instanceType timeout) Any := by
  induction timeout with
  | zero => exact h.pure trivial
  | succ timeout ih =>
    refine h.bind h.daemon fun d _ => h.step (calls hP (.inl rfl)).1 fun r _ => ?_
    cases r with
    | error e => exact h.giveUp hP trivial
    | ok net =>
      refine h.step (hP _ rfl) fun c _ => ite (h.pure trivial) ?_
      exact h.step (hP _ rfl) fun _ _ => ih

theorem waitReady (timeout : Nat) : S _ (waitReady name timeout) Any := by
  induction timeout with
  | zero => exact h.pure trivial
  | succ timeout ih =>
    refine h.step (hP _ rfl) fun _ _ => h.step (hP _ rfl) fun c _ => h.bind h.daemon fun d _ => ?_
    have hc := calls hP (d := d) (c := .execInstance name c.session.readyCommand.elems) (.inr rfl)
    refine h.step hc.1 fun r _ => ?_
    cases r with
    | error e => exact ih
    | ok _ =>
      refine h.step hc.2 fun _ _ => h.step (hP _ rfl) fun status _ => ?_
      split
      · exact h.pure trivial
      · exact ih

theorem instanceStart {su : StatusUpdate} (hsu : ∀ msg, S _ (su.notify msg) Any) :
    S _ (instanceStart name su) Any := by
  unfold IncusDemo.instanceStart
  refine h.bind h.daemon fun d _ => h.step (calls hP (.inl rfl)).1 fun r _ => ?_
  cases r with
  | error e => exact h.giveUp hP trivial
  | ok ct =>
    refine ite (h.pure trivial) (h.bind (hsu _) fun _ _ => h.bind h.daemon fun d _ => ?_)
    have hc := calls hP (d := d) (c := .updateInstanceState name "start" false) (.inr rfl)
    refine h.step hc.1 fun r _ => ?_
    cases r with
    | error e => exact h.giveUp hP trivial
    | ok _ =>
      refine h.step hc.2 fun r _ => ?_
      cases r with
      | error e => exact h.giveUp hP trivial
      | ok _ =>
        refine h.step (hP _ rfl) fun _ _ => h.bind (hsu _) fun _ _ => ?_
        refine h.bind (h.waitAddress hP ct.instanceType 30) fun r _ => ?_
        cases r with
        | error e => exact h.pure trivial
        | ok ip =>
          refine h.step (hP _ rfl) fun c _ => ?_
          exact ite (h.bind (h.waitReady hP 30) fun _ _ => h.pure trivial) (h.pure trivial)

theorem makeInstance (c : ServerConfig) : S _ (makeInstance c name) Any := by
  unfold IncusDemo.makeInstance
  refine ite (h.bind h.daemon fun d _ => ?_) (h.bind h.daemon fun d _ => ?_)
  · refine h.step (calls hP (.inl rfl)).1 fun r _ => ?_
    cases r with
    | error e => exact h.pure trivial
    | ok source =>
      refine h.bind h.daemon fun d _ => ?_
      have hc := calls hP (d := d) (c := .copyInstance (copySource c source) name true) (.inr rfl)
      refine h.step hc.1 fun r _ => ?_
      cases r with
      | error e => exact h.pure trivial
      | ok _ => exact h.last hc.2
  · have hc := calls hP (d := d) (c := .createInstance (imageRequest c name)) (.inr rfl)
    refine h.step hc.1 fun r _ => ?_
    cases r with
    | error e => exact h.pure trivial
    | ok _ => exact h.last hc.2

theorem configureInstance (username password : String) :
    S _ (configureInstance name username password) Any := by
  unfold IncusDemo.configureInstance
  refine h.bind h.daemon fun d _ => h.step (calls hP (.inl rfl)).1 fun r _ => ?_
  cases r with
  | error e => exact h.giveUp hP trivial
  | ok ct =>
    refine h.step (hP _ rfl) fun c _ => h.bind h.daemon fun d _ => ?_
    have hc := calls hP (d := d) (c := .updateInstance name
      ⟨limitConfig c ct username password, limitDevices c ct⟩) (.inr rfl)
    refine h.step hc.1 fun r _ => ?_
    cases r with
    | error e => exact h.giveUp hP trivial
    | ok _ =>
      refine h.step hc.2 fun r _ => ?_
      cases r with
      | error e => exact h.giveUp hP trivial
      | ok _ => exact h.pure trivial

end Instance

/-- The body of `instanceCreate`, which draws the name of the instance that it handles. -/
theorem createLocked (h : Logic P R S) {N : String → Prop} (hown : ∀ u, N ("tryit-" ++ u))
    (hP : ∀ name o, N name → o.handles name = true → P o) (hrandom : P .newRandom)
    {su : StatusUpdate} (hsu : ∀ msg, S _ (su.notify msg) Any) :
    S _ (createLocked su) fun r => ∀ info, r = .ok info → N info.name := by
  unfold IncusDemo.createLocked
  refine h.bind (hsu _) fun _ _ => h.step hrandom fun id _ => h.step hrandom fun password _ => ?_
  have hid : ∀ o, o.handles ("tryit-" ++ id) = true → P o := fun o => hP _ o (hown id)
  refine h.step (hid _ rfl) fun c _ => h.bind (h.makeInstance hid c) fun r _ => ?_
  cases r with
  | error e => exact h.pure nofun
  | ok _ =>
    refine h.bind (hsu _) fun _ _ => h.bind (h.configureInstance hid _ _) fun r _ => ?_
    cases r with
    | error e => exact h.pure nofun
    | ok _ =>
      refine h.bind (h.instanceStart hid hsu) fun r _ => ?_
      cases r with
      | error e => exact h.giveUp hid nofun
      | ok ip =>
        refine h.step (hid _ rfl) fun c _ => h.pure fun info hinfo => ?_
        cases hinfo
        exact hown id

end Logic

-- ============================================================================
-- Functions that start, restore and end sessions
-- ============================================================================

/-- A logic of the whole server.  `N` are the names that may be handled: those of random ids, and
    those that rows hold.  The functions that take the lock come with what the logic says of them. -/
structure ServerLogic (P : Op → Prop) (R : (o : Op) → Ret o → Prop)
    (S : (α : Type) → Prog α → (α → Prop) → Prop) (N : String → Prop) : Prop extends Logic P R S where
  handles : ∀ name o, N name → o.handles name = true → P o
  plain : ∀ o, o.plain = true → P o
  stop : ∀ {α : Type} {Q : α → Prop} {f : Empty → Prog α}, S α (perform .halt >>= f) Q
  create : ∀ {su : StatusUpdate}, su = none ∨ su = some statusUpdate →
    S _ (instanceCreate su) fun r => ∀ info, r = .ok info → N info.name
  resync : S _ instanceResync fun _ => True
  claimed : ∀ row : Nat × Session, R (.query .selectAllocated) (.ok (some row)) → N row.2.instanceName
  active : ∀ es : List Listed, R (.query .dbActive) (.ok es) → ∀ e ∈ es, N e.instanceName
  allocated : ∀ es : List Listed, R (.query .dbAllocated) (.ok es) → ∀ e ∈ es, N e.instanceName
  found : ∀ (id : String) (a : Bool) (f : Found), R (.query (.dbGetInstance id a)) (.ok (some f)) →
    N f.instanceName

namespace ServerLogic

open Logic (Any ite)

variable {P : Op → Prop} {R : (o : Op) → Ret o → Prop}
  {S : (α : Type) → Prog α → (α → Prop) → Prop} {N : String → Prop} {name : String}
  (h : ServerLogic P R S N)

include h

theorem forceDelete (hname : N name) : S _ (forceDelete name) Any :=
  h.toLogic.forceDelete fun o => h.handles name o hname

theorem cleanup (id : Nat) (hname : N name) : S _ (cleanup id name) Any := by
  unfold IncusDemo.cleanup
  exact h.bind (h.forceDelete hname) fun _ _ => h.step (h.plain _ rfl) fun _ _ => h.pure trivial

theorem createUntilOk (rounds : Nat) : S _ (createUntilOk rounds) fun info => N info.name := by
  induction rounds with
  | zero => exact h.stop
  | succ rounds ih =>
    unfold IncusDemo.createUntilOk
    refine h.bind (h.create (.inl rfl)) fun r hr => ?_
    cases r with
    | ok info => exact h.pure (hr info rfl)
    | error e => exact h.step (h.plain _ rfl) fun _ _ => ih

theorem instancePreAllocate : S _ instancePreAllocate Any := by
  unfold IncusDemo.instancePreAllocate
  refine h.step (h.plain _ rfl) fun rounds _ => h.bind (h.createUntilOk rounds) fun info hname => ?_
  refine h.step (h.plain _ rfl) fun c _ => ?_
  cases parseDuration c.instance.allocate.expiry with
  | error e => exact h.bind (h.forceDelete hname) fun _ _ => h.pure trivial
  | ok duration =>
    refine h.step (h.plain _ rfl) fun now _ => h.step (h.plain _ rfl) fun c _ => ?_
    refine h.step (h.plain _ rfl) fun r _ => ?_
    cases r with
    | error e => exact h.bind (h.forceDelete hname) fun _ _ => h.pure trivial
    | ok id => exact h.step (h.plain _ rfl) fun _ _ => h.pure trivial

theorem allocateTimeout (id : Nat) (hname : N name) : S _ (allocateTimeout id name) Any := by
  unfold IncusDemo.allocateTimeout
  refine h.step (h.plain _ rfl) fun r _ => ?_
  rcases r with e | (_ | _)
  · exact h.pure trivial
  · exact h.pure trivial
  · refine h.bind (h.forceDelete hname) fun _ _ => h.step (h.plain _ rfl) fun _ _ => ?_
    exact h.bind h.instancePreAllocate fun _ _ => h.pure trivial

theorem restStartError (code : StatusCode) : S _ (restStartError code) Any := by
  unfold IncusDemo.restStartError
  refine h.step (h.plain _ rfl) fun r _ => ?_
  cases r with
  | error e => exact h.last (h.plain (.httpError _ _) rfl)
  | ok _ => exact h.pure trivial

theorem dbGetAllocated (expiry date : Int) (ip terms : String) :
    S _ (dbGetAllocated expiry date ip terms) fun r => ∀ row, r = .ok row → N row.2.instanceName := by
  unfold IncusDemo.dbGetAllocated
  refine h.step (h.plain _ rfl) fun c _ => ite (h.pure nofun) (h.step (h.plain _ rfl) fun r hr => ?_)
  rcases r with e | (_ | row)
  · exact h.pure nofun
  · exact h.pure nofun
  · refine ite (h.pure nofun) (h.step (h.plain _ rfl) fun r _ => ?_)
    cases r with
    | error e => exact h.pure nofun
    | ok _ =>
      refine h.pure fun row' heq => ?_
      cases heq
      exact h.claimed row hr

theorem useAllocated (id : Nat) {row : Session} (hname : N row.instanceName) (expiry : Int) :
    S _ (useAllocated id row expiry) fun r => ∀ a, r = some a → N a.info.name := by
  have hhandles : ∀ o, o.handles row.instanceName = true → P o := fun o => h.handles _ o hname
  unfold IncusDemo.useAllocated
  refine h.step (h.plain _ rfl) fun _ _ => ?_
  refine h.bind (h.instanceStart hhandles (h.statusUpdate hhandles)) fun r _ => ?_
  cases r with
  | error e => exact h.bind (h.restStartError _) fun _ _ => h.pure nofun
  | ok ip =>
    refine h.pure fun a ha => ?_
    cases ha
    exact hname

theorem useFresh (date : Int) (ip terms : String) :
    S _ (useFresh date ip terms) fun r => ∀ a, r = some a → N a.info.name := by
  unfold IncusDemo.useFresh
  refine h.bind (h.create (.inr rfl)) fun r hr => ?_
  cases r with
  | error e => exact h.bind (h.restStartError _) fun _ _ => h.pure nofun
  | ok info =>
    refine h.step (h.plain _ rfl) fun now _ => h.step (h.plain _ rfl) fun c _ => ?_
    refine h.step (h.plain _ rfl) fun r _ => ?_
    cases r with
    | error e =>
      refine h.bind (h.forceDelete (hr info rfl)) fun _ _ => ?_
      exact h.bind (h.restStartError _) fun _ _ => h.pure nofun
    | ok id =>
      refine h.pure fun a ha => ?_
      cases ha
      exact hr info rfl

theorem deliver {a : Acquired} (hname : N a.info.name) : S _ (deliver a) Any := by
  unfold IncusDemo.deliver
  refine h.step (h.plain _ rfl) fun c _ => ?_
  cases parseDuration c.session.expiry with
  | error e => exact h.bind (h.forceDelete hname) fun _ _ => h.restStartError _
  | ok duration =>
    refine h.step (h.plain _ rfl) fun _ _ => h.step (h.plain _ rfl) fun r _ => ?_
    cases r with
    | error e => exact h.bind (h.forceDelete hname) fun _ _ => h.restStartError _
    | ok _ => exact h.last (h.plain .flush rfl)

theorem startSession (date : Int) (ip terms : String) : S _ (startSession date ip terms) Any := by
  unfold IncusDemo.startSession
  refine h.step (h.plain _ rfl) fun now _ => h.step (h.plain _ rfl) fun c _ => ?_
  refine h.bind (h.dbGetAllocated _ _ _ _) fun r hr => ?_
  -- in both cases the session that the handler has got is one that it may handle
  cases r with
  | ok row =>
    refine h.bind (h.useAllocated row.1 (hr row rfl) _) fun r hr => ?_
    cases r with
    | none => exact h.pure trivial
    | some a => exact h.deliver (hr a rfl)
  | error e =>
    refine h.bind (h.useFresh _ _ _) fun r hr => ?_
    cases r with
    | none => exact h.pure trivial
    | some a => exact h.deliver (hr a rfl)

theorem checkRequest (r : Request) : S _ (checkRequest r) Any := by
  have herror : ∀ code, S _ (IncusDemo.restStartError code) Any := h.restStartError
  unfold IncusDemo.checkRequest
  refine h.step (h.plain _ rfl) fun date _ => ?_
  split
  · exact herror _
  · refine ite (h.last (h.plain (.httpError _ _) rfl)) (h.step (h.plain _ rfl) fun c _ => ?_)
    refine ite (herror _) (h.step (h.plain _ rfl) fun c _ => ite (herror _) ?_)
    unfold admitSession
    refine h.step (h.plain _ rfl) fun count _ => h.step (h.plain _ rfl) fun c _ => ?_
    refine ite (herror _) (h.step (h.plain _ rfl) fun count _ => h.step (h.plain _ rfl) fun c _ => ?_)
    exact ite (herror _) (h.startSession _ _ _)

/-- The part of `restStartHandler` after the check of the connection. -/
theorem answerStart (r : Request) : S _ (do
    perform (.header "Access-Control-Allow-Origin" "*")
    perform (.header "Content-Type" "text/plain")
    perform (.header "Transfer-Encoding" "chunked")
    perform (.writeHeader 200)
    if ¬ r.flusher then
      perform (.httpError "Internal server error" 500)
    else
      perform .flush
      IncusDemo.checkRequest r) Any := by
  refine h.step (h.plain _ rfl) fun _ _ => h.step (h.plain _ rfl) fun _ _ => ?_
  refine h.step (h.plain _ rfl) fun _ _ => h.step (h.plain _ rfl) fun _ _ => ?_
  exact ite (h.last (h.plain (.httpError _ _) rfl)) (h.step (h.plain _ rfl) fun _ _ => h.checkRequest r)

/-- The part of `restInfoHandler` after the check of the connection. -/
theorem answerInfo (r : Request) : S _ (do
    perform (.header "Access-Control-Allow-Origin" "*")
    perform (.header "Content-Type" "application/json")
    let id := r.formValue "id"
    if id = "" then
      perform (.httpError "Missing session id" 400)
    else
      match ← perform (.query (.dbGetInstance id false)) with
      | .ok (some f) =>
        let c ← perform .config
        match ← perform (.encode (infoJson c.session.consoleOnly id f)) with
        | .error _ =>
          IncusDemo.forceDelete f.instanceName
          perform (.httpError "Internal server error" 500)
        | .ok _ => Pure.pure ()
      | _ => perform (.httpError "Session not found" 404)) Any := by
  have herror : ∀ text code, S Unit (perform (.httpError text code)) Any := fun _ _ =>
    h.last (h.plain (.httpError _ _) rfl)
  refine h.step (h.plain _ rfl) fun _ _ => h.step (h.plain _ rfl) fun _ _ => ?_
  refine ite (herror _ _) (h.step (h.plain _ rfl) fun found hfound => ?_)
  rcases found with e | (_ | f)
  · exact herror _ _
  · exact herror _ _
  · refine h.step (h.plain _ rfl) fun c _ => h.step (h.plain _ rfl) fun r _ => ?_
    cases r with
    | error e => exact h.bind (h.forceDelete (h.found _ _ f hfound)) fun _ _ => herror _ _
    | ok _ => exact h.pure trivial

/-- The part of `restConsoleHandler` after the check of the connection. -/
theorem answerConsole (r : Request) : S _ (do
    perform (.header "Access-Control-Allow-Origin" "*")
    let id := r.formValue "id"
    if id = "" then
      perform (.httpError "Missing session id" 400)
    else
      match ← perform (.query (.dbGetInstance id true)) with
      | .ok (some f) => openConsole r f.instanceName
      | _ => perform (.httpError "Session not found" 404)) Any := by
  have herror : ∀ text code, S Unit (perform (.httpError text code)) Any := fun _ _ =>
    h.last (h.plain (.httpError _ _) rfl)
  have hsize : ∀ size, S _ (parseSize size) Any := fun size =>
    ite (h.step (h.plain _ rfl) fun _ _ => h.pure trivial) (h.pure trivial)
  refine h.step (h.plain _ rfl) fun _ _ => ?_
  refine ite (herror _ _) (h.step (h.plain _ rfl) fun found hfound => ?_)
  rcases found with e | (_ | f)
  · exact herror _ _
  · exact herror _ _
  · have hname := h.found _ _ f hfound
    unfold openConsole upgradeConsole
    refine h.bind (hsize _) fun width _ => h.bind (hsize _) fun height _ => ?_
    refine h.step (h.plain _ rfl) fun upgraded _ => ?_
    cases upgraded with
    | error e => exact herror _ _
    | ok _ =>
      unfold execConsole
      refine h.step (h.plain _ rfl) fun c _ => h.bind h.daemon fun d _ => ?_
      have hc := Logic.calls (fun o => h.handles _ o hname) (d := d)
        (c := .execConsole f.instanceName (consoleRequest c width height)) (.inr rfl)
      refine h.step hc.1 fun r _ => ?_
      cases r with
      | error e => exact h.pure trivial
      | ok _ =>
        refine h.step hc.2 fun r _ => ?_
        cases r with
        | error e => exact h.pure trivial
        | ok _ => exact h.last (h.plain .dataDone rfl)

theorem forM {ι : Type} {f : ι → Prog Unit} {es : List ι} (hf : ∀ e ∈ es, S _ (f e) Any) :
    S _ (es.forM f) Any := by
  induction es with
  | nil => exact h.pure trivial
  | cons e es ih =>
    refine h.bind (hf e List.mem_cons_self) fun _ _ => ih fun e he => ?_
    exact hf e (List.mem_cons_of_mem _ he)

theorem restoreSession {e : Listed} (hname : N e.instanceName) : S _ (restoreSession e) Any := by
  have hend : S _ (do IncusDemo.forceDelete e.instanceName; let _ ← perform (.query (.dbExpire e.id)))
      Any :=
    h.bind (h.forceDelete hname) fun _ _ => h.step (h.plain _ rfl) fun _ _ => h.pure trivial
  unfold IncusDemo.restoreSession
  refine h.step (h.plain _ rfl) fun now _ => ?_
  dsimp only
  cases parseDuration (int64 (e.instanceExpiry - now.unix)) with
  | error err => exact hend
  | ok d => exact ite hend (h.last (h.plain (.afterFunc _ _) rfl))

theorem deleteAllocated {e : Listed} (hname : N e.instanceName) : S _ (deleteAllocated e) Any := by
  unfold IncusDemo.deleteAllocated
  exact h.bind (h.forceDelete hname) fun _ _ => h.step (h.plain _ rfl) fun _ _ => h.pure trivial

theorem recover : S _ recover Any := by
  unfold IncusDemo.recover
  refine h.step (h.plain _ rfl) fun r hr => ?_
  cases r with
  | error e => exact h.pure trivial
  | ok es =>
    refine h.bind (h.forM fun e he => h.restoreSession (h.active es hr e he)) fun _ _ => ?_
    refine h.step (h.plain _ rfl) fun r hr => ?_
    cases r with
    | error e => exact h.pure trivial
    | ok es =>
      exact h.bind (h.forM fun e he => h.deleteAllocated (h.allocated es hr e he)) fun _ _ => h.resync

theorem allocateLoop (rounds : Nat) (i : Int) : S _ (allocateLoop rounds i) Any := by
  induction rounds generalizing i with
  | zero => exact h.stop
  | succ rounds ih =>
    unfold IncusDemo.allocateLoop
    refine h.step (h.plain _ rfl) fun c _ => ite ?_ (h.pure trivial)
    refine h.bind h.instancePreAllocate fun r _ => ?_
    cases r with
    | error e => exact h.pure trivial
    | ok _ => exact ih (i + 1)

theorem useProject : S _ useProject Any := by
  have hpublish : ∀ d, P (.setIncusDaemon d) := fun _ => h.plain _ rfl
  have htarget : S _ (do
      let c ← perform .config
      if c.incus.target ≠ "" then
        let d ← daemon
        perform (.setIncusDaemon (some { d with target := c.incus.target }))) Any :=
    h.step (h.plain _ rfl) fun c _ =>
      ite (h.bind h.daemon fun d _ => h.last (hpublish _)) (h.pure trivial)
  unfold IncusDemo.useProject
  refine h.step (h.plain _ rfl) fun c _ => ite ?_ htarget
  exact h.bind h.daemon fun d _ => h.step (hpublish _) fun _ _ => htarget

/-- The startup goroutine once it is connected. -/
theorem afterConnect : S _ (do
    IncusDemo.useProject
    match ← IncusDemo.recover with
    | .error _ => Pure.pure ()
    | .ok _ =>
      perform (.go .hourlyResync)
      let rounds ← perform .rounds
      IncusDemo.allocateLoop rounds 0) Any := by
  refine h.bind h.useProject fun _ _ => h.bind h.recover fun r _ => ?_
  cases r with
  | error e => exact h.pure trivial
  | ok _ =>
    exact h.step (h.plain _ rfl) fun _ _ => h.step (h.plain _ rfl) fun rounds _ => h.allocateLoop _ _

theorem hourlyResync (rounds : Nat) : S _ (hourlyResync rounds) Any := by
  induction rounds with
  | zero => exact h.stop
  | succ rounds ih =>
    unfold IncusDemo.hourlyResync
    exact h.step (h.plain _ rfl) fun _ _ => h.bind h.resync fun _ _ => ih

end ServerLogic

end IncusDemo
