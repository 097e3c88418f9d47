/-
  IncusDemo.Foreign

  The server shares Incus with others.  Every instance of its own has a name
  that begins with "tryit-"; no other instance is ever changed, stopped or
  removed, and none is added: not by a start or its failure, not by an expiry,
  not by the recovery of a process from the rows of the one before, not by a
  resync, and not the source that the instances are copied from.

  A thread relies on the names that rows hold, which Names.lean shows to be
  those of random ids; what it guarantees is that it acts on no other names.
-/

import IncusDemo.Connection
import IncusDemo.Logic

namespace IncusDemo

open Go Conc Conc.Contract

/-- The name of an instance of the server. -/
def OwnName (name : String) : Prop := hasPrefix name "tryit-" = true

theorem ownName_nameOf (u : String) : OwnName (nameOf u) := hasPrefix_append _ u

/-- Instances that the server has nothing to do with. -/
def Instance.foreign (i : Instance) : Bool := !hasPrefix i.name "tryit-"

-- ============================================================================
-- The contract
-- ============================================================================

/-- The names of the rows that an answer shows are those of instances of the server. -/
def RowsOwn : (o : Op) → Ret o → Prop
  | .query .selectAllocated, .ok (some row) => OwnName row.2.instanceName
  | .query .dbActive, .ok es => ∀ e ∈ es, OwnName e.instanceName
  | .query .dbAllocated, .ok es => ∀ e ∈ es, OwnName e.instanceName
  | .query (.dbGetInstance ..), .ok (some f) => OwnName f.instanceName
  | _, _ => True

/-- The callback is for an instance of the server. -/
def Proc.Fit (p : Proc) : Prop := ∀ id name, sessionOf p = some (id, name) → OwnName name

/-- An operation that is waited for acts on no other instance. -/
def ActsOnOwn : Op → Prop
  | .wait _ c => ∀ name, c.target = some name → OwnName name
  | _ => True

/-- The contract about names. -/
def naming : Contract Op Ret Proc where
  rely := fun p _ o r => p.Fit ∧ RowsOwn o r
  ok := fun _ _ o => ActsOnOwn o
  fin := fun _ _ => True

/-- The program keeps the contract; its results are as in `Q`. -/
def NamesOnlyOwn (p : Proc) (α : Type) (prog : Prog α) (Q : α → Prop) : Prop :=
  ∀ l, naming.Meets p prog (fun a _ => Q a) l

section Programs

variable {p : Proc} {l : Log}

theorem actsOnOwn_of_handles {name : String} {o : Op} (hname : OwnName name)
    (h : o.handles name = true) : ActsOnOwn o := by
  cases o with
  | wait d c =>
    intro name' htarget
    have heq : name' = name := by simpa [Op.handles, htarget] using h
    exact heq ▸ hname
  | _ => trivial

theorem actsOnOwn_of_plain {o : Op} (h : o.plain = true) : ActsOnOwn o := by
  cases o <;> trivial

theorem namesOnlyOwn_logic : Logic ActsOnOwn RowsOwn (NamesOnlyOwn p) where
  pure := fun hQ _ => meets_pure hQ
  op := fun o ho l => meets_op ho fun _ hrely => hrely.2
  daemon := by
    intro l
    unfold daemon
    refine meets_then trivial fun d _ => ?_
    cases d with
    | none => exact meets_then trivial fun stuck => nomatch stuck
    | some d => exact meets_pure trivial
  bind := fun hm hf l => meets_seq (hm l) fun a l' hQ => hf a hQ l'
  mono := fun hm hQ l => meets_mono (fun a _ h => hQ a h) (hm l)

theorem resyncNames_namesOnlyOwn (names : List String) :
    NamesOnlyOwn p _ (resyncNames names) fun _ => True := by
  have h := namesOnlyOwn_logic (p := p)
  induction names with
  | nil => exact h.pure trivial
  | cons name rest ih =>
    unfold resyncNames
    -- what has not the prefix is skipped
    split
    · rename_i hown
      refine h.step trivial fun r _ => ?_
      rcases r with e | (_ | _)
      · exact h.pure trivial
      · exact h.bind (h.forceDelete fun _ => actsOnOwn_of_handles hown) fun _ _ => ih
      · exact ih
    · exact ih

theorem namesOnlyOwn_serverLogic : ServerLogic ActsOnOwn RowsOwn (NamesOnlyOwn p) OwnName where
  toLogic := namesOnlyOwn_logic
  handles := fun _ _ => actsOnOwn_of_handles
  plain := fun _ => actsOnOwn_of_plain
  stop := fun _ => meets_then trivial fun stuck => nomatch stuck
  create := by
    intro su hsu
    have h := namesOnlyOwn_logic (p := p)
    unfold instanceCreate
    refine h.step trivial fun _ _ => h.bind (h.createLocked ownName_nameOf
      (fun _ _ => actsOnOwn_of_handles) trivial ?_) fun r hr => h.step trivial fun _ _ => h.pure hr
    rcases hsu with rfl | rfl
    · exact h.noUpdate
    · exact h.statusUpdate fun _ => actsOnOwn_of_handles (ownName_nameOf "")
  resync := by
    have h := namesOnlyOwn_logic (p := p)
    unfold instanceResync
    refine h.step trivial fun _ _ => h.step trivial fun _ _ => h.bind (Q := fun _ => True) ?_
      fun _ _ => h.step trivial fun _ _ => h.pure trivial
    unfold resyncLocked
    refine h.bind h.daemon fun d _ => h.step trivial fun r _ => ?_
    cases r with
    | error e => exact h.pure trivial
    | ok names => exact resyncNames_namesOnlyOwn names
  claimed := fun _ h => h
  active := fun _ h => h
  allocated := fun _ h => h
  found := fun _ _ _ h => h

/-- A program that has nothing to do with the connection. -/
theorem detached_namesOnlyOwn {prog : Prog Unit} (h : Detached prog) :
    NamesOnlyOwn p Unit prog fun _ => True := fun _ =>
  meets_of_performs (I := fun _ => True) h (fun _ o _ ho => by cases o <;> trivial)
    (fun _ _ _ _ _ _ => trivial) trivial

end Programs

-- ============================================================================
-- The code keeps it
-- ============================================================================

section Bodies

variable {p : Proc}

/-- A handler that asks for the connection. -/
theorem guarded_namesOnlyOwn {b : ServerConfig → Prop} [DecidablePred b] {refuse go : Prog Unit}
    (hrefuse : NamesOnlyOwn p Unit refuse fun _ => True) (hgo : NamesOnlyOwn p Unit go fun _ => True) :
    NamesOnlyOwn p Unit (do
      let c ← perform .config
      let d ← perform .incusDaemon
      if b c ∨ d = none then refuse else go) fun _ => True :=
  namesOnlyOwn_logic.step trivial fun _ _ => namesOnlyOwn_logic.step trivial fun _ _ =>
    Logic.ite hrefuse hgo

theorem httpError_namesOnlyOwn (text : String) (code : Nat) :
    NamesOnlyOwn p Unit (perform (.httpError text code)) fun _ => True :=
  namesOnlyOwn_logic.last (o := .httpError text code) trivial

theorem connectLoop_namesOnlyOwn (rounds : Nat) :
    NamesOnlyOwn p _ (connectLoop rounds) fun _ => True := by
  have h := namesOnlyOwn_serverLogic (p := p)
  induction rounds with
  | zero => exact h.stop
  | succ rounds ih =>
    unfold connectLoop
    refine h.step trivial fun c _ => h.step trivial fun r _ => ?_
    cases r with
    | ok d => exact h.step trivial fun _ _ => h.pure trivial
    | error e => exact h.step trivial fun _ _ => h.step trivial fun _ _ => ih

theorem connect_namesOnlyOwn : NamesOnlyOwn p _ connect fun _ => True := by
  have h := namesOnlyOwn_serverLogic (p := p)
  unfold connect
  exact h.step trivial fun rounds _ => h.bind (connectLoop_namesOnlyOwn rounds) fun _ _ =>
    h.afterConnect

theorem restHandler_namesOnlyOwn (q : RestRequest) :
    NamesOnlyOwn p _ (restHandler q) fun _ => True := by
  by_cases hq : ∃ r, q = .info r
  · obtain ⟨r, rfl⟩ := hq
    change NamesOnlyOwn p _ (restInfoHandler r) _
    unfold restInfoHandler
    exact Logic.ite (httpError_namesOnlyOwn _ _) (guarded_namesOnlyOwn (httpError_namesOnlyOwn _ _)
      (namesOnlyOwn_serverLogic.answerInfo r))
  · exact detached_namesOnlyOwn (restHandler_detached fun r hr => hq ⟨r, hr⟩)

/-- Of a callback only the first operation comes before it relies on its name. -/
theorem meets_of_unfit (h : ¬ p.Fit) {o : Op} {k : Ret o → Prog Unit} (ho : ActsOnOwn o) {l : Log} :
    naming.Meets p (.op o k) (fun _ _ => True) l :=
  ⟨ho, fun _ _ hstep => absurd hstep.1.1 h⟩

/-- Every body keeps the contract. -/
theorem body_naming (p : Proc) : Machine.Honours naming (server.start p) := by
  intro _
  change naming.Meets p (body p) (fun _ _ => True) []
  have h := namesOnlyOwn_serverLogic (p := p)
  cases p with
  | cleanup id name =>
    by_cases hfit : (Proc.cleanup id name).Fit
    · exact h.cleanup id (hfit id name rfl) []
    · exact meets_of_unfit hfit (o := .incusDaemon) trivial
  | allocateTimeout id name =>
    by_cases hfit : (Proc.allocateTimeout id name).Fit
    · exact h.allocateTimeout id (hfit id name rfl) []
    · exact meets_of_unfit hfit (o := .query (.dbIsAllocated id)) trivial
  | preAllocate => exact h.bind h.instancePreAllocate (fun _ _ => h.pure trivial) []
  | hourlyResync => exact h.step (o := .rounds) trivial (fun rounds _ => h.hourlyResync rounds) []
  | connect => exact connect_namesOnlyOwn []
  | rest q => exact restHandler_namesOnlyOwn q []
  | restStart r =>
    change naming.Meets _ (restStartHandler r) _ _
    unfold restStartHandler
    exact Logic.ite (httpError_namesOnlyOwn _ _) (guarded_namesOnlyOwn (httpError_namesOnlyOwn _ _)
      (h.answerStart r)) []
  | console r =>
    change naming.Meets _ (restConsoleHandler r) _ _
    unfold restConsoleHandler
    exact Logic.ite (httpError_namesOnlyOwn _ _) (guarded_namesOnlyOwn (httpError_namesOnlyOwn _ _)
      (h.answerConsole r)) []
  | proxy target => exact detached_namesOnlyOwn (proxyHandle_detached target) []
  | email feedback => exact detached_namesOnlyOwn (emailFeedback_detached feedback) []

end Bodies

-- ============================================================================
-- The instances of others
-- ============================================================================

section Instances

variable {d : InstanceServer} {name : String} {is is' : Instances}

theorem own_of_isAt {i : Instance} (hname : OwnName name) (h : Instances.isAt d name i = true) :
    i.foreign = false := by
  rw [Instance.foreign, (Instances.isAt_iff.mp h).2, show hasPrefix name "tryit-" = true from hname]
  rfl

/-- A change of an instance of the server that keeps its name. -/
theorem foreign_modify (hname : OwnName name) {f : Instance → Instance} (hf : ∀ i, (f i).name = i.name) :
    (is.modify d name f).filter Instance.foreign = is.filter Instance.foreign := by
  unfold Instances.modify
  induction is with
  | nil => rfl
  | cons i is ih =>
    rw [List.map_cons, List.filter_cons, List.filter_cons, ih]
    by_cases hi : Instances.isAt d name i = true
    · have hown := own_of_isAt hname hi
      have hown' : (f i).foreign = false := by rw [← hown, Instance.foreign, Instance.foreign, hf]
      rw [if_pos hi, hown, hown']
      rfl
    · rw [if_neg hi]

theorem foreign_remove (hname : OwnName name) :
    (is.remove d name).filter Instance.foreign = is.filter Instance.foreign := by
  unfold Instances.remove
  rw [List.filter_filter]
  refine List.filter_congr fun i _ => ?_
  cases hi : Instances.isAt d name i with
  | false => simp
  | true => simp [own_of_isAt hname hi]

theorem foreign_append {i : Instance} (hname : OwnName i.name) :
    (is ++ [i]).filter Instance.foreign = is.filter Instance.foreign := by
  have hown : i.foreign = false := by
    rw [Instance.foreign, show hasPrefix i.name "tryit-" = true from hname]
    rfl
  rw [List.filter_append, List.filter_singleton, hown]
  exact List.append_nil _

/-- What an operation of Incus does when it ends. -/
theorem foreign_complete {c : Call} {a : Assigned} (hown : ∀ name, c.target = some name → OwnName name)
    (h : c.complete d a is = some is') :
    is'.filter Instance.foreign = is.filter Instance.foreign := by
  cases c with
  | copyInstance source name only =>
    simp only [Call.complete] at h
    split at h
    · cases h
    · cases h
      exact foreign_append (i := source.copy d name a) (hown name rfl)
  | createInstance req =>
    simp only [Call.complete] at h
    split at h
    · cases h
    · cases h
      exact foreign_append (i := req.make d a) (hown req.name rfl)
  | updateInstance name put =>
    simp only [Call.complete] at h
    split at h
    · cases h
      exact foreign_modify (hown name rfl) fun _ => rfl
    · cases h
  | updateInstanceState name action force =>
    simp only [Call.complete] at h
    split at h
    · cases h
      exact foreign_modify (hown name rfl) fun _ => rfl
    · cases h
  | deleteInstance name =>
    simp only [Call.complete] at h
    split at h
    · cases h
      exact foreign_remove (hown name rfl)
    · cases h
  | _ => cases h; rfl

end Instances

-- ============================================================================
-- Runs
-- ============================================================================

section Runs

variable {w₀ : World} {s s' : Sys}

theorem ownName_of_names (hnamed : Named w₀ s) {id : Nat} {name : String} (h : Names w₀ s id name) :
    OwnName name := by
  obtain ⟨a, ha, rfl⟩ := h
  rw [(hnamed.drawn id a ha).2]
  exact ownName_nameOf _

theorem ownName_of_row (hnamed : Named w₀ s) {id : Nat} {a : Session} (h : s.world.db.Row id a) :
    OwnName a.instanceName := by
  obtain ⟨b, hb, hsame⟩ := hnamed.rows id a h
  rw [hsame.name]
  exact ownName_of_names hnamed ⟨b, hb, rfl⟩

/-- The answers are as the threads rely on. -/
theorem naming_reliable (hsound : Sound s) (hnamed : Named w₀ s) {lb : Label}
    (hs : server.Step s lb s') : Machine.Reliable naming s lb := by
  cases lb with
  | env e => trivial
  | thread t e =>
    obtain ⟨p, l, hm⟩ := thread_step hsound.follow hs
    intro th hth
    obtain ⟨th', hth', -, -, rfl, rfl⟩ := hm.busy
    cases hth.symm.trans hth'
    refine ⟨fun id name hp => ?_, ?_⟩
    · exact ownName_of_names hnamed (hnamed.callbacks t _ _ id name ⟨th, hth, rfl, rfl⟩ hp)
    · have htruthful := hm.did.truthful
      obtain ⟨o, r⟩ := e
      change RowsOwn o r
      unfold RowsOwn
      split
      · rename_i row
        have hrow : some row = s.world.db.selectAllocated := htruthful
        obtain ⟨hrow, -⟩ := Sql.Table.mem_select.mp (oldest_mem hrow.symm)
        exact ownName_of_row hnamed hrow
      · rename_i es
        have hes : es = s.world.db.listStatus 0 := htruthful
        intro e he
        exact ownName_of_names hnamed (names_of_listed hnamed (hes ▸ he))
      · rename_i es
        have hes : es = s.world.db.listStatus 2 := htruthful
        intro e he
        exact ownName_of_names hnamed (names_of_listed hnamed (hes ▸ he))
      · rename_i id active f
        obtain ⟨i, a, ha, -, -, rfl⟩ := s.world.db.session_of_answers htruthful
        exact ownName_of_row hnamed ha
      · trivial

/-- What a step leaves of the instances of others. -/
theorem foreign_step (hsound : Sound s) {lb : Label} (hok : Machine.Guaranteed naming s lb)
    (hs : server.Step s lb s') :
    s'.world.instances.filter Instance.foreign = s.world.instances.filter Instance.foreign := by
  cases lb with
  | env e => rw [(env_step hs).instances]
  | thread t e =>
    obtain ⟨p, l, hm⟩ := thread_step hsound.follow hs
    obtain ⟨th, hth, -⟩ := hm.busy
    have hown : ActsOnOwn e.op := hok th hth
    have hinstances := hm.did.instances
    unfold InstancesAfter at hinstances
    split at hinstances
    · obtain ⟨a, hcomplete⟩ := hinstances
      exact foreign_complete hown hcomplete
    · rw [hinstances]

end Runs

/-- Whatever the configurations, the requests, the failures, the restarts and the order of all
    steps: the instances whose names do not begin with "tryit-" stay as they were. -/
theorem foreign_instances_kept {s₀ s : Sys} (h0 : Initial s₀) (hw : WellFormed s₀.world)
    (hrun : server.Run Machine.anyStep s₀ s) :
    s.world.instances.filter Instance.foreign = s₀.world.instances.filter Instance.foreign := by
  let I : Sys → Prop := fun s => Sound s ∧ Regular s₀.world s ∧
    s.world.instances.filter Instance.foreign = s₀.world.instances.filter Instance.foreign
  refine (Machine.Run.honours (I := I) body_naming
    (fun s lb s' h _ hs => naming_reliable h.1 h.2.1.named hs) ?_
    (.of_started body_naming h0.allStart) ⟨h0.sound, h0.regular hw, rfl⟩ hrun).2.2.2
  rintro s lb s' ⟨hsound, hregular, hsame⟩ - - hok hs
  refine ⟨hsound.step hs, ?_, (foreign_step hsound hok hs).trans hsame⟩
  cases lb with
  | env e => exact hregular.envStep (env_step hs)
  | thread t e =>
    obtain ⟨p, l, hm⟩ := thread_step hsound.follow hs
    exact hregular.threadStep hsound hm

/-- A server that finds an instance without a row, and one of somebody else. -/
def sharedServer : Sys :=
  bootSys { smallWorld [] with
    uuids := ["u0"]
    instances := [⟨"default", "tryit", "container", "Running", [], [], [], [], ["10.0.0.9"]⟩,
      container "u0" "10.0.0.1"] } (smallConfig 5 0)

theorem sharedServer_wellFormed : WellFormed sharedServer.world := by
  refine ⟨fun _ _ h => absurd h List.not_mem_nil, fun _ _ h => absurd h List.not_mem_nil,
    fun _ _ _ _ h => absurd h List.not_mem_nil, fun i hi u hu => ?_⟩
  rcases List.mem_cons.mp hi with rfl | hi
  · have hown : OwnName "tryit" := (show "tryit" = nameOf u from hu) ▸ ownName_nameOf u
    exact absurd hown (by unfold OwnName; decide)
  · cases List.mem_singleton.mp hi
    exact List.mem_singleton.mpr (nameOf_injective (u := "u0") hu).symm

/-- The first resync removes the instance without a row, and only that. -/
theorem foreign_instances_kept_small : ∃ s, server.Run Machine.anyStep sharedServer s ∧
    s.world.instances.length = 1 ∧
    s.world.instances.filter Instance.foreign = sharedServer.world.instances.filter Instance.foreign := by
  obtain ⟨s, hrun, hs⟩ := server.run_of_check Machine.noTest (fun _ _ _ => trivial) sharedServer
    (oks 0 18) (fun s => s.world.instances.length == 1) (by decide +kernel)
  exact ⟨s, hrun, beq_iff_eq.mp hs,
    foreign_instances_kept (bootSys_initial _ _) sharedServer_wellFormed hrun⟩

end IncusDemo
