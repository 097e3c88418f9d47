/-
  IncusDemo.Cleanups

  The tasks that clean up: the callbacks that end sessions, and passes of
  `instanceResync`.  Each of them makes several steps on the instances and on
  the table, and a pass goes by a listing that the others change under it.  In
  whatever order their steps come, they leave the same instances and the same
  rows, and a task that is there twice does no more than once.
-/

import IncusDemo.Conc.Rely
import IncusDemo.Mutex
import IncusDemo.ReadOnly

namespace IncusDemo

open Go Conc

-- ============================================================================
-- Tasks
-- ============================================================================

/-- A task that cleans up. -/
inductive Task where
  /-- The callback that ends a session. -/
  | cleanup (instanceID : Nat) (instanceName : String)
  /-- A pass of `instanceResync`. -/
  | resync
  deriving DecidableEq

/-- What a task runs. -/
def Task.body : Task → Prog Unit
  | .cleanup instanceID instanceName => IncusDemo.body (.cleanup instanceID instanceName)
  | .resync => do
    let _ ← instanceResync

/-- Tasks as the threads of one process.  Around them the clock moves and the configuration is
    reloaded, but no request comes in and no timer fires. -/
def cleaning : Machine Op Ret World Choice Env Task where
  exec := exec
  spawn := fun _ => []
  body := Task.body
  env := fun w e =>
    match e with
    | .tick t => some ({ w with clock := t }, false, [])
    | .reload c => some ({ w with config := c }, false, [])
    | _ => none

theorem cleaning_closed : cleaning.Closed where
  spawn := fun _ => rfl
  act := by
    intro w e w' stop ps h
    cases e <;> cases h <;> exact ⟨rfl, rfl⟩

/-- Statements and listings do not fail, and deletions fail only for want of the instance. -/
def Reliable (w : World) (e : Event) : Prop :=
  Deletes w e ∧
  match e with
  | ⟨.query _, .error _⟩ => False
  | ⟨.call _ .getInstanceNames, .error _⟩ => False
  | _ => True

/-- The tasks before their first steps. -/
def assigned (w : World) (ts : List Task) : Conc.Sys Op Ret World Task := ⟨w, ts.map cleaning.start⟩

/-- Each callback names the instance of its row. -/
def NamesOwn (db : Db) (ts : List Task) : Prop :=
  ∀ id name a, .cleanup id name ∈ ts → db.Row id a → a.instanceName = name

-- ============================================================================
-- What the tasks are there for
-- ============================================================================

/-- Some task is to delete the instance `name`. -/
def condemned (ts : List Task) (w : World) (name : String) : Bool :=
  ts.any fun
    | .cleanup _ n => n == name
    | .resync => hasPrefix name "tryit-" && !w.db.shouldExist name

/-- No task is to delete the instance, over the connection `d`. -/
def spared (ts : List Task) (w : World) (d : InstanceServer) (i : Instance) : Bool :=
  i.project != d.project || !condemned ts w i.name

/-- Some task is to end session `id`. -/
def ending (ts : List Task) (id : Nat) : Bool :=
  ts.any fun
    | .cleanup i _ => i == id
    | .resync => false

theorem condemned_cleanup {ts : List Task} {w : World} {id : Nat} {name : String}
    (h : .cleanup id name ∈ ts) : condemned ts w name = true :=
  List.any_eq_true.mpr ⟨_, h, beq_self_eq_true name⟩

theorem ending_iff {ts : List Task} {id : Nat} :
    ending ts id = true ↔ ∃ name, .cleanup id name ∈ ts := by
  unfold ending
  rw [List.any_eq_true]
  constructor
  · rintro ⟨p, hp, h⟩
    cases p with
    | cleanup i n =>
      cases beq_iff_eq.mp h
      exact ⟨n, hp⟩
    | resync => cases h
  · rintro ⟨name, h⟩
    exact ⟨_, h, beq_self_eq_true id⟩

/-- The table once the sessions in `ends` are over. -/
def Db.ended (db : Db) (ends : Nat → Bool) : Sql.Table Session :=
  db.sessions.update (fun i _ => ends i) Session.expired

/-- From `w` to `w'` only instances that `keeps` does not hold of have been touched, and only
    sessions of `ends` have been ended. -/
structure Tidied (keeps : Instance → Bool) (ends : Nat → Bool) (w w' : World) : Prop where
  incusDaemon : w'.incusDaemon = w.incusDaemon
  kept : w'.instances.filter keeps = w.instances.filter keeps
  noNew : ∀ i ∈ w'.instances, ∃ j ∈ w.instances, j.project = i.project ∧ j.name = i.name
  ended : w'.db.ended ends = w.db.ended ends
  rows : ∀ id a, w'.db.Row id a → ∃ b, w.db.Row id b ∧ (a = b ∨ a = b.expired)
  feedback : w'.db.feedback = w.db.feedback

section Tidied

variable {keeps : Instance → Bool} {ends : Nat → Bool} {w w' w'' : World} {d : InstanceServer}
  {name : String}

theorem Tidied.refl (w : World) : Tidied keeps ends w w :=
  ⟨rfl, rfl, fun i hi => ⟨i, hi, rfl, rfl⟩, rfl, fun _ a ha => ⟨a, ha, .inl rfl⟩, rfl⟩

theorem Session.expired_expired (a : Session) : a.expired.expired = a.expired := rfl

theorem Tidied.trans (h : Tidied keeps ends w w') (h' : Tidied keeps ends w' w'') :
    Tidied keeps ends w w'' where
  incusDaemon := h'.incusDaemon.trans h.incusDaemon
  kept := h'.kept.trans h.kept
  noNew := by
    intro i hi
    obtain ⟨j, hj, hp, hn⟩ := h'.noNew i hi
    obtain ⟨k, hk, hp', hn'⟩ := h.noNew j hj
    exact ⟨k, hk, hp'.trans hp, hn'.trans hn⟩
  ended := h'.ended.trans h.ended
  rows := by
    intro id a ha
    obtain ⟨b, hb, hab⟩ := h'.rows id a ha
    obtain ⟨c, hc, hbc⟩ := h.rows id b hb
    refine ⟨c, hc, ?_⟩
    rcases hab with rfl | rfl <;> rcases hbc with rfl | rfl
    · exact .inl rfl
    · exact .inr rfl
    · exact .inr rfl
    · exact .inr rfl
  feedback := h'.feedback.trans h.feedback

/-- An instance that is gone stays gone. -/
theorem Tidied.missing (h : Tidied keeps ends w w') (hnone : w.instances.get? d name = none) :
    w'.instances.get? d name = none := by
  rw [Instances.get?, List.find?_eq_none] at hnone ⊢
  intro i hi hat
  obtain ⟨j, hj, hproject, hname⟩ := h.noNew i hi
  apply hnone j hj
  rw [Instances.isAt_iff] at hat ⊢
  exact ⟨hproject.trans hat.1, hname.trans hat.2⟩

/-- A row that has ended stays so. -/
theorem Tidied.passed (h : Tidied keeps ends w w') {id : Nat}
    (hover : ∀ a, w.db.Row id a → a.expired = a) (a : Session) (ha : w'.db.Row id a) :
    a.expired = a := by
  obtain ⟨b, hb, rfl | rfl⟩ := h.rows id a ha
  · exact hover a hb
  · rfl

theorem filter_remove {is : Instances} (h : ∀ i, Instances.isAt d name i = true → keeps i = false) :
    (is.remove d name).filter keeps = is.filter keeps := by
  unfold Instances.remove
  rw [List.filter_filter]
  refine List.filter_congr fun i _ => ?_
  cases hat : Instances.isAt d name i with
  | false => simp
  | true => simp [h i hat]

theorem filter_modify {is : Instances} {f : Instance → Instance}
    (h : ∀ i, Instances.isAt d name i = true → keeps i = false ∧ keeps (f i) = false) :
    (is.modify d name f).filter keeps = is.filter keeps := by
  induction is with
  | nil => rfl
  | cons i is ih =>
    rw [Instances.modify] at ih ⊢
    rw [List.map_cons]
    cases hat : Instances.isAt d name i with
    | false =>
      rw [if_neg Bool.false_ne_true, List.filter_cons, List.filter_cons, ih]
    | true =>
      obtain ⟨hi, hf⟩ := h i hat
      rw [if_pos rfl, List.filter_cons, List.filter_cons, hi, hf, if_neg Bool.false_ne_true,
        if_neg Bool.false_ne_true, ih]

theorem ended_updateId {db : Db} {id : Nat} (h : ends id = true) :
    (db.updateId id Session.expired).ended ends = db.ended ends := by
  refine Sql.Table.update_absorb (p := fun i _ => ends i) Session.expired_expired
    (fun i _ hi => ?_) fun _ _ => rfl
  rwa [of_decide_eq_true hi]

/-- What the table says of instances whose sessions do not end stays the same. -/
theorem Tidied.shouldExist (h : Tidied keeps ends w w')
    (hother : ∀ id a, w.db.Row id a → ends id = true → a.instanceName ≠ name) :
    w'.db.shouldExist name = w.db.shouldExist name := by
  have hcount : ∀ w₁ : World, Tidied keeps ends w w₁ →
      (w₁.db.ended ends).count
          (fun _ s => s.instanceName == name && (s.status == 0 || s.status == 2)) =
        w₁.db.sessions.count
          (fun _ s => s.instanceName == name && (s.status == 0 || s.status == 2)) := by
    intro w₁ h₁
    refine Sql.Table.count_update_eq fun id a ha hid => ?_
    obtain ⟨b, hb, hab⟩ := h₁.rows id a ha
    have hname : a.instanceName ≠ name := by
      rcases hab with rfl | rfl
      · exact hother id a hb hid
      · exact hother id b hb hid
    simp [Session.expired, hname]
  unfold Db.shouldExist
  rw [← hcount w' h, ← hcount w (.refl w), h.ended]

end Tidied

-- ============================================================================
-- What a task does
-- ============================================================================

/-- The task has tried to delete instance `name`, and Incus is through with it. -/
def Tried (l : Log) (d : InstanceServer) (name : String) : Prop :=
  (∃ e, ⟨.call d (.deleteInstance name), .error e⟩ ∈ l) ∨ ∃ r, ⟨.wait d (.deleteInstance name), r⟩ ∈ l

/-- Some answer is missing. -/
def Broken (l : Log) : Prop :=
  (∃ d e, ⟨.call d .getInstanceNames, .error e⟩ ∈ l) ∨ ∃ q e, ⟨.query q, .error e⟩ ∈ l

/-- The task is to delete the instance `name`. -/
inductive Targets (p : Task) (l : Log) (name : String) : Prop
  | ended (id : Nat) (hp : p = .cleanup id name)
  | unrecorded (hp : p = .resync) (hpre : hasPrefix name "tryit-" = true)
      (h : ⟨.query (.dbShouldExist name), .ok false⟩ ∈ l)

/-- The operations of a task. -/
def TaskOp (p : Task) (l : Log) : Op → Prop
  | .incusDaemon | .query (.dbShouldExist _) | .call _ .getInstanceNames
  | .call _ (.updateInstanceState ..) | .call _ (.deleteInstance _) => True
  | .wait d (.updateInstanceState name _ _) | .wait d (.deleteInstance name) =>
    ⟨.incusDaemon, some d⟩ ∈ l ∧ Targets p l name
  | .query (.dbExpire id) => ∃ name, p = .cleanup id name
  | .announce => grip l = .free
  | .lock => grip l = .waiting
  | .unlock => grip l = .writing
  | .halt => ⟨.incusDaemon, none⟩ ∈ l
  | _ => False

/-- What a pass has listed is recorded, or deleted. -/
def Checked (l : Log) (names : List String) : Prop :=
  ∀ n ∈ names, hasPrefix n "tryit-" = true →
    ⟨.query (.dbShouldExist n), .ok true⟩ ∈ l ∨ ∃ d, ⟨.incusDaemon, some d⟩ ∈ l ∧ Tried l d n

/-- A task at its end. -/
structure TaskEnd (p : Task) (l : Log) : Prop where
  free : grip l = .free
  ended : ∀ id name, p = .cleanup id name →
    (∃ d, ⟨.incusDaemon, some d⟩ ∈ l ∧ Tried l d name) ∧ ∃ r, ⟨.query (.dbExpire id), r⟩ ∈ l
  checked : p = .resync → Broken l ∨ ∃ d names, ⟨.incusDaemon, some d⟩ ∈ l ∧
    ⟨.call d .getInstanceNames, .ok names⟩ ∈ l ∧ Checked l names

/-- `l'` continues `l` and leaves the lock alone. -/
structure Further (l l' : Log) : Prop where
  mem : ∀ e ∈ l, e ∈ l'
  grip : grip l' = grip l

section Tasks

variable {p : Task} {l l' : Log} {d : InstanceServer} {name : String}

theorem Further.refl (l : Log) : Further l l := ⟨fun _ h => h, rfl⟩

theorem Further.trans {l₁ l₂ l₃ : Log} (h : Further l₁ l₂) (h' : Further l₂ l₃) : Further l₁ l₃ :=
  ⟨fun e he => h'.mem e (h.mem e he), h'.grip.trans h.grip⟩

theorem Further.cons {o : Op} (h : o.locks = false) (r : Ret o) (l : Log) :
    Further l (⟨o, r⟩ :: l) where
  mem := fun _ he => List.mem_cons_of_mem _ he
  grip := grip_kept h r l

theorem Tried.mono (hmem : ∀ e ∈ l, e ∈ l') (h : Tried l d name) : Tried l' d name := by
  rcases h with ⟨e, he⟩ | ⟨r, hr⟩
  · exact .inl ⟨e, hmem _ he⟩
  · exact .inr ⟨r, hmem _ hr⟩

theorem Targets.mono (hmem : ∀ e ∈ l, e ∈ l') (h : Targets p l name) : Targets p l' name := by
  cases h with
  | ended id hp => exact .ended id hp
  | unrecorded hp hpre h => exact .unrecorded hp hpre (hmem _ h)

theorem Checked.mono {names : List String} (hmem : ∀ e ∈ l, e ∈ l') (h : Checked l names) :
    Checked l' names := by
  intro n hn hpre
  rcases h n hn hpre with h | ⟨d, hd, htried⟩
  · exact .inl (hmem _ h)
  · exact .inr ⟨d, hmem _ hd, htried.mono hmem⟩

theorem Broken.mono (hmem : ∀ e ∈ l, e ∈ l') (h : Broken l) : Broken l' := by
  rcases h with ⟨d, e, he⟩ | ⟨q, e, he⟩
  · exact .inl ⟨d, e, hmem _ he⟩
  · exact .inr ⟨q, e, hmem _ he⟩

/-- Weakest preconditions of tasks over logs. -/
abbrev Tends {α : Type} (p : Task) (prog : Prog α) (Q : α → Log → Prop) (l : Log) : Prop :=
  Conc.Prog.wp Machine.logStep (TaskOp p) prog Q l

theorem tends_op {o : Op} {Q : Ret o → Log → Prop} :
    Tends p (perform o) Q l ↔ TaskOp p l o ∧ ∀ r, Q r (⟨o, r⟩ :: l) := by
  simp only [Tends, perform, Conc.Prog.wp_perform, Machine.logStep]
  exact and_congr Iff.rfl ⟨fun h r => h r _ rfl, fun h r _ hl => hl ▸ h r⟩

theorem tends_bind {α β : Type} {m : Prog α} {f : α → Prog β} {Q : β → Log → Prop} :
    Tends p (m >>= f) Q l ↔ Tends p m (fun a l' => Tends p (f a) Q l') l := Conc.Prog.wp_bind _ _

theorem tends_ite {α : Type} {c : Prop} [Decidable c] {m m' : Prog α} {Q : α → Log → Prop}
    (h : c → Tends p m Q l) (h' : ¬ c → Tends p m' Q l) : Tends p (if c then m else m') Q l :=
  (Conc.Prog.wp_ite _ _ _).mpr ⟨h, h'⟩

theorem daemon_tends {Q : InstanceServer → Log → Prop}
    (h : ∀ d l', Further l l' → ⟨.incusDaemon, some d⟩ ∈ l' → Q d l') : Tends p daemon Q l := by
  unfold daemon
  rw [tends_bind]
  refine tends_op.mpr ⟨trivial, fun r => ?_⟩
  cases r with
  | none => exact ⟨List.mem_cons_self .., fun r => nomatch r⟩
  | some d => exact h d _ (.cons rfl _ _) (List.mem_cons_self ..)

theorem deleteInstance_tends {Q : Except Error Unit → Log → Prop} (hd : ⟨.incusDaemon, some d⟩ ∈ l)
    (ht : Targets p l name) (h : ∀ r l', Further l l' → Tried l' d name → Q r l') :
    Tends p (deleteInstance d name) Q l := by
  unfold deleteInstance
  rw [tends_bind]
  refine tends_op.mpr ⟨trivial, fun r => ?_⟩
  have h₁ : Further l (⟨.call d (.deleteInstance name), r⟩ :: l) := .cons rfl _ _
  cases r with
  | error e => exact h _ _ h₁ (.inl ⟨e, List.mem_cons_self ..⟩)
  | ok _ =>
    refine tends_op.mpr ⟨⟨h₁.mem _ hd, ht.mono h₁.mem⟩, fun r => ?_⟩
    exact h r _ (h₁.trans (.cons rfl _ _)) (.inr ⟨r, List.mem_cons_self ..⟩)

theorem incusForceDelete_tends {Q : Except Error Unit → Log → Prop}
    (hd : ⟨.incusDaemon, some d⟩ ∈ l) (ht : Targets p l name)
    (h : ∀ r l', Further l l' → Tried l' d name → Q r l') :
    Tends p (incusForceDelete d name) Q l := by
  have hdelete : ∀ l₁, Further l l₁ → Tends p (deleteInstance d name) Q l₁ := fun l₁ h₁ =>
    deleteInstance_tends (h₁.mem _ hd) (ht.mono h₁.mem) fun r l₂ h₂ => h r l₂ (h₁.trans h₂)
  unfold incusForceDelete
  rw [tends_bind]
  refine tends_op.mpr ⟨trivial, fun r => ?_⟩
  have h₁ : Further l (⟨.call d (.updateInstanceState name "stop" true), r⟩ :: l) :=
    .cons rfl _ _
  cases r with
  | error e => exact hdelete _ h₁
  | ok _ =>
    rw [tends_bind]
    refine tends_op.mpr ⟨⟨h₁.mem _ hd, ht.mono h₁.mem⟩, fun r => ?_⟩
    exact hdelete _ (h₁.trans (.cons rfl _ _))

theorem forceDelete_tends {Q : Unit → Log → Prop} (ht : Targets p l name)
    (h : ∀ d l', Further l l' → ⟨.incusDaemon, some d⟩ ∈ l' → Tried l' d name → Q () l') :
    Tends p (forceDelete name) Q l := by
  unfold forceDelete
  rw [tends_bind]
  refine daemon_tends fun d l₁ h₁ hd => ?_
  rw [tends_bind]
  refine incusForceDelete_tends hd (ht.mono h₁.mem) fun r l₂ h₂ htried => ?_
  exact h d l₂ (h₁.trans h₂) (h₂.mem _ hd) htried

theorem resyncNames_tends {names : List String} {Q : Except Error Unit → Log → Prop}
    (hp : p = .resync) (h : ∀ r l', Further l l' → Broken l' ∨ Checked l' names → Q r l') :
    Tends p (resyncNames names) Q l := by
  induction names generalizing l with
  | nil => exact h _ l (.refl l) (.inr fun n hn => absurd hn List.not_mem_nil)
  | cons name rest ih =>
    -- the rest of the loop, once `name` is dealt with
    have hrest : ∀ l₁, Further l l₁ → (hasPrefix name "tryit-" = true →
        ⟨.query (.dbShouldExist name), .ok true⟩ ∈ l₁ ∨
          ∃ d, ⟨.incusDaemon, some d⟩ ∈ l₁ ∧ Tried l₁ d name) → Tends p (resyncNames rest) Q l₁ := by
      intro l₁ h₁ hname
      refine ih fun r l₂ h₂ hend => h r l₂ (h₁.trans h₂) ?_
      refine hend.imp_right fun hchecked n hn hpre => ?_
      rcases List.mem_cons.mp hn with rfl | hn
      · exact (hname hpre).imp (h₂.mem _)
          fun ⟨d, hd, htried⟩ => ⟨d, h₂.mem _ hd, htried.mono h₂.mem⟩
      · exact hchecked n hn hpre
    unfold resyncNames
    refine tends_ite (fun hpre => ?_) (fun hpre => ?_)
    · rw [tends_bind]
      refine tends_op.mpr ⟨trivial, fun r => ?_⟩
      have h₁ : Further l (⟨.query (.dbShouldExist name), r⟩ :: l) := .cons rfl _ _
      rcases r with e | (_ | _)
      · exact h _ _ h₁ (.inl (.inr ⟨_, e, List.mem_cons_self ..⟩))
      · dsimp only
        rw [tends_bind]
        refine forceDelete_tends (.unrecorded hp hpre (List.mem_cons_self ..)) fun d l₂ h₂ hd htried => ?_
        exact hrest l₂ (h₁.trans h₂) fun _ => .inr ⟨d, hd, htried⟩
      · exact hrest _ h₁ fun _ => .inl (List.mem_cons_self ..)
    · exact hrest l (.refl l) fun hpre' => absurd hpre' hpre

/-- Every task keeps to its operations, and ends as it should. -/
theorem body_tends (p : Task) : Tends p p.body (fun _ => TaskEnd p) [] := by
  cases p with
  | cleanup id name =>
    change Tends (.cleanup id name) (cleanup id name) _ []
    unfold cleanup
    rw [tends_bind]
    refine forceDelete_tends (.ended id rfl) fun d l₁ h₁ hd htried => ?_
    rw [tends_bind]
    refine tends_op.mpr ⟨⟨name, rfl⟩, fun r => ?_⟩
    have h₂ : Further l₁ (⟨.query (.dbExpire id), r⟩ :: l₁) := .cons rfl _ _
    refine ⟨h₂.grip.trans h₁.grip, ?_, nofun⟩
    rintro i n heq
    cases heq
    exact ⟨⟨d, h₂.mem _ hd, htried.mono h₂.mem⟩, r, List.mem_cons_self ..⟩
  | resync =>
    have hdone : ∀ (r : Except Error Unit) l₁, grip l₁ = .writing → (Broken l₁ ∨ ∃ d names,
        ⟨.incusDaemon, some d⟩ ∈ l₁ ∧ ⟨.call d .getInstanceNames, .ok names⟩ ∈ l₁ ∧
          Checked l₁ names) →
        Tends .resync (do perform .unlock; pure r) (fun _ => TaskEnd .resync) l₁ := by
      intro r l₁ hheld hend
      have hmem : ∀ e ∈ l₁, e ∈ (⟨.unlock, ()⟩ :: l₁ : Log) := fun e he => List.mem_cons_of_mem _ he
      rw [tends_bind]
      refine tends_op.mpr ⟨hheld, fun _ => ⟨by rw [grip_cons, hheld]; rfl, nofun, fun _ => ?_⟩⟩
      rcases hend with h | ⟨d, names, hd, hnames, hchecked⟩
      · exact .inl (h.mono hmem)
      · exact .inr ⟨d, names, hmem _ hd, hmem _ hnames, hchecked.mono hmem⟩
    change Tends .resync (instanceResync >>= fun _ => pure ()) _ []
    rw [tends_bind]
    unfold instanceResync
    rw [tends_bind]
    refine tends_op.mpr ⟨rfl, fun _ => ?_⟩
    rw [tends_bind]
    refine tends_op.mpr ⟨rfl, fun _ => ?_⟩
    rw [tends_bind]
    unfold resyncLocked
    rw [tends_bind]
    refine daemon_tends fun d l₁ h₁ hd => ?_
    rw [tends_bind]
    refine tends_op.mpr ⟨trivial, fun r => ?_⟩
    have h₂ := h₁.trans (.cons (o := .call d .getInstanceNames) rfl r l₁)
    cases r with
    | error e => exact hdone _ _ h₂.grip (.inl (.inl ⟨d, e, List.mem_cons_self ..⟩))
    | ok names =>
      refine resyncNames_tends rfl fun r l₃ h₃ hend => ?_
      refine hdone r l₃ (h₃.grip.trans h₂.grip) (hend.imp_right fun hchecked => ?_)
      exact ⟨d, names, h₃.mem _ (List.mem_cons_of_mem _ hd), h₃.mem _ (List.mem_cons_self ..),
        hchecked⟩

end Tasks

-- ============================================================================
-- What a task knows
-- ============================================================================

/-- What task `p` of `ts`, which has the log `l`, knows about the world `w`.  The world was `w₀`
    at the start, and `d` is the connection. -/
structure Facts (ts : List Task) (d : InstanceServer) (w₀ w : World) (p : Task) (l : Log) : Prop where
  task : p ∈ ts
  daemon : ∀ d', ⟨.incusDaemon, d'⟩ ∈ l → d' = some d
  gone : ∀ name, Tried l d name → w.instances.get? d name = none
  passed : ∀ id r, ⟨.query (.dbExpire id), r⟩ ∈ l → ∀ a, w.db.Row id a → a.expired = a
  listed : ∀ names, ⟨.call d .getInstanceNames, .ok names⟩ ∈ l →
    ∀ i ∈ w.instances, i.project = d.project → i.name ∈ names
  asked : ∀ name b, ⟨.query (.dbShouldExist name), .ok b⟩ ∈ l →
    b = w₀.db.shouldExist name ∨ ∃ id, .cleanup id name ∈ ts
  unbroken : ¬ Broken l

/-- A step of `m` (`none` is the environment): it tidies, and it takes and releases the lock for
    nobody else. -/
structure Guarantee (keeps : Instance → Bool) (ends : Nat → Bool) (m : Option Nat) (w w' : World) :
    Prop where
  tidied : Tidied keeps ends w w'
  readers : w'.muCreate.readers = w.muCreate.readers
  sane : w.muCreate.Sane → w'.muCreate.Sane
  others : ∀ u, m ≠ some u → w'.muCreate.gripOf u = w.muCreate.gripOf u

section Facts

variable {ts : List Task} {d : InstanceServer} {keeps : Instance → Bool} {ends : Nat → Bool}
  {w₀ w w' : World} {t : Nat} {p : Task} {l : Log} {e : Event} {name : String}

theorem Tidied.of_eq (hdaemon : w'.incusDaemon = w.incusDaemon) (hdb : w'.db = w.db)
    (hinstances : w'.instances = w.instances) : Tidied keeps ends w w' where
  incusDaemon := hdaemon
  kept := by rw [hinstances]
  noNew := fun i hi => ⟨i, hinstances ▸ hi, rfl, rfl⟩
  ended := by rw [hdb]
  rows := fun id a ha => ⟨a, hdb ▸ ha, .inl rfl⟩
  feedback := by rw [hdb]

/-- What a task knows is not disturbed. -/
theorem Facts.tidied (h : Facts ts d w₀ w p l) (htidied : Tidied keeps ends w w') :
    Facts ts d w₀ w' p l where
  task := h.task
  daemon := h.daemon
  gone := fun name htried => htidied.missing (h.gone name htried)
  passed := fun id r hmem => htidied.passed (h.passed id r hmem)
  listed := by
    intro names hmem i hi hproject
    obtain ⟨j, hj, hp, hn⟩ := htidied.noNew i hi
    exact hn ▸ h.listed names hmem j hj (hp.trans hproject)
  asked := h.asked
  unbroken := h.unbroken

/-- What a task is to delete is condemned. -/
theorem Facts.condemned (h : Facts ts d w₀ w p l) (ht : Targets p l name) :
    condemned ts w₀ name = true := by
  cases ht with
  | ended id hp => exact condemned_cleanup (hp ▸ h.task)
  | unrecorded hp hpre hmem =>
    rcases h.asked name false hmem with hno | ⟨id, hid⟩
    · refine List.any_eq_true.mpr ⟨.resync, hp ▸ h.task, ?_⟩
      simp [hpre, ← hno]
    · exact condemned_cleanup hid

theorem not_spared {i : Instance} (h : condemned ts w₀ name = true)
    (hat : Instances.isAt d name i = true) : spared ts w₀ d i = false := by
  obtain ⟨hproject, rfl⟩ := Instances.isAt_iff.mp hat
  simp [spared, hproject, h]

/-- The instances after a wait of a task. -/
theorem Tidied.wait {d' : InstanceServer} {c : Call} {r : Except Error Unit}
    (h : Facts ts d w₀ w p l) (hop : TaskOp p l (.wait d' c)) (hdid : Did w t ⟨.wait d' c, r⟩ w') :
    Tidied (spared ts w₀ d) (ending ts) w w' := by
  cases r with
  | error e => exact .of_eq hdid.incusDaemon hdid.db hdid.instances
  | ok _ =>
    obtain ⟨a, ha⟩ := hdid.instances
    have hdb : w'.db = w.db := hdid.db
    have hsame : ∀ id b, w'.db.Row id b → ∃ c, w.db.Row id c ∧ (b = c ∨ b = c.expired) :=
      fun id b hb => ⟨b, hdb ▸ hb, .inl rfl⟩
    cases c with
    | updateInstanceState name action force =>
      obtain ⟨hd, ht⟩ := hop
      cases h.daemon _ hd
      simp only [Call.complete, Option.ite_none_right_eq_some, Option.some.injEq] at ha
      have hcondemned := h.condemned ht
      refine ⟨hdid.incusDaemon, ?_, ?_, by rw [hdb], hsame, by rw [hdb]⟩
      · rw [← ha.2]
        exact filter_modify fun i hi => ⟨not_spared hcondemned hi, not_spared hcondemned hi⟩
      · intro i hi
        rw [← ha.2] at hi
        obtain ⟨j, hj, rfl⟩ := Instances.mem_modify.mp hi
        refine ⟨j, hj, ?_⟩
        split <;> exact ⟨rfl, rfl⟩
    | deleteInstance name =>
      obtain ⟨hd, ht⟩ := hop
      cases h.daemon _ hd
      simp only [Call.complete, Option.ite_none_right_eq_some, Option.some.injEq] at ha
      refine ⟨hdid.incusDaemon, ?_, ?_, by rw [hdb], hsame, by rw [hdb]⟩
      · rw [← ha.2]
        exact filter_remove fun i hi => not_spared (h.condemned ht) hi
      · intro i hi
        rw [← ha.2] at hi
        exact ⟨i, (Instances.mem_remove.mp hi).1, rfl, rfl⟩
    | _ => exact hop.elim

/-- Every operation of a task tidies. -/
theorem Tidied.did {o : Op} {r : Ret o} (h : Facts ts d w₀ w p l) (hop : TaskOp p l o)
    (hdid : Did w t ⟨o, r⟩ w') : Tidied (spared ts w₀ d) (ending ts) w w' := by
  cases o with
  | wait d' c => exact .wait h hop hdid
  | query q =>
    cases q with
    | dbExpire id =>
      obtain ⟨name, rfl⟩ := hop
      have hends : ending ts id = true := ending_iff.mpr ⟨name, h.task⟩
      cases r with
      | error e => exact .of_eq hdid.incusDaemon hdid.db hdid.instances
      | ok _ =>
        have hdb : w'.db = w.db.updateId id Session.expired := hdid.db
        have hinstances : w'.instances = w.instances := hdid.instances
        refine ⟨hdid.incusDaemon, by rw [hinstances], fun i hi => ⟨i, hinstances ▸ hi, rfl, rfl⟩,
          ?_, ?_, by rw [hdb]; rfl⟩
        · rw [hdb]
          exact ended_updateId hends
        · intro i a ha
          rw [hdb] at ha
          obtain ⟨b, hb, rfl⟩ := Sql.Table.mem_update.mp ha
          refine ⟨b, hb, ?_⟩
          split
          · exact .inr rfl
          · exact .inl rfl
    | dbShouldExist name => cases r <;> exact .of_eq hdid.incusDaemon hdid.db hdid.instances
    | _ => exact hop.elim
  | call d' c => exact .of_eq hdid.incusDaemon hdid.db hdid.instances
  | incusDaemon | announce | lock | unlock => exact .of_eq hdid.incusDaemon hdid.db hdid.instances
  | _ => first | exact hop.elim | exact .of_eq hdid.incusDaemon hdid.db hdid.instances

theorem tried_cons (htried : Tried (e :: l) d name) : Tried l d name ∨
    (∃ err, e = ⟨.call d (.deleteInstance name), .error err⟩) ∨
    ∃ r, e = ⟨.wait d (.deleteInstance name), r⟩ := by
  rcases htried with ⟨err, hmem⟩ | ⟨r, hmem⟩
  · rcases List.mem_cons.mp hmem with rfl | hmem
    · exact .inr (.inl ⟨err, rfl⟩)
    · exact .inl (.inl ⟨err, hmem⟩)
  · rcases List.mem_cons.mp hmem with rfl | hmem
    · exact .inr (.inr ⟨r, rfl⟩)
    · exact .inl (.inr ⟨r, hmem⟩)

/-- An instance is gone once Incus is through with its deletion. -/
theorem missing_of_tried (hC : Deletes w e) (hdid : Did w t e w')
    (h : (∃ err, e = ⟨.call d (.deleteInstance name), .error err⟩) ∨
      ∃ r, e = ⟨.wait d (.deleteInstance name), r⟩) : w'.instances.get? d name = none := by
  have hinstances := hdid.instances
  rcases h with ⟨err, rfl⟩ | ⟨r, rfl⟩
  · exact hinstances ▸ hC
  · cases r with
    | error err => exact hinstances ▸ hC
    | ok _ =>
      obtain ⟨a, ha⟩ := hinstances
      simp only [Call.complete, Option.ite_none_right_eq_some, Option.some.injEq] at ha
      rw [← ha.2]
      exact Instances.get?_remove ..

/-- A task learns from what it does. -/
theorem Facts.cons {o : Op} {r : Ret o} (hown : NamesOwn w₀.db ts)
    (hstart : Tidied (spared ts w₀ d) (ending ts) w₀ w) (hd : w.incusDaemon = some d)
    (h : Facts ts d w₀ w p l) (hop : TaskOp p l o) (hC : Reliable w ⟨o, r⟩)
    (hdid : Did w t ⟨o, r⟩ w') : Facts ts d w₀ w' p (⟨o, r⟩ :: l) := by
  have hold := h.tidied (.did h hop hdid)
  constructor
  case task => exact h.task
  case daemon =>
    intro d' hmem
    rcases List.mem_cons.mp hmem with heq | hmem
    · cases heq
      exact (hdid.truthful : d' = w.incusDaemon).trans hd
    · exact h.daemon d' hmem
  case gone =>
    intro name htried
    rcases tried_cons htried with htried | hnow
    · exact hold.gone name htried
    · exact missing_of_tried hC.1 hdid hnow
  case passed =>
    intro id r' hmem a ha
    rcases List.mem_cons.mp hmem with heq | hmem
    · cases heq
      cases r' with
      | error err => exact hC.2.elim
      | ok _ =>
        rw [hdid.db] at ha
        obtain ⟨b, -, rfl⟩ := Sql.Table.mem_update.mp ha
        simp [Session.expired]
    · exact hold.passed id r' hmem a ha
  case listed =>
    intro names hmem i hi hproject
    rcases List.mem_cons.mp hmem with heq | hmem
    · cases heq
      have hnames : names = w.instances.names d := hdid.truthful
      have hinstances : w'.instances = w.instances := hdid.instances
      rw [hnames]
      refine List.mem_map_of_mem (List.mem_filter.mpr ⟨hinstances ▸ hi, ?_⟩)
      exact beq_iff_eq.mpr hproject
    · exact hold.listed names hmem i hi hproject
  case asked =>
    intro name b hmem
    rcases List.mem_cons.mp hmem with heq | hmem
    · cases heq
      have hb : b = w.db.shouldExist name := hdid.truthful
      refine or_iff_not_imp_right.mpr fun hno => ?_
      rw [hb]
      refine hstart.shouldExist fun id a ha hends heq => hno ⟨id, ?_⟩
      obtain ⟨n, hn⟩ := ending_iff.mp hends
      rw [← heq, hown id n a hn ha]
      exact hn
    · exact h.asked name b hmem
  case unbroken =>
    rintro (⟨d', err, hmem⟩ | ⟨q, err, hmem⟩)
    · rcases List.mem_cons.mp hmem with heq | hmem
      · cases heq
        exact hC.2
      · exact h.unbroken (.inl ⟨d', err, hmem⟩)
    · rcases List.mem_cons.mp hmem with heq | hmem
      · cases heq
        exact hC.2
      · exact h.unbroken (.inr ⟨q, err, hmem⟩)

/-- What is true of the world in every state, and what each task then knows. -/
def Tidying (ts : List Task) (d : InstanceServer) (w₀ w : World) : Prop :=
  Tidied (spared ts w₀ d) (ending ts) w₀ w ∧ w.muCreate.readers = [] ∧ w.muCreate.Sane

/-- The facts of task `p`, which is thread `t`, and what it holds of the lock. -/
def Knowledge (ts : List Task) (d : InstanceServer) (w₀ w : World) (t : Nat) (p : Task) (l : Log) :
    Prop :=
  Facts ts d w₀ w p l ∧ w.muCreate.gripOf t = grip l

/-- A task uses the lock in turn, and never as a reader. -/
theorem inTurn_of_taskOp {o : Op} (hop : TaskOp p l o) : InTurn (grip l) o := by
  cases o <;> trivial

theorem readers_did {o : Op} {r : Ret o} (hop : TaskOp p l o) (hdid : Did w t ⟨o, r⟩ w') :
    w'.muCreate.readers = w.muCreate.readers := by
  rw [hdid.muCreate]
  cases o <;> first | rfl | exact hop.elim

/-- The tasks rely on each other. -/
theorem cleaning_relies (hown : NamesOwn w₀.db ts) (hd : w₀.incusDaemon = some d) :
    cleaning.Relies Reliable TaskOp (Tidying ts d w₀) (Guarantee (spared ts w₀ d) (ending ts))
      (Knowledge ts d w₀) where
  keeps := fun m w w' hJ hG =>
    ⟨hJ.1.trans hG.tidied, hG.readers.trans hJ.2.1, hG.sane hJ.2.2⟩
  stable := fun m u w w' p l hm _ hG hK => ⟨hK.1.tidied hG.tidied, (hG.others u hm).trans hK.2⟩
  own := by
    intro w t p l o c r w' hJ hK hop hC hexec
    have hdid : Did w t ⟨o, r⟩ w' := exec_did hexec
    obtain ⟨hsane, hself, hothers⟩ := gripOf_did hJ.2.2 hK.2 (inTurn_of_taskOp hop) hdid
    have hdaemon := hJ.1.incusDaemon.trans hd
    refine ⟨⟨.did hK.1 hop hdid, readers_did hop hdid, fun _ => hsane,
      fun u hu => hothers u fun heq => hu (heq ▸ rfl)⟩,
      ⟨hK.1.cons hown hJ.1 hdaemon hop hC hdid, hself⟩, fun u q hq => ?_⟩
    cases hq
  act := by
    intro w e w' stop ps _ henv
    cases e <;> cases henv
    · exact ⟨⟨.of_eq rfl rfl rfl, rfl, fun h => h, fun _ _ => rfl⟩, fun u q hq => nomatch hq⟩
    · exact ⟨⟨.of_eq rfl rfl rfl, rfl, fun h => h, fun _ _ => rfl⟩, fun u q hq => nomatch hq⟩

end Facts

-- ============================================================================
-- Runs of tasks
-- ============================================================================

section Runs

variable {ts : List Task} {d : InstanceServer} {w : World} {s : Conc.Sys Op Ret World Task}

theorem start_follows (p : Task) : Machine.Follows TaskOp TaskEnd (cleaning.start p) :=
  fun _ => body_tends p

theorem start_of_assigned {t : Nat} {th : Conc.Thread Op Ret Task}
    (hth : (assigned w ts).threads[t]? = some th) : ∃ p ∈ ts, th = cleaning.start p := by
  obtain ⟨p, hp, rfl⟩ := List.mem_map.mp (List.mem_of_getElem? hth)
  exact ⟨p, hp, rfl⟩

theorem assigned_follow : Machine.AllFollow TaskOp TaskEnd (assigned w ts) := by
  intro t th hth
  obtain ⟨p, -, rfl⟩ := start_of_assigned hth
  exact start_follows p

theorem assigned_knows (hfree : w.muCreate = .free) :
    Machine.Knows (Tidying ts d w) (Knowledge ts d w) (assigned w ts) where
  world := ⟨.refl w, by rw [assigned, hfree]; exact ⟨rfl, RWMutex.sane_free⟩⟩
  thread := by
    intro t th hth
    obtain ⟨p, hp, rfl⟩ := start_of_assigned hth
    have hnot : ∀ {e : Event}, e ∉ ([] : Log) := List.not_mem_nil
    refine ⟨⟨hp, fun _ h => absurd h hnot, ?_, fun _ _ h => absurd h hnot, fun _ h => absurd h hnot,
      fun _ _ h => absurd h hnot, ?_⟩, ?_⟩
    · rintro name (⟨e, h⟩ | ⟨r, h⟩) <;> exact absurd h hnot
    · rintro (⟨d', e, h⟩ | ⟨q, e, h⟩) <;> exact absurd h hnot
    · rw [assigned, hfree]
      exact RWMutex.gripOf_free t

/-- What the tasks know in every state of a run. -/
theorem knows_run (hown : NamesOwn w.db ts) (hd : w.incusDaemon = some d)
    (hfree : w.muCreate = .free) (hrun : cleaning.Run (Machine.Moves Reliable) (assigned w ts) s) :
    Machine.AllFollow TaskOp TaskEnd s ∧ Machine.Knows (Tidying ts d w) (Knowledge ts d w) s :=
  Machine.Run.relies (cleaning_relies hown hd) start_follows assigned_follow (assigned_knows hfree)
    hrun

theorem procs_assigned : Machine.procs (assigned w ts) = ts.map fun p => (p, true) := by
  simp [Machine.procs, assigned, Machine.start]

/-- Each task is a thread, and no thread is ever stopped. -/
theorem thread_of_task {C : Conc.Sys Op Ret World Task → Label → Prop}
    (hrun : cleaning.Run C (assigned w ts) s) {p : Task} (hp : p ∈ ts) :
    ∃ (t : Nat) (th : Conc.Thread Op Ret Task),
      s.threads[t]? = some th ∧ th.proc = p ∧ th.alive = true := by
  have hprocs := (cleaning_closed.procs_run hrun).trans procs_assigned
  have hmem : (p, true) ∈ Machine.procs s := by
    rw [hprocs]
    exact List.mem_map_of_mem hp
  obtain ⟨th, hth, heq⟩ := List.mem_map.mp hmem
  obtain ⟨t, ht⟩ := List.mem_iff_getElem?.mp hth
  exact ⟨t, th, ht, congrArg Prod.fst heq, congrArg Prod.snd heq⟩

theorem alive_of_thread {C : Conc.Sys Op Ret World Task → Label → Prop}
    (hrun : cleaning.Run C (assigned w ts) s) {t : Nat} {th : Conc.Thread Op Ret Task}
    (hth : s.threads[t]? = some th) : th.alive = true := by
  have hprocs := (cleaning_closed.procs_run hrun).trans procs_assigned
  have hmem : (th.proc, th.alive) ∈ Machine.procs s :=
    List.mem_map_of_mem (List.mem_of_getElem? hth)
  rw [hprocs] at hmem
  obtain ⟨p, -, heq⟩ := List.mem_map.mp hmem
  exact (congrArg Prod.snd heq).symm

/-- What a finished task has done, and what it knows. -/
theorem ended_task (hown : NamesOwn w.db ts) (hd : w.incusDaemon = some d)
    (hfree : w.muCreate = .free) (hrun : cleaning.Run (Machine.Moves Reliable) (assigned w ts) s)
    (hfin : Machine.Finished s) {p : Task} (hp : p ∈ ts) :
    ∃ l, TaskEnd p l ∧ Facts ts d w s.world p l := by
  obtain ⟨hfollow, hknows⟩ := knows_run hown hd hfree hrun
  obtain ⟨t, th, hth, rfl, halive⟩ := thread_of_task hrun hp
  exact ⟨th.log, (hfollow t th hth).done halive (hfin th (List.mem_of_getElem? hth)),
    (hknows.thread t th hth).1⟩

/-- Once all tasks are done, no instance is left that one of them was to delete. -/
theorem all_spared (hown : NamesOwn w.db ts) (hd : w.incusDaemon = some d)
    (hfree : w.muCreate = .free) (hrun : cleaning.Run (Machine.Moves Reliable) (assigned w ts) s)
    (hfin : Machine.Finished s) : ∀ i ∈ s.world.instances, spared ts w d i = true := by
  intro i hi
  by_contra hno
  simp only [spared, Bool.or_eq_true, bne_iff_ne, ne_eq, Bool.not_eq_true', not_or, not_not,
    Bool.not_eq_false] at hno
  obtain ⟨hproject, hcondemned⟩ := hno
  have hpresent : s.world.instances.get? d i.name ≠ none := by
    rw [Instances.get?, ne_eq, List.find?_eq_none]
    exact fun h => h i hi (Instances.isAt_iff.mpr ⟨hproject, rfl⟩)
  -- a callback has deleted the instance that it names
  have hcallback : ∀ id, .cleanup id i.name ∉ ts := by
    intro id hp
    obtain ⟨l, hend, hfacts⟩ := ended_task hown hd hfree hrun hfin hp
    obtain ⟨⟨d', hd', htried⟩, -⟩ := hend.ended id i.name rfl
    cases hfacts.daemon _ hd'
    exact hpresent (hfacts.gone _ htried)
  obtain ⟨p, hp, hcondemned⟩ := List.any_eq_true.mp hcondemned
  cases p with
  | cleanup id name =>
    cases beq_iff_eq.mp hcondemned
    exact hcallback id hp
  | resync =>
    obtain ⟨hpre, hexists⟩ := Bool.and_eq_true_iff.mp hcondemned
    obtain ⟨l, hend, hfacts⟩ := ended_task hown hd hfree hrun hfin hp
    obtain ⟨d', names, hd', hlisted, hchecked⟩ := (hend.checked rfl).resolve_left hfacts.unbroken
    cases hfacts.daemon _ hd'
    rcases hchecked i.name (hfacts.listed names hlisted i hi hproject) hpre with
      hasked | ⟨d'', hd'', htried⟩
    · rcases hfacts.asked _ _ hasked with hyes | ⟨id, hid⟩
      · simp [← hyes] at hexists
      · exact hcallback id hid
    · cases hfacts.daemon _ hd''
      exact hpresent (hfacts.gone _ htried)

/-- Once all tasks are done, the sessions are over that one of them was to end. -/
theorem all_over (hown : NamesOwn w.db ts) (hd : w.incusDaemon = some d)
    (hfree : w.muCreate = .free) (hrun : cleaning.Run (Machine.Moves Reliable) (assigned w ts) s)
    (hfin : Machine.Finished s) : s.world.db.ended (ending ts) = s.world.db.sessions := by
  refine Sql.Table.update_eq_self fun id a ha hends => ?_
  obtain ⟨name, hp⟩ := ending_iff.mp hends
  obtain ⟨l, hend, hfacts⟩ := ended_task hown hd hfree hrun hfin hp
  obtain ⟨-, r, hr⟩ := hend.ended id name rfl
  exact hfacts.passed id r hr a ha

/-- What the tasks leave once they are done does not depend on the order of their steps. -/
theorem settled (hown : NamesOwn w.db ts) (hd : w.incusDaemon = some d)
    (hfree : w.muCreate = .free) (hrun : cleaning.Run (Machine.Moves Reliable) (assigned w ts) s)
    (hfin : Machine.Finished s) : s.world.instances = w.instances.filter (spared ts w d) ∧
      s.world.db = ⟨w.db.ended (ending ts), w.db.feedback⟩ := by
  have htidied := (knows_run hown hd hfree hrun).2.world.1
  constructor
  · rw [← htidied.kept]
    exact (List.filter_eq_self.mpr (all_spared hown hd hfree hrun hfin)).symm
  · rw [← htidied.ended, all_over hown hd hfree hrun hfin, ← htidied.feedback]

-- ============================================================================
-- Every run comes to an end
-- ============================================================================

/-- A wait on a deletion or a stop comes back, and fails only for want of the instance. -/
theorem exists_wait {t : Nat} {d' : InstanceServer} {c : Call}
    (hmissing : ∀ a name, c = .deleteInstance name → c.complete d' a w.instances = none →
      w.instances.get? d' name = none) :
    ∃ ch r w', exec w t (.wait d' c) ch = some (r, w') ∧ Reliable w ⟨.wait d' c, r⟩ := by
  cases hc : c.complete d' ⟨[], []⟩ w.instances with
  | some is =>
    refine ⟨.assigned ⟨[], []⟩, .ok (), { w with instances := is }, ?_, ?_, trivial⟩
    · simp [exec, execWait, hc]
    · cases c <;> trivial
  | none =>
    refine ⟨.assigned ⟨[], []⟩, .error "Operation failed", w, ?_, ?_, trivial⟩
    · simp [exec, execWait, hc]
    · cases c with
      | deleteInstance name => exact hmissing _ name rfl hc
      | _ => trivial

/-- A task can go on, but for the lock. -/
theorem exists_exec {w₀ : World} {t : Nat} {p : Task} {l : Log} {o : Op} (hop : TaskOp p l o)
    (hfacts : Facts ts d w₀ w p l)
    (hadmits : o = .announce → w.muCreate.admits)
    (hlock : o = .lock →
      w.muCreate.waiting = some t ∧ w.muCreate.writer = none ∧ w.muCreate.readers = []) :
    ∃ ch r w', exec w t o ch = some (r, w') ∧ Reliable w ⟨o, r⟩ := by
  cases o with
  | incusDaemon => exact ⟨.ok, _, _, rfl, trivial, trivial⟩
  | announce => exact ⟨.ok, _, _, if_pos (hadmits rfl), trivial, trivial⟩
  | lock => exact ⟨.ok, _, _, if_pos (hlock rfl), trivial, trivial⟩
  | unlock => exact ⟨.ok, _, _, rfl, trivial, trivial⟩
  | halt => cases hfacts.daemon _ hop
  | query q =>
    cases q with
    | dbShouldExist name => exact ⟨.ok, _, _, rfl, trivial, trivial⟩
    | dbExpire id => exact ⟨.ok, _, _, rfl, trivial, trivial⟩
    | _ => exact hop.elim
  | call d' c =>
    cases c with
    | getInstanceNames => exact ⟨.ok, _, _, rfl, trivial, trivial⟩
    | updateInstanceState name action force =>
      refine ⟨.ok, _, _, rfl, ?_⟩
      exact ⟨trivial, trivial⟩
    | deleteInstance name =>
      refine ⟨.ok, orNotFound (w.instances.get? d' name) fun _ => (), w, rfl, ?_⟩
      cases hfound : w.instances.get? d' name with
      | none => exact ⟨hfound, trivial⟩
      | some i => exact ⟨trivial, trivial⟩
    | _ => exact hop.elim
  | wait d' c =>
    refine exists_wait fun a name hc hnone => ?_
    subst hc
    simpa [Call.complete] using hnone
  | _ => exact hop.elim

/-- Only a task holds the lock. -/
theorem holder_exists (hown : NamesOwn w.db ts) (hd : w.incusDaemon = some d)
    (hfree : w.muCreate = .free) (hrun : cleaning.Run (Machine.Moves Reliable) (assigned w ts) s) :
    ∀ u ∈ s.world.muCreate.holders, ∃ th, s.threads[u]? = some th := by
  induction hrun with
  | refl =>
    intro u hu
    rw [assigned, hfree] at hu
    cases hu
  | tail hrun hs ih =>
    intro u hu
    obtain ⟨l, hC, hs⟩ := hs
    obtain ⟨hfollow, hknows⟩ := knows_run hown hd hfree hrun
    cases hs with
    | thread hth halive hprog hexec =>
      rename_i t th o k ch r w'
      by_cases hut : u = t
      · subst hut
        exact ⟨_, cleaning.get_advance_self hth⟩
      · have hG := ((cleaning_relies hown hd).own _ _ _ _ _ _ _ _ hknows.world
          (hknows.thread t th hth) ((hfollow t th hth).op halive hprog) hC hexec).1
        have hothers := hG.others u fun heq => hut (Option.some.inj heq).symm
        obtain ⟨th', hth'⟩ := ih u ((RWMutex.mem_holders_congr hothers).mp hu)
        exact ⟨th', cleaning.get_advance_ne hut hth'⟩
    | env henv =>
      have hG := ((cleaning_relies hown hd).act _ _ _ _ _ hknows.world henv).1
      obtain ⟨th, hth⟩ := ih u ((RWMutex.mem_holders_congr (hG.others u nofun)).mp hu)
      exact ⟨th, by rw [cleaning_closed.after_eq henv]; exact hth⟩

/-- The states from which thread `t` can be taken to its end: nobody else holds the lock or waits
    for it. -/
structure Ready (ts : List Task) (d : InstanceServer) (w : World) (t : Option Nat)
    (s : Conc.Sys Op Ret World Task) : Prop where
  run : cleaning.Run (Machine.Moves Reliable) (assigned w ts) s
  lock : ∀ u ∈ s.world.muCreate.holders, t = some u

/-- A task that nobody keeps from the lock comes to its end, and then the lock is free. -/
theorem finish_task (hown : NamesOwn w.db ts) (hd : w.incusDaemon = some d)
    (hfree : w.muCreate = .free) {t : Nat} {th : Conc.Thread Op Ret Task}
    (h : Ready ts d w (some t) s) (hth : s.threads[t]? = some th) :
    ∃ s', cleaning.Run (Machine.Moves Reliable) s s' ∧ Ready ts d w none s' ∧
      ∃ th' : Conc.Thread Op Ret Task, s'.threads[t]? = some th' ∧ th'.prog = .ret () := by
  obtain ⟨s', hrun, hready, th', hth', hend⟩ := Machine.Run.finish (M := cleaning)
    (D := Machine.Moves Reliable) (I := Ready ts d w (some t)) (t := t) (by
      intro s th o k h hth hprog
      obtain ⟨hfollow, hknows⟩ := knows_run hown hd hfree h.run
      have halive := alive_of_thread h.run hth
      have hop := (hfollow t th hth).op halive hprog
      have hK := hknows.thread t th hth
      obtain ⟨ch, r, w', hexec, hC⟩ := exists_exec (t := t) hop hK.1 (by
        rintro rfl
        have hempty : s.world.muCreate.holders = [] := by
          refine List.eq_nil_iff_forall_not_mem.mpr fun u hu => ?_
          cases h.lock u hu
          exact RWMutex.gripOf_eq_free.mp (hK.2.trans hop) hu
        rw [RWMutex.free_of_holders hempty]
        exact ⟨rfl, rfl⟩) (by
        rintro rfl
        have hwaiting := RWMutex.waiting_of_gripOf (hK.2.trans hop)
        exact ⟨hwaiting, hknows.world.2.2.writer_of_waiting hwaiting, hknows.world.2.1⟩)
      have hstep : cleaning.Step s (.thread t ⟨o, r⟩) _ := .thread hth halive hprog hexec
      refine ⟨r, w', hC, hstep, h.run.tail ⟨.thread t ⟨o, r⟩, hC, hstep⟩, fun u hu => ?_⟩
      by_contra hne
      have hG := ((cleaning_relies hown hd).own _ _ _ _ _ _ _ _ hknows.world hK hop hC hexec).1
      exact hne (h.lock u ((RWMutex.mem_holders_congr (hG.others u hne)).mp hu))) h hth
  refine ⟨s', hrun, ⟨hready.run, fun u hu => ?_⟩, th', hth', hend⟩
  -- the lock is not left with a task at its end
  cases hready.lock u hu
  obtain ⟨hfollow, hknows⟩ := knows_run hown hd hfree hready.run
  have hend := (hfollow t th' hth').done (alive_of_thread hready.run hth') hend
  exact absurd hu (RWMutex.gripOf_eq_free.mp ((hknows.thread t th' hth').2.trans hend.free))

/-- Every run of the tasks can be brought to its end. -/
theorem complete_run (hown : NamesOwn w.db ts) (hd : w.incusDaemon = some d)
    (hfree : w.muCreate = .free) (hrun : cleaning.Run (Machine.Moves Reliable) (assigned w ts) s) :
    ∃ s', cleaning.Run (Machine.Moves Reliable) s s' ∧ Machine.Finished s' := by
  have hcomplete : ∀ s₁, Ready ts d w none s₁ →
      ∃ s', cleaning.Run (Machine.Moves Reliable) s₁ s' ∧ Machine.Finished s' := by
    intro s₁ h₁
    obtain ⟨s', hrun', -, hfin⟩ := cleaning_closed.complete (I := Ready ts d w none)
      (fun s t th h hth => finish_task hown hd hfree ⟨h.run, fun u hu => nomatch h.lock u hu⟩ hth) h₁
    exact ⟨s', hrun', hfin⟩
  cases hholders : s.world.muCreate.holders with
  | nil => exact hcomplete s ⟨hrun, fun u hu => by rw [hholders] at hu; cases hu⟩
  | cons t rest =>
    -- the task that holds the lock, or waits for it, goes first
    have ht : t ∈ s.world.muCreate.holders := by simp [hholders]
    obtain ⟨-, hreaders, hsane⟩ := (knows_run hown hd hfree hrun).2.world
    have hready : Ready ts d w (some t) s :=
      ⟨hrun, fun u hu => congrArg some (hsane.holder_unique hreaders ht hu)⟩
    obtain ⟨th, hth⟩ := holder_exists hown hd hfree hrun t ht
    obtain ⟨s₁, hrun₁, h₁, -⟩ := finish_task hown hd hfree hready hth
    obtain ⟨s', hrun', hfin⟩ := hcomplete s₁ h₁
    exact ⟨s', hrun₁.trans hrun', hfin⟩

end Runs

theorem any_congr {ts ts' : List Task} (hsame : ∀ p, p ∈ ts ↔ p ∈ ts') (f : Task → Bool) :
    ts.any f = ts'.any f := by
  rw [Bool.eq_iff_iff, List.any_eq_true, List.any_eq_true]
  exact exists_congr fun p => and_congr_left' (hsame p)

/-- Whatever the order of their steps, and however often a task is there, the tasks leave the same
    instances and the same rows once they are done; and whatever they have done so far, they can
    be done. -/
theorem cleanup_order_independent {w : World} {d : InstanceServer} {ts ts' : List Task}
    (hd : w.incusDaemon = some d) (hfree : w.muCreate = .free) (hown : NamesOwn w.db ts)
    (hsame : ∀ p, p ∈ ts ↔ p ∈ ts') {s s' : Conc.Sys Op Ret World Task}
    (hrun : cleaning.Run (Machine.Moves Reliable) (assigned w ts) s)
    (hrun' : cleaning.Run (Machine.Moves Reliable) (assigned w ts') s') :
    (Machine.Finished s → Machine.Finished s' →
      s.world.instances = s'.world.instances ∧ s.world.db = s'.world.db) ∧
    ∃ s₁, cleaning.Run (Machine.Moves Reliable) s s₁ ∧ Machine.Finished s₁ := by
  refine ⟨fun hfin hfin' => ?_, complete_run hown hd hfree hrun⟩
  have hown' : NamesOwn w.db ts' := fun id name a hp => hown id name a ((hsame _).mpr hp)
  obtain ⟨hinstances, hdb⟩ := settled hown hd hfree hrun hfin
  obtain ⟨hinstances', hdb'⟩ := settled hown' hd hfree hrun' hfin'
  have hspared : spared ts w d = spared ts' w d := by
    funext i
    unfold spared condemned
    rw [any_congr hsame]
  have hending : ending ts = ending ts' := by
    funext id
    exact any_congr hsame _
  exact ⟨by rw [hinstances, hinstances', hspared], by rw [hdb, hdb', hending]⟩

/-- A server with the sessions `a` and `b`, and an instance `c` without a row. -/
def untidyWorld : World :=
  let w := smallWorld [("a", "10.0.0.1"), ("b", "10.0.0.2")]
  { w with
    incusDaemon := some ⟨"default", ""⟩
    db := (w.db.updateId 1 (Session.claim 0 0 "" "")).updateId 2 (Session.claim 0 0 "" "")
    instances := w.instances ++ [container "c" "10.0.0.3"] }

/-- Session `a` ends twice while a resync goes on, or once before it. -/
theorem cleanup_order_independent_small : ∃ s s',
    (cleaning.Run (Machine.Moves Reliable)
      (assigned untidyWorld [.cleanup 1 "tryit-a", .resync, .cleanup 1 "tryit-a"]) s ∧
      Machine.Finished s) ∧
    (cleaning.Run (Machine.Moves Reliable)
      (assigned untidyWorld [.cleanup 1 "tryit-a", .resync]) s' ∧ Machine.Finished s') ∧
    s.world.instances = s'.world.instances ∧ s.world.db = s'.world.db := by
  have hrows : ∀ r ∈ untidyWorld.db.sessions.rows, r.1 = 1 → r.2.instanceName = "tryit-a" := by
    decide +kernel
  have hown : ∀ ts : List Task, (∀ p ∈ ts, p = .cleanup 1 "tryit-a" ∨ p = .resync) →
      NamesOwn untidyWorld.db ts := by
    intro ts hts id name a hp ha
    rcases hts _ hp with heq | heq
    · cases heq
      exact hrows (1, a) ha rfl
    · cases heq
  obtain ⟨s, hrun, hfin⟩ := complete_run (hown [.cleanup 1 "tryit-a", .resync, .cleanup 1 "tryit-a"]
    (by simp)) (d := ⟨"default", ""⟩) rfl rfl .refl
  obtain ⟨s', hrun', hfin'⟩ := complete_run (hown [.cleanup 1 "tryit-a", .resync] (by simp))
    (d := ⟨"default", ""⟩) rfl rfl .refl
  have hsame := (cleanup_order_independent (d := ⟨"default", ""⟩) rfl rfl (hown _ (by simp))
    (by simp [or_comm]) hrun hrun').1 hfin hfin'
  exact ⟨s, s', ⟨hrun, hfin⟩, ⟨hrun', hfin'⟩, hsame⟩

end IncusDemo
