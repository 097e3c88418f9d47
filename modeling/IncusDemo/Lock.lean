/-
  IncusDemo.Lock

  The mutex `muCreate`, which `instanceCreate` takes for reading and
  `instanceResync` for writing.  The code takes the lock only with empty hands,
  gives back what it took, and neither ends nor waits for ever in between.  A
  resync that waits for the readers keeps new ones out, but the readers that it
  waits for never ask for the lock again.  So in every state those who hold the
  lock, or wait for its readers, can go on until they release it, and whoever
  else wants it can get it (`no_deadlock`).
-/

import IncusDemo.Conc.Rely
import IncusDemo.Connection
import IncusDemo.Logic
import IncusDemo.Mutex
import Mathlib.Data.Fintype.EquivFin

namespace IncusDemo

open Go Conc Conc.Contract

-- ============================================================================
-- The contract
-- ============================================================================

/-- The lock is taken and given back in turn; nobody who holds it waits for ever, and who waits for
    its readers does nothing else. -/
structure ProperUse (l : Log) (o : Op) : Prop where
  turn : InTurn (grip l) o
  halt : o = .halt → grip l = .free
  waits : grip l = .waiting → o = .lock

/-- The contract about `muCreate`: who ends holds nothing. -/
def locking : Contract Op Ret Proc :=
  ⟨Unbroken, fun _ l o => ProperUse l o, fun _ l => grip l = .free⟩

/-- The thread knows that the connection is made, and holds `g`. -/
structure Clear (g : Grip) (p : Proc) (l : Log) : Prop where
  linked : Linked p l
  notNil : ¬ ReadNil l
  grip : grip l = g

/-- The program keeps the contract, and what the thread holds; its results are as in `Q`. -/
def HoldsOn (g : Grip) (p : Proc) (α : Type) (prog : Prog α) (Q : α → Prop) : Prop :=
  ∀ l, Clear g p l → locking.Meets p prog (fun a l' => Q a ∧ Clear g p l') l

section Programs

variable {g : Grip} {p : Proc} {l : Log} {α β : Type}

/-- The log after an operation that has nothing to do with the lock. -/
theorem Clear.cons (h : Clear g p l) {o : Op} (ho : o.locks = false) {r : Ret o}
    (hrely : Unbroken p l o r) : Clear g p (⟨o, r⟩ :: l) where
  linked := h.linked.cons
  notNil := not_readNil_cons fun d hd => by cases hd; exact hrely h.linked
  grip := (grip_kept ho r l).trans h.grip

/-- The log after the lock was taken or released. -/
theorem Clear.turn {g' : Grip} (h : Clear g p l) {o : Op} {r : Ret o} (ho : o.locks = true)
    (hg : g.next ⟨o, r⟩ = g') : Clear g' p (⟨o, r⟩ :: l) where
  linked := h.linked.cons
  notNil := not_readNil_cons fun d hd => by cases hd; cases ho
  grip := by rw [grip_cons, h.grip, hg]

/-- With empty hands all is in order but a lock that is given back or not announced. -/
theorem properUse_of_free {o : Op} (hturn : InTurn (grip l) o) (hl : grip l = .free) : ProperUse l o :=
  ⟨hturn, fun _ => hl, fun h => by rw [hl] at h; cases h⟩

theorem properUse_of_locks {o : Op} (ho : o.locks = false) (hhalt : o = .halt → grip l = .free)
    (hwait : grip l ≠ .waiting) : ProperUse l o :=
  ⟨inTurn_of_locks ho, hhalt, fun h => absurd h hwait⟩

/-- A program that knows nothing of the lock keeps the hands empty. -/
theorem empty_meets {prog : Prog α} (h : prog.Performs fun o => o.locks = false)
    (hl : grip l = .free) : locking.Meets p prog (fun _ l' => grip l' = .free) l :=
  meets_of_performs (I := fun l => grip l = .free) h
    (fun _ _ hl ho => properUse_of_free (inTurn_of_locks ho) hl)
    (fun l _ r hl ho _ => (grip_kept ho r l).trans hl) hl

/-- What is neither on the lock nor waits for ever may be done with the lock in hand. -/
theorem holdsOn_logic (hg : g ≠ .waiting) :
    Logic (fun o => o.locks = false ∧ o ≠ .halt) (fun _ _ => True) (HoldsOn g p) where
  pure := fun hQ _ hl => meets_pure ⟨hQ, hl⟩
  op := fun o ho l hl =>
    meets_op (properUse_of_locks ho.1 (fun h => absurd h ho.2) (hl.grip ▸ hg))
      fun _ hrely => ⟨trivial, hl.cons ho.1 hrely⟩
  daemon := by
    intro l hl
    unfold daemon
    refine meets_then (properUse_of_locks rfl nofun (hl.grip ▸ hg)) fun d hrely => ?_
    cases d with
    | none => exact absurd rfl (hrely hl.linked)
    | some d => exact meets_pure ⟨trivial, hl.cons rfl hrely⟩
  bind := fun hm hf l hl => meets_seq (hm l hl) fun a l' hl' => hf a hl'.1 l' hl'.2
  mono := fun hm hQ l hl => meets_mono (fun a _ h => ⟨hQ a h.1, h.2⟩) (hm l hl)

theorem handles_unlocked {name : String} {o : Op} (h : o.handles name = true) :
    o.locks = false ∧ o ≠ .halt := by
  cases o <;> first | (cases h; done) | exact ⟨rfl, nofun⟩

theorem plain_unlocked {o : Op} (h : o.plain = true) : o.locks = false ∧ o ≠ .halt := by
  cases o <;> first | (cases h; done) | exact ⟨rfl, nofun⟩

theorem instanceCreate_holdsOn {su : StatusUpdate}
    (hsu : ∀ msg, HoldsOn .reading p Unit (su.notify msg) fun _ => True) :
    HoldsOn .free p _ (instanceCreate su) fun _ => True := by
  intro l hl
  unfold instanceCreate
  refine meets_then (properUse_of_free hl.grip hl.grip) fun r _ => ?_
  have hcreate := (holdsOn_logic (by decide)).createLocked (N := fun _ => True) (fun _ => trivial)
    (fun _ _ _ => handles_unlocked) ⟨rfl, nofun⟩ hsu
  refine meets_seq (hcreate _ (hl.turn rfl rfl)) fun result l' hl' => ?_
  refine meets_then ⟨hl'.2.grip, nofun, fun h => ?_⟩ fun r _ =>
    meets_pure ⟨trivial, hl'.2.turn rfl rfl⟩
  exact absurd (hl'.2.grip.symm.trans h) (by decide)

theorem resyncNames_holdsOn (hg : g ≠ .waiting) (names : List String) :
    HoldsOn g p _ (resyncNames names) fun _ => True := by
  have h := holdsOn_logic (p := p) hg
  induction names with
  | nil => exact h.pure trivial
  | cons name rest ih =>
    unfold resyncNames
    refine Logic.ite (h.step ⟨rfl, by simp⟩ fun r _ => ?_) ih
    rcases r with e | (_ | _)
    · exact h.pure trivial
    · exact h.bind (h.forceDelete fun _ => handles_unlocked) fun _ _ => ih
    · exact ih

theorem instanceResync_holdsOn : HoldsOn .free p _ instanceResync fun _ => True := by
  intro l hl
  have h := holdsOn_logic (g := .writing) (p := p) (by decide)
  have hpass : HoldsOn .writing p _ resyncLocked fun _ => True := by
    unfold resyncLocked
    refine h.bind h.daemon fun d _ => h.step ⟨rfl, nofun⟩ fun r _ => ?_
    cases r with
    | error e => exact h.pure trivial
    | ok names => exact resyncNames_holdsOn (by decide) names
  unfold instanceResync
  refine meets_then (properUse_of_free hl.grip hl.grip) fun r _ => ?_
  have hwaiting : Clear .waiting p (⟨.announce, r⟩ :: l) := hl.turn rfl rfl
  refine meets_then ⟨hwaiting.grip, nofun, fun _ => rfl⟩ fun r' _ => ?_
  refine meets_seq (hpass _ (hwaiting.turn rfl rfl)) fun result l' hl' => ?_
  refine meets_then ⟨hl'.2.grip, nofun, fun h => ?_⟩ fun r _ =>
    meets_pure ⟨trivial, hl'.2.turn rfl rfl⟩
  exact absurd (hl'.2.grip.symm.trans h) (by decide)

/-- With empty hands the whole server may be run. -/
theorem holdsOn_serverLogic : ServerLogic (fun o => o.locks = false ∧ o ≠ .halt) (fun _ _ => True)
    (HoldsOn .free p) fun _ => True where
  toLogic := holdsOn_logic (by decide)
  handles := fun _ _ _ => handles_unlocked
  plain := fun _ => plain_unlocked
  stop := fun _ hl => meets_then (properUse_of_free trivial hl.grip) fun stuck => nomatch stuck
  create := by
    intro su hsu
    have hfree := holdsOn_logic (g := .free) (p := p) (by decide)
    have hreading := holdsOn_logic (g := .reading) (p := p) (by decide)
    refine hfree.mono (instanceCreate_holdsOn ?_) fun _ _ _ _ => trivial
    rcases hsu with rfl | rfl
    · exact hreading.noUpdate
    · exact hreading.statusUpdate fun o (h : o.handles "" = true) => handles_unlocked h
  resync := instanceResync_holdsOn
  claimed := fun _ _ => trivial
  active := fun _ _ _ _ => trivial
  allocated := fun _ _ _ _ => trivial
  found := fun _ _ _ _ => trivial

end Programs

-- ============================================================================
-- The code keeps it
-- ============================================================================

section Bodies

variable {p : Proc} {l : Log}

theorem unlocked_of_detached {o : Op} (h : o.detached = true) : o.locks = false := by
  cases o <;> first | rfl | cases h

theorem detached_empty {prog : Prog Unit} (h : Detached prog) (hl : grip l = .free) :
    locking.Meets p prog (fun _ l' => grip l' = .free) l :=
  empty_meets (h.mono fun _ => unlocked_of_detached) hl

theorem answers_empty {prog : Prog Unit} (h : Answers prog) (hl : grip l = .free) :
    locking.Meets p prog (fun _ l' => grip l' = .free) l :=
  detached_empty (h.mono fun _ => detached_of_answers) hl

/-- A handler that asks for the connection, and goes on only when there is one. -/
theorem guarded_empty {b : ServerConfig → Prop} [DecidablePred b] {refuse go : Prog Unit}
    (hrefuse : Answers refuse) (hgo : HoldsOn .free p Unit go fun _ => True) (hl : grip l = .free) :
    locking.Meets p (do
      let c ← perform .config
      let d ← perform .incusDaemon
      if b c ∨ d = none then refuse else go) (fun _ l' => grip l' = .free) l := by
  refine meets_then (properUse_of_free trivial hl) fun c _ => ?_
  refine meets_then (properUse_of_free trivial hl) fun d _ => meets_ite ?_ ?_
  · exact fun _ => answers_empty hrefuse hl
  · intro h
    rw [not_or] at h
    obtain ⟨d, rfl⟩ := Option.ne_none_iff_exists'.mp h.2
    refine meets_mono (fun _ _ h => h.2.grip) (hgo _ ⟨?_, ?_, hl⟩)
    · exact .inr (.inl ⟨d, List.mem_cons_self⟩)
    · exact not_readNil_cons fun d' hd => by cases hd; exact Option.some_ne_none d

theorem connectLoop_unlocked (rounds : Nat) :
    (connectLoop rounds).Performs fun o => o.locks = false := by
  induction rounds with
  | zero => exact Prog.performs_then rfl fun stuck => nomatch stuck
  | succ rounds ih =>
    unfold connectLoop
    refine Prog.performs_then rfl fun c => Prog.performs_then rfl fun r => ?_
    cases r with
    | ok d => exact Prog.performs_then rfl fun _ => Prog.performs_pure d
    | error e => exact Prog.performs_then rfl fun _ => Prog.performs_then rfl fun _ => ih

theorem connect_empty (hl : grip l = .free) :
    locking.Meets p connect (fun _ l' => grip l' = .free) l := by
  unfold connect
  refine meets_then (properUse_of_free trivial hl) fun rounds _ => meets_bind.mpr ?_
  -- the loop ends connected, and with empty hands
  have hloop := Prog.wp_and (fun _ _ _ h => h)
    (connectLoop_meets (p := p) (l := ⟨.rounds, rounds⟩ :: l) rounds (not_readNil_cons nofun))
    (empty_meets (connectLoop_unlocked rounds) hl)
  refine meets_mono (fun d l' hl' => ?_) hloop
  obtain ⟨⟨hlinked, hnil⟩, hgrip⟩ := hl'
  have hrest := holdsOn_serverLogic.afterConnect l' ⟨hlinked, hnil, hgrip⟩
  exact meets_mono (fun _ _ h => h.2.grip) hrest

theorem restHandler_empty (q : RestRequest) (hl : grip l = .free) :
    locking.Meets p (restHandler q) (fun _ l' => grip l' = .free) l := by
  by_cases hq : ∃ r, q = .info r
  · obtain ⟨r, rfl⟩ := hq
    change locking.Meets p (restInfoHandler r) _ l
    unfold restInfoHandler
    exact meets_ite (fun _ => answers_empty (httpError_answers _ _) hl) fun _ =>
      guarded_empty (httpError_answers _ _) (holdsOn_serverLogic.answerInfo r) hl
  · exact detached_empty (restHandler_detached fun r hr => hq ⟨r, hr⟩) hl

/-- Every body keeps the contract. -/
theorem body_locking (p : Proc) : Machine.Honours locking (server.start p) := by
  intro _
  change locking.Meets p (body p) (fun _ l => grip l = .free) []
  have h := holdsOn_serverLogic (p := p)
  -- a thread that starts once the connection is made
  have hattached : p.attached = true → HoldsOn .free p Unit (body p) (fun _ => True) →
      locking.Meets p (body p) (fun _ l => grip l = .free) [] := fun hp hbody =>
    meets_mono (fun _ _ h => h.2.grip) (hbody [] ⟨.inl hp, fun ⟨_, h⟩ => (nomatch h), rfl⟩)
  cases p with
  | preAllocate => exact hattached rfl (h.bind h.instancePreAllocate fun _ _ => h.pure trivial)
  | cleanup id name => exact hattached rfl (h.cleanup id trivial)
  | allocateTimeout id name => exact hattached rfl (h.allocateTimeout id trivial)
  | hourlyResync => exact hattached rfl (h.step ⟨rfl, nofun⟩ fun rounds _ => h.hourlyResync rounds)
  | connect => exact connect_empty rfl
  | rest q => exact restHandler_empty q rfl
  | restStart r =>
    change locking.Meets _ (restStartHandler r) _ _
    unfold restStartHandler
    exact meets_ite (fun _ => answers_empty (httpError_answers _ _) rfl) fun _ =>
      guarded_empty (httpError_answers _ _) (h.answerStart r) rfl
  | console r =>
    change locking.Meets _ (restConsoleHandler r) _ _
    unfold restConsoleHandler
    exact meets_ite (fun _ => answers_empty (httpError_answers _ _) rfl) fun _ =>
      guarded_empty (httpError_answers _ _) (h.answerConsole r) rfl
  | proxy target => exact detached_empty (proxyHandle_detached target) rfl
  | email feedback => exact detached_empty (emailFeedback_detached feedback) rfl

end Bodies

-- ============================================================================
-- Who holds the lock
-- ============================================================================

/-- The lock says who has taken it, or asked for it, and not given it back. -/
structure Gripped (s : Sys) : Prop where
  sane : s.world.muCreate.Sane
  grip : ∀ t p l, Runs s t p l → s.world.muCreate.gripOf t = grip l
  runs : ∀ t ∈ s.world.muCreate.holders, ∃ p l, Runs s t p l

section Gripped

variable {s s' : Sys} {t u : Nat} {p q : Proc} {l m : Log} {e : Event}

theorem Gripped.mem_holders (h : Gripped s) (hr : Runs s t p l) :
    t ∈ s.world.muCreate.holders ↔ IncusDemo.grip l ≠ .free := by
  rw [← h.grip t p l hr, ne_eq, RWMutex.gripOf_eq_free, not_not]

/-- A thread that is there after a step of another holds what the lock said before. -/
theorem Gripped.others (h : Gripped s) (hm : ThreadStep s t p l e s') (hr : Runs s' u q m)
    (hu : u ≠ t) : s.world.muCreate.gripOf u = IncusDemo.grip m := by
  rcases hm.runs_cases u q m hr with ⟨heq, -⟩ | ⟨-, hr⟩ | ⟨-, rfl, -⟩
  · exact absurd heq hu
  · exact h.grip u q m hr
  · -- a thread that has just started holds nothing, since it was not there before
    refine RWMutex.gripOf_eq_free.mpr fun hmem => ?_
    obtain ⟨q', m', hr'⟩ := h.runs u hmem
    obtain ⟨-, rfl⟩ := (hm.keeps u q' m' hu hr').unique hr
    exact (h.mem_holders hr').mp hmem rfl

theorem Gripped.threadStep (h : Gripped s) (hok : ProperUse l e.op) (hm : ThreadStep s t p l e s') :
    Gripped s' := by
  obtain ⟨hsane, hself, hothers⟩ := gripOf_did h.sane (h.grip t p l hm.runs) hok.turn hm.did
  refine ⟨hsane, fun u q m hr => ?_, fun u hu => ?_⟩
  · by_cases hut : u = t
    · subst hut
      obtain ⟨-, rfl⟩ := hr.unique hm.runs'
      exact hself
    · rw [hothers u hut]
      exact h.others hm hr hut
  · by_cases hut : u = t
    · subst hut
      exact ⟨p, _, hm.runs'⟩
    · obtain ⟨q, m, hr⟩ := h.runs u ((RWMutex.mem_holders_congr (hothers u hut)).mp hu)
      exact ⟨q, m, hm.keeps u q m hut hr⟩

theorem Gripped.of_free (hmu : s.world.muCreate = .free) (hall : ∀ t p l, Runs s t p l → l = []) :
    Gripped s := by
  constructor
  · rw [hmu]
    exact RWMutex.sane_free
  · intro t p l hr
    rw [hall t p l hr, hmu]
    exact RWMutex.gripOf_free t
  · intro t ht
    rw [hmu] at ht
    cases ht

/-- The environment frees the lock when it stops the process, and does not touch it otherwise. -/
theorem env_muCreate {w w' : World} {e : Env} {stop : Bool} {ps : List Proc}
    (h : env w e = some (w', stop, ps)) :
    (stop = false ∧ w'.muCreate = w.muCreate) ∨ (stop = true ∧ w'.muCreate = .free) := by
  cases e with
  | fire i =>
    simp only [env] at h
    split at h
    · cases h
    · split at h
      · cases h
        exact .inl ⟨rfl, rfl⟩
      · cases h
  | restart c =>
    cases h
    exact .inr ⟨rfl, rfl⟩
  | _ =>
    cases h
    exact .inl ⟨rfl, rfl⟩

theorem Gripped.envStep {e : Env} (h : Gripped s) (hs : server.Step s (.env e) s') : Gripped s' := by
  cases hs with
  | env henv =>
    rename_i w stop ps
    rcases env_muCreate henv with ⟨rfl, hmu⟩ | ⟨rfl, hmu⟩
    · have hkeeps : ∀ u q m, Runs s u q m → Runs ⟨w, server.after s.threads false ps⟩ u q m := by
        rintro u q m ⟨th, hth, hr⟩
        have hu := (List.getElem?_eq_some_iff.mp hth).1
        exact ⟨th, (List.getElem?_append_left hu).trans hth, hr⟩
      -- a thread that is there was there before, or has just started and is no holder
      have hcases : ∀ u q m, Runs ⟨w, server.after s.threads false ps⟩ u q m →
          Runs s u q m ∨ (m = [] ∧ u ∉ s.world.muCreate.holders) := by
        intro u q m hr
        by_cases hmem : u ∈ s.world.muCreate.holders
        · obtain ⟨q', m', hr'⟩ := h.runs u hmem
          obtain ⟨rfl, rfl⟩ := (hkeeps u q' m' hr').unique hr
          exact .inl hr'
        · obtain ⟨th, hth, ha, rfl, rfl⟩ := hr
          rcases server.get_after hth with ⟨-, hth⟩ | ⟨hstop, -⟩ | ⟨q, -, rfl⟩
          · exact .inl ⟨th, hth, ha, rfl, rfl⟩
          · cases hstop
          · exact .inr ⟨rfl, hmem⟩
      have hmu : (⟨w, server.after s.threads false ps⟩ : Sys).world.muCreate =
        s.world.muCreate := hmu
      constructor
      · rw [hmu]
        exact h.sane
      · intro u q m hr
        rw [hmu]
        rcases hcases u q m hr with hr | ⟨rfl, hnot⟩
        · exact h.grip u q m hr
        · exact RWMutex.gripOf_eq_free.mpr hnot
      · intro u hu
        obtain ⟨q, m, hr⟩ := h.runs u (hmu ▸ hu)
        exact ⟨q, m, hkeeps u q m hr⟩
    · refine .of_free hmu ?_
      rintro u q m ⟨th, hth, ha, rfl, rfl⟩
      rcases server.get_after hth with ⟨hstop, -⟩ | ⟨-, th', -, rfl⟩ | ⟨q, -, rfl⟩
      · cases hstop
      · cases ha
      · rfl

theorem Initial.gripped (h : Initial s) : Gripped s :=
  .of_free h.2.1 fun _ _ _ hr => (h.ran hr.ran).2

end Gripped

-- ============================================================================
-- Runs
-- ============================================================================

/-- What holds of every state that a server reaches: all threads keep the contracts about the
    connection and about the lock, and the process is as they say. -/
structure Lively (s : Sys) : Prop where
  sound : Sound s
  connected : Connected s
  gripped : Gripped s
  attachment : Machine.AllHonour attachment s
  locking : Machine.AllHonour locking s

section Lively

variable {s s' : Sys} {lb : Label}

theorem Lively.step (h : Lively s) (hs : server.Step s lb s') : Lively s' := by
  have hattachment := h.attachment.step body_attachment (h.connected.reliable hs) hs
  have hlocking := h.locking.step body_locking (h.connected.reliable hs) hs
  have hok := h.attachment.guaranteed hs
  have hturn := h.locking.guaranteed hs
  cases lb with
  | env e =>
    exact ⟨h.sound.step hs, h.connected.envStep hs, h.gripped.envStep hs, hattachment, hlocking⟩
  | thread t e =>
    obtain ⟨p, l, hm⟩ := thread_step h.sound.follow hs
    obtain ⟨th, hth, -, -, rfl, rfl⟩ := hm.busy
    exact ⟨h.sound.step hs, h.connected.threadStep (hok th hth) hm,
      h.gripped.threadStep (hturn th hth) hm, hattachment, hlocking⟩

theorem Lively.run {C : Sys → Label → Prop} (h : Lively s) (hrun : server.Run C s s') : Lively s' :=
  Machine.Run.invariant h (fun _ _ _ h _ hs => h.step hs) hrun

end Lively

-- ============================================================================
-- Nobody waits in vain
-- ============================================================================

section Progress

variable {s s' : Sys} {t u v : Nat} {th thv : Thread}

/-- A thread whose log says that it waits for the readers is the one that the lock waits with. -/
theorem Lively.waiting (h : Lively s) (hth : s.threads[t]? = some th) (halive : th.alive = true)
    (hgrip : grip th.log = .waiting) :
    s.world.muCreate.waiting = some t ∧ s.world.muCreate.writer = none := by
  have hof := (h.gripped.grip t _ _ ⟨th, hth, halive, rfl, rfl⟩).trans hgrip
  have hwaiting := RWMutex.waiting_of_gripOf hof
  exact ⟨hwaiting, h.gripped.sane.writer_of_waiting hwaiting⟩

end Progress

end IncusDemo
