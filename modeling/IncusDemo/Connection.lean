/-
  IncusDemo.Connection

  The global `incusDaemon` is nil until the startup goroutine has connected.
  Handlers run from the first moment on, so every one of them that uses the
  connection has to ask first; the callbacks, the resyncs and the allocations
  never ask, and rely on being started only once the connection is there.

  What a thread relies on: once it knows that the connection is made (it has
  read or published one, or it is one of the threads that start later), it does
  not read nil.  What it guarantees: it starts such threads, and arms their
  timers, only when it knows so.  That nobody uses a nil connection follows for
  all programs alike (`linked_meets`).
-/

import IncusDemo.Conc.Contract
import IncusDemo.Placement

namespace IncusDemo

open Go Conc Conc.Contract

-- ============================================================================
-- The contract
-- ============================================================================

/-- The threads that start only once the connection is made. -/
def Proc.attached : Proc → Bool
  | .preAllocate | .cleanup .. | .allocateTimeout .. | .hourlyResync => true
  | _ => false

/-- The thread knows that the connection is made. -/
def Linked (p : Proc) (l : Log) : Prop :=
  p.attached = true ∨ (∃ d, ⟨.incusDaemon, some d⟩ ∈ l) ∨ ∃ d r, ⟨.setIncusDaemon (some d), r⟩ ∈ l

/-- The thread has just read a nil connection. -/
def ReadNil (l : Log) : Prop := ∃ l', l = ⟨.incusDaemon, none⟩ :: l'

/-- Who knows that the connection is made does not read nil. -/
def Unbroken (p : Proc) (l : Log) : (o : Op) → Ret o → Prop
  | .incusDaemon, d => Linked p l → d ≠ none
  | _, _ => True

/-- A nil connection is not used, and what relies on the connection is started by those who know
    that it is made. -/
def Cautious (p : Proc) (l : Log) : Op → Prop
  | .halt => ¬ ReadNil l
  | .go q => q.attached = true → Linked p l
  | .afterFunc _ _ => Linked p l
  | _ => True

/-- The contract about `incusDaemon`. -/
def attachment : Contract Op Ret Proc := ⟨Unbroken, Cautious, fun _ _ => True⟩

section Contract

variable {p : Proc} {l : Log} {e : Event} {α : Type}

theorem Linked.cons (h : Linked p l) : Linked p (e :: l) := by
  rcases h with h | ⟨d, h⟩ | ⟨d, r, h⟩
  · exact .inl h
  · exact .inr (.inl ⟨d, List.mem_cons_of_mem _ h⟩)
  · exact .inr (.inr ⟨d, r, List.mem_cons_of_mem _ h⟩)

theorem not_readNil_cons (h : ∀ d : Option InstanceServer, e = ⟨.incusDaemon, d⟩ → d ≠ none) :
    ¬ ReadNil (e :: l) := by
  rintro ⟨l', heq⟩
  exact h none (List.cons.inj heq).1 rfl

/-- Whatever a thread does once it knows that the connection is made. -/
theorem linked_meets (prog : Prog α) (h : Linked p l) (hnil : ¬ ReadNil l) :
    attachment.Meets p prog (fun _ l' => Linked p l' ∧ ¬ ReadNil l') l := by
  refine meets_of_invariant (I := fun l => Linked p l ∧ ¬ ReadNil l) prog ?_ ?_ ⟨h, hnil⟩
  · intro l o hl
    cases o with
    | halt => exact hl.2
    | go q => exact fun _ => hl.1
    | afterFunc d q => exact hl.1
    | _ => trivial
  · intro l o r hl hrely
    refine ⟨hl.1.cons, not_readNil_cons fun d hd => ?_⟩
    cases hd
    exact hrely hl.1

/-- Operations that ask nothing of the connection, and nothing of `muCreate`. -/
def Op.detached : Op → Bool
  | .halt | .afterFunc .. | .rLock | .rUnlock _ | .announce | .lock | .unlock => false
  | .setIncusDaemon _ | .call .. | .wait .. | .execReturn .. => false
  | .go q => !q.attached
  | _ => true

/-- The program performs no other operations. -/
abbrev Detached {α : Type} (prog : Prog α) : Prop := prog.Performs fun o => o.detached = true

/-- A program that has nothing to do with the connection. -/
theorem detached_meets {prog : Prog α} (h : Detached prog) :
    attachment.Meets p prog (fun _ _ => True) l := by
  refine meets_of_performs (I := fun _ => True) h ?_ (fun _ _ _ _ _ _ => trivial) trivial
  intro l o _ ho
  cases o with
  | halt | afterFunc _ _ => cases ho
  | go q =>
    intro hq
    simp [Op.detached, hq] at ho
  | _ => trivial

theorem detached_of_answers {o : Op} (h : o.answers = true) : o.detached = true := by
  cases o <;> first | rfl | cases h

theorem answers_meets {prog : Prog α} (h : Answers prog) :
    attachment.Meets p prog (fun _ _ => True) l :=
  detached_meets (h.mono fun _ => detached_of_answers)

/-- A handler that asks for the connection, and goes on only when there is one. -/
theorem guarded_meets {b : ServerConfig → Prop} [DecidablePred b] {refuse go : Prog Unit}
    (hrefuse : Answers refuse) :
    attachment.Meets p (do
      let c ← perform .config
      let d ← perform .incusDaemon
      if b c ∨ d = none then refuse else go) (fun _ _ => True) l := by
  refine meets_then trivial fun c _ => meets_then trivial fun d _ => meets_ite ?_ ?_
  · exact fun _ => answers_meets hrefuse
  · intro h
    rw [not_or] at h
    obtain ⟨d, rfl⟩ := Option.ne_none_iff_exists'.mp h.2
    refine meets_mono (fun _ _ _ => trivial) (linked_meets _ ?_ ?_)
    · exact .inr (.inl ⟨d, List.mem_cons_self⟩)
    · exact not_readNil_cons fun d' hd => by cases hd; exact Option.some_ne_none d

end Contract

-- ============================================================================
-- The code keeps it
-- ============================================================================

section Bodies

variable {p : Proc} {l : Log}

theorem httpError_answers (text : String) (code : Nat) : Answers (perform (.httpError text code)) :=
  Conc.Prog.performs_perform rfl

theorem restFeedbackPostHandler_detached (r : FeedbackRequest) :
    Detached (restFeedbackPostHandler r) := by
  have herror : ∀ text code, Detached (perform (.httpError text code)) := fun _ _ =>
    Prog.performs_perform rfl
  unfold restFeedbackPostHandler
  refine Prog.performs_then rfl fun _ => Prog.performs_then rfl fun _ => ?_
  refine Prog.performs_ite (herror _ _) (Prog.performs_then rfl fun found => ?_)
  rcases found with e | (_ | f)
  · exact herror _ _
  · exact herror _ _
  · refine Prog.performs_then rfl fun now => Prog.performs_then rfl fun c => ?_
    refine Prog.performs_ite (herror _ _) ?_
    split
    · exact herror _ _
    · rename_i feedback
      refine Prog.Performs.bind ?_ fun recorded => ?_
      · unfold dbRecordFeedback
        refine Prog.performs_then rfl fun found => ?_
        rcases found with e | (_ | f)
        · exact Prog.performs_pure _
        · exact Prog.performs_perform rfl
        · exact Prog.performs_perform rfl
      · cases recorded with
        | error e => exact herror _ _
        | ok _ =>
          refine Prog.performs_then rfl fun c => ?_
          exact Prog.performs_ite (Prog.performs_perform rfl) (Prog.performs_pure _)

/-- Of the handlers of the other endpoints only `restInfoHandler` uses the connection. -/
theorem restHandler_detached {q : RestRequest} (hq : ∀ r, q ≠ .info r) :
    Detached (restHandler q) := by
  have hanswers : ∀ {prog : Prog Unit}, Answers prog → Detached prog := fun h =>
    h.mono fun _ => detached_of_answers
  cases q with
  | status r => exact hanswers (restStatusHandler_answers r)
  | terms r => exact hanswers (restTermsHandler_answers r)
  | statistics r => exact hanswers (restStatisticsHandler_answers r)
  | info r => exact absurd rfl (hq r)
  | feedback r =>
    by_cases h : r.method = "POST"
    · change Detached (restFeedbackHandler r)
      unfold restFeedbackHandler
      refine Prog.performs_then rfl fun c => Prog.performs_ite (Prog.performs_perform rfl) ?_
      rw [if_pos h]
      exact restFeedbackPostHandler_detached r
    · exact hanswers (restFeedbackHandler_answers h)

theorem proxyHandle_detached (target : String) : Detached (proxyHandle target) := by
  unfold proxyHandle
  refine Prog.performs_then rfl fun r => ?_
  cases r with
  | error e => exact Prog.performs_pure _
  | ok _ =>
    refine Prog.performs_then rfl fun found => ?_
    rcases found with e | (_ | row)
    · exact Prog.performs_pure _
    · exact Prog.performs_pure _
    · exact Prog.performs_ite (Prog.performs_pure _)
        (Prog.performs_then rfl fun _ => Prog.performs_pure _)

theorem emailFeedback_detached (feedback : Feedback) : Detached (emailFeedback feedback) := by
  unfold emailFeedback
  refine Prog.performs_ite (Prog.performs_pure _) (Prog.performs_then rfl fun c => ?_)
  exact Prog.performs_then rfl fun c => Prog.performs_then rfl fun _ => Prog.performs_pure _

theorem restHandler_meets (q : RestRequest) :
    attachment.Meets p (restHandler q) (fun _ _ => True) l := by
  by_cases hq : ∃ r, q = .info r
  · obtain ⟨r, rfl⟩ := hq
    change attachment.Meets p (restInfoHandler r) _ l
    unfold restInfoHandler
    exact meets_ite (fun _ => answers_meets (httpError_answers _ _)) fun _ =>
      guarded_meets (httpError_answers _ _)
  · exact detached_meets (restHandler_detached fun r hr => hq ⟨r, hr⟩)

/-- The loop that connects ends with a connection published. -/
theorem connectLoop_meets (rounds : Nat) (hnil : ¬ ReadNil l) :
    attachment.Meets p (connectLoop rounds) (fun _ l' => Linked p l' ∧ ¬ ReadNil l') l := by
  induction rounds generalizing l with
  | zero => exact meets_then hnil fun stuck => Empty.elim stuck
  | succ rounds ih =>
    unfold connectLoop
    refine meets_then trivial fun c _ => meets_then trivial fun r _ => ?_
    cases r with
    | ok d =>
      refine meets_then trivial fun r _ => meets_pure ⟨?_, not_readNil_cons (by simp)⟩
      exact .inr (.inr ⟨d, r, List.mem_cons_self⟩)
    | error e =>
      exact meets_then trivial fun _ _ => meets_then trivial fun _ _ =>
        ih (not_readNil_cons (by simp))

theorem connect_meets : attachment.Meets p connect (fun _ _ => True) l := by
  unfold connect
  refine meets_then trivial fun rounds _ => ?_
  refine meets_seq (connectLoop_meets rounds (not_readNil_cons nofun)) fun d l' hl' => ?_
  exact meets_mono (fun _ _ _ => trivial) (linked_meets _ hl'.1 hl'.2)

/-- Every body keeps the contract. -/
theorem body_attachment (p : Proc) : Machine.Honours attachment (server.start p) := by
  intro _
  change attachment.Meets p (body p) (fun _ _ => True) []
  have hnil : ¬ ReadNil [] := fun ⟨_, h⟩ => nomatch h
  have hattached : p.attached = true → attachment.Meets p (body p) (fun _ _ => True) [] :=
    fun h => meets_mono (fun _ _ _ => trivial) (linked_meets _ (.inl h) hnil)
  cases p with
  | preAllocate | cleanup _ _ | allocateTimeout _ _ | hourlyResync => exact hattached rfl
  | connect => exact connect_meets
  | rest q => exact restHandler_meets q
  | restStart r =>
    change attachment.Meets _ (restStartHandler r) _ _
    unfold restStartHandler
    exact meets_ite (fun _ => answers_meets (httpError_answers _ _)) fun _ =>
      guarded_meets (httpError_answers _ _)
  | console r =>
    change attachment.Meets _ (restConsoleHandler r) _ _
    unfold restConsoleHandler
    exact meets_ite (fun _ => answers_meets (httpError_answers _ _)) fun _ =>
      guarded_meets (httpError_answers _ _)
  | proxy target => exact detached_meets (proxyHandle_detached target)
  | email feedback => exact detached_meets (emailFeedback_detached feedback)

end Bodies

-- ============================================================================
-- The process
-- ============================================================================

/-- What the threads of a process go by: nothing is published before the loop has connected, and
    whoever takes the connection for made finds one. -/
structure Connected (s : Sys) : Prop where
  one : OneConnect s
  connecting : ∀ t l, Runs s t .connect l → publication l = .connecting →
    s.world.incusDaemon = none
  linked : ∀ t p l, Runs s t p l → Linked p l → s.world.incusDaemon ≠ none
  armed : ∀ tm ∈ s.world.timers, s.world.incusDaemon ≠ none

section Process

variable {s s' : Sys} {t : Nat} {p : Proc} {l : Log} {e : Event}

theorem publication_connecting (h : publication (e :: l) = .connecting) :
    publication l = .connecting := by
  rw [publication_cons] at h
  unfold Publication.next at h
  split at h
  · split at h <;> first | assumption | cases h
  · split at h
    · split at h <;> cases h
    · exact h
  · exact h

/-- Once there is a connection, no step takes it away. -/
theorem Connected.kept (h : Connected s) (hm : ThreadStep s t p l e s')
    (hd : s.world.incusDaemon ≠ none) : s'.world.incusDaemon ≠ none := by
  rw [hm.did.incusDaemon]
  obtain ⟨o, r⟩ := e
  cases o with
  | setIncusDaemon d =>
    obtain ⟨rfl, hmay⟩ := hm.allowed
    cases hmay with
    | failed hpub => exact absurd (h.connecting t l hm.runs hpub) hd
    | connected | project | target => exact Option.some_ne_none _
  | _ => exact hd

theorem Connected.threadStep (h : Connected s) (hok : Cautious p l e.op)
    (hm : ThreadStep s t p l e s') : Connected s' := by
  -- what the moving thread knows is so
  have hmover : Linked p l → s.world.incusDaemon ≠ none := h.linked t p l hm.runs
  refine ⟨h.one.threadStep hm, fun u m hr hpub => ?_, fun u q m hr hq => ?_, fun tm htm => ?_⟩
  · rcases hm.runs_cases u _ m hr with ⟨rfl, hp, rfl⟩ | ⟨hu, hr⟩ | ⟨-, -, hq⟩
    · subst hp
      have hbefore := publication_connecting hpub
      have hnone := h.connecting u l hm.runs hbefore
      rw [hm.did.incusDaemon]
      obtain ⟨o, r⟩ := e
      cases o with
      | setIncusDaemon d =>
        cases d with
        | none => rfl
        | some d =>
          rw [publication_cons, hbefore] at hpub
          cases hpub
      | _ => exact hnone
    · have hnone := h.connecting u m hr hpub
      rw [hm.did.incusDaemon]
      obtain ⟨o, r⟩ := e
      cases o with
      | setIncusDaemon d =>
        obtain ⟨rfl, -⟩ := hm.allowed
        exact absurd (h.one.unique u t m l hr hm.runs) hu
      | _ => exact hnone
    · rcases spawn_cases hm.allowed hq with heq | heq | ⟨f, heq⟩ <;> cases heq
  · rcases hm.runs_cases u q m hr with ⟨rfl, rfl, rfl⟩ | ⟨-, hr⟩ | ⟨-, rfl, hspawn⟩
    · by_cases hl : Linked q l
      · exact h.kept hm (hmover hl)
      · -- the step is the one from which the thread knows it
        rcases hq with hq | ⟨d, hd⟩ | ⟨d, r, hd⟩
        · exact absurd (.inl hq) hl
        · rcases List.mem_cons.mp hd with rfl | hd
          · refine h.kept hm fun hnone => ?_
            cases (hm.did.truthful : some d = s.world.incusDaemon).trans hnone
          · exact absurd (.inr (.inl ⟨d, hd⟩)) hl
        · rcases List.mem_cons.mp hd with rfl | hd
          · rw [hm.did.incusDaemon]
            exact Option.some_ne_none d
          · exact absurd (.inr (.inr ⟨d, r, hd⟩)) hl
    · exact h.kept hm (h.linked u q m hr hq)
    · obtain ⟨o, r⟩ := e
      cases o with
      | go q' =>
        cases List.mem_singleton.mp hspawn
        rcases hq with hq | ⟨d, hd⟩ | ⟨d, r, hd⟩
        · exact h.kept hm (hmover (hok hq))
        · cases hd
        · cases hd
      | _ => cases hspawn
  · rcases hm.timer_cases htm with htm | ⟨d, rfl, -⟩
    · exact h.kept hm (h.armed tm htm)
    · exact h.kept hm (hmover hok)

theorem Connected.envStep {e : Env} (h : Connected s) (hs : server.Step s (.env e) s') :
    Connected s' := by
  have hm := env_step hs
  have hone := h.one.envStep hs
  cases h.one.process hs with
  | goesOn hd hconnect =>
    refine ⟨hone, fun u m hr hpub => ?_, fun u q m hr hq => ?_, fun tm htm => ?_⟩
    · rw [hd]
      exact h.connecting u m (hconnect u m hr) hpub
    · rw [hd]
      rcases hm.runs_cases u q m hr with hr | ⟨rfl, hstart⟩
      · exact h.linked u q m hr hq
      · cases hstart with
        | timer tm htm hcb hdue => exact h.armed tm htm
        | restStart | rest | console | proxy | connect =>
          subst q
          rcases hq with hq | ⟨d, hd⟩ | ⟨d, r, hd⟩ <;> first | cases hq | cases hd
    · rw [hd]
      exact h.armed tm (hm.timers tm htm)
  | replaced hd ht hall =>
    refine ⟨hone, fun _ _ _ _ => hd, fun u q m hr hq => ?_, fun tm htm => ?_⟩
    · obtain ⟨rfl, rfl⟩ := hall u q m hr
      rcases hq with hq | ⟨d, hd⟩ | ⟨d, r, hd⟩ <;> first | cases hq | cases hd
    · rw [ht] at htm
      cases htm

theorem Initial.connected (h : Initial s) : Connected s where
  one := h.oneConnect
  connecting := fun _ _ _ _ => h.1
  linked := by
    intro t p l hr hl
    obtain ⟨rfl, rfl⟩ := h.ran hr.ran
    rcases hl with hl | ⟨d, hd⟩ | ⟨d, r, hd⟩ <;> first | cases hl | cases hd
  armed := fun tm htm => by rw [h.2.2.1] at htm; cases htm

/-- In a connected process the answers are as the threads rely on. -/
theorem Connected.reliable (h : Connected s) {lb : Label} (hs : server.Step s lb s') :
    Machine.Reliable attachment s lb := by
  cases hs with
  | env _ => trivial
  | thread hth halive hprog hexec =>
    rename_i t th o k c r w
    intro th' hth'
    cases hth.symm.trans hth'
    cases o with
    | incusDaemon =>
      intro hl hnone
      refine h.linked t _ _ ⟨th, hth, halive, rfl, rfl⟩ hl ?_
      have hdid : Did s.world t ⟨.incusDaemon, r⟩ w := exec_did hexec
      have hread : r = s.world.incusDaemon := hdid.truthful
      exact hread.symm.trans hnone
    | _ => trivial

/-- Every state of a run is connected, and its threads keep the contract. -/
theorem attachment_run {C : Sys → Label → Prop} {s₀ : Sys} (h0 : Initial s₀)
    (hrun : server.Run C s₀ s) : Machine.AllHonour attachment s ∧ Sound s ∧ Connected s := by
  refine Machine.Run.honours (I := fun s => Sound s ∧ Connected s) body_attachment
    (fun s lb s' hI _ hs => hI.2.reliable hs) ?_
    (.of_started body_attachment h0.allStart) ⟨h0.sound, h0.connected⟩ hrun
  intro s lb s' hI _ _ hok hs
  refine ⟨hI.1.step hs, ?_⟩
  cases lb with
  | env e => exact hI.2.envStep hs
  | thread t e =>
    obtain ⟨p, l, hm⟩ := thread_step hI.1.follow hs
    refine hI.2.threadStep ?_ hm
    obtain ⟨th, hth, -, -, rfl, rfl⟩ := hm.busy
    exact hok th hth

end Process

-- ============================================================================
-- Nobody uses a nil connection
-- ============================================================================

/-- Thread `t` is about to use the nil connection that it has just read. -/
def NilDereference (s : Sys) (t : Nat) : Prop :=
  ∃ th k, s.threads[t]? = some th ∧ th.alive = true ∧ ReadNil th.log ∧ th.prog = .op .halt k

/-- In no run does a thread use `incusDaemon` while it is nil: not a request that comes before the
    connection is made, not a callback of a session of the process before, and not a resync. -/
theorem no_nil_dereference {s₀ s : Sys} (h0 : Initial s₀) (hrun : server.Run Machine.anyStep s₀ s)
    (t : Nat) : ¬ NilDereference s t := by
  rintro ⟨th, k, hth, halive, hnil, hprog⟩
  exact ((attachment_run h0 hrun).1 t th hth).op halive hprog hnil

/-- A start request comes while the process is still connecting, and reads nil. -/
theorem no_nil_dereference_early : ∃ s, server.Run Machine.anyStep (emptyServer 0) s ∧
    ¬ NilDereference s 1 ∧
    (s.threads[1]?.any fun th => th.log.any fun
      | ⟨.incusDaemon, none⟩ => true
      | _ => false) = true := by
  obtain ⟨s, hrun, hs⟩ := server.run_of_check Machine.noTest (fun _ _ _ => trivial) (emptyServer 0)
    (oks 0 2 ++ act (.request (startRequest "192.0.2.1")) ++ oks 1 2) (fun s =>
      s.threads[1]?.any fun th => th.log.any fun
        | ⟨.incusDaemon, none⟩ => true
        | _ => false) (by decide +kernel)
  exact ⟨s, hrun, no_nil_dereference (emptyServer_initial 0) hrun 1, hs⟩

end IncusDemo
