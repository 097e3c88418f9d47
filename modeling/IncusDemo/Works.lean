/-
  IncusDemo.Works

  The operations with which instances are made, started and removed.  They
  touch no row, start no thread, arm no timer, and tell a client no more than
  how far they are.
-/

import IncusDemo.Start

namespace IncusDemo

open Go Conc Conc.Prog

/-- A message of `statusUpdate`. -/
def progress : JsonObject → Bool
  | [(key, .str _)] => key == "message"
  | _ => false

/-- The operations of a function that makes, starts or removes an instance. -/
def Op.works : Op → Bool
  | .config | .incusDaemon | .rLock | .rUnlock _ | .sleep _ | .newRandom | .halt | .call _ _
  | .wait _ _ | .execReturn _ _ | .flush => true
  | .encode body => progress body
  | _ => false

/-- The program performs no other operations. -/
abbrev Works {α : Type} (prog : Prog α) : Prop := prog.Performs fun o => o.works = true

theorem message_of_works {body : JsonObject} (h : progress body = true) :
    ∃ msg, body = [("message", .str msg)] := by
  unfold progress at h
  split at h
  · rename_i key msg
    cases beq_iff_eq.mp h
    exact ⟨msg, rfl⟩
  · cases h

theorem daemon_works : Works daemon := by
  unfold daemon
  refine performs_then rfl fun d => ?_
  cases d with
  | none => exact performs_then rfl fun stuck => nomatch stuck
  | some d => exact performs_pure d

theorem forceDelete_works (name : String) : Works (forceDelete name) := by
  have hdelete : ∀ d, Works (deleteInstance d name) := by
    intro d
    unfold deleteInstance
    refine performs_then rfl fun r => ?_
    cases r with
    | error e => exact performs_pure _
    | ok _ => exact performs_perform rfl
  unfold forceDelete incusForceDelete
  refine daemon_works.bind fun d => Performs.bind ?_ fun _ => performs_pure _
  refine performs_then rfl fun r => ?_
  cases r with
  | error e => exact hdelete d
  | ok _ => exact performs_then rfl fun _ => hdelete d

/-- An instance is given up for an error. -/
theorem giveUp_works {α : Type} (name : String) (e : Error) :
    Works (do forceDelete name; pure (.error e) : Prog (Except Error α)) :=
  (forceDelete_works name).bind fun _ => performs_pure _

theorem statusUpdate_works (msg : String) : Works (StatusUpdate.notify (some statusUpdate) msg) :=
  performs_then rfl fun _ => performs_perform rfl

theorem noUpdate_works (msg : String) : Works (StatusUpdate.notify none msg) := performs_pure _

theorem waitAddress_works (name instanceType : String) (timeout : Nat) :
    Works (waitAddress name instanceType timeout) := by
  induction timeout with
  | zero => exact performs_pure _
  | succ timeout ih =>
    refine daemon_works.bind fun d => performs_then rfl fun r => ?_
    cases r with
    | error e => exact giveUp_works name e
    | ok net =>
      refine performs_then rfl fun c => performs_ite (performs_pure _) ?_
      exact performs_then rfl fun _ => ih

theorem waitReady_works (name : String) (timeout : Nat) : Works (waitReady name timeout) := by
  induction timeout with
  | zero => exact performs_pure _
  | succ timeout ih =>
    refine performs_then rfl fun _ => performs_then rfl fun c => daemon_works.bind fun d =>
      performs_then rfl fun r => ?_
    cases r with
    | error e => exact ih
    | ok _ =>
      refine performs_then rfl fun _ => performs_then rfl fun status => ?_
      split
      · exact performs_pure _
      · exact ih

theorem instanceStart_works (name : String) {su : StatusUpdate} (hsu : ∀ msg, Works (su.notify msg)) :
    Works (instanceStart name su) := by
  unfold instanceStart
  refine daemon_works.bind fun d => performs_then rfl fun r => ?_
  cases r with
  | error e => exact giveUp_works name e
  | ok ct =>
    refine performs_ite (performs_pure _) ((hsu _).bind fun _ => ?_)
    refine daemon_works.bind fun d => performs_then rfl fun r => ?_
    cases r with
    | error e => exact giveUp_works name e
    | ok _ =>
      refine performs_then rfl fun r => ?_
      cases r with
      | error e => exact giveUp_works name e
      | ok _ =>
        refine performs_then rfl fun _ => (hsu _).bind fun _ => ?_
        refine (waitAddress_works name ct.instanceType 30).bind fun r => ?_
        cases r with
        | error e => exact performs_pure _
        | ok ip =>
          refine performs_then rfl fun c => ?_
          exact performs_ite ((waitReady_works name 30).bind fun _ => performs_pure _) (performs_pure _)

theorem makeInstance_works (c : ServerConfig) (name : String) : Works (makeInstance c name) := by
  unfold makeInstance
  refine performs_ite ?_ ?_
  · refine daemon_works.bind fun d => performs_then rfl fun r => ?_
    cases r with
    | error e => exact performs_pure _
    | ok source =>
      refine daemon_works.bind fun d => performs_then rfl fun r => ?_
      cases r with
      | error e => exact performs_pure _
      | ok _ => exact performs_perform rfl
  · refine daemon_works.bind fun d => performs_then rfl fun r => ?_
    cases r with
    | error e => exact performs_pure _
    | ok _ => exact performs_perform rfl

theorem configureInstance_works (name username password : String) :
    Works (configureInstance name username password) := by
  unfold configureInstance
  refine daemon_works.bind fun d => performs_then rfl fun r => ?_
  cases r with
  | error e => exact giveUp_works name e
  | ok ct =>
    refine performs_then rfl fun c => daemon_works.bind fun d => performs_then rfl fun r => ?_
    cases r with
    | error e => exact giveUp_works name e
    | ok _ =>
      refine performs_then rfl fun r => ?_
      cases r with
      | error e => exact giveUp_works name e
      | ok _ => exact performs_pure _

theorem instanceCreate_works {su : StatusUpdate} (hsu : ∀ msg, Works (su.notify msg)) :
    Works (instanceCreate su) := by
  unfold instanceCreate
  refine performs_then rfl fun _ => Performs.bind ?_ fun r => performs_then rfl fun _ => performs_pure _
  unfold createLocked
  refine (hsu _).bind fun _ => performs_then rfl fun id => performs_then rfl fun pw =>
    performs_then rfl fun c => (makeInstance_works c _).bind fun r => ?_
  cases r with
  | error e => exact performs_pure _
  | ok _ =>
    refine (hsu _).bind fun _ => (configureInstance_works _ _ _).bind fun r => ?_
    cases r with
    | error e => exact performs_pure _
    | ok _ =>
      refine (instanceStart_works _ hsu).bind fun r => ?_
      cases r with
      | error e => exact giveUp_works _ e
      | ok ip => exact performs_then rfl fun c => performs_pure _

end IncusDemo
