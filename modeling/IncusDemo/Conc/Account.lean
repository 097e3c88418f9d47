/-
  IncusDemo.Conc.Account

  Amounts that the threads of a system count for.  A thread counts for what its
  program and its log say, as long as it has something left to do.  A step of a
  thread changes its own share and adds those of the threads that it starts
  (`total_thread`).
-/

import IncusDemo.Conc.System
import Mathlib.Algebra.GroupWithZero.Nat

namespace IncusDemo
namespace Conc

variable {Op : Type} {Ret : Op → Type} {World Choice Env Proc : Type}

/-- The program has something left to do. -/
def Prog.goesOn {α : Type} : Prog Op Ret α → Bool
  | .ret _ => false
  | .op _ _ => true

/-- The thread has something left to do. -/
def Thread.running (th : Thread Op Ret Proc) : Bool := th.alive && th.prog.goesOn

/-- What the thread counts for. -/
def Thread.share (f : Proc → Log Op Ret → Nat) (th : Thread Op Ret Proc) : Nat :=
  if th.running then f th.proc th.log else 0

/-- What the threads count for together. -/
def Sys.total (f : Proc → Log Op Ret → Nat) (s : Sys Op Ret World Proc) : Nat :=
  (s.threads.map (Thread.share f)).sum

theorem Thread.running_of_op {th : Thread Op Ret Proc} {o : Op} {k : Ret o → Prog Op Ret Unit}
    (halive : th.alive = true) (hprog : th.prog = .op o k) : th.running = true := by
  simp [Thread.running, halive, hprog, Prog.goesOn]

theorem Thread.share_of_running {f : Proc → Log Op Ret → Nat} {th : Thread Op Ret Proc}
    (h : th.running = true) : th.share f = f th.proc th.log := if_pos h

/-- The sum after one entry has changed. -/
theorem sum_map_set {α : Type} {l : List α} {i : Nat} {a : α} (h : l[i]? = some a) (b : α)
    (g : α → Nat) : ((l.set i b).map g).sum + g a = (l.map g).sum + g b := by
  induction l generalizing i with
  | nil => simp at h
  | cons c l ih =>
    cases i with
    | zero =>
      simp only [List.getElem?_cons_zero, Option.some.injEq] at h
      subst h
      simp only [List.set_cons_zero, List.map_cons, List.sum_cons]
      omega
    | succ i =>
      simp only [List.getElem?_cons_succ] at h
      have hrest := ih h
      simp only [List.set_cons_succ, List.map_cons, List.sum_cons]
      omega

namespace Machine

variable {M : Machine Op Ret World Choice Env Proc} {f : Proc → Log Op Ret → Nat}
  {s s' : Sys Op Ret World Proc}

/-- The total after a step of thread `t`: its share has changed, and the threads that it has
    started count as well. -/
theorem total_thread {t : Nat} {e : Event Op Ret} (hs : M.Step s (.thread t e) s') :
    ∃ th th', s.threads[t]? = some th ∧ th.alive = true ∧ s'.threads[t]? = some th' ∧
      th'.alive = true ∧ th'.proc = th.proc ∧ th'.log = e :: th.log ∧
      s'.total f + f th.proc th.log =
        s.total f + th'.share f + ((M.spawn e.op).map fun q => (M.start q).share f).sum := by
  cases hs with
  | thread hth halive hprog hexec =>
    rename_i th o k c r w
    refine ⟨th, { th with log := ⟨o, r⟩ :: th.log, prog := k r }, hth, halive,
      M.get_advance_self hth, halive, rfl, rfl, ?_⟩
    have hset := sum_map_set hth { th with log := ⟨o, r⟩ :: th.log, prog := k r } (Thread.share f)
    rw [Thread.share_of_running (Thread.running_of_op halive hprog)] at hset
    simp only [Sys.total, advance, List.map_append, List.sum_append, List.map_map]
    have hspawn : Thread.share f ∘ M.start = fun q => (M.start q).share f := rfl
    rw [hspawn]
    omega

variable (M) in
/-- The environment lowers the total only when it stops the process. -/
theorem total_env (w : World) (ps : List Proc) :
    s.total f ≤ (⟨w, M.after s.threads false ps⟩ : Sys Op Ret World Proc).total f := by
  simp only [Sys.total, after, Bool.false_eq_true, if_false, List.map_append, List.sum_append]
  exact Nat.le_add_right _ _

end Machine
end Conc
end IncusDemo
