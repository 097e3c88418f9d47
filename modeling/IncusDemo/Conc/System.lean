/-
  IncusDemo.Conc.System

  A process of many threads over one world.  Each thread runs a program tree;
  a step lets one thread perform its next operation, or lets the environment
  act (which may start threads, or stop the process and start it again).  A
  thread keeps the log of its own operations and their answers, so that a
  statement can say where a thread is.

  `Step` is the labelled step relation, `step` its executable form.  `Run C`
  are the runs all of whose steps meet `C`; `Run.invariant` is induction on
  them.  `Follows ok fin` says that a thread performs only operations its
  protocol `ok` allows after its log and ends as `fin` says; it is proved once
  for every body and then holds in every reachable state (`Run.follows`).
-/

import IncusDemo.Conc.Prog
import Mathlib.Logic.Relation

namespace IncusDemo
namespace Conc

/-- An operation together with its answer. -/
structure Event (Op : Type) (Ret : Op → Type) where
  op : Op
  ret : Ret op

/-- The operations of a thread, the last one first. -/
abbrev Log (Op : Type) (Ret : Op → Type) := List (Event Op Ret)

/-- A thread: what it runs, whether its process still exists, what it has done and what
    it has left to do. -/
structure Thread (Op : Type) (Ret : Op → Type) (Proc : Type) where
  proc : Proc
  alive : Bool
  log : Log Op Ret
  prog : Prog Op Ret Unit

/-- What operations do (`exec`), which of them start a thread (`spawn`), what a thread runs
    (`body`) and what the environment can do (`env`: the new world, whether the process is
    stopped by it, and the threads it starts). -/
structure Machine (Op : Type) (Ret : Op → Type) (World Choice Env Proc : Type) where
  exec : World → Nat → (o : Op) → Choice → Option (Ret o × World)
  spawn : Op → List Proc
  body : Proc → Prog Op Ret Unit
  env : World → Env → Option (World × Bool × List Proc)

/-- The state of the system. -/
structure Sys (Op : Type) (Ret : Op → Type) (World Proc : Type) where
  world : World
  threads : List (Thread Op Ret Proc)

/-- What a step is: an operation of a thread with its answer, or an act of the environment. -/
inductive Label (Op : Type) (Ret : Op → Type) (Env : Type) where
  | thread (t : Nat) (e : Event Op Ret)
  | env (e : Env)

/-- A scheduling decision, for running the system. -/
inductive Action (Choice Env : Type) where
  | thread (t : Nat) (c : Choice)
  | env (e : Env)

variable {Op : Type} {Ret : Op → Type} {World Choice Env Proc : Type}

/-- A thread of a stopped process. -/
def Thread.kill (th : Thread Op Ret Proc) : Thread Op Ret Proc :=
  { th with alive := false, prog := .ret () }

namespace Machine

variable (M : Machine Op Ret World Choice Env Proc)

/-- A new thread. -/
def start (p : Proc) : Thread Op Ret Proc := ⟨p, true, [], M.body p⟩

/-- The threads after thread `t`, which was `th`, got answer `r` to `o` and has `p` left. -/
def advance (threads : List (Thread Op Ret Proc)) (t : Nat) (th : Thread Op Ret Proc)
    (e : Event Op Ret) (p : Prog Op Ret Unit) : List (Thread Op Ret Proc) :=
  threads.set t { th with log := e :: th.log, prog := p } ++ (M.spawn e.op).map M.start

/-- The threads after the environment acted. -/
def after (threads : List (Thread Op Ret Proc)) (stop : Bool) (ps : List Proc) :
    List (Thread Op Ret Proc) :=
  (if stop then threads.map Thread.kill else threads) ++ ps.map M.start

/-- Steps of the system. -/
inductive Step (s : Sys Op Ret World Proc) : Label Op Ret Env → Sys Op Ret World Proc → Prop
  | thread {t : Nat} {th : Thread Op Ret Proc} {o : Op} {k : Ret o → Prog Op Ret Unit} {c : Choice}
      {r : Ret o} {w : World} (hth : s.threads[t]? = some th) (halive : th.alive = true)
      (hprog : th.prog = .op o k) (hexec : M.exec s.world t o c = some (r, w)) :
      Step s (.thread t ⟨o, r⟩) ⟨w, M.advance s.threads t th ⟨o, r⟩ (k r)⟩
  | env {e : Env} {w : World} {stop : Bool} {ps : List Proc}
      (henv : M.env s.world e = some (w, stop, ps)) :
      Step s (.env e) ⟨w, M.after s.threads stop ps⟩

/-- The step that a scheduling decision makes, and the next state. -/
def step (s : Sys Op Ret World Proc) :
    Action Choice Env → Option (Label Op Ret Env × Sys Op Ret World Proc)
  | .thread t c =>
    match s.threads[t]? with
    | none => none
    | some th =>
      if th.alive then
        match th.prog with
        | .ret _ => none
        | .op o k =>
          match M.exec s.world t o c with
          | none => none
          | some (r, w) => some (.thread t ⟨o, r⟩, ⟨w, M.advance s.threads t th ⟨o, r⟩ (k r)⟩)
      else none
  | .env e =>
    match M.env s.world e with
    | none => none
    | some (w, stop, ps) => some (.env e, ⟨w, M.after s.threads stop ps⟩)

theorem step_sound {s s' : Sys Op Ret World Proc} {a : Action Choice Env} {l : Label Op Ret Env}
    (h : M.step s a = some (l, s')) : M.Step s l s' := by
  cases a with
  | thread t c =>
    simp only [step] at h
    split at h
    · cases h
    · rename_i th hth
      split at h
      · rename_i halive
        split at h
        · cases h
        · rename_i o k hprog
          split at h
          · cases h
          · rename_i r w hexec
            cases h
            exact .thread hth halive hprog hexec
      · cases h
  | env e =>
    simp only [step] at h
    split at h
    · cases h
    · rename_i w stop ps henv
      cases h
      exact .env henv

/-- A run under a list of scheduling decisions, each taken in view of the state, whose steps
    must all pass a test. -/
def steps (test : Sys Op Ret World Proc → Label Op Ret Env → Bool) (s : Sys Op Ret World Proc) :
    List (Sys Op Ret World Proc → Action Choice Env) → Option (Sys Op Ret World Proc)
  | [] => some s
  | a :: as =>
    match M.step s (a s) with
    | none => none
    | some (l, s') => if test s l then steps test s' as else none

/-! ## Where a thread of the next state comes from -/

/-- An element of `l ++ l'` stands in `l` at the same place, or somewhere in `l'`. -/
theorem get_append {α : Type} {l l' : List α} {u : Nat} {a : α} (h : (l ++ l')[u]? = some a) :
    l[u]? = some a ∨ a ∈ l' := by
  rw [List.getElem?_append] at h
  split at h
  · exact .inl h
  · exact .inr (List.mem_of_getElem? h)

theorem get_advance {threads : List (Thread Op Ret Proc)} {t u : Nat}
    {th th' : Thread Op Ret Proc} {e : Event Op Ret} {p : Prog Op Ret Unit}
    (hth : threads[t]? = some th) (h : (M.advance threads t th e p)[u]? = some th') :
    (u = t ∧ th' = { th with log := e :: th.log, prog := p }) ∨
    (u ≠ t ∧ threads[u]? = some th') ∨ (∃ q ∈ M.spawn e.op, th' = M.start q) := by
  rcases get_append h with h | h
  · by_cases hu : u = t
    · subst hu
      rw [List.getElem?_set_self (List.getElem?_eq_some_iff.mp hth).1] at h
      exact .inl ⟨rfl, (Option.some.inj h).symm⟩
    · rw [List.getElem?_set_ne (Ne.symm hu)] at h
      exact .inr (.inl ⟨hu, h⟩)
  · obtain ⟨q, hq, rfl⟩ := List.mem_map.mp h
    exact .inr (.inr ⟨q, hq, rfl⟩)

theorem get_after {threads : List (Thread Op Ret Proc)} {u : Nat} {th' : Thread Op Ret Proc}
    {stop : Bool} {ps : List Proc} (h : (M.after threads stop ps)[u]? = some th') :
    (stop = false ∧ threads[u]? = some th') ∨
    (stop = true ∧ ∃ th, threads[u]? = some th ∧ th' = th.kill) ∨
    (∃ q ∈ ps, th' = M.start q) := by
  rcases get_append h with h | h
  · cases stop with
    | false => exact .inl ⟨rfl, by simpa using h⟩
    | true =>
      simp only [if_true, List.getElem?_map, Option.map_eq_some_iff] at h
      obtain ⟨th, hth, rfl⟩ := h
      exact .inr (.inl ⟨rfl, th, hth, rfl⟩)
  · obtain ⟨q, hq, rfl⟩ := List.mem_map.mp h
    exact .inr (.inr ⟨q, hq, rfl⟩)

/-- A thread is still there after the environment acted, with its log. -/
theorem get_after_old {threads : List (Thread Op Ret Proc)} {u : Nat} {th : Thread Op Ret Proc}
    (stop : Bool) (ps : List Proc) (h : threads[u]? = some th) :
    ∃ th', (M.after threads stop ps)[u]? = some th' ∧ th'.proc = th.proc ∧ th'.log = th.log := by
  have hu := (List.getElem?_eq_some_iff.mp h).1
  unfold after
  cases stop with
  | false =>
    refine ⟨th, ?_, rfl, rfl⟩
    simp only [Bool.false_eq_true, if_false]
    rw [List.getElem?_append_left hu, h]
  | true =>
    refine ⟨th.kill, ?_, rfl, rfl⟩
    simp only [if_true]
    rw [List.getElem?_append_left (by simpa using hu), List.getElem?_map, h]
    rfl

/-- The environment starts the threads it is said to start. -/
theorem get_started {q : Proc} {ps : List Proc} (threads : List (Thread Op Ret Proc)) (stop : Bool)
    (h : q ∈ ps) : ∃ u : Nat, (M.after threads stop ps)[u]? = some (M.start q) :=
  List.mem_iff_getElem?.mp (List.mem_append_right _ (List.mem_map_of_mem h))

/-- The thread that moved, after its step. -/
theorem get_advance_self {threads : List (Thread Op Ret Proc)} {t : Nat}
    {th : Thread Op Ret Proc} {e : Event Op Ret} {p : Prog Op Ret Unit}
    (hth : threads[t]? = some th) :
    (M.advance threads t th e p)[t]? = some { th with log := e :: th.log, prog := p } := by
  have ht := (List.getElem?_eq_some_iff.mp hth).1
  unfold advance
  rw [List.getElem?_append_left (by simpa using ht), List.getElem?_set_self ht]

/-- Any other thread stays as it was. -/
theorem get_advance_ne {threads : List (Thread Op Ret Proc)} {t u : Nat}
    {th th' : Thread Op Ret Proc} {e : Event Op Ret} {p : Prog Op Ret Unit} (hne : u ≠ t)
    (hth : threads[u]? = some th') : (M.advance threads t th e p)[u]? = some th' := by
  have hu := (List.getElem?_eq_some_iff.mp hth).1
  unfold advance
  rw [List.getElem?_append_left (by simpa using hu), List.getElem?_set_ne (Ne.symm hne), hth]

/-! ## Runs -/

/-- One step that meets `C`. -/
def StepIn (C : Sys Op Ret World Proc → Label Op Ret Env → Prop)
    (s s' : Sys Op Ret World Proc) : Prop := ∃ l, C s l ∧ M.Step s l s'

/-- Runs all of whose steps meet `C`. -/
abbrev Run (C : Sys Op Ret World Proc → Label Op Ret Env → Prop) :
    Sys Op Ret World Proc → Sys Op Ret World Proc → Prop :=
  Relation.ReflTransGen (M.StepIn C)

variable {M} {C : Sys Op Ret World Proc → Label Op Ret Env → Prop}

/-- Every step meets the condition of all runs. -/
def anyStep : Sys Op Ret World Proc → Label Op Ret Env → Prop := fun _ _ => True

/-- An invariant that holds at the start and is kept by every step holds in every state
    the run reaches. -/
theorem Run.invariant {I : Sys Op Ret World Proc → Prop} {s s' : Sys Op Ret World Proc}
    (h0 : I s) (hstep : ∀ s l s', I s → C s l → M.Step s l s' → I s') (h : M.Run C s s') :
    I s' := by
  induction h with
  | refl => exact h0
  | tail _ hs ih =>
    obtain ⟨l, hc, hl⟩ := hs
    exact hstep _ l _ ih hc hl

theorem Run.mono {C' : Sys Op Ret World Proc → Label Op Ret Env → Prop}
    {s s' : Sys Op Ret World Proc} (hc : ∀ s l, C s l → C' s l) (h : M.Run C s s') :
    M.Run C' s s' := by
  induction h with
  | refl => exact .refl
  | tail _ hs ih =>
    obtain ⟨l, hl, hs⟩ := hs
    exact ih.tail ⟨l, hc _ l hl, hs⟩

/-- A run of steps that meet `C` is a run among good states, when from a good state a step that
    meets `C` is one that leads to a good state.  `D` says that a step is taken in a good state. -/
theorem run_iff_of_step {D : Sys Op Ret World Proc → Label Op Ret Env → Prop}
    {G : Sys Op Ret World Proc → Prop} {s s' : Sys Op Ret World Proc} (h0 : G s)
    (hgood : ∀ s₁ l, D s₁ l → G s₁)
    (hforth : ∀ s₁ l s₂, M.Run anyStep s s₁ → G s₁ → M.Step s₁ l s₂ → C s₁ l → D s₁ l ∧ G s₂)
    (hback : ∀ s₁ l s₂, M.Run anyStep s s₁ → D s₁ l → M.Step s₁ l s₂ → G s₂ → C s₁ l) :
    M.Run C s s' ↔ M.Run D s s' ∧ G s' := by
  constructor
  · intro hrun
    induction hrun with
    | refl => exact ⟨.refl, h0⟩
    | tail hrun hs ih =>
      obtain ⟨l, hc, hs⟩ := hs
      obtain ⟨hd, hnext⟩ := hforth _ l _ (Run.mono (fun _ _ _ => trivial) hrun) ih.2 hs hc
      exact ⟨ih.1.tail ⟨l, hd, hs⟩, hnext⟩
  · rintro ⟨hrun, hend⟩
    induction hrun with
    | refl => exact .refl
    | tail hrun hs ih =>
      obtain ⟨l, hd, hs⟩ := hs
      have hc := hback _ l _ (Run.mono (fun _ _ _ => trivial) hrun) hd hs hend
      exact (ih (hgood _ l hd)).tail ⟨l, hc, hs⟩

/-- A list of scheduling decisions that can be carried out is a run. -/
theorem run_of_steps {test : Sys Op Ret World Proc → Label Op Ret Env → Bool}
    (hC : ∀ s l, test s l = true → C s l)
    {as : List (Sys Op Ret World Proc → Action Choice Env)} {s s' : Sys Op Ret World Proc}
    (h : M.steps test s as = some s') : M.Run C s s' := by
  induction as generalizing s with
  | nil =>
    cases h
    exact .refl
  | cons a as ih =>
    simp only [steps] at h
    split at h
    · cases h
    · rename_i l s₁ hs
      split at h
      · rename_i htest
        exact .head ⟨l, hC s l htest, M.step_sound hs⟩ (ih h)
      · cases h

variable (M) in
/-- A state that a list of scheduling decisions leads to, and that passes a check, is reached. -/
theorem run_of_check (test : Sys Op Ret World Proc → Label Op Ret Env → Bool)
    (hC : ∀ s l, test s l = true → C s l) (s : Sys Op Ret World Proc)
    (as : List (Sys Op Ret World Proc → Action Choice Env)) (f : Sys Op Ret World Proc → Bool)
    (h : (M.steps test s as).any f = true) : ∃ s', M.Run C s s' ∧ f s' = true := by
  rw [Option.any_eq_true] at h
  obtain ⟨s', hs, hf⟩ := h
  exact ⟨s', run_of_steps hC hs, hf⟩

variable (M) in
/-- A step that a scheduling decision makes, and that passes a check. -/
theorem step_of_check {s : Sys Op Ret World Proc} {a : Action Choice Env}
    {g : Label Op Ret Env → Bool} (h : (M.step s a).any (fun r => g r.1) = true) :
    ∃ l s', M.Step s l s' ∧ g l = true := by
  rw [Option.any_eq_true] at h
  obtain ⟨⟨l, s'⟩, hs, hg⟩ := h
  exact ⟨l, s', M.step_sound hs, hg⟩

variable (M) in
/-- A run from `s₀` together with its steps, the last one first. -/
inductive Trace (s₀ : Sys Op Ret World Proc) :
    List (Label Op Ret Env) → Sys Op Ret World Proc → Prop
  | refl : Trace s₀ [] s₀
  | tail {ls : List (Label Op Ret Env)} {s s' : Sys Op Ret World Proc} {l : Label Op Ret Env}
      (htrace : Trace s₀ ls s) (hstep : M.Step s l s') : Trace s₀ (l :: ls) s'

theorem Trace.run {s₀ s : Sys Op Ret World Proc} {ls : List (Label Op Ret Env)}
    (h : M.Trace s₀ ls s) : M.Run anyStep s₀ s := by
  induction h with
  | refl => exact .refl
  | tail _ hstep ih => exact ih.tail ⟨_, trivial, hstep⟩

/-- Every run has its steps. -/
theorem Run.trace {s₀ s : Sys Op Ret World Proc} (h : M.Run C s₀ s) :
    ∃ ls, M.Trace s₀ ls s := by
  induction h with
  | refl => exact ⟨[], .refl⟩
  | tail _ hs ih =>
    obtain ⟨l, -, hs⟩ := hs
    obtain ⟨ls, htrace⟩ := ih
    exact ⟨l :: ls, htrace.tail hs⟩

/-- The test that every step passes. -/
def noTest : Sys Op Ret World Proc → Label Op Ret Env → Bool := fun _ _ => true

/-! ## Protocols -/

/-- Logs grow by the events of the thread. -/
def logStep (l : Log Op Ret) (o : Op) (r : Ret o) (l' : Log Op Ret) : Prop := l' = ⟨o, r⟩ :: l

/-- The thread performs only operations that `ok` allows after its log, and ends only after a
    log that `fin` describes.  Nothing is asked of a thread of a stopped process. -/
def Follows (ok : Proc → Log Op Ret → Op → Prop) (fin : Proc → Log Op Ret → Prop)
    (th : Thread Op Ret Proc) : Prop :=
  th.alive = true → th.prog.wp logStep (ok th.proc) (fun _ => fin th.proc) th.log

variable {ok : Proc → Log Op Ret → Op → Prop} {fin : Proc → Log Op Ret → Prop}

theorem Follows.op {th : Thread Op Ret Proc} {o : Op} {k : Ret o → Prog Op Ret Unit}
    (h : Follows ok fin th) (halive : th.alive = true) (hprog : th.prog = .op o k) :
    ok th.proc th.log o := by
  have h := h halive
  rw [hprog] at h
  exact h.1

theorem Follows.next {th : Thread Op Ret Proc} {o : Op} {k : Ret o → Prog Op Ret Unit}
    (h : Follows ok fin th) (hprog : th.prog = .op o k) (r : Ret o) :
    Follows ok fin { th with log := ⟨o, r⟩ :: th.log, prog := k r } := by
  intro halive
  have h := h halive
  rw [hprog] at h
  exact h.2 r _ rfl

theorem Follows.done {th : Thread Op Ret Proc} (h : Follows ok fin th) (halive : th.alive = true)
    (hprog : th.prog = .ret ()) : fin th.proc th.log := by
  have h := h halive
  rwa [hprog] at h

theorem Follows.kill (th : Thread Op Ret Proc) : Follows ok fin th.kill := fun h => nomatch h

/-- Every thread of the state follows the protocol. -/
def AllFollow (ok : Proc → Log Op Ret → Op → Prop) (fin : Proc → Log Op Ret → Prop)
    (s : Sys Op Ret World Proc) : Prop :=
  ∀ (u : Nat) th, s.threads[u]? = some th → Follows ok fin th

theorem AllFollow.step (hbody : ∀ p, Follows ok fin (M.start p)) {s s' : Sys Op Ret World Proc}
    {l : Label Op Ret Env} (h : AllFollow ok fin s) (hs : M.Step s l s') :
    AllFollow ok fin s' := by
  intro u th' hu
  cases hs with
  | thread hth _ hprog _ =>
    rcases M.get_advance hth hu with ⟨-, rfl⟩ | ⟨-, hu⟩ | ⟨q, -, rfl⟩
    · exact (h _ _ hth).next hprog _
    · exact h u th' hu
    · exact hbody q
  | env _ =>
    rcases M.get_after hu with ⟨-, hu⟩ | ⟨-, th, -, rfl⟩ | ⟨q, -, rfl⟩
    · exact h u th' hu
    · exact Follows.kill th
    · exact hbody q

/-- Every event of the log was allowed when it happened. -/
def LogAllowed (ok : Proc → Log Op Ret → Op → Prop) (p : Proc) (l : Log Op Ret) : Prop :=
  ∀ e l', e :: l' <:+ l → ok p l' e.op

theorem LogAllowed.nil (p : Proc) : LogAllowed ok p ([] : Log Op Ret) := by
  intro e l' h
  cases List.suffix_nil.mp h

theorem LogAllowed.cons {p : Proc} {l : Log Op Ret} {e : Event Op Ret} (h : LogAllowed ok p l)
    (he : ok p l e.op) : LogAllowed ok p (e :: l) := by
  intro e' l' hs
  rcases List.suffix_cons_iff.mp hs with heq | hs
  · cases heq
    exact he
  · exact h e' l' hs

theorem LogAllowed.tail {p : Proc} {l : Log Op Ret} {e : Event Op Ret}
    (h : LogAllowed ok p (e :: l)) : LogAllowed ok p l :=
  fun e' l' hs => h e' l' (hs.trans (List.suffix_cons ..))

/-- The log before an event. -/
theorem LogAllowed.before {p : Proc} {l l' : Log Op Ret} {e : Event Op Ret}
    (h : LogAllowed ok p l) (hs : e :: l' <:+ l) : LogAllowed ok p l' :=
  fun e' l'' hs' => h e' l'' (hs'.trans ((List.suffix_cons ..).trans hs))

/-- An event in an allowed log, with the log before it. -/
theorem LogAllowed.mem {p : Proc} {l : Log Op Ret} {o : Op} {r : Ret o} (h : LogAllowed ok p l)
    (he : ⟨o, r⟩ ∈ l) : ∃ l', ⟨o, r⟩ :: l' <:+ l ∧ ok p l' o := by
  obtain ⟨l₁, l₂, rfl⟩ := List.append_of_mem he
  exact ⟨l₂, List.suffix_append .., h ⟨o, r⟩ l₂ (List.suffix_append ..)⟩

/-- Every log of the state is allowed. -/
def AllLogged (ok : Proc → Log Op Ret → Op → Prop) (s : Sys Op Ret World Proc) : Prop :=
  ∀ (u : Nat) th, s.threads[u]? = some th → LogAllowed ok th.proc th.log

theorem AllLogged.step {s s' : Sys Op Ret World Proc} {l : Label Op Ret Env}
    (hf : AllFollow ok fin s) (h : AllLogged ok s) (hs : M.Step s l s') : AllLogged ok s' := by
  intro u th' hu
  cases hs with
  | thread hth halive hprog _ =>
    rcases M.get_advance hth hu with ⟨-, rfl⟩ | ⟨-, hu⟩ | ⟨q, -, rfl⟩
    · exact (h _ _ hth).cons ((hf _ _ hth).op halive hprog)
    · exact h u th' hu
    · exact LogAllowed.nil q
  | env _ =>
    rcases M.get_after hu with ⟨-, hu⟩ | ⟨-, th, hth, rfl⟩ | ⟨q, -, rfl⟩
    · exact h u th' hu
    · exact h u th hth
    · exact LogAllowed.nil q

/-- From threads that follow the protocol on, every run keeps to it. -/
theorem Run.follows (hbody : ∀ p, Follows ok fin (M.start p)) {s s' : Sys Op Ret World Proc}
    (h0 : AllFollow ok fin s) (h0' : AllLogged ok s) (h : M.Run C s s') :
    AllFollow ok fin s' ∧ AllLogged ok s' :=
  Run.invariant (I := fun s => AllFollow ok fin s ∧ AllLogged ok s) ⟨h0, h0'⟩
    (fun _ _ _ h _ hs => ⟨h.1.step hbody hs, h.2.step h.1 hs⟩) h

end Machine
end Conc
end IncusDemo
