/-
  IncusDemo.StartupLoop

  How far the startup loop of `connect` has come.  The loop goes over the
  sessions that `dbActive` has listed and reads the clock once for each; it is
  past a session when it has read the clock for a later one, when it is about
  to, or when it has gone on to the rows of the former pool.  It leaves no
  session before it has armed the callback of the session or expired it
  (`seenTo_of_gonePast`).
-/

import IncusDemo.Conc.Traced
import IncusDemo.Steps
import IncusDemo.Works

namespace IncusDemo

open Go Conc Conc.Prog

/-- How often a thread has read the clock. -/
def examined (l : Log) : Nat :=
  l.countP fun e =>
    match e with
    | ⟨.now, _⟩ => true
    | _ => false

@[simp] theorem examined_now (now : Time) (l : Log) :
    examined (⟨.now, now⟩ :: l) = examined l + 1 := List.countP_cons_of_pos rfl

/-- The startup loop of the thread is past the `i`-th session of its list. -/
inductive GonePast (th : Thread) (i : Nat) : Prop
  /-- It has looked at a later one. -/
  | later (h : i + 1 < examined th.log)
  /-- It has looked at this one, and is about to look at the next. -/
  | next (h : i < examined th.log) {k : Time → Prog Unit} (hprog : th.prog = .op .now k)
  /-- It has come to its end, and the former pool is about to be listed. -/
  | last {k : Except Error (List Listed) → Prog Unit}
      (hprog : th.prog = .op (.query .dbAllocated) k)
  /-- It has come to its end, and the former pool has been listed. -/
  | after (r : Except Error (List Listed)) (h : ⟨.query .dbAllocated, r⟩ ∈ th.log)

/-- The callback of the session is armed, or the session has been expired. -/
def SeenTo (l : Log) (x : Listed) : Prop :=
  (∃ d, ⟨.afterFunc d (.cleanup x.id x.instanceName), ()⟩ ∈ l) ∨ ∃ r, ⟨.query (.dbExpire x.id), r⟩ ∈ l

theorem SeenTo.cons {l : Log} {x : Listed} (h : SeenTo l x) (e : Event) : SeenTo (e :: l) x :=
  h.imp (fun ⟨d, hd⟩ => ⟨d, List.mem_cons_of_mem _ hd⟩) fun ⟨r, hr⟩ => ⟨r, List.mem_cons_of_mem _ hr⟩

/-- Before operation `o` and after the log `l` the loop is past the `i`-th session. -/
def PastBefore (l : Log) (o : Op) (i : Nat) : Prop :=
  i + 1 < examined l ∨ (i < examined l ∧ o = .now) ∨ o = .query .dbAllocated ∨
    ∃ r, ⟨.query .dbAllocated, r⟩ ∈ l

/-- Every session that the loop is past is seen to. -/
def LeavesSeenTo (l : Log) (o : Op) : Prop :=
  ∀ es, ⟨.query .dbActive, .ok es⟩ ∈ l → ∀ i x, es[i]? = some x → PastBefore l o i → SeenTo l x

-- ============================================================================
-- The loop
-- ============================================================================

/-- The loop has read the clock `n` times, and has seen to the first `k` sessions of its list. -/
structure InLoop (es : List Listed) (n k : Nat) (l : Log) : Prop where
  mem : ⟨.query .dbActive, .ok es⟩ ∈ l
  listed : ∀ es', ⟨.query .dbActive, .ok es'⟩ ∈ l → es' = es
  examined : examined l = n
  seen : ∀ i x, es[i]? = some x → i < k → SeenTo l x
  waiting : ∀ r, ⟨.query .dbAllocated, r⟩ ∉ l

/-- The loop has come to its end.  That the list is not read again is known from the protocol. -/
def LoopDone (es : List Listed) (l : Log) : Prop :=
  Machine.LogAllowed Allowed .connect l → ⟨.query .dbActive, .ok es⟩ ∈ l ∧
    (∀ es', ⟨.query .dbActive, .ok es'⟩ ∈ l → es' = es) ∧ ∀ x ∈ es, SeenTo l x

/-- What is proved of the operations of `connect`. -/
abbrev Watches {α : Type} (prog : Prog α) (Q : α → Log → Prop) (l : Log) : Prop :=
  Conc.Prog.wp Machine.logStep
    (fun l o => Machine.LogAllowed Allowed .connect l → LeavesSeenTo l o) prog Q l

/-- The operations of `connect` before it reads the table. -/
def connects : Op → Bool
  | .query _ | .now => false
  | _ => true

section Loop

variable {es : List Listed} {n k : Nat} {l : Log}

theorem InLoop.leavesSeenTo (h : InLoop es n k l) {o : Op} (hk : n ≤ k + 1)
    (hnext : o = .now → n ≤ k) (hlast : o = .query .dbAllocated → es.length ≤ k) :
    LeavesSeenTo l o := by
  intro es' hes' i x hx hpast
  cases h.listed es' hes'
  rcases hpast with hlater | ⟨hi, ho⟩ | ho | ⟨r, hr⟩
  · exact h.seen i x hx (by rw [h.examined] at hlater; omega)
  · exact h.seen i x hx (by rw [h.examined] at hi; exact hi.trans_le (hnext ho))
  · exact h.seen i x hx ((List.getElem?_eq_some_iff.mp hx).1.trans_le (hlast ho))
  · exact absurd hr (h.waiting r)

theorem LoopDone.leavesSeenTo (h : LoopDone es l) {o : Op}
    (hl : Machine.LogAllowed Allowed .connect l) : LeavesSeenTo l o := by
  intro es' hes' i x hx _
  obtain ⟨-, honce, hall⟩ := h hl
  cases honce es' hes'
  exact hall x (List.mem_of_getElem? hx)

/-- The log after an operation that neither reads the clock nor lists sessions. -/
theorem InLoop.cons (h : InLoop es n k l) {o : Op} (r : Ret o) (hnow : o ≠ .now)
    (hactive : o ≠ .query .dbActive) (hallocated : o ≠ .query .dbAllocated) :
    InLoop es n k (⟨o, r⟩ :: l) where
  mem := List.mem_cons_of_mem _ h.mem
  listed := by
    intro es' hes'
    rcases List.mem_cons.mp hes' with heq | hes'
    · cases heq
      exact absurd rfl hactive
    · exact h.listed es' hes'
  examined := by
    refine Eq.trans ?_ h.examined
    unfold IncusDemo.examined
    rw [List.countP_cons]
    cases o <;> first | rfl | exact absurd rfl hnow
  seen := fun i x hx hi => (h.seen i x hx hi).cons _
  waiting := by
    intro r' hr'
    rcases List.mem_cons.mp hr' with heq | hr'
    · cases heq
      exact absurd rfl hallocated
    · exact h.waiting r' hr'

/-- Once the loop is over, the thread may do as it likes: it does not list the sessions again. -/
theorem LoopDone.watches {α : Type} (prog : Prog α) (h : LoopDone es l) :
    Watches prog (fun _ l' => LoopDone es l') l := by
  induction prog generalizing l with
  | ret a => exact h
  | op o k ih =>
    refine ⟨fun hl => h.leavesSeenTo hl, fun r l' hstep => ih r ?_⟩
    rw [hstep]
    intro hl
    obtain ⟨hes, honce, hall⟩ := h hl.tail
    refine ⟨List.mem_cons_of_mem _ hes, fun es' hes' => ?_, fun x hx => (hall x hx).cons _⟩
    rcases List.mem_cons.mp hes' with heq | hes'
    · cases heq
      have hop : Allowed .connect l (.query .dbActive) := hl _ l List.suffix_rfl
      exact absurd hes (hop.2.2 _)
    · exact honce es' hes'

theorem watches_then {α : Type} {o : Op} {f : Ret o → Prog α} {Q : α → Log → Prop}
    (hok : Machine.LogAllowed Allowed .connect l → LeavesSeenTo l o)
    (h : ∀ r, Watches (f r) Q (⟨o, r⟩ :: l)) : Watches (perform o >>= f) Q l := by
  refine (Conc.Prog.wp_bind _ _).mpr ⟨hok, fun r l' hstep => ?_⟩
  rw [hstep]
  exact h r

/-- The functions that stop or delete an instance leave the loop where it is. -/
theorem InLoop.works {α : Type} {prog : Prog α} (h : InLoop es n k l) (hk : n ≤ k + 1)
    (hprog : Works prog) : Watches prog (fun _ l' => InLoop es n k l') l := by
  refine hprog.wp (I := InLoop es n k) (fun l o h ho _ => ?_) (fun l o r l' h ho hstep => ?_) h
  · exact h.leavesSeenTo hk (by rintro rfl; cases ho) (by rintro rfl; cases ho)
  · rw [hstep]
    exact h.cons r (by rintro rfl; cases ho) (by rintro rfl; cases ho) (by rintro rfl; cases ho)

/-- One more session is seen to. -/
theorem InLoop.seeTo {x : Listed} (h : InLoop es n k l) (hx : es[k]? = some x)
    (hs : SeenTo l x) : InLoop es n (k + 1) l where
  mem := h.mem
  listed := h.listed
  examined := h.examined
  seen := by
    intro i y hy hi
    rcases Nat.lt_succ_iff_lt_or_eq.mp hi with hi | rfl
    · exact h.seen i y hy hi
    · cases hx.symm.trans hy
      exact hs
  waiting := h.waiting

theorem restoreSession_watches {x : Listed} (h : InLoop es n n l) (hx : es[n]? = some x) :
    Watches (restoreSession x) (fun _ l' => InLoop es (n + 1) (n + 1) l') l := by
  unfold restoreSession
  refine watches_then (fun _ => h.leavesSeenTo (Nat.le_succ n) (fun _ => Nat.le_refl n) nofun)
    fun now => ?_
  have h₁ : InLoop es (n + 1) n (⟨.now, now⟩ :: l) := by
    refine ⟨List.mem_cons_of_mem _ h.mem, fun es' hes' => ?_, ?_,
      fun i x hx hi => (h.seen i x hx hi).cons _, fun r hr => ?_⟩
    · exact h.listed es' (by simpa using hes')
    · rw [examined_now, h.examined]
    · exact h.waiting r (by simpa using hr)
  -- the session is over, or so far off that its callback cannot be armed
  have hexpire : Watches (do
      forceDelete x.instanceName
      let _ ← perform (.query (.dbExpire x.id)))
        (fun _ l' => InLoop es (n + 1) (n + 1) l') (⟨.now, now⟩ :: l) := by
    refine (Conc.Prog.wp_bind _ _).mpr (Conc.Prog.wp_mono (fun _ l₂ h₂ => ?_)
      (h₁.works (Nat.le_refl _) (forceDelete_works _)))
    refine watches_then (fun _ => h₂.leavesSeenTo (Nat.le_refl _) nofun (by simp)) fun r => ?_
    have h₃ := h₂.cons (o := .query (.dbExpire x.id)) r (by simp) (by simp) (by simp)
    exact h₃.seeTo hx (.inr ⟨r, List.mem_cons_self ..⟩)
  dsimp only
  split
  · exact hexpire
  · rename_i d hd
    refine (Conc.Prog.wp_ite _ _ _).mpr ⟨fun _ => hexpire, fun _ => ?_⟩
    refine ⟨fun _ => h₁.leavesSeenTo (Nat.le_refl _) nofun nofun, fun r l' hstep => ?_⟩
    rw [hstep]
    have h₂ := h₁.cons (o := .afterFunc d (.cleanup x.id x.instanceName)) r nofun nofun nofun
    exact h₂.seeTo hx (.inl ⟨d, List.mem_cons_self ..⟩)

/-- The loop sees to every session of its list. -/
theorem restoreSessions_watches (h : InLoop es 0 0 l) :
    Watches (es.forM restoreSession) (fun _ l' => InLoop es es.length es.length l') l := by
  let I : List Listed → List Listed → Log → Prop := fun done rest l =>
    done ++ rest = es ∧ InLoop es done.length done.length l
  refine Conc.Prog.wp_mono (fun _ l' h' => ?_) (Conc.Prog.wp_forM (I := I) ?_ [] ⟨rfl, h⟩)
  · exact h'.2
  · rintro done x rest l' ⟨hes, h'⟩
    have hx : es[done.length]? = some x := by simp [← hes]
    refine Conc.Prog.wp_mono (fun _ l'' h'' => ?_) (restoreSession_watches h' hx)
    refine ⟨by rw [← hes]; simp, ?_⟩
    rw [List.length_append]
    exact h''

end Loop

-- ============================================================================
-- The goroutine
-- ============================================================================

theorem connectLoop_connects (rounds : Nat) :
    (connectLoop rounds).Performs fun o => connects o = true := by
  induction rounds with
  | zero => exact performs_then rfl fun stuck => nomatch stuck
  | succ rounds ih =>
    unfold connectLoop
    refine performs_then rfl fun c => performs_then rfl fun r => ?_
    cases r with
    | error e => exact performs_then rfl fun _ => performs_then rfl fun _ => ih
    | ok d => exact performs_then rfl fun _ => performs_pure _

theorem daemon_connects : daemon.Performs fun o => connects o = true := by
  unfold daemon
  refine performs_then rfl fun d => ?_
  cases d with
  | none => exact performs_then rfl fun stuck => nomatch stuck
  | some d => exact performs_pure d

theorem useProject_connects : useProject.Performs fun o => connects o = true := by
  have htarget : (do
      let c ← perform .config
      if c.incus.target ≠ "" then
        let d ← daemon
        perform (.setIncusDaemon (some { d with target := c.incus.target }))).Performs
          fun o => connects o = true := by
    refine performs_then rfl fun c => performs_ite ?_ (performs_pure _)
    exact daemon_connects.bind fun d => performs_perform rfl
  unfold useProject
  refine performs_then rfl fun c => performs_ite ?_ htarget
  exact daemon_connects.bind fun d => performs_then rfl fun _ => htarget

/-- The goroutine has not come to the table yet. -/
structure Unlisted (l : Log) : Prop where
  listed : ∀ r, ⟨.query .dbActive, r⟩ ∉ l
  examined : examined l = 0
  waiting : ∀ r, ⟨.query .dbAllocated, r⟩ ∉ l

theorem leavesSeenTo_of_unlisted {l : Log} (h : ∀ es, ⟨.query .dbActive, .ok es⟩ ∉ l) (o : Op) :
    LeavesSeenTo l o := fun es hes => absurd hes (h es)

/-- What comes before the table is read. -/
theorem Unlisted.watches {α : Type} {prog : Prog α} {l : Log} (h : Unlisted l)
    (hprog : prog.Performs fun o => connects o = true) :
    Watches prog (fun _ l' => Unlisted l') l := by
  refine hprog.wp (I := Unlisted) (fun l o h _ _ => leavesSeenTo_of_unlisted (fun _ => h.listed _) o)
    (fun l o r l' h ho hstep => ?_) h
  rw [hstep]
  refine ⟨fun r' hr' => ?_, ?_, fun r' hr' => ?_⟩
  · rcases List.mem_cons.mp hr' with heq | hr'
    · cases heq
      cases ho
    · exact h.listed r' hr'
  · refine Eq.trans ?_ h.examined
    unfold IncusDemo.examined
    rw [List.countP_cons]
    cases o <;> first | rfl | cases ho
  · rcases List.mem_cons.mp hr' with heq | hr'
    · cases heq
      cases ho
    · exact h.waiting r' hr'

/-- The goroutine reads the table, and goes over the sessions if that succeeds. -/
theorem recover_watches {l : Log} (h : Unlisted l) : Watches recover (fun r l' =>
    (∃ e, r = .error e ∧ ∀ es, ⟨.query .dbActive, .ok es⟩ ∉ l') ∨ ∃ es, LoopDone es l') l := by
  unfold recover
  refine watches_then (fun _ => leavesSeenTo_of_unlisted (fun _ => h.listed _) _) fun r => ?_
  cases r with
  | error e =>
    refine .inl ⟨e, rfl, fun es hes => ?_⟩
    rcases List.mem_cons.mp hes with heq | hes
    · cases heq
    · exact h.listed _ hes
  | ok es =>
    have hloop : InLoop es 0 0 (⟨.query .dbActive, .ok es⟩ :: l) := by
      refine ⟨List.mem_cons_self .., fun es' hes' => ?_, h.examined,
        fun _ _ _ hi => absurd hi (Nat.not_lt_zero _), fun r hr => h.waiting r (by simpa using hr)⟩
      rcases List.mem_cons.mp hes' with heq | hes'
      · cases heq
        rfl
      · exact absurd hes' (h.listed _)
    refine (Conc.Prog.wp_bind _ _).mpr (Conc.Prog.wp_mono (fun _ l₂ h₂ => ?_)
      (restoreSessions_watches hloop))
    refine watches_then (fun _ => h₂.leavesSeenTo (Nat.le_succ _) (fun _ => Nat.le_refl _)
      fun _ => Nat.le_refl _) fun r => ?_
    refine Conc.Prog.wp_mono (fun _ l' h' => .inr ⟨es, h'⟩) (LoopDone.watches _ fun _ => ?_)
    refine ⟨List.mem_cons_of_mem _ h₂.mem, fun es' hes' => h₂.listed es' (by simpa using hes'), ?_⟩
    intro x hx
    obtain ⟨i, hi, rfl⟩ := List.mem_iff_getElem.mp hx
    exact (h₂.seen i _ (List.getElem?_eq_getElem hi) hi).cons _

theorem connect_watches :
    Watches connect (fun _ l => Machine.LogAllowed Allowed .connect l → LeavesSeenTo l .halt) [] := by
  have hstart : Unlisted [] := ⟨fun _ => List.not_mem_nil, rfl, fun _ => List.not_mem_nil⟩
  unfold connect
  have hrounds : (perform .rounds).Performs fun o => connects o = true := performs_perform rfl
  refine (Conc.Prog.wp_bind _ _).mpr (Conc.Prog.wp_mono (fun rounds l₁ h₁ => ?_)
    (hstart.watches hrounds))
  refine (Conc.Prog.wp_bind _ _).mpr (Conc.Prog.wp_mono (fun _ l₂ h₂ => ?_)
    (h₁.watches (connectLoop_connects rounds)))
  refine (Conc.Prog.wp_bind _ _).mpr (Conc.Prog.wp_mono (fun _ l₃ h₃ => ?_)
    (h₂.watches useProject_connects))
  refine (Conc.Prog.wp_bind _ _).mpr (Conc.Prog.wp_mono (fun r l₄ h₄ => ?_) (recover_watches h₃))
  rcases h₄ with ⟨e, rfl, hnone⟩ | ⟨es, hdone⟩
  · exact fun _ => leavesSeenTo_of_unlisted hnone _
  · exact Conc.Prog.wp_mono (fun _ l' h' hl => h'.leavesSeenTo hl) (hdone.watches _)

/-- Every session that the startup loop of a process has gone past is seen to. -/
theorem seenTo_of_gonePast {C : Sys → Label → Prop} {s₀ s : Sys} (h0 : Initial s₀)
    (hrun : server.Run C s₀ s) {t : Nat} {th : Thread} (hth : s.threads[t]? = some th)
    (halive : th.alive = true) (hproc : th.proc = .connect) {es : List Listed} {i : Nat} {x : Listed}
    (hes : ⟨.query .dbActive, .ok es⟩ ∈ th.log) (hx : es[i]? = some x) (hpast : GonePast th i) :
    SeenTo th.log x := by
  have hfollow : Machine.AllFollow
      (fun q l o => q = .connect → Machine.LogAllowed Allowed .connect l → LeavesSeenTo l o)
      (fun q l => q = .connect → Machine.LogAllowed Allowed .connect l → LeavesSeenTo l .halt) s := by
    refine Machine.Run.invariant (fun u th' hu => ?_)
      (fun _ _ _ h _ hs => h.step (Machine.follows_of_wp connect_watches) hs) hrun
    obtain ⟨q, rfl⟩ := h0.allStart u th' hu
    exact Machine.follows_of_wp connect_watches q
  have hl : Machine.LogAllowed Allowed .connect th.log :=
    (h0.sound.run hrun).allowed ⟨th, hth, hproc, rfl⟩
  cases hprog : th.prog with
  | ret a =>
    refine (hfollow t th hth).done halive hprog hproc hl es hes i x hx ?_
    cases hpast with
    | later h => exact .inl h
    | next _ hprog' => cases hprog.symm.trans hprog'
    | last hprog' => cases hprog.symm.trans hprog'
    | after r h => exact .inr (.inr (.inr ⟨r, h⟩))
  | op o k =>
    refine (hfollow t th hth).op halive hprog hproc hl es hes i x hx ?_
    cases hpast with
    | later h => exact .inl h
    | next h hprog' =>
      cases hprog.symm.trans hprog'
      exact .inr (.inl ⟨h, rfl⟩)
    | last hprog' =>
      cases hprog.symm.trans hprog'
      exact .inr (.inr (.inl rfl))
    | after r h => exact .inr (.inr (.inr ⟨r, h⟩))

end IncusDemo
