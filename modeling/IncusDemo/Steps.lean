/-
  IncusDemo.Steps

  What one step of the server does, said once.  `Did` inverts `exec`: the world
  after an event, component by component, and what the answer says about the
  world before it.  `ThreadStep` and `EnvStep` add what becomes of the threads.
  Every invariant is proved from these, through `invariant_run`; none of
  them unfolds `exec`.
-/

import IncusDemo.Conc.Traced
import IncusDemo.Follows

namespace IncusDemo

open Go Conc

-- ============================================================================
-- Operations
-- ============================================================================

/-- The database after an event. -/
def dbAfter (e : Event) (db : Db) : Db :=
  match e with
  | ⟨.query q, .ok _⟩ => (db.run q).2
  | _ => db

/-- The timers after an event. -/
def timersAfter (e : Event) (w : World) : List Timer :=
  match e with
  | ⟨.afterFunc d p, _⟩ => w.timers ++ [⟨w.clock.nano + max d 0, p⟩]
  | _ => w.timers

/-- The random ids drawn by the end of an event. -/
def uuidsAfter (e : Event) (uuids : List String) : List String :=
  match e with
  | ⟨.newRandom, u⟩ => u :: uuids
  | _ => uuids

/-- The lock after an event of thread `t`. -/
def muCreateAfter (t : Nat) (e : Event) (mu : RWMutex) : RWMutex :=
  match e with
  | ⟨.rLock, _⟩ => { mu with readers := t :: mu.readers }
  | ⟨.rUnlock _, _⟩ => { mu with readers := mu.readers.erase t }
  | ⟨.announce, _⟩ => { mu with waiting := some t }
  | ⟨.lock, _⟩ => { mu with waiting := none, writer := some t }
  | ⟨.unlock, _⟩ => { mu with writer := none }
  | _ => mu

/-- The connection after an event. -/
def incusDaemonAfter (e : Event) (d : Option InstanceServer) : Option InstanceServer :=
  match e with
  | ⟨.setIncusDaemon d', _⟩ => d'
  | _ => d

/-- The instances after an event, up to what Incus decides. -/
def InstancesAfter (e : Event) (is is' : Instances) : Prop :=
  match e with
  | ⟨.wait d c, .ok _⟩ => ∃ a, c.complete d a is = some is'
  | _ => is' = is

/-- What the answer of an event says about the world it was given in. -/
def Truthful (w : World) (e : Event) : Prop :=
  match e with
  | ⟨.config, c⟩ => c = w.config
  | ⟨.incusDaemon, d⟩ => d = w.incusDaemon
  | ⟨.now, t⟩ => t = w.clock
  | ⟨.newRandom, u⟩ => u ∉ w.uuids
  | ⟨.query q, .ok a⟩ => w.db.Answers q a
  | ⟨.connect _, .ok d⟩ => d = ⟨"default", ""⟩
  | ⟨.call d (.getInstanceState name), .ok net⟩ =>
    ∃ i, w.instances.get? d name = some i ∧ Instances.reports i net = true
  | ⟨.call d .getInstanceNames, .ok names⟩ => names = w.instances.names d
  | ⟨.rLock, _⟩ | ⟨.announce, _⟩ => w.muCreate.admits
  | ⟨.lock, _⟩ => w.muCreate.writer = none ∧ w.muCreate.readers = []
  | _ => True

/-- Event `e` of thread `t` leads from `w` to `w'`. -/
structure Did (w : World) (t : Nat) (e : Event) (w' : World) : Prop where
  truthful : Truthful w e
  config : w'.config = w.config
  clock : w'.clock = w.clock
  incusDaemon : w'.incusDaemon = incusDaemonAfter e w.incusDaemon
  muCreate : w'.muCreate = muCreateAfter t e w.muCreate
  timers : w'.timers = timersAfter e w
  uuids : w'.uuids = uuidsAfter e w.uuids
  db : w'.db = dbAfter e w.db
  instances : InstancesAfter e w.instances w'.instances

theorem ifOk_eq_some {α : Type} {ch : Choice} {a b : α} (h : ch.ifOk a = some b) : b = a := by
  cases ch <;> cases h
  rfl

theorem orFail_eq_some {α : Type} {ch : Choice} {w w' w'' : World} {a : α} {r : Except Error α}
    (h : ch.orFail w a w' = some (r, w'')) : (r = .ok a ∧ w'' = w') ∨ (∃ e, r = .error e ∧ w'' = w) := by
  cases ch <;> cases h
  · exact .inl ⟨rfl, rfl⟩
  · exact .inr ⟨_, rfl, rfl⟩

/-- A call on a connection changes nothing, and a network state it answers is one that the
    instance may report. -/
theorem execCall_did {w w' : World} {t : Nat} {d : InstanceServer} {c : Call} {ch : Choice}
    {r : Except Error c.Res} (h : execCall w d c ch = some (r, w')) : Did w t ⟨.call d c, r⟩ w' := by
  have hw : w' = w := by
    unfold execCall at h
    split at h
    · exact ((Prod.mk.inj (Option.some.inj h)).2).symm
    · simp only [Option.map_eq_some_iff, Prod.mk.injEq] at h
      exact h.choose_spec.2.2.symm
  subst hw
  refine ⟨?_, rfl, rfl, rfl, rfl, rfl, rfl, rfl, rfl⟩
  cases c with
  | getInstanceState name =>
    cases r with
    | error e => trivial
    | ok net =>
      cases ch with
      | network net' =>
        simp only [execCall, answer, Option.map_eq_some_iff, Prod.mk.injEq] at h
        obtain ⟨r, h, rfl, -⟩ := h
        split at h
        · rename_i i hi
          split at h
          · rename_i hrep
            cases h
            exact ⟨i, hi, hrep⟩
          · cases h
        · cases h
      | _ => simp [execCall, answer] at h
  | getInstanceNames =>
    cases r with
    | error e => trivial
    | ok names =>
      cases ch with
      | ok =>
        simp only [execCall, answer, Choice.ifOk, Option.map_some, Option.some.injEq,
          Prod.mk.injEq, Except.ok.injEq] at h
        exact h.1.symm
      | _ => simp [execCall, answer, Choice.ifOk] at h
  | _ => trivial

theorem execWait_did {w w' : World} {t : Nat} {d : InstanceServer} {c : Call} {ch : Choice}
    {r : Except Error Unit} (h : execWait w d c ch = some (r, w')) : Did w t ⟨.wait d c, r⟩ w' := by
  unfold execWait at h
  split at h
  · cases h
    exact ⟨trivial, rfl, rfl, rfl, rfl, rfl, rfl, rfl, rfl⟩
  · rename_i a
    split at h
    · rename_i is his
      cases h
      exact ⟨trivial, rfl, rfl, rfl, rfl, rfl, rfl, rfl, a, his⟩
    · cases h
      exact ⟨trivial, rfl, rfl, rfl, rfl, rfl, rfl, rfl, rfl⟩
  · cases h

theorem exec_did {w w' : World} {t : Nat} {o : Op} {ch : Choice} {r : Ret o}
    (h : exec w t o ch = some (r, w')) : Did w t ⟨o, r⟩ w' := by
  cases o with
  | rLock | announce =>
    simp only [exec] at h
    split at h
    · rename_i hfree
      cases ifOk_eq_some h
      exact ⟨hfree, rfl, rfl, rfl, rfl, rfl, rfl, rfl, rfl⟩
    · cases h
  | lock =>
    simp only [exec] at h
    split at h
    · rename_i hfree
      cases ifOk_eq_some h
      exact ⟨hfree.2, rfl, rfl, rfl, rfl, rfl, rfl, rfl, rfl⟩
    · cases h
  | newRandom =>
    simp only [exec] at h
    split at h
    · split at h
      · cases h
      · rename_i hfresh
        cases h
        exact ⟨hfresh, rfl, rfl, rfl, rfl, rfl, rfl, rfl, rfl⟩
    · cases h
  | halt => cases h
  | query q =>
    simp only [exec] at h
    split at h
    · rename_i n
      obtain ⟨a, hcut, ha⟩ := Option.map_eq_some_iff.mp h
      cases ha
      obtain ⟨hanswers, hdb⟩ := w.db.answers_cut hcut
      exact ⟨hanswers, rfl, rfl, rfl, rfl, rfl, rfl, hdb.symm, rfl⟩
    · rcases orFail_eq_some h with ⟨rfl, rfl⟩ | ⟨e, rfl, rfl⟩
      · exact ⟨w.db.answers_run q, rfl, rfl, rfl, rfl, rfl, rfl, rfl, rfl⟩
      · exact ⟨trivial, rfl, rfl, rfl, rfl, rfl, rfl, rfl, rfl⟩
  | connect _ =>
    rcases orFail_eq_some h with ⟨rfl, rfl⟩ | ⟨e, rfl, rfl⟩
    · exact ⟨rfl, rfl, rfl, rfl, rfl, rfl, rfl, rfl, rfl⟩
    · exact ⟨trivial, rfl, rfl, rfl, rfl, rfl, rfl, rfl, rfl⟩
  | encode _ | handshake | dial _ _ | write _ | sendMail _ _ _ _ =>
    rcases orFail_eq_some h with ⟨rfl, rfl⟩ | ⟨e, rfl, rfl⟩ <;>
      exact ⟨trivial, rfl, rfl, rfl, rfl, rfl, rfl, rfl, rfl⟩
  | call d c => exact execCall_did h
  | wait d c => exact execWait_did h
  | execReturn _ _ | rounds | isTrue _ =>
    simp only [exec] at h
    split at h
    · cases h
      exact ⟨trivial, rfl, rfl, rfl, rfl, rfl, rfl, rfl, rfl⟩
    · cases h
  | upgrade =>
    simp only [exec] at h
    split at h
    · cases h
      exact ⟨trivial, rfl, rfl, rfl, rfl, rfl, rfl, rfl, rfl⟩
    · cases h
      exact ⟨trivial, rfl, rfl, rfl, rfl, rfl, rfl, rfl, rfl⟩
    · cases h
  | config | incusDaemon | now =>
    cases ifOk_eq_some h
    exact ⟨rfl, rfl, rfl, rfl, rfl, rfl, rfl, rfl, rfl⟩
  | _ =>
    cases ifOk_eq_some h
    exact ⟨trivial, rfl, rfl, rfl, rfl, rfl, rfl, rfl, rfl⟩

-- ============================================================================
-- Threads
-- ============================================================================

/-- Thread `t` runs `p` in some process, and has the log `l`. -/
def Ran (s : Sys) (t : Nat) (p : Proc) (l : Log) : Prop :=
  ∃ th, s.threads[t]? = some th ∧ th.proc = p ∧ th.log = l

/-- Thread `t` of the present process runs `p` and has the log `l`. -/
def Runs (s : Sys) (t : Nat) (p : Proc) (l : Log) : Prop :=
  ∃ th, s.threads[t]? = some th ∧ th.alive = true ∧ th.proc = p ∧ th.log = l

/-- Thread `t` of the present process runs `p`, has the log `l` and has not come to its end. -/
def Busy (s : Sys) (t : Nat) (p : Proc) (l : Log) : Prop :=
  ∃ th, s.threads[t]? = some th ∧ th.alive = true ∧ th.prog ≠ .ret () ∧ th.proc = p ∧ th.log = l

/-- Thread `t` of the present process runs `p`, has the log `l` and has come to its end. -/
def Returned (s : Sys) (t : Nat) (p : Proc) (l : Log) : Prop :=
  ∃ th, s.threads[t]? = some th ∧ th.alive = true ∧ th.prog = .ret () ∧ th.proc = p ∧ th.log = l

section Threads

variable {s : Sys} {t : Nat} {p q : Proc} {l m : Log}

theorem Runs.ran (h : Runs s t p l) : Ran s t p l := by
  obtain ⟨th, hth, -, hp, hl⟩ := h
  exact ⟨th, hth, hp, hl⟩

theorem Returned.runs (h : Returned s t p l) : Runs s t p l := by
  obtain ⟨th, hth, ha, -, hp, hl⟩ := h
  exact ⟨th, hth, ha, hp, hl⟩

theorem Busy.runs (h : Busy s t p l) : Runs s t p l := by
  obtain ⟨th, hth, ha, -, hp, hl⟩ := h
  exact ⟨th, hth, ha, hp, hl⟩

theorem Ran.unique (h : Ran s t p l) (h' : Ran s t q m) : p = q ∧ l = m := by
  obtain ⟨th, hth, rfl, rfl⟩ := h
  obtain ⟨th', hth', rfl, rfl⟩ := h'
  cases hth.symm.trans hth'
  exact ⟨rfl, rfl⟩

theorem Runs.unique (h : Runs s t p l) (h' : Runs s t q m) : p = q ∧ l = m := h.ran.unique h'.ran

end Threads

theorem Ran.traced {J F : Log → Prop} {s : Sys} {t : Nat} {p : Proc} {l : Log} (hr : Ran s t p l)
    (h : Machine.Traced J F p s) : J l := by
  obtain ⟨th, hth, hp, rfl⟩ := hr
  exact (h t th hth hp).1

theorem Returned.traced {J F : Log → Prop} {s : Sys} {t : Nat} {p : Proc} {l : Log}
    (hr : Returned s t p l) (h : Machine.Traced J F p s) : F l := by
  obtain ⟨th, hth, halive, hend, hp, rfl⟩ := hr
  exact (h t th hth hp).2 halive hend

theorem Initial.allStart {s : Sys} (h : Initial s) : server.AllStart s := by
  intro t th hth
  rw [h.2.2.2] at hth
  obtain rfl := List.mem_singleton.mp (List.mem_of_getElem? hth)
  exact ⟨_, rfl⟩

/-- The configuration that an operation has read. -/
def configOf : Event → Option ServerConfig
  | ⟨.config, c⟩ => some c
  | _ => none

/-- The configurations that a thread has read, the last one first. -/
def configs (l : Log) : List ServerConfig := l.filterMap configOf

/-- In the run from `s₀` to `s`, thread `t` moves with event `e` when the state is `s₁`. -/
def MovesAt (s₀ s : Sys) (t : Nat) (e : Event) (s₁ : Sys) : Prop :=
  ∃ s₂, server.Run Machine.anyStep s₀ s₁ ∧ server.Step s₁ (.thread t e) s₂ ∧
    server.Run Machine.anyStep s₂ s

section Moves

variable {s₀ s s₁ : Sys} {t : Nat} {e : Event} {p : Proc} {l : Log}

/-- An event of a log happened somewhere in the run. -/
theorem movesAt_of_ran (h0 : Initial s₀) (hrun : server.Run Machine.anyStep s₀ s)
    (hr : Ran s t p l) (he : e ∈ l) : ∃ s₁, MovesAt s₀ s t e s₁ := by
  obtain ⟨th, hth, -, rfl⟩ := hr
  obtain ⟨s₁, s₂, hrun₁, -, hs, hrun₂⟩ := hrun.performed h0.allStart hth he
  exact ⟨s₁, s₂, hrun₁, hs, hrun₂⟩

theorem MovesAt.mem_log (h : MovesAt s₀ s t e s₁) (hr : Ran s t p l) : e ∈ l := by
  obtain ⟨s₂, -, hs, hrun⟩ := h
  obtain ⟨th, hth, -, rfl⟩ := hr
  exact hs.mem_log hrun hth

theorem MovesAt.truthful (h : MovesAt s₀ s t e s₁) : Truthful s₁.world e := by
  obtain ⟨s₂, -, hs, -⟩ := h
  cases hs with
  | thread _ _ _ hexec => exact (exec_did hexec).truthful

end Moves

/-- Thread `t`, which runs `p` and had the log `l`, moves with event `e`. -/
structure ThreadStep (s : Sys) (t : Nat) (p : Proc) (l : Log) (e : Event) (s' : Sys) : Prop where
  busy : Busy s t p l
  allowed : Allowed p l e.op
  did : Did s.world t e s'.world
  runs' : Runs s' t p (e :: l)
  busy_or_done : Busy s' t p (e :: l) ∨ Done p (e :: l)
  keeps : ∀ u q m, u ≠ t → Runs s u q m → Runs s' u q m
  busy_keeps : ∀ u q m, u ≠ t → Busy s u q m → Busy s' u q m
  ran_keeps : ∀ u q m, u ≠ t → Ran s u q m → Ran s' u q m
  ran_cases : ∀ u q m, Ran s' u q m →
    (u = t ∧ q = p ∧ m = e :: l) ∨ (u ≠ t ∧ Ran s u q m) ∨ (u ≠ t ∧ m = [] ∧ q ∈ spawn e.op)
  runs_cases : ∀ u q m, Runs s' u q m →
    (u = t ∧ q = p ∧ m = e :: l) ∨ (u ≠ t ∧ Runs s u q m) ∨ (u ≠ t ∧ m = [] ∧ q ∈ spawn e.op)
  busy_cases : ∀ u q m, Busy s' u q m →
    (u = t ∧ q = p ∧ m = e :: l) ∨ (u ≠ t ∧ Busy s u q m) ∨ (u ≠ t ∧ m = [] ∧ q ∈ spawn e.op)

theorem ThreadStep.runs {s s' : Sys} {t : Nat} {p : Proc} {l : Log} {e : Event}
    (h : ThreadStep s t p l e s') : Runs s t p l := h.busy.runs

/-- An event of a log after a step is that of the step, or the thread had it before. -/
theorem ThreadStep.mem_cases {s s' : Sys} {t u : Nat} {p q : Proc} {l m : Log} {e x : Event}
    (h : ThreadStep s t p l e s') (hr : Ran s' u q m) (hx : x ∈ m) :
    (x = e ∧ u = t ∧ q = p ∧ m = e :: l) ∨ ∃ m', Ran s u q m' ∧ x ∈ m' := by
  rcases h.ran_cases u q m hr with ⟨rfl, rfl, rfl⟩ | ⟨-, hr⟩ | ⟨-, rfl, -⟩
  · rcases List.mem_cons.mp hx with rfl | hx
    · exact .inl ⟨rfl, rfl, rfl, rfl⟩
    · exact .inr ⟨l, h.runs.ran, hx⟩
  · exact .inr ⟨m, hr, hx⟩
  · cases hx

/-- A timer after a step was there before, or has just been armed. -/
theorem ThreadStep.timer_cases {s s' : Sys} {t : Nat} {p : Proc} {l : Log} {e : Event}
    (h : ThreadStep s t p l e s') {tm : Timer} (htm : tm ∈ s'.world.timers) :
    tm ∈ s.world.timers ∨ ∃ d, e = ⟨.afterFunc d tm.callback, ()⟩ ∧
      tm.due = s.world.clock.nano + max d 0 := by
  rw [h.did.timers] at htm
  unfold timersAfter at htm
  split at htm
  · rename_i d q r
    rcases List.mem_append.mp htm with htm | htm
    · exact .inl htm
    · cases List.mem_singleton.mp htm
      exact .inr ⟨d, rfl, rfl⟩
  · exact .inl htm

theorem ThreadStep.timer_stays {s s' : Sys} {t : Nat} {p : Proc} {l : Log} {e : Event}
    (h : ThreadStep s t p l e s') {tm : Timer} (htm : tm ∈ s.world.timers) :
    tm ∈ s'.world.timers := by
  rw [h.did.timers]
  unfold timersAfter
  split
  · exact List.mem_append_left _ htm
  · exact htm

/-- What a `go` statement starts. -/
theorem spawn_cases {p q : Proc} {l : Log} {o : Op} (h : Allowed p l o) (hq : q ∈ spawn o) :
    q = .preAllocate ∨ q = .hourlyResync ∨ ∃ feedback, q = .email feedback := by
  unfold spawn at hq
  split at hq
  · cases List.mem_singleton.mp hq
    exact (h : _ ∨ _ ∨ _).imp_right fun h => h.imp_left And.left
  · cases hq

/-- What starts when the environment acts: a handler, the goroutine of a new process, or the
    callback of a timer that is due. -/
inductive Starts (w : World) (q : Proc) : Prop
  | restStart (r : Request) (h : q = .restStart r)
  | rest (r : RestRequest) (h : q = .rest r)
  | console (r : Request) (h : q = .console r)
  | proxy (target : String) (h : q = .proxy target)
  | connect (h : q = .connect)
  | timer (tm : Timer) (htm : tm ∈ w.timers) (h : tm.callback = q) (hdue : tm.due ≤ w.clock.nano)

/-- The environment acts. -/
structure EnvStep (s : Sys) (e : Env) (s' : Sys) : Prop where
  config : s'.world.config = s.world.config ∨
    ∃ c, (e = .reload c ∨ e = .restart c) ∧ s'.world.config = c
  restarted : ∀ c, e = .restart c → ∀ u q m, Runs s' u q m → m = []
  clock : s'.world.clock = s.world.clock ∨ ∃ x, e = .tick x ∧ s'.world.clock = x
  uuids : s'.world.uuids = s.world.uuids
  db : s'.world.db = s.world.db
  instances : s'.world.instances = s.world.instances
  timers : ∀ tm ∈ s'.world.timers, tm ∈ s.world.timers
  timers_keep : ∀ tm ∈ s.world.timers, body tm.callback ≠ .ret () →
    tm ∈ s'.world.timers ∨ (∃ u, Busy s' u tm.callback []) ∨ ∀ u q m, Runs s' u q m → m = []
  busy_keeps : ∀ u q m, Busy s u q m → Busy s' u q m ∨ ∀ u q m, Runs s' u q m → m = []
  ran_keeps : ∀ u q m, Ran s u q m → Ran s' u q m
  ran_cases : ∀ u q m, Ran s' u q m → Ran s u q m ∨ (m = [] ∧ Starts s.world q)
  runs_cases : ∀ u q m, Runs s' u q m → Runs s u q m ∨ (m = [] ∧ Starts s.world q)
  busy_cases : ∀ u q m, Busy s' u q m → Busy s u q m ∨ m = []
  muCreate : s'.world.muCreate = s.world.muCreate ∨
    (s'.world.muCreate = .free ∧ ∀ u q m, Runs s' u q m → m = [])

theorem EnvStep.ran_of_mem {s s' : Sys} {u : Nat} {q : Proc} {m : Log} {e : Env} {x : Event}
    (h : EnvStep s e s') (hr : Ran s' u q m) (hx : x ∈ m) : Ran s u q m := by
  rcases h.ran_cases u q m hr with hr | ⟨rfl, -⟩
  · exact hr
  · cases hx

theorem thread_step {s s' : Sys} {t : Nat} {e : Event}
    (hf : Machine.AllFollow Allowed Done s) (hs : server.Step s (.thread t e) s') :
    ∃ p l, ThreadStep s t p l e s' := by
  cases hs with
  | thread hth halive hprog hexec =>
    rename_i th o k c r w
    refine ⟨th.proc, th.log, ⟨th, hth, halive, by simp [hprog], rfl, rfl⟩,
      (hf _ _ hth).op halive hprog, exec_did hexec,
      ⟨_, server.get_advance_self hth, halive, rfl, rfl⟩, ?_, ?_, ?_, ?_, ?_, ?_, ?_⟩
    · by_cases hend : k r = .ret ()
      · exact .inr (((hf _ _ hth).next hprog r).done halive hend)
      · exact .inl ⟨_, server.get_advance_self hth, halive, hend, rfl, rfl⟩
    · rintro u q m hu ⟨th', hth', ha, hp, hl⟩
      exact ⟨th', server.get_advance_ne hu hth', ha, hp, hl⟩
    · rintro u q m hu ⟨th', hth', ha, hb, hp, hl⟩
      exact ⟨th', server.get_advance_ne hu hth', ha, hb, hp, hl⟩
    · rintro u q m hu ⟨th', hth', hp, hl⟩
      exact ⟨th', server.get_advance_ne hu hth', hp, hl⟩
    · rintro u q m ⟨th', hth', rfl, rfl⟩
      by_cases hu : u = t
      · subst hu
        cases (server.get_advance_self hth).symm.trans hth'
        exact .inl ⟨rfl, rfl, rfl⟩
      · rcases server.get_advance hth hth' with ⟨hu', -⟩ | ⟨-, h⟩ | ⟨q, hq, rfl⟩
        · exact absurd hu' hu
        · exact .inr (.inl ⟨hu, th', h, rfl, rfl⟩)
        · exact .inr (.inr ⟨hu, rfl, hq⟩)
    · rintro u q m ⟨th', hth', ha, rfl, rfl⟩
      by_cases hu : u = t
      · subst hu
        cases (server.get_advance_self hth).symm.trans hth'
        exact .inl ⟨rfl, rfl, rfl⟩
      · rcases server.get_advance hth hth' with ⟨hu', -⟩ | ⟨-, h⟩ | ⟨q, hq, rfl⟩
        · exact absurd hu' hu
        · exact .inr (.inl ⟨hu, th', h, ha, rfl, rfl⟩)
        · exact .inr (.inr ⟨hu, rfl, hq⟩)
    · rintro u q m ⟨th', hth', ha, hb, rfl, rfl⟩
      by_cases hu : u = t
      · subst hu
        cases (server.get_advance_self hth).symm.trans hth'
        exact .inl ⟨rfl, rfl, rfl⟩
      · rcases server.get_advance hth hth' with ⟨hu', -⟩ | ⟨-, h⟩ | ⟨q, hq, rfl⟩
        · exact absurd hu' hu
        · exact .inr (.inl ⟨hu, th', h, ha, hb, rfl, rfl⟩)
        · exact .inr (.inr ⟨hu, rfl, hq⟩)

/-- What the environment does to the world, whether it stops the process, and what it starts. -/
structure Acted (w : World) (e : Env) (w' : World) (stop : Bool) (ps : List Proc) : Prop where
  config : w'.config = w.config ∨ ∃ c, (e = .reload c ∨ e = .restart c) ∧ w'.config = c
  restarted : ∀ c, e = .restart c → stop = true
  clock : w'.clock = w.clock ∨ ∃ x, e = .tick x ∧ w'.clock = x
  uuids : w'.uuids = w.uuids
  db : w'.db = w.db
  instances : w'.instances = w.instances
  timers : ∀ tm ∈ w'.timers, tm ∈ w.timers
  timers_keep : ∀ tm ∈ w.timers, tm ∈ w'.timers ∨ tm.callback ∈ ps ∨ stop = true
  muCreate : w'.muCreate = w.muCreate ∨ (w'.muCreate = .free ∧ stop = true)
  starts : ∀ q ∈ ps, Starts w q

theorem env_acted {w w' : World} {e : Env} {stop : Bool} {ps : List Proc}
    (h : env w e = some (w', stop, ps)) : Acted w e w' stop ps := by
  cases e with
  | tick x =>
    cases h
    exact ⟨.inl rfl, fun _ h => (nomatch h), .inr ⟨x, rfl, rfl⟩, rfl, rfl, rfl, fun _ h => h,
      fun _ h => .inl h, .inl rfl, fun _ h => absurd h List.not_mem_nil⟩
  | fire i =>
    simp only [env] at h
    split at h
    · cases h
    · rename_i tm htm
      split at h
      · rename_i hdue
        cases h
        refine ⟨.inl rfl, fun _ h => (nomatch h), .inl rfl, rfl, rfl, rfl,
          fun _ h => List.mem_of_mem_eraseIdx h, ?_, .inl rfl, ?_⟩
        · intro tm' htm'
          obtain ⟨j, hj, rfl⟩ := List.mem_iff_getElem.mp htm'
          by_cases hji : j = i
          · subst hji
            rw [List.getElem?_eq_getElem hj] at htm
            cases htm
            exact .inr (.inl (List.mem_singleton_self _))
          · exact .inl (List.mem_eraseIdx_iff_getElem.mpr ⟨j, hj, hji, rfl⟩)
        · intro q hq
          cases List.mem_singleton.mp hq
          exact .timer tm (List.mem_of_getElem? htm) rfl hdue
      · cases h
  | request r =>
    cases h
    exact ⟨.inl rfl, fun _ h => (nomatch h), .inl rfl, rfl, rfl, rfl, fun _ h => h,
      fun _ h => .inl h, .inl rfl,
      fun _ h => .restStart r (List.mem_singleton.mp h)⟩
  | rest q =>
    cases h
    exact ⟨.inl rfl, fun _ h => (nomatch h), .inl rfl, rfl, rfl, rfl, fun _ h => h,
      fun _ h => .inl h, .inl rfl,
      fun _ h => .rest q (List.mem_singleton.mp h)⟩
  | console r =>
    cases h
    exact ⟨.inl rfl, fun _ h => (nomatch h), .inl rfl, rfl, rfl, rfl, fun _ h => h,
      fun _ h => .inl h, .inl rfl,
      fun _ h => .console r (List.mem_singleton.mp h)⟩
  | proxyConn target =>
    cases h
    exact ⟨.inl rfl, fun _ h => (nomatch h), .inl rfl, rfl, rfl, rfl, fun _ h => h,
      fun _ h => .inl h, .inl rfl,
      fun _ h => .proxy target (List.mem_singleton.mp h)⟩
  | reload c =>
    cases h
    exact ⟨.inr ⟨c, .inl rfl, rfl⟩, fun _ h => (nomatch h), .inl rfl, rfl, rfl, rfl,
      fun _ h => h, fun _ h => .inl h, .inl rfl, fun _ h => absurd h List.not_mem_nil⟩
  | restart c =>
    cases h
    exact ⟨.inr ⟨c, .inr rfl, rfl⟩, fun _ _ => rfl, .inl rfl, rfl, rfl, rfl,
      fun _ h => absurd h List.not_mem_nil,
      fun _ _ => .inr (.inr rfl), .inr ⟨rfl, rfl⟩,
      fun _ h => .connect (List.mem_singleton.mp h)⟩

theorem env_step {s s' : Sys} {e : Env} (hs : server.Step s (.env e) s') : EnvStep s e s' := by
  cases hs with
  | env henv =>
    rename_i w stop ps
    have hw := env_acted henv
    have hstopped : stop = true → ∀ u q m, Runs ⟨w, server.after s.threads stop ps⟩ u q m →
        m = [] := by
      rintro hstop u q m ⟨th', hth', ha, rfl, rfl⟩
      rcases server.get_after hth' with ⟨hstop', -⟩ | ⟨-, th, -, rfl⟩ | ⟨q, -, rfl⟩
      · rw [hstop] at hstop'
        cases hstop'
      · cases ha
      · rfl
    refine ⟨hw.config, fun c hc => hstopped (hw.restarted c hc), hw.clock, hw.uuids, hw.db,
      hw.instances, hw.timers, ?_, ?_, ?_, ?_, ?_, ?_,
      hw.muCreate.imp_right fun h => ⟨h.1, hstopped h.2⟩⟩
    · intro tm htm hbody
      rcases hw.timers_keep tm htm with h | h | h
      · exact .inl h
      · obtain ⟨u, hu⟩ := server.get_started s.threads stop h
        exact .inr (.inl ⟨u, _, hu, rfl, hbody, rfl, rfl⟩)
      · exact .inr (.inr (hstopped h))
    · rintro u q m ⟨th, hth, ha, hb, hp, hl⟩
      cases hstop : stop with
      | true => exact .inr (hstop ▸ hstopped hstop)
      | false =>
        refine .inl ⟨th, ?_, ha, hb, hp, hl⟩
        exact (List.getElem?_append_left (List.getElem?_eq_some_iff.mp hth).1).trans hth
    · rintro u q m ⟨th, hth, rfl, rfl⟩
      obtain ⟨th', hth', hp, hl⟩ := server.get_after_old stop ps hth
      exact ⟨th', hth', hp, hl⟩
    · rintro u q m ⟨th', hth', rfl, rfl⟩
      rcases server.get_after hth' with ⟨-, h⟩ | ⟨-, th, h, rfl⟩ | ⟨q, hq, rfl⟩
      · exact .inl ⟨th', h, rfl, rfl⟩
      · exact .inl ⟨th, h, rfl, rfl⟩
      · exact .inr ⟨rfl, hw.starts q hq⟩
    · rintro u q m ⟨th', hth', ha, rfl, rfl⟩
      rcases server.get_after hth' with ⟨-, h⟩ | ⟨-, th, h, rfl⟩ | ⟨q, hq, rfl⟩
      · exact .inl ⟨th', h, ha, rfl, rfl⟩
      · cases ha
      · exact .inr ⟨rfl, hw.starts q hq⟩
    · rintro u q m ⟨th', hth', ha, hb, rfl, rfl⟩
      rcases server.get_after hth' with ⟨-, h⟩ | ⟨-, th, h, rfl⟩ | ⟨q, hq, rfl⟩
      · exact .inl ⟨th', h, ha, hb, rfl, rfl⟩
      · cases ha
      · exact .inr rfl

-- ============================================================================
-- Runs
-- ============================================================================

/-- What holds of every state that a server reaches: all threads keep to the protocol. -/
structure Sound (s : Sys) : Prop where
  follow : Machine.AllFollow Allowed Done s
  logged : Machine.AllLogged Allowed s

theorem Initial.sound {s : Sys} (h : Initial s) : Sound s := by
  have hthreads := h.2.2.2
  constructor <;> intro u th hth <;> rw [hthreads] at hth <;>
    cases List.mem_singleton.mp (List.mem_of_getElem? hth)
  · exact body_follows .connect
  · exact Machine.LogAllowed.nil _

theorem Sound.step {s s' : Sys} {l : Label} (h : Sound s) (hs : server.Step s l s') : Sound s' :=
  ⟨h.follow.step body_follows hs, h.logged.step h.follow hs⟩

theorem Sound.allowed {s : Sys} (h : Sound s) {t : Nat} {p : Proc} {l : Log} (hr : Ran s t p l) :
    Machine.LogAllowed Allowed p l := by
  obtain ⟨th, hth, rfl, rfl⟩ := hr
  exact h.logged t th hth

/-- An initial server has run nothing. -/
theorem Initial.ran {s : Sys} (h : Initial s) {t : Nat} {p : Proc} {l : Log} (hr : Ran s t p l) :
    p = .connect ∧ l = [] := by
  obtain ⟨th, hth, rfl, rfl⟩ := hr
  rw [h.2.2.2] at hth
  cases List.mem_singleton.mp (List.mem_of_getElem? hth)
  exact ⟨rfl, rfl⟩

/-- Every state of a run is sound. -/
theorem Sound.run {C : Sys → Label → Prop} {s s' : Sys} (h : Sound s) (hrun : server.Run C s s') :
    Sound s' := by
  obtain ⟨hf, hl⟩ := Machine.Run.follows body_follows h.follow h.logged hrun
  exact ⟨hf, hl⟩

/-- A run keeps what its first state has, what each step of a thread keeps and what each act
    of the environment keeps. -/
theorem invariant_run {C : Sys → Label → Prop} {I : Sys → Prop} {s s' : Sys} (hsound : Sound s)
    (h0 : I s)
    (hthread : ∀ s t p l e s', Sound s → I s → C s (.thread t e) → ThreadStep s t p l e s' → I s')
    (henv : ∀ s e s', Sound s → I s → C s (.env e) → EnvStep s e s' → I s')
    (h : server.Run C s s') : Sound s' ∧ I s' := by
  refine Machine.Run.invariant (I := fun s => Sound s ∧ I s) ⟨hsound, h0⟩ ?_ h
  rintro s l s' ⟨hs, hI⟩ hC hstep
  refine ⟨hs.step hstep, ?_⟩
  cases l with
  | thread t e =>
    obtain ⟨p, l, hmove⟩ := thread_step hs.follow hstep
    exact hthread s t p l e s' hs hI hC hmove
  | env e => exact henv s e s' hs hI hC (env_step hstep)

/-- Some thread has performed the event. -/
def Happened (s : Sys) (x : Event) : Prop := ∃ t p l, Ran s t p l ∧ x ∈ l

theorem Initial.not_happened {s : Sys} (h : Initial s) (x : Event) : ¬ Happened s x := by
  rintro ⟨t, p, l, hr, hx⟩
  rw [(h.ran hr).2] at hx
  cases hx

/-- What has happened after a step: what had before, and the step. -/
theorem happened_threadStep {s s' : Sys} {t : Nat} {p : Proc} {l : Log} {e x : Event}
    (hm : ThreadStep s t p l e s') : Happened s' x ↔ Happened s x ∨ x = e := by
  constructor
  · rintro ⟨u, q, m, hr, hx⟩
    rcases hm.mem_cases hr hx with ⟨heq, -⟩ | ⟨m, hr, hx⟩
    · exact .inr heq
    · exact .inl ⟨u, q, m, hr, hx⟩
  · rintro (⟨u, q, m, hr, hx⟩ | rfl)
    · by_cases hu : u = t
      · subst hu
        obtain ⟨rfl, rfl⟩ := hr.unique hm.runs.ran
        exact ⟨u, q, _, hm.runs'.ran, List.mem_cons_of_mem _ hx⟩
      · exact ⟨u, q, m, hm.ran_keeps u q m hu hr, hx⟩
    · exact ⟨t, p, _, hm.runs'.ran, List.mem_cons_self ..⟩

theorem happened_envStep {s s' : Sys} {e : Env} {x : Event} (hm : EnvStep s e s') :
    Happened s' x ↔ Happened s x := by
  constructor
  · rintro ⟨u, q, m, hr, hx⟩
    have hr := hm.ran_of_mem hr hx
    exact ⟨u, q, m, hr, hx⟩
  · rintro ⟨u, q, m, hr, hx⟩
    exact ⟨u, q, m, hm.ran_keeps u q m hr, hx⟩

end IncusDemo
