/-
  IncusDemo.Recovery

  The startup goroutine makes the sessions and the instances agree again after
  a stop at any point.  Its three loops run one after the other: over the
  active sessions (`Restored`), over the former pool (`Emptied`) and over the
  instances (`Resynced`).  Each loop is described by the lists of what it has
  expired, armed, deleted and removed, so a later loop is compared with an
  earlier one by comparing lists.
-/

import IncusDemo.Sequential
import IncusDemo.Timeout

namespace IncusDemo

open Go Conc

-- ============================================================================
-- Consistency
-- ============================================================================

/-- The callback ends session `id`. -/
def endsSession (id : Nat) : Proc → Bool
  | .cleanup i _ => i == id
  | _ => false

/-- What a start on the world `w` has made of it by the time the log of the startup goroutine is
    `l`.  `ends e now` says when a session that was examined at `now` may be ended, `ours i` which
    instances the server looks after. -/
structure Recovered (ends : Listed → Time → Prop) (ours : Instance → Prop) (w w' : World)
    (l : Log) : Prop where
  pool : ∀ id a, w'.db.Row id a → a.status ≠ 2
  active : ∀ id a, w.db.Row id a → a.status = 0 → ∃ now, ExaminedAt l (a.listed id) now ∧
    ((w'.db.Row id a ∧ now.unix < a.instanceExpiry ∧
      (w'.timers.map Timer.callback).filter (endsSession id) = [.cleanup id a.instanceName]) ∨
    (w'.db.Row id a.expired ∧ ends (a.listed id) now))
  expired : ∀ id a, w.db.Row id a → a.status = 1 → w'.db.Row id a
  instances : ∀ i ∈ w'.instances, ours i → hasPrefix i.name "tryit-" = true →
    ∃! id, ∃ a, w'.db.Row id a ∧ a.status = 0 ∧ a.instanceName = i.name
  others : w'.instances.filter (fun i => !hasPrefix i.name "tryit-") =
    w.instances.filter fun i => !hasPrefix i.name "tryit-"

/-- The session has ended, or is so far from its end that no `time.Duration` reaches it. -/
def OverOrFar (e : Listed) (now : Time) : Prop :=
  e.instanceExpiry ≤ now.unix ∨ maxSeconds < e.instanceExpiry - now.unix

/-- The expiries of the active sessions are 64-bit integers. -/
def Stored (db : Db) : Prop :=
  ∀ id a, db.Row id a → a.status = 0 → -2 ^ 63 ≤ a.instanceExpiry ∧ a.instanceExpiry < 2 ^ 63

/-- Neither a statement nor the listing of the instances fails. -/
def Unfailing : Event → Prop
  | ⟨.query _, .error _⟩ => False
  | ⟨.call _ .getInstanceNames, .error _⟩ => False
  | _ => True

/-- The steps of the startup goroutine, in which nothing fails, up to the `go` statement for the
    goroutine that resyncs every hour. -/
structure Recovers (w : World) (e : Event) : Prop where
  unfailing : Unfailing e
  deletes : Deletes w e
  before : ∀ q, e.op ≠ .go q

/-- Thread `t`, with the log `l`, is about to start the goroutine that resyncs every hour. -/
def Resynchronized (s : Sys) (t : Nat) (l : Log) : Prop :=
  ∃ th k, s.threads[t]? = some th ∧ th.alive = true ∧ th.log = l ∧
    th.prog = .op (.go .hourlyResync) k

-- ============================================================================
-- Tables and instances, over a whole loop
-- ============================================================================

/-- Expire the sessions of a list. -/
def Db.expireAll (db : Db) (es : List Listed) : Db :=
  es.foldl (fun db e => db.updateId e.id Session.expired) db

/-- Delete the rows of a list. -/
def Db.deleteAll (db : Db) (es : List Listed) : Db := es.foldl (fun db e => db.deleteId e.id) db

/-- Remove the instances of a list. -/
def Instances.removeAll (is : Instances) (d : InstanceServer) (names : List String) : Instances :=
  names.foldl (fun is name => is.remove d name) is

theorem mem_updateId {db : Db} {id i : Nat} {f : Session → Session} {a : Session} :
    (db.updateId i f).Row id a ↔ ∃ b, db.Row id b ∧ a = if id = i then f b else b := by
  unfold Db.Row Db.updateId
  simp [Sql.Table.mem_update]

theorem mem_deleteId {db : Db} {id i : Nat} {a : Session} :
    (db.deleteId i).Row id a ↔ db.Row id a ∧ id ≠ i := by
  unfold Db.Row Db.deleteId
  simp [Sql.Table.mem_delete]

theorem mem_expireAll {db : Db} {es : List Listed} {id : Nat} {a : Session} :
    (db.expireAll es).Row id a ↔
      ∃ b, db.Row id b ∧ a = if id ∈ es.map Listed.id then b.expired else b := by
  induction es generalizing db with
  | nil => simp [Db.expireAll]
  | cons e es ih =>
    change ((db.updateId e.id Session.expired).expireAll es).Row id a ↔ _
    rw [ih]
    constructor
    · rintro ⟨c, hc, rfl⟩
      obtain ⟨b, hb, rfl⟩ := mem_updateId.mp hc
      refine ⟨b, hb, ?_⟩
      by_cases he : id = e.id <;> by_cases hes : id ∈ es.map Listed.id <;>
        simp [he, hes, Session.expired]
    · rintro ⟨b, hb, rfl⟩
      refine ⟨if id = e.id then b.expired else b, mem_updateId.mpr ⟨b, hb, rfl⟩, ?_⟩
      by_cases he : id = e.id <;> by_cases hes : id ∈ es.map Listed.id <;>
        simp [he, hes, Session.expired]

theorem mem_deleteAll {db : Db} {es : List Listed} {id : Nat} {a : Session} :
    (db.deleteAll es).Row id a ↔ db.Row id a ∧ id ∉ es.map Listed.id := by
  induction es generalizing db with
  | nil => simp [Db.deleteAll]
  | cons e es ih =>
    change ((db.deleteId e.id).deleteAll es).Row id a ↔ _
    rw [ih, mem_deleteId]
    simp [and_assoc]

theorem Instances.mem_removeAll {is : Instances} {d : InstanceServer} {names : List String}
    {i : Instance} : i ∈ is.removeAll d names ↔ i ∈ is ∧ ∀ n ∈ names, isAt d n i = false := by
  induction names generalizing is with
  | nil => simp [Instances.removeAll]
  | cons n names ih =>
    change i ∈ (is.remove d n).removeAll d names ↔ _
    rw [ih, Instances.mem_remove]
    simp [and_assoc]

/-- Removing instances of some kind keeps those of the other kind. -/
theorem Instances.filter_removeAll {is : Instances} {d : InstanceServer} {names : List String}
    {p : String → Bool} (h : ∀ n ∈ names, p n = false) :
    (is.removeAll d names).filter (fun i => p i.name) = is.filter fun i => p i.name := by
  induction names generalizing is with
  | nil => rfl
  | cons n names ih =>
    change ((is.remove d n).removeAll d names).filter _ = _
    rw [ih fun m hm => h m (List.mem_cons_of_mem _ hm), Instances.remove, List.filter_filter]
    refine List.filter_congr fun i _ => ?_
    by_cases hi : isAt d n i = true
    · rw [(Instances.isAt_iff.mp hi).2, h n (List.mem_cons_self ..)]
      rfl
    · simp [hi]

section Loops

variable {R : View → Prop} {t : Nat} {x : View}

-- ============================================================================
-- The connection
-- ============================================================================

/-- The data are the same; the connection may be another. -/
structure Intact (w w' : World) : Prop where
  timers : w'.timers = w.timers
  db : w'.db = w.db
  instances : w'.instances = w.instances

theorem Intact.trans {w w' w'' : World} (h : Intact w w') (h' : Intact w' w'') : Intact w w'' :=
  ⟨h'.timers.trans h.timers, h'.db.trans h.db, h'.instances.trans h.instances⟩

theorem Drift.intact {w w' : World} (h : Drift w w') : Intact w w' := ⟨h.timers, h.db, h.instances⟩

theorem setIncusDaemon_solo {d : Option InstanceServer} {Q : Unit → View → Prop}
    (h : ∀ x', x'.1.incusDaemon = d → Intact x.1 x'.1 → Q () x') :
    Solo Recovers R t (perform (.setIncusDaemon d)) Q x := by
  refine solo_op nofun fun _ x' hm => ?_
  obtain ⟨w, hdrift, -, hdid, -⟩ := hm
  have hw : Intact w x'.1 := ⟨hdid.timers, hdid.db, hdid.instances⟩
  exact h x' hdid.incusDaemon (hdrift.intact.trans hw)

theorem connectLoop_solo {rounds : Nat} {Q : InstanceServer → View → Prop}
    (h : ∀ d x', x'.1.incusDaemon = some d → Intact x.1 x'.1 → Q d x') :
    Solo Recovers R t (connectLoop rounds) Q x := by
  induction rounds generalizing x with
  | zero => exact solo_halt
  | succ rounds ih =>
    unfold connectLoop
    simp only [solo_bind]
    refine solo_still rfl nofun fun c x₁ h₁ => solo_still rfl nofun fun r x₂ h₂ => ?_
    have h₂ := (h₁.trans h₂).toDrift.intact
    cases r with
    | ok d =>
      rw [solo_bind]
      exact setIncusDaemon_solo fun x₃ hd h₃ => h d x₃ hd (h₂.trans h₃)
    | error e =>
      rw [solo_bind]
      refine setIncusDaemon_solo fun x₃ _ h₃ => ?_
      rw [solo_bind]
      refine solo_still rfl nofun fun _ x₄ h₄ => ih fun d x₅ hd h₅ => ?_
      exact h d x₅ hd (((h₂.trans h₃).trans h₄.toDrift.intact).trans h₅)

theorem useProject_solo {d : InstanceServer} {Q : Unit → View → Prop}
    (hd : x.1.incusDaemon = some d)
    (h : ∀ d' x', x'.1.incusDaemon = some d' → Intact x.1 x'.1 → Q () x') :
    Solo Recovers R t useProject Q x := by
  have htarget : ∀ d₁ x₁, x₁.1.incusDaemon = some d₁ → Intact x.1 x₁.1 → Solo Recovers R t (do
      let c ← perform .config
      if c.incus.target ≠ "" then
        let d ← daemon
        perform (.setIncusDaemon (some { d with target := c.incus.target }))) Q x₁ := by
    intro d₁ x₁ hd₁ h₁
    rw [solo_bind]
    refine solo_still rfl nofun fun c x₂ h₂ => ?_
    have h₂' := h₁.trans h₂.toDrift.intact
    refine solo_ite (fun _ => ?_) (fun _ => h d₁ x₂ (h₂.incusDaemon.trans hd₁) h₂')
    rw [solo_bind]
    refine daemon_solo fun d₃ x₃ _ h₃ => setIncusDaemon_solo fun x₄ hd₄ h₄ => ?_
    exact h _ x₄ hd₄ ((h₂'.trans h₃.toDrift.intact).trans h₄)
  unfold useProject
  rw [solo_bind]
  refine solo_still rfl nofun fun c x₁ h₁ => ?_
  dsimp only
  refine solo_ite (fun _ => ?_)
    (fun _ => htarget d x₁ (h₁.incusDaemon.trans hd) h₁.toDrift.intact)
  rw [solo_bind]
  refine daemon_solo fun d₂ x₂ _ h₂ => ?_
  rw [solo_bind]
  refine setIncusDaemon_solo fun x₃ hd₃ h₃ => ?_
  exact htarget _ x₃ hd₃ ((h₁.toDrift.intact.trans h₂.toDrift.intact).trans h₃)

-- ============================================================================
-- Active sessions
-- ============================================================================

/-- A statement does not fail. -/
theorem query_solo {q : Query} {Q : Except Error q.Res → View → Prop}
    (h : ∀ a x', Queried q a x x' → Q (.ok a) x') : Solo Recovers R t (perform (.query q)) Q x := by
  refine solo_op nofun fun r x' hm => ?_
  cases r with
  | error e =>
    obtain ⟨w, -, hC, -⟩ := hm
    exact hC.unfailing.elim
  | ok a => exact h a x' hm.queried

theorem deletes_of_recovers (w : World) (e : Event) (h : Recovers w e) : Deletes w e := h.deletes

/-- The loop over the active sessions is through with `done` and has `rest` before it: it has
    armed the callbacks of `A` and ended the sessions of `X`. -/
structure Restored (d : InstanceServer) (w : World) (done rest A X : List Listed) (x : View) :
    Prop where
  perm : (A ++ X).Perm done
  incusDaemon : x.1.incusDaemon = some d
  timers : x.1.timers.map Timer.callback = A.map fun e => Proc.cleanup e.id e.instanceName
  db : x.1.db = w.db.expireAll X
  instances : x.1.instances = w.instances.removeAll d (X.map Listed.instanceName)
  armed : ∀ e ∈ A, ∃ now, ExaminedAt x.2 e now ∧ ¬ overdue e now
  expired : ∀ e ∈ X, ∃ now, ExaminedAt x.2 e now ∧ overdue e now
  rest : restoring x.2 = rest

section Restore

variable {d : InstanceServer} {w : World} {done rest A X : List Listed} {e : Listed} {now : Time}

theorem Restored.still (h : Restored d w done rest A X x) {x' : View} (hs : Still x x') :
    Restored d w done rest A X x' where
  perm := h.perm
  incusDaemon := hs.incusDaemon.trans h.incusDaemon
  timers := by rw [hs.timers, h.timers]
  db := hs.db.trans h.db
  instances := hs.instances.trans h.instances
  armed := by
    intro e he
    obtain ⟨now, hnow, hover⟩ := h.armed e he
    exact ⟨now, hnow.mono hs.log.suffix, hover⟩
  expired := by
    intro e he
    obtain ⟨now, hnow, hover⟩ := h.expired e he
    exact ⟨now, hnow.mono hs.log.suffix, hover⟩
  rest := hs.log.restoring.trans h.rest

/-- The session at the head of the list is ended. -/
theorem endSession_solo (h : Restored d w done (e :: rest) A X x) (hnow : ExaminedAt x.2 e now)
    (hover : overdue e now) : Solo Recovers R t (do
      forceDelete e.instanceName
      let _ ← perform (.query (.dbExpire e.id)))
    (fun _ => Restored d w (done ++ [e]) rest A (X ++ [e])) x := by
  rw [solo_bind]
  refine forceDelete_solo deletes_of_recovers fun d' x₁ hd h₁ => ?_
  cases Option.some.inj (h.incusDaemon.symm.trans hd)
  rw [solo_bind]
  refine query_solo fun a x₂ h₂ => ?_
  have hsuffix : x.2 <:+ x₂.2 := by
    rw [h₂.log]
    exact h₁.log.suffix.trans (List.suffix_cons ..)
  constructor
  · rw [← List.append_assoc]
    exact h.perm.append_right [e]
  · exact (h₂.incusDaemon.trans h₁.incusDaemon).trans h.incusDaemon
  · rw [h₂.timers, h₁.timers, h.timers]
  · rw [h₂.db, h₁.db, h.db, Db.expireAll, Db.expireAll, List.foldl_append]
    rfl
  · rw [h₂.instances, h₁.instances, h.instances, Instances.removeAll, Instances.removeAll,
      List.map_append, List.foldl_append]
    rfl
  · intro e' he'
    obtain ⟨now', hnow', hover'⟩ := h.armed e' he'
    exact ⟨now', hnow'.mono hsuffix, hover'⟩
  · intro e' he'
    rcases List.mem_append.mp he' with he' | he'
    · obtain ⟨now', hnow', hover'⟩ := h.expired e' he'
      exact ⟨now', hnow'.mono hsuffix, hover'⟩
    · cases List.mem_singleton.mp he'
      exact ⟨now, hnow.mono hsuffix, hover⟩
  · rw [h₂.log, restoring_cons, h₁.log.restoring, h.rest]
    simp [restoringNext, passed]

/-- The callback of the session at the head of the list is armed. -/
theorem armSession_solo (h : Restored d w done (e :: rest) A X x) (hnow : ExaminedAt x.2 e now)
    (hover : ¬ overdue e now) (duration : Int) :
    Solo Recovers R t (perform (.afterFunc duration (.cleanup e.id e.instanceName)))
      (fun _ => Restored d w (done ++ [e]) rest (A ++ [e]) X) x := by
  refine solo_op nofun fun _ x₁ hm => ?_
  have hlog := hm.log_eq
  obtain ⟨w₁, hdrift, -, hdid, -⟩ := hm
  have hsuffix : x.2 <:+ x₁.2 := by
    rw [hlog]
    exact List.suffix_cons ..
  constructor
  · rw [List.append_assoc]
    apply (List.perm_append_comm.append_left A).trans
    rw [← List.append_assoc]
    exact h.perm.append_right [e]
  · exact (hdid.incusDaemon.trans hdrift.incusDaemon).trans h.incusDaemon
  · rw [hdid.timers, timersAfter, hdrift.timers, List.map_append, List.map_append, h.timers]
    rfl
  · exact (hdid.db.trans hdrift.db).trans h.db
  · have hinstances : x₁.1.instances = w₁.instances := hdid.instances
    rw [hinstances, hdrift.instances, h.instances]
  · intro e' he'
    rcases List.mem_append.mp he' with he' | he'
    · obtain ⟨now', hnow', hover'⟩ := h.armed e' he'
      exact ⟨now', hnow'.mono hsuffix, hover'⟩
    · cases List.mem_singleton.mp he'
      exact ⟨now, hnow.mono hsuffix, hover⟩
  · intro e' he'
    obtain ⟨now', hnow', hover'⟩ := h.expired e' he'
    exact ⟨now', hnow'.mono hsuffix, hover'⟩
  · rw [hlog, restoring_cons, h.rest]
    simp [restoringNext, passed]

theorem restoreSession_solo (h : Restored d w done (e :: rest) A X x) :
    Solo Recovers R t (restoreSession e)
      (fun _ x' => ∃ A X, Restored d w (done ++ [e]) rest A X x') x := by
  unfold restoreSession
  rw [solo_bind]
  refine solo_op nofun fun now x₁ hm => ?_
  have h₁ := h.still (hm.still rfl)
  have hnow : ExaminedAt x₁.2 e now := ⟨x.2, rest, hm.log_eq ▸ List.suffix_rfl, h.rest⟩
  dsimp only
  split
  · rename_i herr
    have hover : overdue e now := fun d hd => nomatch herr.symm.trans hd
    exact solo_mono (fun _ x' h' => ⟨A, X ++ [e], h'⟩) (endSession_solo h₁ hnow hover)
  · rename_i duration hd
    refine solo_ite (fun hle => ?_) (fun hle => ?_)
    · have hover : overdue e now := fun _ _ => hle
      exact solo_mono (fun _ x' h' => ⟨A, X ++ [e], h'⟩) (endSession_solo h₁ hnow hover)
    · have hover : ¬ overdue e now := fun hover => hle (hover duration hd)
      exact solo_mono (fun _ x' h' => ⟨A ++ [e], X, h'⟩)
        (armSession_solo h₁ hnow hover duration)

/-- The loop over the active sessions. -/
theorem restoreAll_solo {es : List Listed} (h : Restored d w [] es [] [] x) :
    Solo Recovers R t (es.forM restoreSession) (fun _ x' => ∃ A X, Restored d w es [] A X x') x :=
  Conc.Prog.wp_forM (I := fun done rest x' => ∃ A X, Restored d w done rest A X x')
    (fun _ _ _ _ ⟨_, _, h⟩ => restoreSession_solo h) [] ⟨[], [], h⟩

end Restore

-- ============================================================================
-- The former pool
-- ============================================================================

/-- The rows of `done` are deleted and their instances removed. -/
structure Emptied (d : InstanceServer) (x : View) (done : List Listed) (x' : View) : Prop where
  incusDaemon : x'.1.incusDaemon = some d
  timers : x'.1.timers = x.1.timers
  db : x'.1.db = x.1.db.deleteAll done
  instances : x'.1.instances = x.1.instances.removeAll d (done.map Listed.instanceName)
  suffix : x.2 <:+ x'.2

theorem deleteAllocated_solo {d : InstanceServer} {x₀ : View} {done : List Listed} {e : Listed}
    (h : Emptied d x₀ done x) :
    Solo Recovers R t (deleteAllocated e) (fun _ => Emptied d x₀ (done ++ [e])) x := by
  unfold deleteAllocated
  rw [solo_bind]
  refine forceDelete_solo deletes_of_recovers fun d' x₁ hd h₁ => ?_
  cases Option.some.inj (h.incusDaemon.symm.trans hd)
  rw [solo_bind]
  refine query_solo fun a x₂ h₂ => ?_
  constructor
  · exact (h₂.incusDaemon.trans h₁.incusDaemon).trans h.incusDaemon
  · rw [h₂.timers, h₁.timers, h.timers]
  · rw [h₂.db, h₁.db, h.db, Db.deleteAll, Db.deleteAll, List.foldl_append]
    rfl
  · rw [h₂.instances, h₁.instances, h.instances, Instances.removeAll, Instances.removeAll,
      List.map_append, List.foldl_append]
    rfl
  · rw [h₂.log]
    exact (h.suffix.trans h₁.log.suffix).trans (List.suffix_cons ..)

/-- The loop over the former pool. -/
theorem deleteFormer_solo {d : InstanceServer} {x₀ : View} {es : List Listed}
    (h : Emptied d x₀ [] x) :
    Solo Recovers R t (es.forM deleteAllocated) (fun _ => Emptied d x₀ es) x :=
  Conc.Prog.wp_forM (I := fun done _ => Emptied d x₀ done) (fun _ _ _ _ => deleteAllocated_solo) [] h

-- ============================================================================
-- The resync
-- ============================================================================

/-- The instances `gone` are removed, for want of a row; of the names in `names` none else is. -/
structure Resynced (d : InstanceServer) (x : View) (names gone : List String) (x' : View) :
    Prop where
  incusDaemon : x'.1.incusDaemon = some d
  timers : x'.1.timers = x.1.timers
  db : x'.1.db = x.1.db
  instances : x'.1.instances = x.1.instances.removeAll d gone
  suffix : x.2 <:+ x'.2
  ours : ∀ n ∈ gone, hasPrefix n "tryit-" = true
  kept : ∀ n ∈ names, hasPrefix n "tryit-" = true → n ∈ gone ∨ x.1.db.shouldExist n = true

theorem resyncNames_solo {d : InstanceServer} {x₀ : View} {names done gone : List String}
    {Q : Except Error Unit → View → Prop} (h : Resynced d x₀ done gone x)
    (hQ : ∀ gone x', Resynced d x₀ (done ++ names) gone x' → Q (.ok ()) x') :
    Solo Recovers R t (resyncNames names) Q x := by
  induction names generalizing x done gone with
  | nil => exact hQ gone x (by rwa [List.append_nil])
  | cons n names ih =>
    have hrest : ∀ gone x', Resynced d x₀ (done ++ [n]) gone x' →
        Solo Recovers R t (resyncNames names) Q x' := by
      intro gone x' h'
      refine ih h' fun gone x'' h'' => hQ gone x'' ?_
      rwa [List.append_assoc] at h''
    unfold resyncNames
    refine solo_ite (fun hpre => ?_) (fun hpre => ?_)
    · rw [solo_bind]
      refine query_solo fun exists_ x₁ h₁ => ?_
      have hdb : x₁.1.db = x.1.db := h₁.db
      have hanswer : exists_ = x.1.db.shouldExist n := h₁.answer
      have hsuffix : x₀.2 <:+ x₁.2 := by
        rw [h₁.log]
        exact h.suffix.trans (List.suffix_cons ..)
      cases exists_ with
      | true =>
        refine hrest gone x₁ ⟨h₁.incusDaemon.trans h.incusDaemon, h₁.timers.trans h.timers,
          hdb.trans h.db, h₁.instances.trans h.instances, hsuffix, h.ours, ?_⟩
        intro m hm hpre'
        rcases List.mem_append.mp hm with hm | hm
        · exact h.kept m hm hpre'
        · rw [List.mem_singleton.mp hm, ← h.db]
          exact .inr hanswer.symm
      | false =>
        rw [solo_bind]
        refine forceDelete_solo deletes_of_recovers fun d' x₂ hd h₂ => ?_
        cases Option.some.inj ((h₁.incusDaemon.trans h.incusDaemon).symm.trans hd)
        refine hrest (gone ++ [n]) x₂ ⟨?_, ?_, ?_, ?_, ?_, ?_, ?_⟩
        · exact (h₂.incusDaemon.trans h₁.incusDaemon).trans h.incusDaemon
        · rw [h₂.timers, h₁.timers, h.timers]
        · rw [h₂.db, hdb, h.db]
        · rw [h₂.instances, h₁.instances, h.instances, Instances.removeAll, Instances.removeAll,
            List.foldl_append]
          rfl
        · exact hsuffix.trans h₂.log.suffix
        · intro m hm
          rcases List.mem_append.mp hm with hm | hm
          · exact h.ours m hm
          · rw [List.mem_singleton.mp hm]
            exact hpre
        · intro m hm hpre'
          rcases List.mem_append.mp hm with hm | hm
          · exact (h.kept m hm hpre').imp_left (List.mem_append_left _)
          · exact .inl (List.mem_append_right _ hm)
    · refine hrest gone x ⟨h.incusDaemon, h.timers, h.db, h.instances, h.suffix, h.ours, ?_⟩
      intro m hm hpre'
      rcases List.mem_append.mp hm with hm | hm
      · exact h.kept m hm hpre'
      · rw [List.mem_singleton.mp hm] at hpre'
        exact absurd hpre' hpre

theorem instanceResync_solo {d : InstanceServer} {Q : Except Error Unit → View → Prop}
    (hd : x.1.incusDaemon = some d)
    (hQ : ∀ gone x', Resynced d x (x.1.instances.names d) gone x' → Q (.ok ()) x') :
    Solo Recovers R t instanceResync Q x := by
  unfold instanceResync
  rw [solo_bind]
  refine solo_op nofun fun _ x₀ hm₀ => ?_
  rw [solo_bind]
  refine solo_op nofun fun _ x₁ hm₁ => ?_
  have h₁ := drifts.trans _ _ _ (hm₀.drift rfl) (hm₁.drift rfl)
  rw [solo_bind]
  unfold resyncLocked
  rw [solo_bind]
  refine daemon_solo fun d' x₂ hd' h₂ => ?_
  cases Option.some.inj (hd.symm.trans (h₁.incusDaemon.symm.trans hd'))
  rw [solo_bind]
  refine solo_op nofun fun r x₃ hm₃ => ?_
  have h₃ := drifts.trans _ _ _ (drifts.trans _ _ _ h₁ h₂.toDrift) (hm₃.drift rfl)
  have hlog₃ := hm₃.log_eq
  obtain ⟨w, hdrift, hC, hdid, -⟩ := hm₃
  cases r with
  | error e => exact hC.unfailing.elim
  | ok names =>
    have hnames : names = x.1.instances.names d := by
      have htrue : names = w.instances.names d := hdid.truthful
      rw [htrue, hdrift.instances, h₂.instances, h₁.instances]
    have hsuffix : x.2 <:+ x₃.2 := by
      rw [hlog₃]
      refine List.IsSuffix.trans ?_ (h₂.log.suffix.trans (List.suffix_cons ..))
      rw [hm₁.log_eq, hm₀.log_eq]
      exact (List.suffix_cons ..).trans (List.suffix_cons ..)
    subst hnames
    have hstart : Resynced d x [] [] x₃ := ⟨h₃.incusDaemon.trans hd, h₃.timers, h₃.db,
      h₃.instances, hsuffix, by simp, by simp⟩
    refine resyncNames_solo hstart fun gone x₄ h₄ => ?_
    rw [solo_bind]
    refine solo_op nofun fun _ x₅ hm₅ => hQ gone x₅ ?_
    have h₅ := hm₅.drift rfl
    refine ⟨h₅.incusDaemon.trans h₄.incusDaemon, h₅.timers.trans h₄.timers, h₅.db.trans h₄.db,
      h₅.instances.trans h₄.instances, ?_, h₄.ours, h₄.kept⟩
    rw [hm₅.log_eq]
    exact h₄.suffix.trans (List.suffix_cons ..)

end Loops

-- ============================================================================
-- One loop after another
-- ============================================================================

section Assembly

variable {d : InstanceServer} {w : World} {A X : List Listed} {gone : List String}
  {x₁ x₂ x₃ : View} {id : Nat} {a : Session}

/-- The startup loop ends the sessions that are over or too far off. -/
theorem overdue_iff {e : Listed} {now : Time}
    (hlo : -2 ^ 63 ≤ e.instanceExpiry) (hhi : e.instanceExpiry < 2 ^ 63) :
    overdue e now ↔ OverOrFar e now := by
  have hnow := now.unix_nonneg
  have hlt := now.unix_lt
  unfold overdue OverOrFar
  simp only [parseDuration_ok]
  by_cases hunder : e.instanceExpiry - now.unix < -2 ^ 63
  · rw [int64_of_underflow (by omega) hunder]
    unfold maxSeconds
    constructor
    · intro _
      omega
    · intro _ d hd
      omega
  · rw [int64_of_bounds (by omega) (by omega)]
    unfold maxSeconds
    constructor
    · intro h
      by_contra hnot
      have hle := h _ ⟨by omega, by omega, rfl⟩
      omega
    · intro h d hd
      omega

/-- Deleting what is listed as waiting leaves the other rows. -/
theorem mem_deleteAll_waiting {db : Db} :
    (db.deleteAll (db.listStatus 2)).Row id a ↔ db.Row id a ∧ a.status ≠ 2 := by
  rw [mem_deleteAll]
  refine and_congr_right fun ha => not_congr ?_
  constructor
  · intro hid
    obtain ⟨e, he, rfl⟩ := List.mem_map.mp hid
    obtain ⟨b, hb, hstatus, -⟩ := mem_listStatus.mp he
    rwa [row_unique ha hb]
  · intro hstatus
    exact List.mem_map.mpr ⟨a.listed id, mem_listStatus.mpr ⟨a, ha, hstatus, rfl⟩, rfl⟩

/-- A name that should exist is that of a single row. -/
theorem unique_of_shouldExist {db : Db} {name : String} (h : db.shouldExist name = true) :
    ∃ id a, db.Row id a ∧ a.instanceName = name ∧ (a.status = 0 ∨ a.status = 2) ∧
      ∀ id' b, db.Row id' b → b.instanceName = name → b.status = 0 → id' = id := by
  obtain ⟨id, a, ha, hp, honly⟩ := Sql.Table.of_count_eq_one (beq_iff_eq.mp h)
  simp only [Bool.and_eq_true, Bool.or_eq_true, beq_iff_eq] at hp honly
  exact ⟨id, a, ha, hp.1, hp.2, fun id' b hb hname hstatus => honly id' b hb ⟨hname, .inl hstatus⟩⟩

theorem Instances.mem_names {is : Instances} {i : Instance} (h : i ∈ is)
    (hproject : i.project = d.project) : i.name ∈ is.names d :=
  List.mem_map_of_mem (List.mem_filter.mpr ⟨h, beq_iff_eq.mpr hproject⟩)

/-- In a list that names no session twice, one callback is for each. -/
theorem filter_callbacks {es : List Listed} (hnodup : (es.map Listed.id).Nodup) {e : Listed}
    (he : e ∈ es) : (es.map fun e => Proc.cleanup e.id e.instanceName).filter (endsSession e.id) =
      [.cleanup e.id e.instanceName] := by
  have hsame : es.filter (fun x => endsSession e.id (.cleanup x.id x.instanceName)) =
      es.filter (· = e) := by
    refine List.filter_congr fun x hx => ?_
    have hiff : x.id = e.id ↔ x = e :=
      ⟨fun h => List.inj_on_of_nodup_map hnodup hx he h, fun h => h ▸ rfl⟩
    simp only [endsSession, beq_eq_decide, hiff]
  rw [List.filter_map]
  change (es.filter fun x => endsSession e.id (.cleanup x.id x.instanceName)).map _ = _
  rw [hsame, List.filter_eq, List.count_eq_one_of_mem hnodup.of_map he]
  rfl

variable (h₁ : Restored d w (w.db.listStatus 0) [] A X x₁)
  (h₂ : Emptied d x₁ (x₁.1.db.listStatus 2) x₂)
  (h₃ : Resynced d x₂ (x₂.1.instances.names d) gone x₃)

include h₁ h₂ h₃

/-- The rows in the end. -/
theorem row_recovered : x₃.1.db.Row id a ↔
    (∃ b, w.db.Row id b ∧ a = if id ∈ X.map Listed.id then b.expired else b) ∧ a.status ≠ 2 := by
  rw [h₃.db, h₂.db, mem_deleteAll_waiting, h₁.db, mem_expireAll]

omit h₂ h₃ in
/-- Only active sessions are expired. -/
theorem status_of_expired {b : Session} (hb : w.db.Row id b) (hid : id ∈ X.map Listed.id) :
    b.status = 0 := by
  obtain ⟨e, he, rfl⟩ := List.mem_map.mp hid
  obtain ⟨c, hc, hstatus, -⟩ := mem_listStatus.mp
    (h₁.perm.subset (List.mem_append_right _ he))
  rwa [row_unique hb hc]

theorem recovered_active (hstored : Stored w.db) (ha : w.db.Row id a) (hstatus : a.status = 0) :
    ∃ now, ExaminedAt x₃.2 (a.listed id) now ∧
      ((x₃.1.db.Row id a ∧ now.unix < a.instanceExpiry ∧
        (x₃.1.timers.map Timer.callback).filter (endsSession id) = [.cleanup id a.instanceName]) ∨
      (x₃.1.db.Row id a.expired ∧ OverOrFar (a.listed id) now)) := by
  have hlisted : a.listed id ∈ w.db.listStatus 0 := mem_listStatus.mpr ⟨a, ha, hstatus, rfl⟩
  obtain ⟨hlo, hhi⟩ := hstored id a ha hstatus
  have hover : ∀ now, overdue (a.listed id) now ↔ OverOrFar (a.listed id) now :=
    fun _ => overdue_iff hlo hhi
  have hsuffix := h₂.suffix.trans h₃.suffix
  have hnodup : ((A ++ X).map Listed.id).Nodup :=
    (h₁.perm.map Listed.id).nodup_iff.mpr (nodup_listStatus w.db 0)
  rw [List.map_append] at hnodup
  rcases List.mem_append.mp (h₁.perm.symm.subset hlisted) with harmed | hexpired
  · obtain ⟨now, hnow, hnot⟩ := h₁.armed _ harmed
    refine ⟨now, hnow.mono hsuffix, .inl ⟨?_, ?_, ?_⟩⟩
    · rw [row_recovered h₁ h₂ h₃]
      have hid : id ∉ X.map Listed.id := fun hid =>
        (List.nodup_append.mp hnodup).2.2 id (List.mem_map_of_mem harmed) id hid rfl
      exact ⟨⟨a, ha, by rw [if_neg hid]⟩, by omega⟩
    · rw [hover] at hnot
      unfold OverOrFar at hnot
      change now.unix < (a.listed id).instanceExpiry
      omega
    · rw [h₃.timers, h₂.timers, h₁.timers]
      exact filter_callbacks (List.nodup_append.mp hnodup).1 harmed
  · obtain ⟨now, hnow, hyes⟩ := h₁.expired _ hexpired
    refine ⟨now, hnow.mono hsuffix, .inr ⟨?_, (hover now).mp hyes⟩⟩
    rw [row_recovered h₁ h₂ h₃]
    have hid : id ∈ X.map Listed.id := List.mem_map_of_mem hexpired
    exact ⟨⟨a, ha, by rw [if_pos hid]⟩, fun h => nomatch h⟩

theorem recovered_expired (ha : w.db.Row id a) (hstatus : a.status = 1) : x₃.1.db.Row id a := by
  rw [row_recovered h₁ h₂ h₃]
  refine ⟨⟨a, ha, ?_⟩, by omega⟩
  rw [if_neg]
  intro hid
  have := status_of_expired h₁ ha hid
  omega

theorem recovered_instances {i : Instance} (hi : i ∈ x₃.1.instances)
    (hproject : i.project = d.project) (hpre : hasPrefix i.name "tryit-" = true) :
    ∃! id, ∃ a, x₃.1.db.Row id a ∧ a.status = 0 ∧ a.instanceName = i.name := by
  rw [h₃.instances, Instances.mem_removeAll] at hi
  obtain ⟨hi, hkept⟩ := hi
  have hexists : x₃.1.db.shouldExist i.name = true := by
    rw [h₃.db]
    rcases h₃.kept i.name (Instances.mem_names hi hproject) hpre with hgone | hexists
    · have hnot := hkept i.name hgone
      rw [Instances.isAt_iff.mpr ⟨hproject, rfl⟩] at hnot
      cases hnot
    · exact hexists
  obtain ⟨id, a, ha, hname, hstatus, honly⟩ := unique_of_shouldExist hexists
  have hne := ((row_recovered h₁ h₂ h₃).mp ha).2
  refine ⟨id, ⟨a, ha, hstatus.resolve_right hne, hname⟩, ?_⟩
  rintro id' ⟨b, hb, hstatus', hname'⟩
  exact honly id' b hb hname' hstatus'

theorem recovered_others (hnamed : ∀ id a, w.db.Row id a → a.instanceName = nameOf a.uuid) :
    x₃.1.instances.filter (fun i => !hasPrefix i.name "tryit-") =
      w.instances.filter fun i => !hasPrefix i.name "tryit-" := by
  have hrows : ∀ id a, (w.db.expireAll X).Row id a → (!hasPrefix a.instanceName "tryit-") = false := by
    intro id a ha
    obtain ⟨b, hb, hab⟩ := mem_expireAll.mp ha
    have hname : a.instanceName = nameOf b.uuid := by
      rw [← hnamed id b hb, hab]
      split <;> rfl
    rw [hname, nameOf, hasPrefix_append]
    rfl
  have hlisted : ∀ status, ∀ e ∈ (w.db.expireAll X).listStatus status,
      (!hasPrefix e.instanceName "tryit-") = false := by
    intro status e he
    obtain ⟨a, ha, -, heq⟩ := mem_listStatus.mp he
    rw [heq]
    exact hrows e.id a ha
  have hexpired : ∀ n ∈ X.map Listed.instanceName, (!hasPrefix n "tryit-") = false := by
    intro n hn
    obtain ⟨e, he, rfl⟩ := List.mem_map.mp hn
    obtain ⟨a, ha, -, heq⟩ := mem_listStatus.mp (h₁.perm.subset (List.mem_append_right _ he))
    rw [heq]
    change (!hasPrefix a.instanceName "tryit-") = false
    rw [hnamed e.id a ha, nameOf, hasPrefix_append]
    rfl
  have hformer : ∀ n ∈ (x₁.1.db.listStatus 2).map Listed.instanceName,
      (!hasPrefix n "tryit-") = false := by
    intro n hn
    obtain ⟨e, he, rfl⟩ := List.mem_map.mp hn
    rw [h₁.db] at he
    exact hlisted 2 e he
  have hgone : ∀ n ∈ gone, (!hasPrefix n "tryit-") = false := by
    intro n hn
    rw [h₃.ours n hn]
    rfl
  rw [h₃.instances, Instances.filter_removeAll (p := fun n => !hasPrefix n "tryit-") hgone,
    h₂.instances, Instances.filter_removeAll (p := fun n => !hasPrefix n "tryit-") hformer,
    h₁.instances, Instances.filter_removeAll (p := fun n => !hasPrefix n "tryit-") hexpired]

theorem recovered_of_loops (hwf : WellFormed w) (hstored : Stored w.db) :
    Recovered OverOrFar (fun i => i.project = d.project) w x₃.1 x₃.2 where
  pool := fun _ _ ha => ((row_recovered h₁ h₂ h₃).mp ha).2
  active := fun _ _ => recovered_active h₁ h₂ h₃ hstored
  expired := fun _ _ => recovered_expired h₁ h₂ h₃
  instances := fun _ => recovered_instances h₁ h₂ h₃
  others := recovered_others h₁ h₂ h₃ hwf.named

end Assembly

theorem Recovered.drift {ends : Listed → Time → Prop} {ours : Instance → Prop} {w w' w'' : World}
    {l : Log} (h : Recovered ends ours w w' l) (hd : Drift w' w'') :
    Recovered ends ours w w'' l where
  pool := hd.db ▸ h.pool
  active := by
    rw [hd.db, hd.timers]
    exact h.active
  expired := hd.db ▸ h.expired
  instances := by
    rw [hd.db, hd.instances]
    exact h.instances
  others := hd.instances ▸ h.others

section Startup

variable {R : View → Prop} {t : Nat} {x : View} {w : World}

theorem recover_solo {d : InstanceServer} {Q : Except Error Unit → View → Prop}
    (hwf : WellFormed w) (hstored : Stored w.db) (htimers : w.timers = [])
    (hd : x.1.incusDaemon = some d) (hx : Intact w x.1)
    (hQ : ∀ x', x'.1.incusDaemon = some d →
      Recovered OverOrFar (fun i => i.project = d.project) w x'.1 x'.2 → Q (.ok ()) x') :
    Solo Recovers R t recover Q x := by
  unfold recover
  rw [solo_bind]
  refine query_solo fun es x₁ hq₁ => ?_
  have hes : es = w.db.listStatus 0 := by
    rw [hq₁.answer, ← hx.db]
    rfl
  subst hes
  have h₀ : Restored d w [] (w.db.listStatus 0) [] [] x₁ := by
    constructor
    · exact .refl _
    · exact hq₁.incusDaemon.trans hd
    · rw [hq₁.timers, hx.timers, htimers]
      rfl
    · rw [hq₁.db, ← hx.db]
      rfl
    · rw [hq₁.instances, hx.instances]
      rfl
    · intro e he
      cases he
    · intro e he
      cases he
    · rw [hq₁.log]
      rfl
  rw [solo_bind]
  refine solo_mono ?_ (restoreAll_solo h₀)
  rintro - x₂ ⟨A, X, h₂⟩
  rw [solo_bind]
  refine query_solo fun es x₃ hq₃ => ?_
  have hes : es = x₂.1.db.listStatus 2 := hq₃.answer
  subst hes
  rw [solo_bind]
  have h₃ : Emptied d x₂ [] x₃ := by
    refine ⟨hq₃.incusDaemon.trans h₂.incusDaemon, hq₃.timers, hq₃.db, hq₃.instances, ?_⟩
    rw [hq₃.log]
    exact List.suffix_cons ..
  refine solo_mono (fun _ x₄ h₄ => ?_) (deleteFormer_solo h₃)
  refine instanceResync_solo h₄.incusDaemon fun gone x₅ h₅ => ?_
  exact hQ x₅ h₅.incusDaemon (recovered_of_loops h₂ h₄ h₅ hwf hstored)

/-- The startup goroutine of a new process has recovered by the time it starts the goroutine that
    resyncs. -/
theorem connect_solo (hwf : WellFormed w) (hstored : Stored w.db) (htimers : w.timers = []) :
    Solo Recovers (fun y => ∃ d, y.1.incusDaemon = some d ∧
      Recovered OverOrFar (fun i => i.project = d.project) w y.1 y.2) t connect
      (fun _ _ => True) (w, []) := by
  unfold connect
  rw [solo_bind]
  refine solo_still rfl nofun fun rounds x₁ h₁ => ?_
  rw [solo_bind]
  refine connectLoop_solo fun d₂ x₂ hd₂ h₂ => ?_
  rw [solo_bind]
  refine useProject_solo hd₂ fun d₃ x₃ hd₃ h₃ => ?_
  rw [solo_bind]
  refine recover_solo hwf hstored htimers hd₃ ((h₁.toDrift.intact.trans h₂).trans h₃)
    fun x₄ hd₄ h₄ => ?_
  refine ⟨fun _ => ⟨d₃, hd₄, h₄⟩, fun _ x₅ hm => ?_⟩
  obtain ⟨w₁, -, hC, -⟩ := hm
  exact absurd rfl (hC.before _)

end Startup

-- ============================================================================
-- Recovery
-- ============================================================================

theorem Stored.threadStep {s s' : Sys} {t : Nat} {p : Proc} {l : Log} {e : Event}
    (h : Stored s.world.db) (hm : ThreadStep s t p l e s') : Stored s'.world.db := by
  intro id a ha hstatus
  have hexpiry : ∀ m, SessionExpiry m a.instanceExpiry →
      -2 ^ 63 ≤ a.instanceExpiry ∧ a.instanceExpiry < 2 ^ 63 := by
    rintro m ⟨now, c, -, -, hx⟩
    rw [hx]
    exact int64_range _
  cases row_after hm.did ha with
  | kept ha => exact h id a ha hstatus
  | inserted he _ =>
    subst he
    have hmay : MayInsert p l a := hm.allowed
    rcases hmay.kind with ⟨-, -, hx, -⟩ | ⟨htwo, -⟩
    · exact hexpiry l hx
    · omega
  | expired b _ _ heq =>
    rw [heq] at hstatus
    cases hstatus
  | claimed b expiry date ip terms he _ heq =>
    subst he
    have hmay : MayClaim p l expiry ip id := hm.allowed
    have hx : a.instanceExpiry = expiry := congrArg Session.instanceExpiry heq
    exact hexpiry l (hx ▸ hmay.expiry)

/-- The server leaves a table behind that is well formed and holds 64-bit expiries. -/
theorem stored_of_run {s₀ s : Sys} (h0 : Initial s₀) (hw : WellFormed s₀.world)
    (hstored : Stored s₀.world.db) (hrun : server.Run Machine.anyStep s₀ s) :
    WellFormed s.world ∧ Stored s.world.db := by
  obtain ⟨-, hregular, hstored⟩ := invariant_run
    (I := fun s => Regular s₀.world s ∧ Stored s.world.db) h0.sound ⟨h0.regular hw, hstored⟩
    (fun s t p l e s' hs hI _ hm => ⟨hI.1.threadStep hs hm, hI.2.threadStep hm⟩)
    (fun s e s' _ hI _ hm => ⟨hI.1.envStep hm, hm.db ▸ hI.2⟩) hrun
  exact ⟨hregular.wellFormed, hstored⟩

/-- However the server was stopped, once the startup goroutine of the next process has gone on
    its own, without failures, to the end of its first resync: no instance waits in the pool;
    every session that was active either has one callback armed and ends after it was examined,
    or is expired because it was over or too far off; and every instance in the project of the
    connection that has a name of the server is that of one active session. -/
theorem restart_recovers {s₀ s s₁ s₂ : Sys} {c : ServerConfig} {l : Log} (h0 : Initial s₀)
    (hw : WellFormed s₀.world) (hstored : Stored s₀.world.db)
    (hrun : server.Run Machine.anyStep s₀ s) (hstop : server.Step s (.env (.restart c)) s₁)
    (hrecovers : server.Run (Machine.Alone s.threads.length Recovers Ambient) s₁ s₂)
    (hresynced : Resynchronized s₂ s.threads.length l) :
    ∃ d, s₂.world.incusDaemon = some d ∧
      Recovered OverOrFar (fun i => i.project = d.project) s.world s₂.world l := by
  obtain ⟨hwf, hstored⟩ := stored_of_run h0 hw hstored hrun
  cases hstop with
  | env henv =>
    cases henv
    have hth : (server.after s.threads true [.connect])[s.threads.length]? =
        some (server.start .connect) := by
      unfold Machine.after
      rw [if_pos rfl, List.getElem?_append_right (by simp), List.length_map, Nat.sub_self]
      rfl
    have hwf' : WellFormed (s.world.boot c) := ⟨hwf.named, hwf.drawn, hwf.unique, hwf.instances⟩
    have hholds := Machine.Run.alone drifts (covers_moved _ _) hth rfl
      (connect_solo hwf' hstored rfl) hrecovers
    obtain ⟨th, k, hth₂, -, rfl, hprog⟩ := hresynced
    obtain ⟨w, hdrift, hok⟩ := hholds.obligation hth₂ hprog
    obtain ⟨d, hd, h⟩ := hok ⟨_, rfl⟩
    have h' := h.drift hdrift
    exact ⟨d, hdrift.incusDaemon.trans hd, h'.pool, h'.active, h'.expired, h'.instances, h'.others⟩

/-- The test for `Recovers`. -/
def recovers (w : World) (e : Event) : Bool :=
  deletes w e &&
    match e with
    | ⟨.query _, .error _⟩ | ⟨.call _ .getInstanceNames, .error _⟩ | ⟨.go _, _⟩ => false
    | _ => true

theorem of_recovers (w : World) (e : Event) (h : recovers w e = true) : Recovers w e := by
  obtain ⟨hdeletes, h⟩ := Bool.and_eq_true_iff.mp h
  refine ⟨?_, of_deletes hdeletes, ?_⟩
  · unfold Unfailing
    split <;> first | exact Bool.false_ne_true h | trivial
  · intro q hq
    obtain ⟨o, r⟩ := e
    cases hq
    exact Bool.false_ne_true h

/-- The server, stopped and started again with configuration `c`. -/
def restarted (s : Sys) (c : ServerConfig) : Sys :=
  ⟨s.world.boot c, server.after s.threads true [.connect]⟩

/-- Thread `t` is about to start the goroutine that resyncs every hour. -/
def resynchronized (t : Nat) (s : Sys) : Bool :=
  match s.threads[t]? with
  | some ⟨_, true, _, .op (.go .hourlyResync) _⟩ => true
  | _ => false

theorem of_resynchronized {t : Nat} {s : Sys} (h : resynchronized t s = true) :
    ∃ l, Resynchronized s t l := by
  unfold resynchronized at h
  split at h
  · rename_i proc log k hth
    exact ⟨log, _, k, hth, rfl, rfl, rfl⟩
  · cases h

/-- The server is stopped while a request has its session and the next instance for the pool is
    made but not recorded. -/
theorem restart_recovers_small : ∃ (s s₂ : Sys) (d : InstanceServer) (l : Log),
    (s.world.db.activeCount = 1 ∧ s.world.instances.length = 2) ∧ s₂.world.incusDaemon = some d ∧
      Recovered OverOrFar (fun i => i.project = d.project) s.world s₂.world l := by
  obtain ⟨s, hrun, hs⟩ := server.run_of_check Machine.noTest (fun _ _ _ => trivial) (emptyServer 1)
    (oks 0 47 ++ act (.request (startRequest "192.0.2.1")) ++ oks 2 20 ++ oks 3 12)
    (fun s => s.world.db.activeCount == 1 && s.world.instances.length == 2 &&
      (server.steps (alone s.threads.length recovers) (restarted s (smallConfig 5 1))
        (oks s.threads.length 22)).any (resynchronized s.threads.length)) (by decide +kernel)
  simp only [Bool.and_eq_true, beq_iff_eq] at hs
  obtain ⟨hdata, hs⟩ := hs
  obtain ⟨s₂, hrecovers, hs₂⟩ := server.run_of_check _ (of_alone of_recovers) _ _ _ hs
  obtain ⟨l, hl⟩ := of_resynchronized hs₂
  obtain ⟨d, hd, h⟩ := restart_recovers (emptyServer_initial 1) (emptyServer_wellFormed 1)
    (fun _ _ h => absurd h List.not_mem_nil) hrun (.env rfl) hrecovers hl
  exact ⟨s, s₂, d, l, hdata, hd, h⟩

/-- Sessions of `s` that end after the last moment of the clock have expired in `s₂`. -/
def expiresFar (s s₂ : Sys) : Bool :=
  s.world.db.sessions.rows.any fun r => r.2.status == 0 &&
    decide (maxSeconds < r.2.instanceExpiry) &&
    s₂.world.db.sessions.rows.any fun r' => r'.1 == r.1 && r'.2.status == 1

theorem not_recovered {s s₂ : Sys} {l : Log} (h : expiresFar s s₂ = true) :
    ¬ Recovered (fun e now => e.instanceExpiry ≤ now.unix) (fun _ => True) s.world s₂.world l := by
  intro hrec
  obtain ⟨⟨id, a⟩, ha, h⟩ := List.any_eq_true.mp h
  simp only [Bool.and_eq_true, beq_iff_eq, decide_eq_true_eq] at h
  obtain ⟨⟨hstatus, hfar⟩, h⟩ := h
  obtain ⟨⟨id', b⟩, hb, h⟩ := List.any_eq_true.mp h
  simp only [Bool.and_eq_true, beq_iff_eq] at h
  obtain ⟨rfl, hone⟩ := h
  obtain ⟨now, -, h⟩ := hrec.active id' a ha hstatus
  rcases h with ⟨ha', -, -⟩ | ⟨-, hover⟩
  · rw [row_unique hb ha', hstatus] at hone
    cases hone
  · have hlt := now.nano_lt
    have hle := now.unix_le_nano
    change a.instanceExpiry ≤ now.unix at hover
    unfold maxSeconds at hfar
    omega

/-- Sessions that are configured to last longer than a `time.Duration` can express: a request
    records one, and the next start of the server expires it. -/
theorem restart_expires_far : ¬ ∀ s₀ s s₁ s₂ c l, Initial s₀ → WellFormed s₀.world →
    Stored s₀.world.db → server.Run Machine.anyStep s₀ s →
    server.Step s (.env (.restart c)) s₁ →
    server.Run (Machine.Alone s.threads.length Recovers Ambient) s₁ s₂ →
    Resynchronized s₂ s.threads.length l →
    Recovered (fun e now => e.instanceExpiry ≤ now.unix) (fun _ => True) s.world s₂.world l := by
  intro hall
  let far : ServerConfig := { smallConfig 5 0 with
    session := { (smallConfig 5 0).session with expiry := maxSeconds + 1 } }
  obtain ⟨s, hrun, hs⟩ := server.run_of_check Machine.noTest (fun _ _ _ => trivial) (emptyServer 0)
    (oks 0 13 ++ act (.reload far) ++ act (.request (startRequest "192.0.2.1")) ++ oks 1 60)
    (fun s => (server.steps (alone s.threads.length recovers) (restarted s (smallConfig 5 0))
      (oks s.threads.length 18)).any fun s₂ => resynchronized s.threads.length s₂ && expiresFar s s₂)
    (by decide +kernel)
  obtain ⟨s₂, hrecovers, hs₂⟩ := server.run_of_check _ (of_alone of_recovers) _ _ _ hs
  obtain ⟨hresync, hfar⟩ := Bool.and_eq_true_iff.mp hs₂
  obtain ⟨l, hl⟩ := of_resynchronized hresync
  exact not_recovered hfar (hall _ s _ s₂ _ l (emptyServer_initial 0) (emptyServer_wellFormed 0)
    (fun _ _ h => absurd h List.not_mem_nil) hrun (.env rfl) hrecovers hl)

/-- An instance with a name of the server that is of no active session. -/
def strays (s : Sys) : Bool :=
  s.world.instances.any fun i => hasPrefix i.name "tryit-" &&
    s.world.db.sessions.rows.all fun r => !(r.2.status == 0 && r.2.instanceName == i.name)

theorem not_recovered_of_strays {s s₂ : Sys} {l : Log} (h : strays s₂ = true) :
    ¬ Recovered OverOrFar (fun _ => True) s.world s₂.world l := by
  intro hrec
  obtain ⟨i, hi, h⟩ := List.any_eq_true.mp h
  obtain ⟨hpre, hnone⟩ := Bool.and_eq_true_iff.mp h
  obtain ⟨id, ⟨a, ha, hstatus, hname⟩, -⟩ := hrec.instances i hi trivial hpre
  have hnot := List.all_eq_true.mp hnone (id, a) ha
  simp [hstatus, hname] at hnot

/-- Instances in another project than that of the connection are not seen by the resync. -/
theorem restart_leaves_other_project : ¬ ∀ s₀ s s₁ s₂ c l, Initial s₀ → WellFormed s₀.world →
    Stored s₀.world.db → server.Run Machine.anyStep s₀ s →
    server.Step s (.env (.restart c)) s₁ →
    server.Run (Machine.Alone s.threads.length Recovers Ambient) s₁ s₂ →
    Resynchronized s₂ s.threads.length l →
    Recovered OverOrFar (fun _ => True) s.world s₂.world l := by
  intro hall
  let w : World := { smallWorld [] with
    uuids := ["u9"], instances := [{ container "u9" "10.0.0.9" with project := "other" }] }
  have hwf : WellFormed (w.boot (smallConfig 5 0)) := by
    refine ⟨fun _ _ h => absurd h List.not_mem_nil, fun _ _ h => absurd h List.not_mem_nil,
      fun _ _ _ _ h => absurd h List.not_mem_nil, fun i hi u hu => ?_⟩
    cases List.mem_singleton.mp hi
    rw [← nameOf_injective (u := "u9") hu]
    exact List.mem_singleton.mpr rfl
  obtain ⟨s₂, hrecovers, hs₂⟩ := server.run_of_check (alone 1 recovers) (of_alone of_recovers)
    (restarted (bootSys w (smallConfig 5 0)) (smallConfig 5 0)) (oks 1 13)
    (fun s₂ => resynchronized 1 s₂ && strays s₂) (by decide +kernel)
  obtain ⟨hresync, hstrays⟩ := Bool.and_eq_true_iff.mp hs₂
  obtain ⟨l, hl⟩ := of_resynchronized hresync
  exact not_recovered_of_strays hstrays (hall _ _ _ s₂ _ l (bootSys_initial w (smallConfig 5 0))
    hwf (fun _ _ h => absurd h List.not_mem_nil) .refl (.env rfl) hrecovers hl)

end IncusDemo
