/-
  IncusDemo.Resync

  `instanceResync` deletes the instances that no row asks for.  The write lock
  keeps it out of `instanceCreate`, but a caller of `instanceCreate` inserts
  its row only after the lock is released.  A resync is safe as long as it
  never asks for an instance that stands in that gap, and no claim brings an
  ended row back.
-/

import IncusDemo.Timeout

namespace IncusDemo

open Go Conc

-- ============================================================================
-- The lock
-- ============================================================================

/-- The lock says who is inside `instanceCreate` and who is inside `instanceResync`. -/
structure Locked (s : Sys) : Prop where
  writer : ∀ t p l, Runs s t p l → pass l ≠ .idle → s.world.muCreate.writer = some t
  readers : ∀ t p l, Runs s t p l → (attempt l).inside = true → t ∈ s.world.muCreate.readers
  exclusive : s.world.muCreate.writer ≠ none → s.world.muCreate.readers = []

section Phases

variable {p : Proc} {l : Log} {e : Event}

theorem inside_create {a : Attempt} : a.create.inside = a.inside := by cases a <;> rfl

theorem inside_giveUp {a : Attempt} : a.giveUp.inside = a.inside := by cases a <;> rfl

/-- A thread inside `instanceCreate` was inside before, or has just taken the lock. -/
theorem inside_next (h : (attempt (e :: l)).inside = true) :
    e = ⟨.rLock, ()⟩ ∨ (attempt l).inside = true := by
  rw [attempt_cons] at h
  unfold Attempt.next at h
  split at h
  · exact .inl rfl
  · split at h
    · rename_i ha
      rw [ha]
      exact .inr rfl
    · exact .inr h
  · exact .inr (inside_create ▸ h)
  · exact .inr (inside_create ▸ h)
  · cases h
  · split at h
    · cases h
    · exact .inr h
  · split at h
    · exact .inr (inside_giveUp ▸ h)
    · exact .inr h
  · cases h
  · exact .inr (inside_giveUp ▸ h)
  · exact .inr h

/-- After releasing the read lock a thread is outside `instanceCreate`. -/
theorem inside_rUnlock {returning : Option String} {r : Unit}
    (hop : Allowed p l (.rUnlock returning)) :
    (attempt (⟨.rUnlock returning, r⟩ :: l)).inside = false := by
  rw [attempt_cons]
  cases returning with
  | none => rfl
  | some name =>
    obtain ⟨u, hu, -⟩ := hop
    rw [hu]
    rfl

end Phases

section Locked

variable {s s' : Sys} {t u : Nat} {p q : Proc} {l m : Log} {e : Event}

/-- Nobody is inside `instanceCreate` while a resync goes on. -/
theorem Locked.not_inside (h : Locked s) (hr : Runs s t p l) (hpass : pass l ≠ .idle)
    (hr' : Runs s u q m) : (attempt m).inside = false := by
  by_contra hin
  rw [Bool.not_eq_false] at hin
  have hmem := h.readers u q m hr' hin
  rw [h.exclusive (by rw [h.writer t p l hr hpass]; exact fun h => nomatch h)] at hmem
  cases hmem

/-- Only one resync goes on at a time. -/
theorem Locked.pass_unique (h : Locked s) (hr : Runs s t p l) (hpass : pass l ≠ .idle)
    (hr' : Runs s u q m) (hpass' : pass m ≠ .idle) : t = u :=
  Option.some.inj ((h.writer t p l hr hpass).symm.trans (h.writer u q m hr' hpass'))

theorem Initial.locked (h : Initial s) : Locked s where
  writer := fun _ _ _ hr hpass => by rw [(h.ran hr.ran).2] at hpass; exact absurd rfl hpass
  readers := fun _ _ _ hr hin => by rw [(h.ran hr.ran).2] at hin; cases hin
  exclusive := fun hne => by rw [h.2.1] at hne; exact absurd rfl hne

/-- The lock after an operation that neither takes nor releases it. -/
theorem Locked.unchanged (h : Locked s) (hm : ThreadStep s t p l e s')
    (hwriter : s'.world.muCreate.writer = s.world.muCreate.writer)
    (hreaders : s'.world.muCreate.readers = s.world.muCreate.readers) (hlock : e ≠ ⟨.lock, ()⟩)
    (hrLock : e ≠ ⟨.rLock, ()⟩) : Locked s' where
  writer := by
    intro u q m hr hpass
    rw [hwriter]
    rcases hm.runs_cases u q m hr with ⟨rfl, rfl, rfl⟩ | ⟨-, hr⟩ | ⟨-, rfl, -⟩
    · exact h.writer u q l hm.runs ((pass_next hm.allowed hpass).resolve_left hlock)
    · exact h.writer u q m hr hpass
    · exact absurd rfl hpass
  readers := by
    intro u q m hr hin
    rw [hreaders]
    rcases hm.runs_cases u q m hr with ⟨rfl, rfl, rfl⟩ | ⟨-, hr⟩ | ⟨-, rfl, -⟩
    · exact h.readers u q l hm.runs ((inside_next hin).resolve_left hrLock)
    · exact h.readers u q m hr hin
    · cases hin
  exclusive := by
    rw [hwriter, hreaders]
    exact h.exclusive

/-- While the lock is not held by a writer, no thread is in a pass. -/
theorem Locked.idle_of_no_writer (h : Locked s) (hfree : s.world.muCreate.writer = none) {u : Nat}
    {q : Proc} {m : Log} (hr : Runs s u q m) : pass m = .idle := by
  by_contra hpass
  have hwriter := h.writer u q m hr hpass
  rw [hfree] at hwriter
  cases hwriter

/-- While the lock has no readers, no thread is inside `instanceCreate`. -/
theorem Locked.outside_of_no_readers (h : Locked s) (hfree : s.world.muCreate.readers = [])
    {u : Nat} {q : Proc} {m : Log} (hr : Runs s u q m) : (attempt m).inside = false := by
  by_contra hin
  have hreader := h.readers u q m hr (Bool.not_eq_false _ ▸ hin)
  rw [hfree] at hreader
  cases hreader

theorem Locked.rLock (h : Locked s) (hm : ThreadStep s t p l ⟨.rLock, ()⟩ s') : Locked s' := by
  have hadmits : s.world.muCreate.admits := hm.did.truthful
  have hfree : s.world.muCreate.writer = none := hadmits.1
  have hmu : s'.world.muCreate =
    { s.world.muCreate with readers := t :: s.world.muCreate.readers } := hm.did.muCreate
  refine ⟨fun u q m hr hpass => ?_, fun u q m hr hin => ?_, fun hne => ?_⟩
  · rcases hm.runs_cases u q m hr with ⟨rfl, rfl, rfl⟩ | ⟨-, hr⟩ | ⟨-, rfl, -⟩
    · exact absurd (h.idle_of_no_writer hfree hm.runs) hpass
    · exact absurd (h.idle_of_no_writer hfree hr) hpass
    · exact absurd rfl hpass
  · rw [hmu]
    rcases hm.runs_cases u q m hr with ⟨rfl, -, -⟩ | ⟨-, hr⟩ | ⟨-, rfl, -⟩
    · exact List.mem_cons_self ..
    · exact List.mem_cons_of_mem _ (h.readers u q m hr hin)
    · cases hin
  · rw [hmu] at hne
    exact absurd hfree hne

theorem Locked.rUnlock (h : Locked s) {returning : Option String}
    (hm : ThreadStep s t p l ⟨.rUnlock returning, ()⟩ s') : Locked s' := by
  have hmu : s'.world.muCreate =
    { s.world.muCreate with readers := s.world.muCreate.readers.erase t } := hm.did.muCreate
  refine ⟨fun u q m hr hpass => ?_, fun u q m hr hin => ?_, fun hne => ?_⟩
  · rw [hmu]
    rcases hm.runs_cases u q m hr with ⟨rfl, rfl, rfl⟩ | ⟨-, hr⟩ | ⟨-, rfl, -⟩
    · exact h.writer u q l hm.runs ((pass_next hm.allowed hpass).resolve_left fun h => nomatch h)
    · exact h.writer u q m hr hpass
    · exact absurd rfl hpass
  · rw [hmu]
    rcases hm.runs_cases u q m hr with ⟨rfl, rfl, rfl⟩ | ⟨hu, hr⟩ | ⟨-, rfl, -⟩
    · rw [inside_rUnlock hm.allowed] at hin
      cases hin
    · exact (List.mem_erase_of_ne hu).mpr (h.readers u q m hr hin)
    · cases hin
  · rw [hmu] at hne ⊢
    rw [h.exclusive hne]
    rfl

theorem Locked.lock (h : Locked s) (hm : ThreadStep s t p l ⟨.lock, ()⟩ s') : Locked s' := by
  obtain ⟨hwriter, hreaders⟩ : s.world.muCreate.writer = none ∧ s.world.muCreate.readers = [] :=
    hm.did.truthful
  have hmu : s'.world.muCreate = { s.world.muCreate with waiting := none, writer := some t } :=
    hm.did.muCreate
  refine ⟨fun u q m hr hpass => ?_, fun u q m hr hin => ?_, fun _ => ?_⟩
  · rw [hmu]
    rcases hm.runs_cases u q m hr with ⟨rfl, -, -⟩ | ⟨-, hr⟩ | ⟨-, rfl, -⟩
    · rfl
    · exact absurd (h.idle_of_no_writer hwriter hr) hpass
    · exact absurd rfl hpass
  · rcases hm.runs_cases u q m hr with ⟨rfl, rfl, rfl⟩ | ⟨-, hr⟩ | ⟨-, rfl, -⟩
    · rcases inside_next hin with heq | hin
      · cases heq
      · rw [h.outside_of_no_readers hreaders hm.runs] at hin
        cases hin
    · rw [h.outside_of_no_readers hreaders hr] at hin
      cases hin
    · cases hin
  · rw [hmu]
    exact hreaders

theorem Locked.unlock (h : Locked s) (hm : ThreadStep s t p l ⟨.unlock, ()⟩ s') : Locked s' := by
  have hmu : s'.world.muCreate = { s.world.muCreate with writer := none } := hm.did.muCreate
  refine ⟨fun u q m hr hpass => ?_, fun u q m hr hin => ?_, fun hne => ?_⟩
  · rcases hm.runs_cases u q m hr with ⟨rfl, rfl, rfl⟩ | ⟨hu, hr⟩ | ⟨-, rfl, -⟩
    · exact absurd rfl hpass
    · -- the thread that unlocks is the only one in a pass
      exact absurd (h.pass_unique hr hpass hm.runs hm.allowed) hu
    · exact absurd rfl hpass
  · rw [hmu]
    rcases hm.runs_cases u q m hr with ⟨rfl, rfl, rfl⟩ | ⟨-, hr⟩ | ⟨-, rfl, -⟩
    · exact h.readers u q l hm.runs ((inside_next hin).resolve_left fun h => nomatch h)
    · exact h.readers u q m hr hin
    · cases hin
  · rw [hmu] at hne
    exact absurd rfl hne

theorem Locked.threadStep (h : Locked s) (hm : ThreadStep s t p l e s') : Locked s' := by
  obtain ⟨o, r⟩ := e
  cases o with
  | rLock => exact h.rLock hm
  | rUnlock returning => exact h.rUnlock hm
  | lock => exact h.lock hm
  | unlock => exact h.unlock hm
  | _ =>
    have hmu := hm.did.muCreate
    exact h.unchanged hm (by rw [hmu]; rfl) (by rw [hmu]; rfl) (fun h => nomatch h)
      (fun h => nomatch h)

theorem Locked.envStep {e : Env} (h : Locked s) (hm : EnvStep s e s') : Locked s' := by
  rcases hm.muCreate with hmu | ⟨hmu, hempty⟩
  · constructor
    · intro u q m hr hpass
      rw [hmu]
      rcases hm.runs_cases u q m hr with hr | ⟨rfl, -⟩
      · exact h.writer u q m hr hpass
      · exact absurd rfl hpass
    · intro u q m hr hin
      rw [hmu]
      rcases hm.runs_cases u q m hr with hr | ⟨rfl, -⟩
      · exact h.readers u q m hr hin
      · cases hin
    · rw [hmu]
      exact h.exclusive
  · constructor
    · intro u q m hr hpass
      rw [hempty u q m hr] at hpass
      exact absurd rfl hpass
    · intro u q m hr hin
      rw [hempty u q m hr] at hin
      cases hin
    · intro hne
      rw [hmu] at hne
      exact absurd rfl hne

end Locked

-- ============================================================================
-- What a resync deletes
-- ============================================================================

/-- The step is a resync deleting the instance `name`. -/
def ResyncDeletes (s : Sys) (l : Label) (name : String) : Prop :=
  ∃ t d p m, l = .thread t ⟨.wait d (.deleteInstance name), .ok ()⟩ ∧ Runs s t p m ∧ pass m ≠ .idle

/-- In a run that goes on with steps in `C`, a resync deletes no instance whose row is active or
    waits, and none for which such a row is inserted later. -/
def ResyncSpares (C : Sys → Label → Prop) (s : Sys) : Prop :=
  ∀ l s₁ name, C s l → server.Step s l s₁ → ResyncDeletes s l name →
    (∀ id row, s.world.db.Row id row → row.instanceName = name → row.status ≠ 0 ∧ row.status ≠ 2) ∧
    ∀ s₂ t id row s₃, server.Run C s₁ s₂ →
      server.Step s₂ (.thread t ⟨.query (.dbNew row), .ok id⟩) s₃ → row.instanceName ≠ name

/-- When a resync asks for the row of an instance, no thread stands between `instanceCreate`,
    which has returned the instance, and the row for it. -/
def AsksRecorded (s : Sys) (l : Label) : Prop :=
  ∀ t name exists_, l = .thread t ⟨.query (.dbShouldExist name), .ok exists_⟩ →
    ∀ u q m v, Runs s u q m → attempt m = .returned v → nameOf v ≠ name

/-- A claim brings no ended row back. -/
def RevivesNone (s : Sys) (l : Label) : Prop :=
  ∀ id, claims l = some id → ∀ row, s.world.db.Row id row → row.status = 0 ∨ row.status = 2

def ResyncSafely (s : Sys) (l : Label) : Prop := AsksRecorded s l ∧ RevivesNone s l

/-- The random id of an attempt that may still come to be recorded. -/
def Attempt.pending : Attempt → Option String
  | .drawn u | .made u | .returned u => some u
  | _ => none

/-- No thread is on its way to record instance `name`. -/
def NotPending (s : Sys) (name : String) : Prop :=
  ∀ u q m v, Runs s u q m → (attempt m).pending = some v → nameOf v ≠ name

/-- No row of instance `name` is active or waits. -/
def NoRow (db : Db) (name : String) : Prop :=
  ∀ id row, db.Row id row → row.instanceName = name → row.status ≠ 0 ∧ row.status ≠ 2

/-- What a resync is about to delete has no row and gets none. -/
def MissingForsaken (s : Sys) : Prop :=
  ∀ t p l names name, Runs s t p l → pass l = .missing names name →
    NotPending s name ∧ NoRow s.world.db name

theorem pending_create {a : Attempt} : a.create.pending = a.pending := by cases a <;> rfl

theorem pending_giveUp {a : Attempt} {u : String} (h : a.giveUp.pending = some u) :
    a.pending = some u := by
  cases a <;> first | exact h | cases h

theorem pending_next {a : Attempt} {e : Event} {u : String} (h : (a.next e).pending = some u) :
    a.pending = some u ∨ (e = ⟨.newRandom, u⟩ ∧ a = .locked) := by
  unfold Attempt.next at h
  split at h
  · cases h
  · split at h
    · cases h
      exact .inr ⟨rfl, rfl⟩
    · exact .inl h
  · exact .inl (pending_create ▸ h)
  · exact .inl (pending_create ▸ h)
  · cases h
  · split at h <;> exact .inl h
  · split at h
    · exact .inl (pending_giveUp h)
    · exact .inl h
  · cases h
  · exact .inl (pending_giveUp h)
  · exact .inl h

/-- An attempt that is pending is inside `instanceCreate`, or has been returned from it. -/
theorem inside_or_returned {a : Attempt} {u : String} (h : a.pending = some u) :
    a.inside = true ∨ a = .returned u := by
  cases a with
  | drawn | made => exact .inl rfl
  | returned =>
    cases h
    exact .inr rfl
  | _ => cases h

/-- `dbShouldExist` says no only when no row of the instance is active or waits. -/
theorem noRow_of_shouldExist {db : Db} {name : String} (hwf : ∀ id id' a a', db.Row id a →
      db.Row id' a' → a.instanceName = a'.instanceName → id = id')
    (h : false = (db.run (.dbShouldExist name)).1) : NoRow db name := by
  intro id row hrow hname
  by_contra hstatus
  have hp : (row.instanceName == name && (row.status == 0 || row.status == 2)) = true := by
    have : row.status = 0 ∨ row.status = 2 := by omega
    simp only [hname, beq_self_eq_true, Bool.true_and, Bool.or_eq_true, beq_iff_eq]
    exact this
  have hone := Sql.Table.count_eq_one
    (p := fun _ a => a.instanceName == name && (a.status == 0 || a.status == 2)) hrow hp
    fun j b hb hpb => hwf j id b row hb hrow
      ((beq_iff_eq.mp (Bool.and_eq_true_iff.mp hpb).1).trans hname.symm)
  have h' : false = (db.sessions.count (fun _ a => a.instanceName == name &&
    (a.status == 0 || a.status == 2)) == 1) := h
  rw [hone] at h'
  cases h'

/-- The names of the rows of a well-formed table are different. -/
theorem WellFormed.names_unique {w : World} (h : WellFormed w) {id id' : Nat} {a a' : Session}
    (ha : w.db.Row id a) (ha' : w.db.Row id' a') (hname : a.instanceName = a'.instanceName) :
    id = id' := by
  refine h.unique id id' a a' ha ha' (nameOf_injective ?_)
  rw [← h.named id a ha, ← h.named id' a' ha', hname]

section Steps

variable {s s' : Sys} {t : Nat} {p : Proc} {l : Log} {e : Event} {name : String}

/-- A step makes no row active or waiting for an instance that nobody is about to record. -/
theorem NoRow.threadStep (h : NoRow s.world.db name) (hpending : NotPending s name)
    (hC : RevivesNone s (.thread t e)) (hm : ThreadStep s t p l e s') : NoRow s'.world.db name := by
  intro id row hrow hname
  cases row_after hm.did hrow with
  | kept hrow => exact h id row hrow hname
  | inserted he hid =>
    subst he
    have hmay : MayInsert p l row := hm.allowed
    exact absurd (hmay.name.symm.trans hname)
      (hpending t p l _ hm.runs (by rw [hmay.returned]; rfl))
  | expired a _ ha hs =>
    rw [hs]
    exact ⟨fun h => (nomatch h), fun h => (nomatch h)⟩
  | claimed a _ _ _ _ he ha hs =>
    subst he
    have := h id a ha (by rw [hs] at hname; exact hname)
    have := hC id rfl a ha
    omega

/-- Nobody comes to record the instance, unless its random id is drawn now. -/
theorem NotPending.threadStep (h : NotPending s name) (hm : ThreadStep s t p l e s')
    (hdraw : ∀ v, e = ⟨.newRandom, v⟩ → attempt l = .locked → nameOf v ≠ name) :
    NotPending s' name := by
  intro u q m v hr hv
  rcases hm.runs_cases u q m hr with ⟨-, -, rfl⟩ | ⟨-, hr⟩ | ⟨-, rfl, -⟩
  · rcases pending_next hv with hv | ⟨he, ha⟩
    · exact h t p l v hm.runs hv
    · exact hdraw v he ha
  · exact h u q m v hr hv
  · cases hv

theorem NotPending.envStep {e : Env} (h : NotPending s name) (hm : EnvStep s e s') :
    NotPending s' name := by
  intro u q m v hr hv
  rcases hm.runs_cases u q m hr with hr | ⟨rfl, -⟩
  · exact h u q m v hr hv
  · cases hv

/-- A thread whose resync has found an instance missing had found it before, or asks now. -/
theorem missing_next {names : List String} (hop : Allowed p l e.op)
    (h : pass (e :: l) = .missing names name) :
    pass l = .missing names name ∨
      (e = ⟨.query (.dbShouldExist name), .ok false⟩ ∧ pass l ≠ .idle) := by
  rw [pass_cons] at h
  unfold Pass.next at h
  split at h
  · cases h
  · cases h
  · cases h
  · rename_i n exists_
    split at h
    · cases h
    · rename_i hex
      cases h
      rw [Bool.not_eq_true] at hex
      rw [hex]
      refine .inr ⟨rfl, fun hidle => ?_⟩
      have hmem : name ∈ (pass l).names := hop
      rw [hidle] at hmem
      cases hmem
  · exact .inl h

theorem MissingForsaken.threadStep {w₀ : World} (hregular : Regular w₀ s) (hlocked : Locked s)
    (h : MissingForsaken s) (hC : ResyncSafely s (.thread t e)) (hm : ThreadStep s t p l e s') :
    MissingForsaken s' := by
  intro u q m names name hr hpass
  have hold : ∀ m names, Runs s u q m → pass m = .missing names name →
      NotPending s' name ∧ NoRow s'.world.db name := by
    intro m names hr hpass
    obtain ⟨hpending, hrow⟩ := h u q m names name hr hpass
    refine ⟨hpending.threadStep hm fun v _ ha => ?_, hrow.threadStep hpending hC.2 hm⟩
    -- no thread inside `instanceCreate` draws during a resync
    have hin := hlocked.not_inside hr (by rw [hpass]; exact fun h => nomatch h) hm.runs
    rw [ha] at hin
    cases hin
  rcases hm.runs_cases u q m hr with ⟨rfl, rfl, rfl⟩ | ⟨-, hr⟩ | ⟨-, rfl, -⟩
  · rcases missing_next hm.allowed hpass with hpass | ⟨rfl, hne⟩
    · exact hold l names hm.runs hpass
    · -- the answer of the table: those inside are kept out, those returned by the condition
      have hwf := hregular.wellFormed
      have hrow := noRow_of_shouldExist (fun _ _ _ _ ha ha' => hwf.names_unique ha ha') hm.did.truthful
      have hpending : NotPending s name := by
        intro v q' m' x hr' hx
        rcases inside_or_returned hx with hin | hret
        · rw [hlocked.not_inside hm.runs hne hr'] at hin
          cases hin
        · exact hC.1 u name false rfl v q' m' x hr' hret
      exact ⟨hpending.threadStep hm fun _ he => (nomatch he), hrow.threadStep hpending hC.2 hm⟩
  · exact hold m names hr hpass
  · cases hpass

theorem MissingForsaken.envStep {e : Env} (h : MissingForsaken s) (hm : EnvStep s e s') :
    MissingForsaken s' := by
  intro u q m names name hr hpass
  rcases hm.runs_cases u q m hr with hr | ⟨rfl, -⟩
  · obtain ⟨hpending, hrow⟩ := h u q m names name hr hpass
    exact ⟨hpending.envStep hm, by rw [hm.db]; exact hrow⟩
  · cases hpass

/-- What a resync deletes, it has found to have no row. -/
theorem missing_of_resyncDeletes {l : Label} (hsound : Sound s) (hs : server.Step s l s')
    (hd : ResyncDeletes s l name) :
    ∃ t d p m names, l = .thread t ⟨.wait d (.deleteInstance name), .ok ()⟩ ∧
      ThreadStep s t p m ⟨.wait d (.deleteInstance name), .ok ()⟩ s' ∧
      pass m = .missing names name := by
  obtain ⟨t, d, p, m, rfl, hr, hpass⟩ := hd
  obtain ⟨q, n, hm⟩ := thread_step hsound.follow hs
  obtain ⟨rfl, rfl⟩ := hr.unique hm.runs
  have hmay : Removes p m name := And.left hm.allowed
  obtain ⟨names, hnames⟩ := hmay.outside.resolve_left hpass
  exact ⟨t, d, p, m, names, rfl, hm, hnames⟩

/-- An operation that removes an instance has found it. -/
theorem exists_of_deletes {d : InstanceServer}
    (hm : ThreadStep s t p l ⟨.wait d (.deleteInstance name), .ok ()⟩ s') :
    ∃ i ∈ s.world.instances, i.name = name := by
  obtain ⟨a, ha⟩ : ∃ a, (Call.deleteInstance name).complete d a s.world.instances =
    some s'.world.instances := hm.did.instances
  simp only [Call.complete] at ha
  split at ha
  · rename_i hsome
    obtain ⟨i, hi⟩ := Option.isSome_iff_exists.mp hsome
    exact ⟨i, List.mem_of_find?_eq_some hi, (Instances.isAt_iff.mp (List.find?_some hi)).2⟩
  · cases ha

/-- The random id of an instance that has existed is not drawn again, so nobody comes to record
    an instance that has existed and that nobody is on the way to record. -/
theorem NotPending.run {C : Sys → Label → Prop} (hsound : Sound s) (h : NotPending s name)
    (hdrawn : ∀ u, name = nameOf u → u ∈ s.world.uuids) (hrun : server.Run C s s') :
    Sound s' ∧ NotPending s' name := by
  have hI := invariant_run
    (I := fun s => NotPending s name ∧ ∀ u, name = nameOf u → u ∈ s.world.uuids) hsound
    ⟨h, hdrawn⟩
    (fun s t p l e s' _ hI _ hm => ⟨hI.1.threadStep hm fun v he _ hname => by
        subst he
        have hfresh : v ∉ s.world.uuids := hm.did.truthful
        exact hfresh (hI.2 v hname.symm),
      fun u hu => uuids_after hm.did (hI.2 u hu)⟩)
    (fun s e s' _ hI _ hm => ⟨hI.1.envStep hm, fun u hu => hm.uuids ▸ hI.2 u hu⟩) hrun
  exact ⟨hI.1, hI.2.1⟩

end Steps

/-- In a run in which no resync asks for an instance that was returned and is not yet recorded,
    and no claim brings an ended row back, a resync deletes no instance that has a row or gets
    one. -/
theorem resync_spares_live {s₀ s : Sys} (h0 : Initial s₀) (hw : WellFormed s₀.world)
    (hrun : server.Run ResyncSafely s₀ s) : ResyncSpares ResyncSafely s := by
  have hmissing : MissingForsaken s₀ := by
    intro t p l names name hr hpass
    rw [(h0.ran hr.ran).2] at hpass
    cases hpass
  obtain ⟨hsound, hregular, hlocked, hforsaken⟩ := invariant_run
    (I := fun s => Regular s₀.world s ∧ Locked s ∧ MissingForsaken s) h0.sound
    ⟨h0.regular hw, h0.locked, hmissing⟩
    (fun s t p l e s' hs hI hC hm => ⟨hI.1.threadStep hs hm, hI.2.1.threadStep hm,
      hI.2.2.threadStep hI.1 hI.2.1 hC hm⟩)
    (fun s e s' _ hI _ hm => ⟨hI.1.envStep hm, hI.2.1.envStep hm, hI.2.2.envStep hm⟩) hrun
  intro l s₁ name _ hs hd
  obtain ⟨t, d, p, m, names, rfl, hm, hpass⟩ := missing_of_resyncDeletes hsound hs hd
  obtain ⟨hpending, hrow⟩ := hforsaken t p m names name hm.runs hpass
  refine ⟨hrow, fun s₂ u id row s₃ hrun' hs' hname => ?_⟩
  obtain ⟨i, hi, hiname⟩ := exists_of_deletes hm
  have hpending' : NotPending s₁ name := hpending.threadStep hm fun _ he => (nomatch he)
  have hdrawn : ∀ u, name = nameOf u → u ∈ s₁.world.uuids := fun u hu =>
    uuids_after hm.did (hregular.named.instances i hi u (hiname.trans hu))
  obtain ⟨hsound', hpending''⟩ := hpending'.run (hsound.step hs) hdrawn hrun'
  obtain ⟨q, n, hm'⟩ := thread_step hsound'.follow hs'
  have hmay : MayInsert q n row := hm'.allowed
  exact hpending'' u q n row.uuid hm'.runs (by rw [hmay.returned]; rfl) (hmay.name.symm.trans hname)

/-- The test for `ResyncSafely`. -/
def resyncSafely (s : Sys) (l : Label) : Bool :=
  (match l with
    | .thread _ ⟨.query (.dbShouldExist name), .ok _⟩ => s.threads.all fun th =>
      match attempt th.log with
      | .returned v => nameOf v != name
      | _ => true
    | _ => true) &&
  (claims l).all fun id => s.world.db.sessions.rows.all fun r =>
    r.1 != id || r.2.status == 0 || r.2.status == 2

theorem of_resyncSafely (s : Sys) (l : Label) (h : resyncSafely s l = true) : ResyncSafely s l := by
  obtain ⟨hasks, hrevives⟩ := Bool.and_eq_true_iff.mp h
  constructor
  · rintro t name exists_ rfl u q m v ⟨th, hth, -, -, rfl⟩ hv
    have hth := List.all_eq_true.mp hasks th (List.mem_of_getElem? hth)
    simp only [hv, bne_iff_ne] at hth
    exact hth
  · intro id hid row hrow
    rw [hid, Option.all_some] at hrevives
    have hr := List.all_eq_true.mp hrevives _ hrow
    simpa using hr

/-- A server that finds the instance of a session that goes on, and one without a row. -/
def orphanServer : Sys :=
  bootSys { smallWorld [("u1", "10.0.0.2"), ("u0", "10.0.0.1")] with
    db := ⟨Sql.Table.empty.insert { pooled "u1" "10.0.0.2" 3600 with status := 0 }, Sql.Table.empty⟩ }
    (smallConfig 5 0)

theorem orphanServer_wellFormed : WellFormed orphanServer.world := by
  have hrow : ∀ {id s}, orphanServer.world.db.Row id s →
      id = 1 ∧ s = { pooled "u1" "10.0.0.2" 3600 with status := 0 } := fun h =>
    Prod.mk.inj (List.mem_singleton.mp h)
  refine ⟨?_, ?_, ?_, fun i hi u hu => ?_⟩
  · rintro id s h
    rw [(hrow h).2]
    rfl
  · rintro id s h
    rw [(hrow h).2]
    exact List.mem_cons_self ..
  · rintro id id' s s' h h' -
    rw [(hrow h).1, (hrow h').1]
  · rcases List.mem_cons.mp hi with rfl | hi
    · rw [← nameOf_injective (u := "u1") hu]
      exact List.mem_cons_self ..
    · cases List.mem_singleton.mp hi
      rw [← nameOf_injective (u := "u0") hu]
      exact List.mem_cons_of_mem _ (List.mem_singleton_self _)

/-- The next operation of thread `t` deletes the instance `name` in a resync. -/
def sweeps (t : Nat) (name : String) (s : Sys) : Bool :=
  (s.threads[t]?.any fun th => th.alive && !(pass th.log).names.isEmpty) &&
  (server.step s (go t s)).any fun r => deletesInstance t name r.1

theorem of_sweeps {t : Nat} {name : String} {s : Sys} (h : sweeps t name s = true) :
    ∃ l s', server.step s (go t s) = some (l, s') ∧ ResyncDeletes s l name := by
  obtain ⟨hpass, hstep⟩ := Bool.and_eq_true_iff.mp h
  obtain ⟨th, hth, hpass⟩ := (Option.any_eq_true ..).mp hpass
  obtain ⟨⟨l, s'⟩, hs, hl⟩ := (Option.any_eq_true ..).mp hstep
  obtain ⟨halive, hnames⟩ := Bool.and_eq_true_iff.mp hpass
  obtain ⟨d, rfl⟩ := of_deletesInstance hl
  refine ⟨_, s', hs, t, d, th.proc, th.log, rfl, ⟨th, hth, halive, rfl, rfl⟩, fun hidle => ?_⟩
  rw [hidle] at hnames
  cases hnames

/-- Thread `t` has found the instance `name` recorded. -/
def findsRecorded (t : Nat) (name : String) (s : Sys) : Bool :=
  s.threads[t]?.any fun th => th.log.any fun e =>
    match e with
    | ⟨.query (.dbShouldExist n), .ok exists_⟩ => exists_ && n == name
    | _ => false

/-- The resync at startup spares the instance of the session that goes on, and deletes the one that
    an earlier process has left without a row. -/
theorem resync_spares_live_small : ∃ s, ResyncSpares ResyncSafely s ∧
    (findsRecorded 0 "tryit-u1" s && sweeps 0 "tryit-u0" s) = true := by
  obtain ⟨s, hrun, hs⟩ := server.run_of_check resyncSafely of_resyncSafely orphanServer
    (oks 0 20) (fun s => findsRecorded 0 "tryit-u1" s && sweeps 0 "tryit-u0" s) (by decide +kernel)
  exact ⟨s, resync_spares_live (bootSys_initial _ _) orphanServer_wellFormed hrun, hs⟩

/-- The label is the insertion of a row for the instance `name` by thread `t`. -/
def records (t : Nat) (name : String) : Label → Bool
  | .thread u ⟨.query (.dbNew row), .ok _⟩ => u == t && row.instanceName == name
  | _ => false

theorem of_records {t : Nat} {name : String} {l : Label} (h : records t name l = true) :
    ∃ row id, l = .thread t ⟨.query (.dbNew row), .ok id⟩ ∧ row.instanceName = name := by
  unfold records at h
  split at h
  · obtain ⟨ht, hn⟩ := Bool.and_eq_true_iff.mp h
    cases beq_iff_eq.mp ht
    exact ⟨_, _, rfl, beq_iff_eq.mp hn⟩
  · cases h

/-- A resync deletes the instance of a start request that has not recorded it yet, and the
    request goes on to record it. -/
theorem resync_deletes_live : ¬ ∀ s₀ s, Initial s₀ → WellFormed s₀.world →
    server.Run Machine.anyStep s₀ s → ResyncSpares Machine.anyStep s := by
  intro hall
  obtain ⟨s, hrun, hs⟩ := server.run_of_check Machine.noTest (fun _ _ _ => trivial) (emptyServer 0)
    (oks 0 8 ++ act (.request (startRequest "192.0.2.1")) ++ oks 1 50 ++ oks 0 9)
    (fun s => sweeps 0 "tryit-u0" s && (server.step s (go 0 s)).any fun r =>
      (server.steps Machine.noTest r.2 (oks 1 2)).any fun s' =>
        (server.step s' (go 1 s')).any fun r => records 1 "tryit-u0" r.1)
    (by decide +kernel)
  have hspares := hall _ s (emptyServer_initial 0) (emptyServer_wellFormed 0) hrun
  obtain ⟨hsweep, hlater⟩ := Bool.and_eq_true_iff.mp hs
  obtain ⟨l, s₁, hs₁, hd⟩ := of_sweeps hsweep
  rw [hs₁, Option.any_some] at hlater
  obtain ⟨s₂, hrun', hrecords⟩ := (Option.any_eq_true ..).mp hlater
  obtain ⟨l', s₃, hs₃, hl'⟩ := server.step_of_check hrecords
  obtain ⟨row, id, rfl, hname⟩ := of_records hl'
  exact (hspares l s₁ _ trivial (server.step_sound hs₁) hd).2 s₂ 1 id row s₃
    (Machine.run_of_steps (fun _ _ _ => trivial) hrun') hs₃ hname

end IncusDemo
