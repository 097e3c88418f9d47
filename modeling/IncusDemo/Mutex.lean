/-
  IncusDemo.Mutex

  What a thread holds of the mutex `muCreate`, read off its log (`grip`) and
  off the lock (`RWMutex.gripOf`).  Where the lock is taken with empty hands
  and given back by who holds it, the two agree from step to step
  (`gripOf_did`), and a step of one thread leaves what the others hold.
-/

import IncusDemo.Steps

namespace IncusDemo

open Go Conc

/-- What a thread holds of `muCreate`: it reads, it waits for the readers to leave, it writes. -/
structure Grip where
  reads : Bool
  waits : Bool
  writes : Bool
  deriving DecidableEq

namespace Grip

def free : Grip := ⟨false, false, false⟩
def reading : Grip := ⟨true, false, false⟩
def waiting : Grip := ⟨false, true, false⟩
def writing : Grip := ⟨false, false, true⟩

def next (g : Grip) (e : Event) : Grip :=
  match e with
  | ⟨.rLock, _⟩ => { g with reads := true }
  | ⟨.rUnlock _, _⟩ => { g with reads := false }
  | ⟨.announce, _⟩ => { g with waits := true }
  | ⟨.lock, _⟩ => { g with waits := false, writes := true }
  | ⟨.unlock, _⟩ => { g with writes := false }
  | _ => g

end Grip

def grip (l : Log) : Grip := l.foldr (fun e g => g.next e) .free

@[simp] theorem grip_cons (e : Event) (l : Log) : grip (e :: l) = (grip l).next e := rfl

/-- The operations on `muCreate`. -/
def Op.locks : Op → Bool
  | .rLock | .rUnlock _ | .announce | .lock | .unlock => true
  | _ => false

theorem grip_kept {o : Op} (h : o.locks = false) (r : Ret o) (l : Log) :
    grip (⟨o, r⟩ :: l) = grip l := by
  cases o <;> first | rfl | cases h

/-- The lock is taken with empty hands, and given back by who holds it. -/
def InTurn (g : Grip) : Op → Prop
  | .rLock | .announce => g = .free
  | .lock => g = .waiting
  | .rUnlock _ => g = .reading
  | .unlock => g = .writing
  | _ => True

theorem inTurn_of_locks {g : Grip} {o : Op} (h : o.locks = false) : InTurn g o := by
  cases o <;> trivial

namespace RWMutex

/-- What thread `t` holds, by the lock itself. -/
def gripOf (mu : RWMutex) (t : Nat) : Grip :=
  ⟨mu.readers.contains t, mu.waiting == some t, mu.writer == some t⟩

/-- No thread reads twice, and nobody waits for the lock while another one writes. -/
structure Sane (mu : RWMutex) : Prop where
  nodup : mu.readers.Nodup
  apart : mu.writer = none ∨ mu.waiting = none

/-- The threads that hold the lock, or wait in `Lock` for its readers. -/
def holders (mu : RWMutex) : List Nat := mu.readers ++ (mu.waiting.toList ++ mu.writer.toList)

theorem sane_free : RWMutex.free.Sane := ⟨List.nodup_nil, .inl rfl⟩

@[simp] theorem gripOf_free (t : Nat) : RWMutex.free.gripOf t = .free := by
  simp [gripOf, RWMutex.free, Grip.free]

theorem gripOf_eq_free {mu : RWMutex} {t : Nat} : mu.gripOf t = .free ↔ t ∉ mu.holders := by
  simp [gripOf, Grip.free, holders]

/-- Whether a thread is among the holders is what the lock says of it. -/
theorem mem_holders_congr {mu mu' : RWMutex} {t : Nat} (h : mu'.gripOf t = mu.gripOf t) :
    t ∈ mu'.holders ↔ t ∈ mu.holders := by
  rw [← not_iff_not, ← gripOf_eq_free, ← gripOf_eq_free, h]

theorem free_of_holders {mu : RWMutex} (h : mu.holders = []) : mu = .free := by
  obtain ⟨readers, waiting, writer⟩ := mu
  obtain ⟨hr, h⟩ := List.append_eq_nil_iff.mp h
  obtain ⟨hwaiting, hwriter⟩ := List.append_eq_nil_iff.mp h
  cases hr
  rw [Option.toList_eq_nil_iff] at hwaiting hwriter
  cases hwaiting
  cases hwriter
  rfl

theorem waiting_of_gripOf {mu : RWMutex} {t : Nat} (h : mu.gripOf t = .waiting) :
    mu.waiting = some t := by
  simpa [gripOf, Grip.waiting] using congrArg Grip.waits h

theorem Sane.writer_of_waiting {mu : RWMutex} {t : Nat} (hsane : mu.Sane)
    (h : mu.waiting = some t) : mu.writer = none := by
  refine hsane.apart.resolve_right ?_
  rw [h]
  exact Option.some_ne_none t

/-- Without readers at most one thread has to do with the lock. -/
theorem Sane.holder_unique {mu : RWMutex} {t u : Nat} (hsane : mu.Sane) (hreaders : mu.readers = [])
    (ht : t ∈ mu.holders) (hu : u ∈ mu.holders) : t = u := by
  simp only [holders, hreaders, List.nil_append, List.mem_append, Option.mem_toList] at ht hu
  rcases hsane.apart with hnone | hnone
  · simp only [hnone, reduceCtorEq, or_false] at ht hu
    exact Option.some.inj (ht.symm.trans hu)
  · simp only [hnone, reduceCtorEq, false_or] at ht hu
    exact Option.some.inj (ht.symm.trans hu)

end RWMutex

section Did

variable {w w' : World} {t u : Nat} {l : Log} {o : Op} {r : Ret o}

/-- The lock after an operation in turn: it says of the thread what its log says, and of the others
    what it said before. -/
theorem gripOf_did (hsane : w.muCreate.Sane) (hgrip : w.muCreate.gripOf t = grip l)
    (hturn : InTurn (grip l) o) (hdid : Did w t ⟨o, r⟩ w') :
    w'.muCreate.Sane ∧ w'.muCreate.gripOf t = grip (⟨o, r⟩ :: l) ∧
      ∀ u, u ≠ t → w'.muCreate.gripOf u = w.muCreate.gripOf u := by
  have hmu := hdid.muCreate
  rw [hmu, grip_cons, ← hgrip]
  rw [← hgrip] at hturn
  cases o with
  | rLock =>
    have hadmits : w.muCreate.admits := hdid.truthful
    have hnot : t ∉ w.muCreate.readers := by
      simpa [RWMutex.gripOf, Grip.free] using congrArg Grip.reads hturn
    refine ⟨⟨List.nodup_cons.mpr ⟨hnot, hsane.nodup⟩, .inl hadmits.1⟩, ?_, fun u hu => ?_⟩
    · simp [muCreateAfter, RWMutex.gripOf, Grip.next]
    · simp [muCreateAfter, RWMutex.gripOf, hu]
  | rUnlock returning =>
    refine ⟨⟨hsane.nodup.erase t, hsane.apart⟩, ?_, fun u hu => ?_⟩
    · simp [muCreateAfter, RWMutex.gripOf, Grip.next, hsane.nodup.not_mem_erase]
    · simp [muCreateAfter, RWMutex.gripOf, List.mem_erase_of_ne hu]
  | announce =>
    obtain ⟨hwriter, hwaiting⟩ : w.muCreate.admits := hdid.truthful
    refine ⟨⟨hsane.nodup, .inl hwriter⟩, ?_, fun u hu => ?_⟩
    · simp [muCreateAfter, RWMutex.gripOf, Grip.next]
    · simp [muCreateAfter, RWMutex.gripOf, hwaiting, hu.symm]
  | lock =>
    have hwriter : w.muCreate.writer = none := (hdid.truthful : _ ∧ _).1
    have hwaiting : w.muCreate.waiting = some t := RWMutex.waiting_of_gripOf hturn
    refine ⟨⟨hsane.nodup, .inr rfl⟩, ?_, fun u hu => ?_⟩
    · simp [muCreateAfter, RWMutex.gripOf, Grip.next]
    · simp [muCreateAfter, RWMutex.gripOf, hwaiting, hwriter, hu.symm]
  | unlock =>
    have hwriter : w.muCreate.writer = some t := by
      simpa [RWMutex.gripOf, Grip.writing] using congrArg Grip.writes hturn
    refine ⟨⟨hsane.nodup, .inl rfl⟩, ?_, fun u hu => ?_⟩
    · simp [muCreateAfter, RWMutex.gripOf, Grip.next]
    · simp [muCreateAfter, RWMutex.gripOf, hwriter, hu.symm]
  | _ => exact ⟨hsane, rfl, fun _ _ => rfl⟩

end Did

end IncusDemo
