/-
  IncusDemo.Go.Pipe

  An `io.Pipe`.  A write hands its bytes over to reads, however many it takes,
  and returns when all have been taken or an end has been closed; nothing is
  stored in between.

  A write takes two steps: `offer` holds its bytes out to reads, and `settle` is
  its return.
-/

import IncusDemo.Go.Io

namespace IncusDemo
namespace Go

/-- A pipe: what the write that is under way has left to hand over, what reads have taken, and
    which ends have been closed. -/
structure Pipe where
  pending : List UInt8
  taken : List UInt8
  readerClosed : Bool
  writerClosed : Bool

namespace Pipe

/-- `io.Pipe()`. -/
def new : Pipe := ⟨[], [], false, false⟩

/-- One of the ends has been closed. -/
def done (p : Pipe) : Bool := p.readerClosed || p.writerClosed

/-- `io.ErrClosedPipe`. -/
def closedPipe : String := "io: read/write on closed pipe"

/-- A write of `bytes` begins, unless an end has been closed. -/
def offer (p : Pipe) (bytes : List UInt8) : Bool × Pipe :=
  if p.done then (false, p) else (true, { p with pending := bytes })

/-- A write of `n` bytes returns: all have been taken, or an end has been closed. -/
def settle (p : Pipe) (n : Nat) : Option ((Nat × Option String) × Pipe) :=
  if p.pending = [] then some ((n, none), p)
  else if p.done then some ((n - p.pending.length, some closedPipe), { p with pending := [] })
  else none

/-- A read takes at most `n` bytes of the write that is under way. -/
def take (p : Pipe) (n : Nat) : Option (List UInt8 × Pipe) :=
  if p.pending.take n = [] then none
  else some (p.pending.take n,
    { p with pending := p.pending.drop n, taken := p.taken ++ p.pending.take n })

/-- The error of a read once an end has been closed. -/
def readError (p : Pipe) : Option (ReadError String) :=
  if p.readerClosed then some (.other closedPipe)
  else if p.writerClosed then some .eof
  else none

def closeRead (p : Pipe) : Pipe := { p with readerClosed := true }

def closeWrite (p : Pipe) : Pipe := { p with writerClosed := true }

/-- From `p` to `p'` reads take a part of what is held out to them. -/
structure Drains (p p' : Pipe) : Prop where
  bytes : ∃ l, p.pending = l ++ p'.pending ∧ p'.taken = p.taken ++ l
  readerClosed : p.readerClosed = true → p'.readerClosed = true
  writerClosed : p.writerClosed = true → p'.writerClosed = true

variable {p p' p'' : Pipe} {n : Nat} {bytes : List UInt8}

theorem Drains.refl (p : Pipe) : Drains p p := ⟨⟨[], rfl, (List.append_nil _).symm⟩, id, id⟩

theorem Drains.trans (h : Drains p p') (h' : Drains p' p'') : Drains p p'' := by
  obtain ⟨l, hl, hl'⟩ := h.bytes
  obtain ⟨m, hm, hm'⟩ := h'.bytes
  refine ⟨⟨l ++ m, ?_, ?_⟩, fun hc => h'.readerClosed (h.readerClosed hc),
    fun hc => h'.writerClosed (h.writerClosed hc)⟩
  · rw [hl, hm, List.append_assoc]
  · rw [hm', hl', List.append_assoc]

/-- What has been handed over or is held out stays the same. -/
theorem Drains.total (h : Drains p p') : p'.taken ++ p'.pending = p.taken ++ p.pending := by
  obtain ⟨l, hl, hl'⟩ := h.bytes
  rw [hl', hl, List.append_assoc]

theorem Drains.pending_nil (h : Drains p p') (hp : p.pending = []) : p'.pending = [] := by
  obtain ⟨l, hl, -⟩ := h.bytes
  exact (List.append_eq_nil_iff.mp (hl.symm.trans hp)).2

/-- With no write under way nothing is taken. -/
theorem Drains.taken_eq (h : Drains p p') (hp : p.pending = []) : p'.taken = p.taken := by
  obtain ⟨l, hl, hl'⟩ := h.bytes
  obtain ⟨rfl, -⟩ := List.append_eq_nil_iff.mp (hl.symm.trans hp)
  rw [hl', List.append_nil]

theorem take_did (h : p.take n = some (bytes, p')) :
    p' = { p with pending := p'.pending, taken := p.taken ++ bytes } ∧
      p.pending = bytes ++ p'.pending ∧ bytes.length ≤ n ∧ bytes ≠ [] := by
  unfold take at h
  split at h
  · cases h
  · rename_i hne
    cases h
    exact ⟨rfl, (List.take_append_drop ..).symm, List.length_take_le .., hne⟩

theorem take_drains (h : p.take n = some (bytes, p')) : Drains p p' := by
  obtain ⟨hp, hpending, -⟩ := take_did h
  rw [hp]
  exact ⟨⟨bytes, hpending, rfl⟩, id, id⟩

end Pipe
end Go
end IncusDemo
