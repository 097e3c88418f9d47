/-
  IncusDemo.Go.Io

  An `io.Reader`: what is left of a payload, in the pieces in which it arrives,
  and the error that follows it.  A `Read` hands out at most one piece, or as
  much of it as the buffer holds; the end may be reported with the last piece or
  by a call of its own.

  `effort` bounds the calls that are left: every call that reports no error
  lowers it.
-/

import Mathlib.Data.List.Basic

namespace IncusDemo
namespace Go

/-- The errors of a `Read`: `io.EOF`, or one of `ε`. -/
inductive ReadError (ε : Type) where
  | eof
  | other (e : ε)
  deriving DecidableEq

/-- A reader of a payload that ends with an error. -/
structure Reader (ε : Type) where
  pieces : List (List UInt8)
  /-- The error is reported together with the last piece. -/
  together : Bool
  stop : ReadError ε

namespace Reader

variable {ε : Type}

/-- What is left to be read. -/
def payload (r : Reader ε) : List UInt8 := r.pieces.flatten

/-- More than the number of calls, with buffers that are not empty, that report no error. -/
def effort (r : Reader ε) : Nat := r.payload.length + r.pieces.length + 1

/-- `r.Read(p)` for a buffer of `n` bytes: the bytes read, the error and the reader after it. -/
def read (r : Reader ε) (n : Nat) : List UInt8 × Option (ReadError ε) × Reader ε :=
  match r.pieces with
  | [] => ([], some r.stop, r)
  | piece :: rest =>
    if n < piece.length then (piece.take n, none, { r with pieces := piece.drop n :: rest })
    else if rest = [] ∧ r.together then (piece, some r.stop, { r with pieces := [] })
    else (piece, none, { r with pieces := rest })

/-- What a `Read` does. -/
structure Did (r : Reader ε) (n : Nat) (bytes : List UInt8) (err : Option (ReadError ε))
    (r' : Reader ε) : Prop where
  bound : bytes.length ≤ n
  bytes : bytes ++ r'.payload = r.payload
  stop : r'.stop = r.stop
  error : ∀ e, err = some e → e = r.stop ∧ r'.payload = []
  goes : 0 < n → err = none → r'.effort < r.effort

theorem read_did (r : Reader ε) (n : Nat) : r.Did n (r.read n).1 (r.read n).2.1 (r.read n).2.2 := by
  obtain ⟨pieces, together, stop⟩ := r
  cases pieces with
  | nil => exact ⟨Nat.zero_le n, rfl, rfl, fun e he => ⟨(Option.some.inj he).symm, rfl⟩, nofun⟩
  | cons piece rest =>
    unfold read
    dsimp only
    split
    · rename_i hlt
      refine ⟨List.length_take_le .., ?_, rfl, nofun, fun hn _ => ?_⟩
      · simp [payload, ← List.append_assoc]
      · simp only [effort, payload, List.flatten_cons, List.length_append, List.length_drop,
          List.length_cons]
        omega
    · rename_i hle
      split
      · rename_i hlast
        obtain ⟨rfl, -⟩ := hlast
        exact ⟨Nat.le_of_not_lt hle, by simp [payload], rfl,
          fun e he => ⟨(Option.some.inj he).symm, rfl⟩, nofun⟩
      · refine ⟨Nat.le_of_not_lt hle, rfl, rfl, nofun, fun _ _ => ?_⟩
        simp only [effort, payload, List.flatten_cons, List.length_append, List.length_cons]
        omega

end Reader
end Go
end IncusDemo
