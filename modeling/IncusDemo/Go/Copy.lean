/-
  IncusDemo.Go.Copy

  `io.Copy`: read, write what has been read, and go on until a call fails.  The
  two calls are programs, so that the copy can run as one thread among others.

  `wp_copy` is the rule of the loop.  Its invariant `J held err` speaks of the
  bytes that have been read and not yet written, and of the error that came
  with them.
-/

import IncusDemo.Conc.Prog
import IncusDemo.Go.Io

namespace IncusDemo
namespace Go

open Conc

/-- How a copy ends: the end of what is read, an error of a read or of a write, or a write of
    less than it was given. -/
inductive CopyEnd (ε ω : Type) where
  | eof
  | readError (e : ε)
  | writeError (e : ω)
  | shortWrite
  deriving DecidableEq

variable {Op : Type} {Ret : Op → Type} {ε ω σ : Type}

/-- What a copy does once everything that it has read has been written: it goes on, unless the
    read reported an error. -/
def afterRead (er : Option (ReadError ε)) (again : Prog Op Ret (CopyEnd ε ω)) :
    Prog Op Ret (CopyEnd ε ω) :=
  match er with
  | none => again
  | some .eof => pure .eof
  | some (.other e) => pure (.readError e)

/-- `io.Copy(dst, src)`, where `read` is `src.Read` and `write` is `dst.Write`.  After `rounds`
    rounds the thread stays where it is. -/
def copy (read : Prog Op Ret (List UInt8 × Option (ReadError ε)))
    (write : List UInt8 → Prog Op Ret (Nat × Option ω)) (halt : Prog Op Ret Empty) :
    Nat → Prog Op Ret (CopyEnd ε ω)
  | 0 => do nomatch ← halt
  | rounds + 1 => do
    let (bytes, er) ← read
    if bytes = [] then afterRead er (copy read write halt rounds)
    else
      match ← write bytes with
      | (_, some ew) => pure (.writeError ew)
      | (nw, none) =>
        if nw = bytes.length then afterRead er (copy read write halt rounds)
        else pure .shortWrite

variable {δ : σ → (o : Op) → Ret o → σ → Prop} {ok : σ → Op → Prop}
  {read : Prog Op Ret (List UInt8 × Option (ReadError ε))}
  {write : List UInt8 → Prog Op Ret (Nat × Option ω)} {halt : Prog Op Ret Empty}
  {J : List UInt8 → Option (ReadError ε) → σ → Prop} {Q : CopyEnd ε ω → σ → Prop}

/-- What has to be shown of the two calls and of the ends of a copy. -/
structure Copies (δ : σ → (o : Op) → Ret o → σ → Prop) (ok : σ → Op → Prop)
    (read : Prog Op Ret (List UInt8 × Option (ReadError ε)))
    (write : List UInt8 → Prog Op Ret (Nat × Option ω)) (halt : Prog Op Ret Empty)
    (J : List UInt8 → Option (ReadError ε) → σ → Prop) (Q : CopyEnd ε ω → σ → Prop) : Prop where
  read : ∀ s, J [] none s → read.wp δ ok (fun r => J r.1 r.2) s
  write : ∀ bytes er s, bytes ≠ [] → J bytes er s → (write bytes).wp δ ok (fun r s' =>
    (∀ e, r.2 = some e → Q (.writeError e) s') ∧
      (r.2 = none → if r.1 = bytes.length then J [] er s' else Q .shortWrite s')) s
  eof : ∀ s, J [] (some .eof) s → Q .eof s
  failed : ∀ e s, J [] (some (.other e)) s → Q (.readError e) s
  halt : ∀ s, J [] none s → halt.wp δ ok (fun _ _ => True) s

theorem Copies.afterRead (h : Copies δ ok read write halt J Q) {er : Option (ReadError ε)}
    {again : Prog Op Ret (CopyEnd ε ω)} (hagain : ∀ s, J [] none s → again.wp δ ok Q s) {s : σ}
    (hs : J [] er s) : (Go.afterRead er again).wp δ ok Q s := by
  rcases er with _ | _ | e
  · exact hagain s hs
  · exact h.eof s hs
  · exact h.failed e s hs

/-- The rule of the copy loop. -/
theorem wp_copy (h : Copies δ ok read write halt J Q) (rounds : Nat) {s : σ} (hs : J [] none s) :
    (copy read write halt rounds).wp δ ok Q s := by
  induction rounds generalizing s with
  | zero =>
    refine (Prog.wp_bind halt _).mpr (Prog.wp_mono (fun a _ _ => ?_) (h.halt s hs))
    exact nomatch a
  | succ rounds ih =>
    unfold copy
    rw [Prog.wp_bind]
    refine Prog.wp_mono (fun r s₁ h₁ => ?_) (h.read s hs)
    obtain ⟨bytes, er⟩ := r
    dsimp only at h₁ ⊢
    refine (Prog.wp_ite _ _ _).mpr ⟨?_, fun hne => ?_⟩
    · rintro rfl
      exact h.afterRead (fun _ hs' => ih hs') h₁
    · rw [Prog.wp_bind]
      refine Prog.wp_mono (fun r s₂ h₂ => ?_) (h.write bytes er s₁ hne h₁)
      obtain ⟨nw, _ | ew⟩ := r
      · have hdone := h₂.2 rfl
        refine (Prog.wp_ite _ _ _).mpr ⟨fun hall => ?_, fun hshort => ?_⟩
        · rw [if_pos hall] at hdone
          exact h.afterRead (fun _ hs' => ih hs') hdone
        · rw [if_neg hshort] at hdone
          exact hdone
      · exact h₂.1 ew rfl

end Go
end IncusDemo
