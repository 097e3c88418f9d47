/-
  IncusDemo.Go.Sha256

  `crypto/sha256`, as far as the server uses it: the digest of a string,
  printed in hexadecimal.
-/

import Mathlib.Algebra.Ring.Nat
import Mathlib.Data.List.Basic

namespace IncusDemo
namespace Go
namespace Sha256

abbrev Word := BitVec 32

/-- Fractional parts of the square roots of the first eight primes. -/
def initial : List Word :=
  [0x6a09e667, 0xbb67ae85, 0x3c6ef372, 0xa54ff53a, 0x510e527f, 0x9b05688c, 0x1f83d9ab, 0x5be0cd19]

/-- Fractional parts of the cube roots of the first sixty-four primes. -/
def roundConstants : List Word :=
  [0x428a2f98, 0x71374491, 0xb5c0fbcf, 0xe9b5dba5, 0x3956c25b, 0x59f111f1, 0x923f82a4, 0xab1c5ed5,
   0xd807aa98, 0x12835b01, 0x243185be, 0x550c7dc3, 0x72be5d74, 0x80deb1fe, 0x9bdc06a7, 0xc19bf174,
   0xe49b69c1, 0xefbe4786, 0x0fc19dc6, 0x240ca1cc, 0x2de92c6f, 0x4a7484aa, 0x5cb0a9dc, 0x76f988da,
   0x983e5152, 0xa831c66d, 0xb00327c8, 0xbf597fc7, 0xc6e00bf3, 0xd5a79147, 0x06ca6351, 0x14292967,
   0x27b70a85, 0x2e1b2138, 0x4d2c6dfc, 0x53380d13, 0x650a7354, 0x766a0abb, 0x81c2c92e, 0x92722c85,
   0xa2bfe8a1, 0xa81a664b, 0xc24b8b70, 0xc76c51a3, 0xd192e819, 0xd6990624, 0xf40e3585, 0x106aa070,
   0x19a4c116, 0x1e376c08, 0x2748774c, 0x34b0bcb5, 0x391c0cb3, 0x4ed8aa4a, 0x5b9cca4f, 0x682e6ff3,
   0x748f82ee, 0x78a5636f, 0x84c87814, 0x8cc70208, 0x90befffa, 0xa4506ceb, 0xbef9a3f7, 0xc67178f2]

/-- The message, a one bit, zeros, and the length in bits, in whole blocks of 64 bytes. -/
def pad (msg : List Nat) : List Nat :=
  let zeros := (119 - msg.length % 64) % 64
  let bits := 8 * msg.length
  msg ++ [0x80] ++ List.replicate zeros 0 ++
    (List.range 8).map fun i => bits / 256 ^ (7 - i) % 256

/-- Four bytes as a big-endian word. -/
def word (bytes : List Nat) : Word := BitVec.ofNat 32 (bytes.foldl (fun a b => a * 256 + b) 0)

/-- `n` chunks of `size` elements. -/
def chunks {α : Type} (size : Nat) : Nat → List α → List (List α)
  | 0, _ => []
  | n + 1, l => l.take size :: chunks size n (l.drop size)

/-- The message schedule, extended word by word from the sixteen words of a block. -/
def schedule : Nat → List Word → List Word
  | 0, w => w
  | n + 1, w =>
    let at_ := fun i => w.getD (w.length - i) 0
    let s0 := (at_ 15).rotateRight 7 ^^^ (at_ 15).rotateRight 18 ^^^ (at_ 15 >>> 3)
    let s1 := (at_ 2).rotateRight 17 ^^^ (at_ 2).rotateRight 19 ^^^ (at_ 2 >>> 10)
    schedule n (w ++ [at_ 16 + s0 + at_ 7 + s1])

/-- One round of the compression function on the working variables `a .. h`. -/
def round (v : List Word) (kw : Word × Word) : List Word :=
  match v with
  | [a, b, c, d, e, f, g, h] =>
    let s1 := e.rotateRight 6 ^^^ e.rotateRight 11 ^^^ e.rotateRight 25
    let ch := (e &&& f) ^^^ (~~~e &&& g)
    let t1 := h + s1 + ch + kw.1 + kw.2
    let s0 := a.rotateRight 2 ^^^ a.rotateRight 13 ^^^ a.rotateRight 22
    let maj := (a &&& b) ^^^ (a &&& c) ^^^ (b &&& c)
    [t1 + (s0 + maj), a, b, c, d + t1, e, f, g]
  | _ => v

/-- The compression function on one block. -/
def block (h : List Word) (bytes : List Nat) : List Word :=
  let w := schedule 48 ((chunks 4 16 bytes).map word)
  List.zipWith (· + ·) h ((roundConstants.zip w).foldl round h)

/-- The eight words of the digest. -/
def digest (msg : List Nat) : List Word :=
  let padded := pad msg
  (chunks 64 (padded.length / 64) padded).foldl block initial

/-- `%x` of a word: eight hexadecimal digits. -/
def hex (w : Word) : List Char := (List.range 8).map fun i => (w.toNat / 16 ^ (7 - i) % 16).digitChar

end Sha256

/-- `fmt.Sprintf("%x", sha256(s))`. -/
def sha256Hex (s : String) : String :=
  String.ofList ((Sha256.digest (s.toByteArray.toList.map UInt8.toNat)).flatMap Sha256.hex)

example : sha256Hex "abc" =
    "ba7816bf8f01cfea414140de5dae2223b00361a396177a9cb410ff61f20015ad" := by decide +kernel

end Go
end IncusDemo
