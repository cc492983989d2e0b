import Branchscore.Foundation.ByteString

/-! The SHA-256 implementation behind the prompt identity. -/

namespace Branchscore

open Foundation
set_option autoImplicit false

abbrev Word := BitVec 32

/-- `buffer` is the filled part of the 64-byte buffer and `state` the eight chaining words. -/
structure Sha256 where
  buffer : Bytes := []
  bitCount : BitVec 64 := 0
  state : List Word := [
    0x6a09e667, 0xbb67ae85, 0x3c6ef372, 0xa54ff53a,
    0x510e527f, 0x9b05688c, 0x1f83d9ab, 0x5be0cd19
  ]

namespace Sha256

def constants : List Word := [
  0x428a2f98, 0x71374491, 0xb5c0fbcf, 0xe9b5dba5,
  0x3956c25b, 0x59f111f1, 0x923f82a4, 0xab1c5ed5,
  0xd807aa98, 0x12835b01, 0x243185be, 0x550c7dc3,
  0x72be5d74, 0x80deb1fe, 0x9bdc06a7, 0xc19bf174,
  0xe49b69c1, 0xefbe4786, 0x0fc19dc6, 0x240ca1cc,
  0x2de92c6f, 0x4a7484aa, 0x5cb0a9dc, 0x76f988da,
  0x983e5152, 0xa831c66d, 0xb00327c8, 0xbf597fc7,
  0xc6e00bf3, 0xd5a79147, 0x06ca6351, 0x14292967,
  0x27b70a85, 0x2e1b2138, 0x4d2c6dfc, 0x53380d13,
  0x650a7354, 0x766a0abb, 0x81c2c92e, 0x92722c85,
  0xa2bfe8a1, 0xa81a664b, 0xc24b8b70, 0xc76c51a3,
  0xd192e819, 0xd6990624, 0xf40e3585, 0x106aa070,
  0x19a4c116, 0x1e376c08, 0x2748774c, 0x34b0bcb5,
  0x391c0cb3, 0x4ed8aa4a, 0x5b9cca4f, 0x682e6ff3,
  0x748f82ee, 0x78a5636f, 0x84c87814, 0x8cc70208,
  0x90befffa, 0xa4506ceb, 0xbef9a3f7, 0xc67178f2
  ]

def rotateRight (value : Word) (count : Nat) : Word := value >>> count ||| value <<< (32 - count)

def word (buffer : Bytes) (i : Nat) : Word :=
  let byteAt j := BitVec.ofNat 32 (buffer.getD (4 * i + j) 0).val
  byteAt 0 <<< 24 ||| byteAt 1 <<< 16 ||| byteAt 2 <<< 8 ||| byteAt 3

/-- One step of the message schedule appends the next word. -/
def schedule (words : List Word) : List Word :=
  let i := words.length
  let w j := words.getD j 0
  let s0 := rotateRight (w (i - 15)) 7 ^^^ rotateRight (w (i - 15)) 18 ^^^ w (i - 15) >>> 3
  let s1 := rotateRight (w (i - 2)) 17 ^^^ rotateRight (w (i - 2)) 19 ^^^ w (i - 2) >>> 10
  words ++ [w (i - 16) + s0 + w (i - 7) + s1]

structure Registers where
  (a b c d e f g h : Word)

def round (r : Registers) (k : Word × Word) : Registers :=
  let s1 := rotateRight r.e 6 ^^^ rotateRight r.e 11 ^^^ rotateRight r.e 25
  let choose := (r.e &&& r.f) ^^^ (~~~r.e &&& r.g)
  let temp1 := r.h + s1 + choose + k.1 + k.2
  let s0 := rotateRight r.a 2 ^^^ rotateRight r.a 13 ^^^ rotateRight r.a 22
  let majority := (r.a &&& r.b) ^^^ (r.a &&& r.c) ^^^ (r.b &&& r.c)
  let temp2 := s0 + majority
  ⟨temp1 + temp2, r.a, r.b, r.c, r.d + temp1, r.e, r.f, r.g⟩

def transform (hash : Sha256) : Sha256 :=
  let words := schedule^[48] ((List.range 16).map (word hash.buffer))
  let s i := hash.state.getD i 0
  let r := (constants.zip words).foldl round ⟨s 0, s 1, s 2, s 3, s 4, s 5, s 6, s 7⟩
  let state := List.zipWith (· + ·) hash.state [r.a, r.b, r.c, r.d, r.e, r.f, r.g, r.h]
  { hash with state, buffer := [] }

def pushByte (hash : Sha256) (b : Byte) : Sha256 :=
  let hash := { hash with buffer := hash.buffer ++ [b] }
  if hash.buffer.length = 64 then hash.transform else hash

def update (hash : Sha256) (input : Bytes) : Sha256 :=
  let hash := input.foldl pushByte hash
  { hash with bitCount := hash.bitCount + BitVec.ofNat 64 (input.length * 8) }

def fill (hash : Sha256) (size : Nat) : Sha256 :=
  { hash with buffer := hash.buffer ++ List.replicate (size - hash.buffer.length) 0 }

def hexWord (w : Word) : Bytes :=
  (List.range 8).map fun i =>
    (bytes "0123456789abcdef").getD (w.toNat / 16 ^ (7 - i) % 16) 0

def finish (hash : Sha256) : Bytes :=
  let hash := { hash with buffer := hash.buffer ++ [0x80] }
  let hash := if 56 < hash.buffer.length then (hash.fill 64).transform else hash
  let hash := hash.fill 56
  let count := (List.range 8).map fun i => Fin.ofNat 256 (hash.bitCount.toNat / 256 ^ (7 - i))
  let hash := { hash with buffer := hash.buffer ++ count }.transform
  hash.state.flatMap hexWord

end Sha256

end Branchscore
