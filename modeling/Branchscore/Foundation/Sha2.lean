import Mathlib.Data.Nat.NthRoot.Defs
import Mathlib.Data.Nat.Prime.Basic
import Branchscore.Foundation.ByteString

/-!
# SHA-256

The hash of FIPS 180-4 for messages of whole bytes. The constants are the first 32 bits of
the fractional parts of square and cube roots of primes, as the standard introduces them.
-/

namespace Foundation.Sha2

set_option autoImplicit false

abbrev Word := BitVec 32

/-! ## Functions and constants -/

def ch (x y z : Word) : Word := (x &&& y) ^^^ (~~~x &&& z)

def maj (x y z : Word) : Word := (x &&& y) ^^^ (x &&& z) ^^^ (y &&& z)

def bigSigma0 (x : Word) : Word := x.rotateRight 2 ^^^ x.rotateRight 13 ^^^ x.rotateRight 22

def bigSigma1 (x : Word) : Word := x.rotateRight 6 ^^^ x.rotateRight 11 ^^^ x.rotateRight 25

def smallSigma0 (x : Word) : Word := x.rotateRight 7 ^^^ x.rotateRight 18 ^^^ x >>> 3

def smallSigma1 (x : Word) : Word := x.rotateRight 17 ^^^ x.rotateRight 19 ^^^ x >>> 10

def primes : List Nat := (List.range 312).filter Nat.Prime

/-- The first 32 bits of the fractional part of the `n`-th root of `p`. -/
def fraction (n p : Nat) : Word := BitVec.ofNat 32 (Nat.nthRoot n (p * 2 ^ (32 * n)))

def constants : List Word := primes.map (fraction 3)

def initial : List Word := (primes.take 8).map (fraction 2)

/-! ## Compression of one block -/

def messageSchedule (block : Nat → Word) (t : Nat) : Word :=
  if t < 16 then block t
  else smallSigma1 (messageSchedule block (t - 2)) + messageSchedule block (t - 7) +
    smallSigma0 (messageSchedule block (t - 15)) + messageSchedule block (t - 16)
termination_by t

/-- The eight working variables. -/
structure Registers where
  (a b c d e f g h : Word)

namespace Registers

def round (r : Registers) (k w : Word) : Registers :=
  let t1 := r.h + bigSigma1 r.e + ch r.e r.f r.g + k + w
  let t2 := bigSigma0 r.a + maj r.a r.b r.c
  ⟨t1 + t2, r.a, r.b, r.c, r.d + t1, r.e, r.f, r.g⟩

def ofWords (s : List Word) : Registers :=
  ⟨s.getD 0 0, s.getD 1 0, s.getD 2 0, s.getD 3 0, s.getD 4 0, s.getD 5 0, s.getD 6 0, s.getD 7 0⟩

def words (r : Registers) : List Word := [r.a, r.b, r.c, r.d, r.e, r.f, r.g, r.h]

end Registers

def compress (hash : List Word) (block : Nat → Word) : List Word :=
  let rounds := constants.zip ((List.range 64).map (messageSchedule block))
  let r := rounds.foldl (fun (r : Registers) p => r.round p.1 p.2) (Registers.ofWords hash)
  List.zipWith (· + ·) hash r.words

/-! ## Messages -/

/-- The last `n` base-256 digits of a number, most significant first. -/
def bigEndian (n v : Nat) : Bytes := (List.range n).map fun i => Fin.ofNat 256 (v / 256 ^ (n - 1 - i))

/-- The big-endian word at a position counted in words. -/
def wordAt (m : Bytes) (i : Nat) : Word :=
  BitVec.ofNat 32 ((List.range 4).foldl (fun v j => v * 256 + (m.getD (4 * i + j) 0).val) 0)

def block (m : Bytes) (i t : Nat) : Word := wordAt m (16 * i + t)

/-- The hash value after `n` blocks. -/
def chain (m : Bytes) : Nat → List Word
  | 0 => initial
  | n + 1 => compress (chain m n) (block m n)

/-- One bit, zeros, and the length in bits, up to a whole number of blocks. -/
def padding (length : Nat) : Bytes :=
  [0x80] ++ List.replicate ((119 - length % 64) % 64) 0 ++ bigEndian 8 (8 * length)

def digest (m : Bytes) : Bytes :=
  let padded := m ++ padding m.length
  (chain padded (padded.length / 64)).flatMap fun w => bigEndian 4 w.toNat

def hexDigit (n : Nat) : Byte := (bytes "0123456789abcdef").getD n 0

def hex (b : Bytes) : Bytes := b.flatMap fun x => [hexDigit (x.val / 16), hexDigit (x.val % 16)]

/-! ## Lemmas -/

theorem primes_eq : primes = [
    2, 3, 5, 7, 11, 13, 17, 19, 23, 29, 31, 37, 41, 43, 47, 53, 59, 61, 67, 71, 73, 79, 83, 89,
    97, 101, 103, 107, 109, 113, 127, 131, 137, 139, 149, 151, 157, 163, 167, 173, 179, 181,
    191, 193, 197, 199, 211, 223, 227, 229, 233, 239, 241, 251, 257, 263, 269, 271, 277, 281,
    283, 293, 307, 311] := by
  decide +kernel

theorem initial_length : initial.length = 8 := by
  rw [initial, primes_eq]
  rfl

@[simp] theorem bigEndian_length (n v : Nat) : (bigEndian n v).length = n := by simp [bigEndian]

theorem messageSchedule_lt (block : Nat → Word) {t : Nat} (h : t < 16) :
    messageSchedule block t = block t := by rw [messageSchedule, if_pos h]

theorem messageSchedule_add (block : Nat → Word) (t : Nat) :
    messageSchedule block (t + 16) = smallSigma1 (messageSchedule block (t + 14)) +
      messageSchedule block (t + 9) + smallSigma0 (messageSchedule block (t + 1)) +
      messageSchedule block t := by
  rw [messageSchedule, if_neg (by omega)]
  rfl

theorem wordAt_append {m : Bytes} {i : Nat} (h : 4 * i + 4 ≤ m.length) (rest : Bytes) :
    wordAt (m ++ rest) i = wordAt m i := by
  have hget : ∀ j < 4, (m ++ rest).getD (4 * i + j) 0 = m.getD (4 * i + j) 0 := by
    intro j hj
    rw [List.getD_append _ _ _ _ (by omega)]
  simp only [wordAt, List.range_succ, List.range_zero, List.nil_append, List.foldl_append,
    List.foldl_cons, List.foldl_nil]
  rw [hget 0 (by omega), hget 1 (by omega), hget 2 (by omega), hget 3 (by omega)]

theorem wordAt_drop (m : Bytes) (n i : Nat) : wordAt (m.drop (4 * n)) i = wordAt m (n + i) := by
  have hget : ∀ j, (m.drop (4 * n)).getD (4 * i + j) 0 = m.getD (4 * (n + i) + j) 0 := by
    intro j
    rw [List.getD_eq_getElem?_getD, List.getElem?_drop, ← List.getD_eq_getElem?_getD]
    congr 1
    omega
  simp only [wordAt, hget]

theorem compress_congr (hash : List Word) {x y : Nat → Word} (h : ∀ t < 16, x t = y t) :
    compress hash x = compress hash y := by
  have hs : messageSchedule x = messageSchedule y := by
    funext t
    induction t using Nat.strong_induction_on with
    | h t ih =>
      by_cases ht : t < 16
      · rw [messageSchedule_lt x ht, messageSchedule_lt y ht, h t ht]
      · rw [messageSchedule, if_neg ht, messageSchedule.eq_def y t, if_neg ht,
          ih (t - 2) (by omega), ih (t - 7) (by omega), ih (t - 15) (by omega),
          ih (t - 16) (by omega)]
  simp only [compress, hs]

theorem compress_length (hash : List Word) (x : Nat → Word) (h : hash.length = 8) :
    (compress hash x).length = 8 := by
  simp [compress, Registers.words, h]


theorem chain_length (m : Bytes) (n : Nat) : (chain m n).length = 8 := by
  induction n with
  | zero => exact initial_length
  | succ n ih => exact compress_length _ _ ih

/-- The hash value after some blocks depends on these blocks only. -/
theorem chain_append {m : Bytes} {n : Nat} (h : 64 * n ≤ m.length) (rest : Bytes) :
    chain (m ++ rest) n = chain m n := by
  induction n with
  | zero => rfl
  | succ n ih =>
    have hm : 64 * n ≤ m.length := by omega
    rw [chain, chain, ih hm]
    apply compress_congr
    intro t ht
    exact wordAt_append (by omega) rest

theorem hex_length (b : Bytes) : (hex b).length = 2 * b.length := by
  induction b with
  | nil => rfl
  | cons x b ih =>
    rw [hex, List.flatMap_cons, List.length_append, ← hex, ih]
    simp only [List.length_cons, List.length_nil]
    omega

theorem hex_digest_length (m : Bytes) : (hex (digest m)).length = 64 := by
  rw [hex_length, digest]
  simp only [List.length_flatMap, bigEndian_length, List.map_const', List.sum_replicate,
    chain_length, smul_eq_mul]

end Foundation.Sha2
