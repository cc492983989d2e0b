import Branchscore.Foundation.ByteString

/-!
# Base64

The standard padded encoding of RFC 4648: three bytes make four digits, and the spare
bits of a shorter last group are zero.
-/

namespace Foundation.Base64

set_option autoImplicit false

def alphabet : Bytes := bytes "ABCDEFGHIJKLMNOPQRSTUVWXYZabcdefghijklmnopqrstuvwxyz0123456789+/"

def digit (n : Nat) : Byte := alphabet.getD n 0

def encode : Bytes → Bytes
  | [] => []
  | [x] => [digit (x.val / 4), digit (x.val % 4 * 16), byte '=', byte '=']
  | [x, y] =>
    [digit (x.val / 4), digit (x.val % 4 * 16 + y.val / 16), digit (y.val % 16 * 4), byte '=']
  | x :: y :: z :: rest =>
    [digit (x.val / 4), digit (x.val % 4 * 16 + y.val / 16), digit (y.val % 16 * 4 + z.val / 64),
      digit (z.val % 64)] ++ encode rest

theorem encode_length (b : Bytes) : (encode b).length = (b.length + 2) / 3 * 4 := by
  induction b using encode.induct with
  | case1 => rfl
  | case2 x => simp [encode]
  | case3 x y => simp [encode]
  | case4 x y z rest ih =>
    simp only [encode, List.length_append, List.length_cons, List.length_nil, ih]
    omega

theorem encode_eq_nil {b : Bytes} : encode b = [] ↔ b = [] := by
  rw [← List.length_eq_zero_iff, encode_length, ← List.length_eq_zero_iff]
  omega

theorem digit_ne_pad {n : Nat} (h : n < 64) : digit n ≠ byte '=' := by
  have : ∀ n < 64, digit n ≠ byte '=' := by decide +kernel
  exact this n h

end Foundation.Base64
