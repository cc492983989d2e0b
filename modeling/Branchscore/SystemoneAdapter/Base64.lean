import Branchscore.Foundation.Base64
import Branchscore.SystemoneAdapter.Request

/-!
# Image data is canonical Base64

`decode_base64` accepts the encodings of nonempty byte strings and nothing else. It
works group by group: a group of four is the encoding of one to three bytes, of fewer
than three only at the end.
-/

namespace Branchscore.Systemone

open Foundation Foundation.Outcome Foundation.Base64
set_option autoImplicit false

/-- The capacity reserved for the result. -/
def reservedLength (encoded : Bytes) : Nat :=
  let padding := (if encoded.getLast? = some (byte '=') then 1 else 0) +
    (if 1 < encoded.length ∧ encoded[encoded.length - 2]? = some (byte '=') then 1 else 0)
  encoded.length / 4 * 3 - padding

/-! ## Digits -/

theorem decodeDigit_digit {n : Nat} (h : n < 64) : decodeDigit (digit n) = some n := by
  have : ∀ n < 64, decodeDigit (digit n) = some n := by decide +kernel
  exact this n h

theorem decodeDigit_eq_some {c : Byte} {n : Nat} :
    decodeDigit c = some n ↔ n < 64 ∧ c = digit n := by
  refine ⟨fun h => ?_, fun ⟨hn, hc⟩ => hc ▸ decodeDigit_digit hn⟩
  have : ∀ c : Byte, ∀ n ∈ decodeDigit c, n < 64 ∧ c = digit n := by decide +kernel
  exact this c n h

theorem paddedDigit_eq_some {c : Byte} {n : Nat} :
    paddedDigit c = some n ↔ c = byte '=' ∧ n = 0 ∨ n < 64 ∧ c = digit n := by
  unfold paddedDigit
  split
  · rename_i h
    simp only [h, Option.some.injEq, true_and]
    constructor
    · exact fun hn => Or.inl hn.symm
    · rintro (hn | ⟨hn, hc⟩)
      · exact hn.symm
      · exact absurd hc.symm (digit_ne_pad hn)
  · rename_i h
    simp only [h, false_and, false_or, decodeDigit_eq_some]

theorem shiftLeft_or (a : Nat) {b : Nat} (k : Nat) (hb : b < 64) :
    a <<< (6 + k) ||| b <<< k = (a * 64 + b) <<< k := by
  rw [Nat.shiftLeft_add, ← Nat.shiftLeft_or_distrib,
    ← Nat.shiftLeft_add_eq_or_of_lt (show b < 2 ^ 6 from hb), Nat.shiftLeft_eq a]

/-- The four digits of a group as one number. -/
theorem groupBits {a b c d : Nat} (hb : b < 64) (hc : c < 64) (hd : d < 64) :
    a <<< 18 ||| b <<< 12 ||| c <<< 6 ||| d = ((a * 64 + b) * 64 + c) * 64 + d := by
  rw [shiftLeft_or a 12 hb, shiftLeft_or (a * 64 + b) 6 hc]
  exact (shiftLeft_or ((a * 64 + b) * 64 + c) 0 hd).trans (Nat.shiftLeft_zero)

/-! ## Groups -/

section Group
variable {a b c d : Nat} (ha : a < 64) (hb : b < 64)

def firstByte (a b : Nat) : Byte := Fin.ofNat 256 (a * 4 + b / 16)

def secondByte (b c : Nat) : Byte := Fin.ofNat 256 (b * 16 + c / 4)

def thirdByte (c d : Nat) : Byte := Fin.ofNat 256 (c * 64 + d)

theorem paddedDigit_digit {n : Nat} (h : n < 64) : paddedDigit (digit n) = some n := by
  rw [paddedDigit, if_neg (digit_ne_pad h), decodeDigit_digit h]

theorem paddedDigit_pad : paddedDigit (byte '=') = some 0 := rfl

theorem firstByte_eq {c d : Nat} (hc : c < 64) (hd : d < 64) :
    Fin.ofNat 256 ((((a * 64 + b) * 64 + c) * 64 + d) >>> 16) = firstByte a b := by
  rw [Nat.shiftRight_eq_div_pow]
  apply Fin.ext
  simp only [Fin.ofNat, firstByte]
  omega

theorem secondByte_eq {c d : Nat} (hd : d < 64) :
    Fin.ofNat 256 ((((a * 64 + b) * 64 + c) * 64 + d) >>> 8) = secondByte b c := by
  rw [Nat.shiftRight_eq_div_pow]
  apply Fin.ext
  simp only [Fin.ofNat, secondByte]
  omega

theorem thirdByte_eq {c d : Nat} :
    Fin.ofNat 256 (((a * 64 + b) * 64 + c) * 64 + d) = thirdByte c d := by
  apply Fin.ext
  simp only [Fin.ofNat, thirdByte]
  omega

include ha hb in
theorem decodeGroup_three (hc : c < 64) (hd : d < 64) (last : Bool) :
    decodeGroup (digit a) (digit b) (digit c) (digit d) last =
      .ok [firstByte a b, secondByte b c, thirdByte c d] := by
  simp only [decodeGroup, decodeDigit_digit ha, decodeDigit_digit hb, paddedDigit_digit hc,
    paddedDigit_digit hd, groupBits hb hc hd, firstByte_eq hc hd, secondByte_eq hd, thirdByte_eq]
  simp [digit_ne_pad hc, digit_ne_pad hd]

include ha hb in
theorem decodeGroup_two (hc : c < 64) (last : Bool) :
    decodeGroup (digit a) (digit b) (digit c) (byte '=') last =
      if last = true ∧ c % 4 = 0 then .ok [firstByte a b, secondByte b c] else malformedBase64 := by
  have hzero : 0 < 64 := by decide
  have hand : c &&& 3 = c % 4 := Nat.and_two_pow_sub_one_eq_mod c 2
  simp only [decodeGroup, decodeDigit_digit ha, decodeDigit_digit hb, paddedDigit_digit hc,
    paddedDigit_pad, groupBits hb hc hzero, hand,
    firstByte_eq hc hzero, secondByte_eq hzero]
  cases last <;> by_cases hz : c % 4 = 0 <;> simp [hz, digit_ne_pad hc]

include ha hb in
theorem decodeGroup_one (last : Bool) :
    decodeGroup (digit a) (digit b) (byte '=') (byte '=') last =
      if last = true ∧ b % 16 = 0 then .ok [firstByte a b] else malformedBase64 := by
  have hzero : 0 < 64 := by decide
  have hand : b &&& 15 = b % 16 := Nat.and_two_pow_sub_one_eq_mod b 4
  simp only [decodeGroup, decodeDigit_digit ha, decodeDigit_digit hb, paddedDigit_pad,
    groupBits hb hzero hzero, hand, firstByte_eq hzero hzero]
  cases last <;> by_cases hz : b % 16 = 0 <;> simp [hz]

/-- Padding in the third place alone. -/
theorem decodeGroup_inner {c0 c1 : Byte} (hd : d < 64) (last : Bool) :
    decodeGroup c0 c1 (byte '=') (digit d) last = malformedBase64 := by
  unfold decodeGroup
  dsimp only
  split
  · rw [if_pos (Or.inr (Or.inl ⟨rfl, digit_ne_pad hd⟩))]
  · rfl

end Group

theorem firstByte_split (x : Byte) {k : Nat} (hk : k < 16) :
    firstByte (x.val / 4) (x.val % 4 * 16 + k) = x := by
  apply Fin.ext
  simp only [firstByte, Fin.ofNat]
  omega

theorem secondByte_split (m : Nat) (y : Byte) {k : Nat} (hk : k < 4) :
    secondByte (m * 16 + y.val / 16) (y.val % 16 * 4 + k) = y := by
  apply Fin.ext
  simp only [secondByte, Fin.ofNat]
  omega

theorem thirdByte_split (m : Nat) (z : Byte) :
    thirdByte (m * 4 + z.val / 64) (z.val % 64) = z := by
  apply Fin.ext
  simp only [thirdByte, Fin.ofNat]
  omega

theorem decodeGroup_encode {group : Bytes} {c0 c1 c2 c3 : Byte} {last : Bool}
    (h : encode group = [c0, c1, c2, c3]) (hlast : last = true ∨ group.length = 3) :
    decodeGroup c0 c1 c2 c3 last = .ok group := by
  rcases group with _ | ⟨x, _ | ⟨y, _ | ⟨z, rest⟩⟩⟩
  · cases h
  · simp only [encode, List.cons.injEq] at h
    obtain ⟨rfl, rfl, rfl, rfl, -⟩ := h
    have hx : firstByte (x.val / 4) (x.val % 4 * 16) = x :=
      firstByte_split x (k := 0) (by decide)
    rw [decodeGroup_one (by omega) (by omega), if_pos ⟨by simpa using hlast, by omega⟩, hx]
  · simp only [encode, List.cons.injEq] at h
    obtain ⟨rfl, rfl, rfl, rfl, -⟩ := h
    have hy : secondByte (x.val % 4 * 16 + y.val / 16) (y.val % 16 * 4) = y :=
      secondByte_split (x.val % 4) y (k := 0) (by decide)
    have hx := firstByte_split x (k := y.val / 16) (by omega)
    rw [decodeGroup_two (by omega) (by omega) (by omega),
      if_pos ⟨by simpa using hlast, by omega⟩, hx, hy]
  · simp only [encode, List.cons_append, List.nil_append, List.cons.injEq] at h
    obtain ⟨rfl, rfl, rfl, rfl, hrest⟩ := h
    have hx := firstByte_split x (k := y.val / 16) (by omega)
    have hy := secondByte_split (x.val % 4) y (k := z.val / 64) (by omega)
    rw [encode_eq_nil.mp hrest, decodeGroup_three (by omega) (by omega) (by omega) (by omega),
      hx, hy, thirdByte_split]

theorem firstByte_val {a b : Nat} (ha : a < 64) (hb : b < 64) :
    (firstByte a b).val = a * 4 + b / 16 := by
  simp only [firstByte, Fin.ofNat]
  omega

theorem secondByte_val (b : Nat) {c : Nat} (hc : c < 64) :
    (secondByte b c).val = b % 16 * 16 + c / 4 := by
  simp only [secondByte, Fin.ofNat]
  omega

theorem thirdByte_val (c : Nat) {d : Nat} (hd : d < 64) :
    (thirdByte c d).val = c % 4 * 64 + d := by
  simp only [thirdByte, Fin.ofNat]
  omega

theorem encode_one {a b : Nat} (ha : a < 64) (hb : b < 64) (hz : b % 16 = 0) :
    encode [firstByte a b] = [digit a, digit b, byte '=', byte '='] := by
  rw [encode, firstByte_val ha hb, show (a * 4 + b / 16) / 4 = a by omega,
    show (a * 4 + b / 16) % 4 * 16 = b by omega]

theorem encode_two {a b c : Nat} (ha : a < 64) (hb : b < 64) (hc : c < 64) (hz : c % 4 = 0) :
    encode [firstByte a b, secondByte b c] = [digit a, digit b, digit c, byte '='] := by
  rw [encode, firstByte_val ha hb, secondByte_val b hc, show (a * 4 + b / 16) / 4 = a by omega,
    show (a * 4 + b / 16) % 4 * 16 + (b % 16 * 16 + c / 4) / 16 = b by omega,
    show (b % 16 * 16 + c / 4) % 16 * 4 = c by omega]

theorem encode_three {a b c d : Nat} (ha : a < 64) (hb : b < 64) (hc : c < 64) (hd : d < 64) :
    encode [firstByte a b, secondByte b c, thirdByte c d] =
      [digit a, digit b, digit c, digit d] := by
  rw [encode, firstByte_val ha hb, secondByte_val b hc, thirdByte_val c hd,
    show (a * 4 + b / 16) / 4 = a by omega,
    show (a * 4 + b / 16) % 4 * 16 + (b % 16 * 16 + c / 4) / 16 = b by omega,
    show (b % 16 * 16 + c / 4) % 16 * 4 + (c % 4 * 64 + d) / 64 = c by omega,
    show (c % 4 * 64 + d) % 64 = d by omega]
  rfl

/-- A group that is accepted is the encoding of its bytes. -/
theorem decodeGroup_sound {c0 c1 c2 c3 : Byte} {last : Bool} {group : Bytes}
    (h : decodeGroup c0 c1 c2 c3 last = .ok group) :
    encode group = [c0, c1, c2, c3] ∧ (last = true ∨ group.length = 3) := by
  have hdigits : ∃ a b c d, decodeDigit c0 = some a ∧ decodeDigit c1 = some b ∧
      paddedDigit c2 = some c ∧ paddedDigit c3 = some d := by
    unfold decodeGroup at h
    dsimp only at h
    split at h
    · exact ⟨_, _, _, _, ‹_›, ‹_›, ‹_›, ‹_›⟩
    · cases h
  obtain ⟨a, b, c, d, hda, hdb, hdc, hdd⟩ := hdigits
  obtain ⟨ha, rfl⟩ := decodeDigit_eq_some.mp hda
  obtain ⟨hb, rfl⟩ := decodeDigit_eq_some.mp hdb
  rcases paddedDigit_eq_some.mp hdc with ⟨rfl, rfl⟩ | ⟨hc, rfl⟩
  · rcases paddedDigit_eq_some.mp hdd with ⟨rfl, rfl⟩ | ⟨hd, rfl⟩
    · rw [decodeGroup_one ha hb] at h
      split at h
      · rename_i hlast
        cases h
        exact ⟨encode_one ha hb hlast.2, Or.inl hlast.1⟩
      · cases h
    · rw [decodeGroup_inner hd] at h
      cases h
  · rcases paddedDigit_eq_some.mp hdd with ⟨rfl, rfl⟩ | ⟨hd, rfl⟩
    · rw [decodeGroup_two ha hb hc] at h
      split at h
      · rename_i hlast
        cases h
        exact ⟨encode_two ha hb hc hlast.2, Or.inl hlast.1⟩
      · cases h
    · rw [decodeGroup_three ha hb hc hd] at h
      cases h
      exact ⟨encode_three ha hb hc hd, Or.inr rfl⟩

theorem decodeGroup_eq_ok {c0 c1 c2 c3 : Byte} {last : Bool} {group : Bytes} :
    decodeGroup c0 c1 c2 c3 last = .ok group ↔
      encode group = [c0, c1, c2, c3] ∧ (last = true ∨ group.length = 3) :=
  ⟨decodeGroup_sound, fun h => decodeGroup_encode h.1 h.2⟩

/-! ## The whole text -/

theorem encode_append {group rest : Bytes} (h : group.length = 3) :
    encode (group ++ rest) = encode group ++ encode rest := by
  obtain ⟨x, y, z, rfl⟩ := List.length_eq_three.mp h
  simp [encode]

theorem encode_take_drop {b : Bytes} (h : b ≠ []) :
    encode b = encode (b.take 3) ++ encode (b.drop 3) ∧ (encode (b.take 3)).length = 4 := by
  have hpos := List.length_pos_of_ne_nil h
  constructor
  · by_cases hlength : 3 ≤ b.length
    · rw [← encode_append (by rw [List.length_take]; omega), List.take_append_drop]
    · rw [List.take_of_length_le (by omega), List.drop_eq_nil_of_le (by omega), encode,
        List.append_nil]
  · rw [encode_length, List.length_take]
    omega

theorem encode_eq_cons {b : Bytes} (h : b ≠ []) :
    ∃ c0 c1 c2 c3 rest, encode b = c0 :: c1 :: c2 :: c3 :: rest := by
  obtain ⟨hsplit, hlength⟩ := encode_take_drop h
  obtain ⟨c0, c1, c2, c3, he⟩ := List.length_eq_four.mp hlength
  exact ⟨c0, c1, c2, c3, _, by rw [hsplit, he]; rfl⟩

theorem decodeGroups_eq_ok {decoded encoded result : Bytes} :
    decodeGroups decoded encoded = .ok result ↔
      ∃ b, result = decoded ++ b ∧ encoded = encode b := by
  induction decoded, encoded using decodeGroups.induct with
  | case1 decoded c0 c1 c2 c3 rest ih =>
    simp only [decodeGroups, bind_eq_ok, ih, decodeGroup_eq_ok, decide_eq_true_eq]
    constructor
    · rintro ⟨group, ⟨hgroup, hlast⟩, b, rfl, rfl⟩
      refine ⟨group ++ b, by rw [List.append_assoc], ?_⟩
      rcases hlast with hnil | hlength
      · rw [encode_eq_nil.mp hnil, List.append_nil, hgroup]
        rfl
      · rw [encode_append hlength, hgroup]
        rfl
    · rintro ⟨b, rfl, hencode⟩
      have hne : b ≠ [] := by
        rintro rfl
        cases hencode
      obtain ⟨hsplit, hlength⟩ := encode_take_drop hne
      rw [hsplit] at hencode
      obtain ⟨hgroup, hrest⟩ := List.append_inj (show [c0, c1, c2, c3] ++ rest = _ from hencode)
        hlength.symm
      refine ⟨b.take 3, ⟨hgroup.symm, ?_⟩, b.drop 3, ?_, hrest⟩
      · rw [hrest, encode_eq_nil, List.drop_eq_nil_iff, List.length_take]
        omega
      · rw [List.append_assoc, List.take_append_drop]
  | case2 decoded =>
    simp only [decodeGroups, Except.ok.injEq, eq_comm (a := ([] : Bytes)), encode_eq_nil]
    constructor
    · rintro rfl
      exact ⟨[], (List.append_nil _).symm, rfl⟩
    · rintro ⟨b, rfl, rfl⟩
      exact (List.append_nil _).symm
  | case3 encoded decoded hcons hnil =>
    constructor
    · intro h
      rw [decodeGroups] at h
      · cases h
      · exact hcons
      · exact hnil
    · rintro ⟨b, -, rfl⟩
      exfalso
      obtain ⟨c0, c1, c2, c3, rest, he⟩ := encode_eq_cons fun (hb : b = []) => hnil (by rw [hb]; rfl)
      exact hcons c0 c1 c2 c3 rest he

theorem decodeBase64_eq_ok {encoded b : Bytes} :
    decodeBase64 encoded = .ok b ↔ b ≠ [] ∧ encoded = encode b := by
  unfold decodeBase64
  split
  · rename_i h
    simp only [malformedBase64, requestError, reduceCtorEq, false_iff, not_and]
    rintro hb rfl
    have := encode_length b
    have := List.length_pos_of_ne_nil hb
    rw [encode_eq_nil] at h
    rcases h with h | h
    · exact hb h
    · omega
  · rename_i h
    simp only [decodeGroups_eq_ok, List.nil_append, exists_eq_left']
    refine ⟨fun he => ⟨?_, he⟩, fun he => he.2⟩
    rintro rfl
    exact h (Or.inl he)

/-- Every error is the one for malformed data. -/
theorem decodeGroup_error (c0 c1 c2 c3 : Byte) (last : Bool) :
    (∃ group, decodeGroup c0 c1 c2 c3 last = .ok group) ∨
      decodeGroup c0 c1 c2 c3 last = malformedBase64 := by
  unfold decodeGroup
  dsimp only
  split
  · split
    · exact Or.inr rfl
    · exact Or.inl ⟨_, rfl⟩
  · exact Or.inr rfl

theorem decodeGroups_error {decoded encoded : Bytes} (h : encoded.length % 4 = 0) :
    (∃ b, decodeGroups decoded encoded = .ok b) ∨
      decodeGroups decoded encoded = malformedBase64 := by
  induction decoded, encoded using decodeGroups.induct with
  | case1 decoded c0 c1 c2 c3 rest ih =>
    rw [decodeGroups]
    rcases decodeGroup_error c0 c1 c2 c3 (rest = []) with ⟨group, he⟩ | he
    · rw [he]
      exact ih group (by simp only [List.length_cons] at h; omega)
    · rw [he]
      exact Or.inr rfl
  | case2 decoded => exact Or.inl ⟨decoded, rfl⟩
  | case3 encoded decoded hcons hnil =>
    rcases encoded with _ | ⟨c0, _ | ⟨c1, _ | ⟨c2, _ | ⟨c3, rest⟩⟩⟩⟩
    · exact absurd rfl hnil
    · simp at h
    · simp at h
    · simp at h
    · exact absurd rfl (hcons c0 c1 c2 c3 rest)

theorem decodeBase64_error (encoded : Bytes) :
    (∃ b, decodeBase64 encoded = .ok b) ∨ decodeBase64 encoded = malformedBase64 := by
  unfold decodeBase64
  split
  · exact Or.inr rfl
  · rename_i h
    exact decodeGroups_error (not_not.mp (not_or.mp h).2)

/-- Where the encoding is padded. -/
theorem encode_padding {b : Bytes} (h : b ≠ []) :
    ((encode b).getLast? = some (byte '=') ↔ b.length % 3 ≠ 0) ∧
    ((encode b)[(encode b).length - 2]? = some (byte '=') ↔ b.length % 3 = 1) := by
  induction b using encode.induct with
  | case1 => exact absurd rfl h
  | case2 x => simp [encode]
  | case3 x y => simp [encode, digit_ne_pad (show y.val % 16 * 4 < 64 by omega)]
  | case4 x y z rest ih =>
    by_cases hrest : rest = []
    · have hc : y.val % 16 * 4 + z.val / 64 < 64 := by omega
      simp [encode, hrest, digit_ne_pad hc, digit_ne_pad (Nat.mod_lt z.val (show 0 < 64 by decide))]
    · obtain ⟨hlast, hsecond⟩ := ih hrest
      have hlength := encode_length rest
      have hpos := List.length_pos_of_ne_nil hrest
      have hmod : (x :: y :: z :: rest).length % 3 = rest.length % 3 := by
        simp only [List.length_cons]
        omega
      rw [hmod, ← hlast, ← hsecond, encode, List.getLast?_append_of_ne_nil _ (by simpa [encode_eq_nil]),
        List.length_append, List.getElem?_append_right (by simp only [List.length_cons]; omega)]
      have hindex : ∀ n m : Nat, n + m - 2 - n = m - 2 := by omega
      rw [hindex]
      exact ⟨Iff.rfl, Iff.rfl⟩

theorem reservedLength_encode {b : Bytes} (h : b ≠ []) : reservedLength (encode b) = b.length := by
  obtain ⟨hlast, hsecond⟩ := encode_padding h
  have hlength := encode_length b
  have hpos := List.length_pos_of_ne_nil h
  have hone : 1 < (encode b).length := by omega
  simp only [reservedLength, hlast, hsecond, hone, true_and]
  rw [hlength]
  split_ifs <;> omega

/-- `decode_base64` is the inverse of the canonical encoding: it accepts a text exactly
if it is the encoding of a nonempty byte string, which it then returns in a buffer of
the reserved length, and rejects every other text as a malformed image. -/
theorem decodeBase64_inverse (encoded : Bytes) :
    (∀ b, decodeBase64 encoded = .ok b ↔ b ≠ [] ∧ encoded = encode b) ∧
    (∀ b, decodeBase64 encoded = .ok b → encode b = encoded ∧ reservedLength encoded = b.length) ∧
    (∀ b, b ≠ [] → decodeBase64 (encode b) = .ok b) ∧
    ((¬∃ b, b ≠ [] ∧ encoded = encode b) → decodeBase64 encoded =
      requestError "invalid_image" (bytes "image data_base64 is malformed")) := by
  refine ⟨fun _ => decodeBase64_eq_ok, fun b h => ?_, fun b h => ?_, fun h => ?_⟩
  · obtain ⟨hne, rfl⟩ := decodeBase64_eq_ok.mp h
    exact ⟨rfl, reservedLength_encode hne⟩
  · exact decodeBase64_eq_ok.mpr ⟨h, rfl⟩
  · rcases decodeBase64_error encoded with ⟨b, he⟩ | he
    · exact absurd ⟨b, decodeBase64_eq_ok.mp he⟩ h
    · exact he

example : decodeBase64 (bytes "AAH/") = .ok [0, 1, 255] := by decide +kernel

end Branchscore.Systemone
