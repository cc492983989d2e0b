import Branchscore.Foundation.Sha2
import Branchscore.PromptRenderer

/-! The prompt identity against the standard's hash. -/

namespace Branchscore

open Foundation
set_option autoImplicit false

namespace Sha256

/-! ## One block -/

theorem constants_eq : constants = Sha2.constants := by
  rw [Sha2.constants, Sha2.primes_eq]
  decide +kernel

theorem initial_eq : ({} : Sha256).state = Sha2.initial := by
  rw [Sha2.initial, Sha2.primes_eq]
  decide +kernel

theorem rotateRight_eq (value : Word) {count : Nat} (h : count < 32) :
    rotateRight value count = value.rotateRight count := by
  rw [BitVec.rotateRight_eq_rotateRightAux_of_lt h]
  rfl

/-- Bytes shifted into disjoint places are added. -/
theorem shifted_eq {x y z w : Nat} (hx : x < 256) (hy : y < 256) (hz : z < 256) (hw : w < 256) :
    BitVec.ofNat 32 x <<< 24 ||| BitVec.ofNat 32 y <<< 16 ||| BitVec.ofNat 32 z <<< 8 |||
      BitVec.ofNat 32 w = BitVec.ofNat 32 (((x * 256 + y) * 256 + z) * 256 + w) := by
  have hplace : ∀ n k, n < 256 → k ≤ 24 →
      (BitVec.ofNat 32 n <<< k).toNat = 2 ^ k * n := by
    intro n k hn hk
    have hpow : 2 ^ k ≤ 2 ^ 24 := Nat.pow_le_pow_right (by omega) hk
    have hlt : 2 ^ k * n < 2 ^ 32 :=
      calc 2 ^ k * n ≤ 2 ^ 24 * n := Nat.mul_le_mul_right n hpow
        _ < 2 ^ 32 := by omega
    rw [BitVec.toNat_shiftLeft, BitVec.toNat_ofNat, Nat.shiftLeft_eq,
      Nat.mod_eq_of_lt (by omega : n < 2 ^ 32), Nat.mul_comm, Nat.mod_eq_of_lt hlt]
  apply BitVec.eq_of_toNat_eq
  rw [BitVec.toNat_or, BitVec.toNat_or, BitVec.toNat_or, hplace x 24 hx (by omega),
    hplace y 16 hy (by omega), hplace z 8 hz (by omega), BitVec.toNat_ofNat, BitVec.toNat_ofNat,
    ← Nat.two_pow_add_eq_or_of_lt (by omega : 2 ^ 16 * y < 2 ^ 24),
    show 2 ^ 24 * x + 2 ^ 16 * y = 2 ^ 16 * (256 * x + y) by omega,
    ← Nat.two_pow_add_eq_or_of_lt (by omega : 2 ^ 8 * z < 2 ^ 16),
    show 2 ^ 16 * (256 * x + y) + 2 ^ 8 * z = 2 ^ 8 * ((256 * x + y) * 256 + z) by omega,
    Nat.mod_eq_of_lt (by omega : w < 2 ^ 32), ← Nat.two_pow_add_eq_or_of_lt hw]
  omega

theorem word_eq (buffer : Bytes) (i : Nat) : word buffer i = Sha2.wordAt buffer i := by
  simp only [word, Sha2.wordAt, List.range_succ, List.range_zero, List.nil_append,
    List.foldl_append, List.foldl_cons, List.foldl_nil, Nat.zero_mul, Nat.zero_add]
  exact shifted_eq (Fin.isLt _) (Fin.isLt _) (Fin.isLt _) (Fin.isLt _)

/-- The words the schedule has after some steps. -/
theorem schedule_iterate (buffer : Bytes) (n : Nat) :
    schedule^[n] ((List.range 16).map (word buffer)) =
      (List.range (16 + n)).map (Sha2.messageSchedule (Sha2.wordAt buffer)) := by
  induction n with
  | zero =>
    apply List.map_congr_left
    intro t ht
    rw [word_eq, Sha2.messageSchedule_lt _ (List.mem_range.mp ht)]
  | succ n ih =>
    have hget : ∀ t < 16 + n, ((List.range (16 + n)).map
        (Sha2.messageSchedule (Sha2.wordAt buffer))).getD t 0 =
          Sha2.messageSchedule (Sha2.wordAt buffer) t := by
      intro t ht
      rw [List.getD_eq_getElem _ _ (by simpa using ht)]
      simp
    rw [Function.iterate_succ_apply', ih, ← Nat.add_assoc, List.range_succ, List.map_append]
    simp only [schedule, List.length_map, List.length_range, List.map_cons, List.map_nil]
    rw [hget _ (by omega), hget _ (by omega), hget _ (by omega), hget _ (by omega),
      Nat.add_comm 16 n, Sha2.messageSchedule_add, rotateRight_eq _ (by omega),
      rotateRight_eq _ (by omega), rotateRight_eq _ (by omega), rotateRight_eq _ (by omega)]
    simp only [Nat.add_sub_cancel, Nat.reduceSubDiff, Sha2.smallSigma0, Sha2.smallSigma1]
    ac_rfl

def toRegisters (r : Registers) : Sha2.Registers := ⟨r.a, r.b, r.c, r.d, r.e, r.f, r.g, r.h⟩

theorem words_toRegisters (r : Registers) :
    (toRegisters r).words = [r.a, r.b, r.c, r.d, r.e, r.f, r.g, r.h] := rfl

theorem toRegisters_round (r : Registers) (p : Word × Word) :
    toRegisters (round r p) = (toRegisters r).round p.1 p.2 := by
  simp only [toRegisters, round, Sha2.Registers.round, rotateRight_eq _ (by decide : 2 < 32),
    rotateRight_eq _ (by decide : 6 < 32), rotateRight_eq _ (by decide : 11 < 32),
    rotateRight_eq _ (by decide : 13 < 32), rotateRight_eq _ (by decide : 22 < 32),
    rotateRight_eq _ (by decide : 25 < 32), Sha2.bigSigma0, Sha2.bigSigma1, Sha2.ch, Sha2.maj]

theorem toRegisters_foldl (l : List (Word × Word)) (r : Registers) :
    toRegisters (l.foldl round r) =
      l.foldl (fun (r : Sha2.Registers) p => r.round p.1 p.2) (toRegisters r) := by
  induction l generalizing r with
  | nil => rfl
  | cons p l ih => rw [List.foldl_cons, List.foldl_cons, ih, toRegisters_round]

theorem ofWords_eq (s : List Word) :
    Sha2.Registers.ofWords s = toRegisters ⟨s.getD 0 0, s.getD 1 0, s.getD 2 0, s.getD 3 0,
      s.getD 4 0, s.getD 5 0, s.getD 6 0, s.getD 7 0⟩ := rfl

theorem transform_state (hash : Sha256) :
    hash.transform.state = Sha2.compress hash.state (Sha2.wordAt hash.buffer) := by
  simp only [transform, schedule_iterate, constants_eq, Sha2.compress, Nat.reduceAdd]
  rw [ofWords_eq, ← toRegisters_foldl, words_toRegisters]

@[simp] theorem transform_buffer (hash : Sha256) : hash.transform.buffer = [] := rfl

@[simp] theorem transform_bitCount (hash : Sha256) :
    hash.transform.bitCount = hash.bitCount := rfl

/-! ## The stream -/

/-- The state is the chain over the whole blocks of `p` and the buffer holds the rest. -/
def Absorbed (hash : Sha256) (p : Bytes) : Prop :=
  hash.state = Sha2.chain p (p.length / 64) ∧ hash.buffer = p.drop (64 * (p.length / 64))

theorem absorbed_nil : Absorbed {} [] := ⟨initial_eq, rfl⟩

theorem Absorbed.pushByte {hash : Sha256} {p : Bytes} (h : Absorbed hash p) (b : Byte) :
    Absorbed (hash.pushByte b) (p ++ [b]) := by
  obtain ⟨hstate, hbuffer⟩ := h
  have hle : 64 * (p.length / 64) ≤ p.length := by omega
  have hfull : (p ++ [b]).drop (64 * (p.length / 64)) = hash.buffer ++ [b] := by
    rw [List.drop_append_of_le_length hle, hbuffer]
  have hlen : (hash.buffer ++ [b]).length = p.length + 1 - 64 * (p.length / 64) := by
    rw [← hfull, List.length_drop, List.length_append, List.length_singleton]
  have hplen : (p ++ [b]).length = p.length + 1 := by simp
  rw [Sha256.pushByte]
  by_cases h64 : (hash.buffer ++ [b]).length = 64
  · rw [if_pos h64]
    have hdiv : (p ++ [b]).length / 64 = p.length / 64 + 1 := by omega
    constructor
    · rw [transform_state, hdiv, Sha2.chain, Sha2.chain_append hle, ← hstate]
      apply Sha2.compress_congr
      intro t _
      rw [← hfull, show 64 * (p.length / 64) = 4 * (16 * (p.length / 64)) by omega,
        Sha2.wordAt_drop]
      rfl
    · rw [transform_buffer, hdiv, List.drop_of_length_le (by omega)]
  · rw [if_neg h64]
    have hdiv : (p ++ [b]).length / 64 = p.length / 64 := by omega
    constructor
    · rw [hdiv, Sha2.chain_append hle, ← hstate]
    · rw [hdiv, hfull]

theorem Absorbed.foldl {hash : Sha256} {p : Bytes} (h : Absorbed hash p) (input : Bytes) :
    Absorbed (input.foldl Sha256.pushByte hash) (p ++ input) := by
  induction input generalizing hash p with
  | nil => simpa using h
  | cons b input ih =>
    have hrest := ih (h.pushByte b)
    rwa [List.append_assoc, List.singleton_append] at hrest

theorem foldl_pushByte_bitCount (input : Bytes) (hash : Sha256) :
    (input.foldl pushByte hash).bitCount = hash.bitCount := by
  induction input generalizing hash with
  | nil => rfl
  | cons b input ih =>
    rw [List.foldl_cons, ih, pushByte]
    by_cases h : (hash.buffer ++ [b]).length = 64
    · rw [if_pos h, transform_bitCount]
    · rw [if_neg h]

theorem Absorbed.update {hash : Sha256} {p : Bytes} (h : Absorbed hash p) (input : Bytes) :
    Absorbed (hash.update input) (p ++ input) := h.foldl input

theorem update_bitCount (hash : Sha256) (input : Bytes) :
    (hash.update input).bitCount = hash.bitCount + BitVec.ofNat 64 (input.length * 8) := by
  rw [update, foldl_pushByte_bitCount]

/-- Updates depend on the concatenation of their inputs only. -/
theorem absorbed_updates (chunks : List Bytes) {hash : Sha256} {p : Bytes}
    (h : Absorbed hash p) (hcount : hash.bitCount = BitVec.ofNat 64 (8 * p.length)) :
    Absorbed (chunks.foldl Sha256.update hash) (p ++ chunks.flatten) ∧
      (chunks.foldl Sha256.update hash).bitCount =
        BitVec.ofNat 64 (8 * (p ++ chunks.flatten).length) := by
  induction chunks generalizing hash p with
  | nil => simpa using ⟨h, hcount⟩
  | cons input chunks ih =>
    have hbits : (hash.update input).bitCount = BitVec.ofNat 64 (8 * (p ++ input).length) := by
      rw [update_bitCount, hcount, ← BitVec.ofNat_add, List.length_append, Nat.mul_add,
        Nat.mul_comm input.length]
    have hrest := ih (h.update input) hbits
    rwa [List.append_assoc] at hrest

/-! ## The end of the stream -/

theorem foldl_pushByte_short {hash : Sha256} {input : Bytes}
    (h : hash.buffer.length + input.length < 64) :
    input.foldl pushByte hash = { hash with buffer := hash.buffer ++ input } := by
  induction input generalizing hash with
  | nil => rw [List.append_nil, List.foldl_nil]
  | cons b input ih =>
    rw [List.length_cons] at h
    have hlen : (hash.buffer ++ [b]).length = hash.buffer.length + 1 := by simp
    have hpush : hash.pushByte b = { hash with buffer := hash.buffer ++ [b] } := by
      rw [pushByte, if_neg (by simp only [hlen]; omega)]
    rw [List.foldl_cons, hpush, ih (by simp only [hlen]; omega)]
    simp only [List.append_assoc, List.singleton_append]

theorem foldl_pushByte_full {hash : Sha256} {input : Bytes} (hne : input ≠ [])
    (h : hash.buffer.length + input.length = 64) :
    input.foldl pushByte hash = transform { hash with buffer := hash.buffer ++ input } := by
  obtain ⟨init, b, rfl⟩ : ∃ init b, input = init ++ [b] :=
    ⟨_, _, (List.dropLast_append_getLast hne).symm⟩
  rw [List.length_append, List.length_singleton] at h
  have hlast : ∀ buffer : Bytes, buffer.length = hash.buffer.length + init.length →
      (buffer ++ [b]).length = 64 := by
    intro buffer hb
    rw [List.length_append, List.length_singleton]
    omega
  have hshort := foldl_pushByte_short (by omega : hash.buffer.length + init.length < 64)
  rw [List.foldl_append, hshort, List.foldl_cons, List.foldl_nil, pushByte]
  rw [if_pos (hlast _ (List.length_append ..)), List.append_assoc]

def digits (hash : Sha256) : Bytes :=
  (List.range 8).map fun i => Fin.ofNat 256 (hash.bitCount.toNat / 256 ^ (7 - i))

/-- The zeros before the count, the count and the last block. -/
def close (hash : Sha256) : Bytes :=
  let hash := hash.fill 56
  let hash := { hash with buffer := hash.buffer ++ hash.digits }.transform
  hash.state.flatMap hexWord

theorem finish_eq_close (hash : Sha256) :
    hash.finish =
      if 56 < (hash.buffer ++ [0x80]).length then
        ({ hash with buffer := hash.buffer ++ [0x80] }.fill 64).transform.close
      else { hash with buffer := hash.buffer ++ [0x80] }.close := by
  rw [← apply_ite close]
  rfl

/-- Padding is absorbed as any other input is. -/
theorem finish_eq {hash : Sha256} {p : Bytes} (h : Absorbed hash p)
    (hcount : hash.bitCount.toNat = 8 * p.length) :
    hash.finish = ((Sha2.padding p.length).foldl pushByte hash).state.flatMap hexWord := by
  have hn : hash.buffer.length = p.length % 64 := by
    rw [h.2, List.length_drop]
    omega
  have hlen : (hash.buffer ++ [0x80]).length = p.length % 64 + 1 := by simp [hn]
  have hdigits : (List.range 8).map
      (fun i => Fin.ofNat 256 (hash.bitCount.toNat / 256 ^ (7 - i))) =
        Sha2.bigEndian 8 (8 * p.length) := by
    rw [hcount]
    rfl
  have hmod : p.length % 64 < 64 := Nat.mod_lt _ (by omega)
  by_cases hbig : 56 < p.length % 64 + 1
  · have hfill : 64 - (p.length % 64 + 1) = 63 - p.length % 64 := by omega
    have hzeros : List.replicate ((119 - p.length % 64) % 64) (0 : Byte) =
        List.replicate (63 - p.length % 64) 0 ++ List.replicate 56 0 := by
      rw [← List.replicate_add]
      congr 1
      omega
    have hfirst : hash.buffer.length +
        ([0x80] ++ List.replicate (63 - p.length % 64) (0 : Byte)).length = 64 := by
      rw [hn, List.length_append, List.length_singleton, List.length_replicate]
      omega
    rw [Sha2.padding, hzeros, ← List.append_assoc, List.append_assoc _ (List.replicate 56 0),
      List.foldl_append, foldl_pushByte_full (by simp) hfirst,
      foldl_pushByte_full (by simp) (by simp)]
    simp only [finish, fill, hlen, if_pos hbig, transform_buffer, transform_bitCount, hdigits,
      List.length_nil, List.nil_append, hfill, Nat.sub_zero, List.append_assoc]
  · have hfill : 56 - (p.length % 64 + 1) = (119 - p.length % 64) % 64 := by omega
    rw [Sha2.padding, foldl_pushByte_full (by simp) (by simp [hn]; omega)]
    simp only [finish, fill, hlen, if_neg hbig, hdigits, hfill, List.append_assoc]

theorem hexWord_eq (w : Word) : hexWord w = Sha2.hex (Sha2.bigEndian 4 w.toNat) := by
  simp only [hexWord, Sha2.hex, Sha2.bigEndian, Sha2.hexDigit, List.range_succ, List.range_zero,
    List.nil_append, List.map_cons, List.map_nil, List.cons_append, List.flatMap_cons,
    List.flatMap_nil, List.append_nil, Fin.val_ofNat, Nat.reduceSub, Nat.reducePow, Nat.div_one,
    List.cons.injEq, and_true]
  refine ⟨?_, ?_, ?_, ?_, ?_, ?_, ?_, ?_⟩ <;>
  · congr 1
    omega

theorem hex_flatMap (words : List Word) (f : Word → Bytes) :
    Sha2.hex (words.flatMap f) = words.flatMap fun w => Sha2.hex (f w) :=
  List.flatMap_assoc

theorem finish_absorbed {hash : Sha256} {p : Bytes} (h : Absorbed hash p)
    (hcount : hash.bitCount = BitVec.ofNat 64 (8 * p.length)) (hsize : p.length < 2 ^ 61) :
    hash.finish = Sha2.hex (Sha2.digest p) := by
  have hbits : hash.bitCount.toNat = 8 * p.length := by
    rw [hcount, BitVec.toNat_ofNat, Nat.mod_eq_of_lt (by omega)]
  have hpad := (h.foldl (Sha2.padding p.length)).1
  rw [finish_eq h hbits, hpad, Sha2.digest, hex_flatMap]
  apply List.flatMap_congr
  intro w _
  exact hexWord_eq w

/-! ## The buffer index -/

/-- `buffer_[buffer_size_++] = b`, undefined when the index is past the array. -/
def put (hash : Sha256) (b : Byte) : Option Sha256 :=
  if hash.buffer.length < 64 then some { hash with buffer := hash.buffer ++ [b] } else none

def checkedPushByte (hash : Sha256) (b : Byte) : Option Sha256 := do
  let hash ← hash.put b
  return if hash.buffer.length = 64 then hash.transform else hash

def checkedUpdate (hash : Sha256) (input : Bytes) : Option Sha256 := do
  let hash ← input.foldlM checkedPushByte hash
  return { hash with bitCount := hash.bitCount + BitVec.ofNat 64 (input.length * 8) }

def checkedFill (hash : Sha256) (size : Nat) : Option Sha256 :=
  (List.replicate (size - hash.buffer.length) 0).foldlM put hash

def checkedClose (hash : Sha256) : Option Bytes := do
  let hash ← hash.checkedFill 56
  let hash ← hash.digits.foldlM put hash
  return hash.transform.state.flatMap hexWord

def checkedFinish (hash : Sha256) : Option Bytes := do
  let hash ← hash.put 0x80
  if 56 < hash.buffer.length then
    let hash ← hash.checkedFill 64
    hash.transform.checkedClose
  else hash.checkedClose

theorem put_eq {hash : Sha256} (h : hash.buffer.length < 64) (b : Byte) :
    hash.put b = some { hash with buffer := hash.buffer ++ [b] } := if_pos h

theorem checkedPushByte_eq {hash : Sha256} (h : hash.buffer.length < 64) (b : Byte) :
    hash.checkedPushByte b = some (hash.pushByte b) := by
  rw [checkedPushByte, put_eq h]
  rfl

theorem foldlM_put {hash : Sha256} {input : Bytes} (h : hash.buffer.length + input.length ≤ 64) :
    input.foldlM put hash = some { hash with buffer := hash.buffer ++ input } := by
  induction input generalizing hash with
  | nil => rw [List.append_nil, List.foldlM_nil]; rfl
  | cons b input ih =>
    rw [List.length_cons] at h
    rw [List.foldlM_cons, put_eq (by omega), Option.bind_eq_bind, Option.bind_some,
      ih (by simp only [List.length_append, List.length_singleton]; omega)]
    simp only [List.append_assoc, List.singleton_append]

theorem checkedFill_eq {hash : Sha256} {size : Nat} (h : hash.buffer.length ≤ 64)
    (hsize : size ≤ 64) : hash.checkedFill size = some (hash.fill size) :=
  foldlM_put (by rw [List.length_replicate]; omega)

theorem pushByte_lt {hash : Sha256} (h : hash.buffer.length < 64) (b : Byte) :
    (hash.pushByte b).buffer.length < 64 := by
  have hlen : (hash.buffer ++ [b]).length = hash.buffer.length + 1 := by simp
  rw [pushByte]
  by_cases h64 : (hash.buffer ++ [b]).length = 64
  · rw [if_pos h64, transform_buffer]
    exact Nat.zero_lt_succ _
  · rw [if_neg h64]
    simp only [hlen] at h64 ⊢
    omega

theorem checkedUpdate_eq {hash : Sha256} (h : hash.buffer.length < 64) (input : Bytes) :
    hash.checkedUpdate input = some (hash.update input) ∧
      (hash.update input).buffer.length < 64 := by
  have hrun : input.foldlM checkedPushByte hash = some (input.foldl pushByte hash) ∧
      (input.foldl pushByte hash).buffer.length < 64 := by
    induction input generalizing hash with
    | nil => exact ⟨rfl, h⟩
    | cons b input ih =>
      rw [List.foldlM_cons, checkedPushByte_eq h]
      exact ih (pushByte_lt h b)
  rw [checkedUpdate, hrun.1]
  exact ⟨rfl, hrun.2⟩

theorem fill_length {hash : Sha256} {size : Nat} (h : hash.buffer.length ≤ size) :
    (hash.fill size).buffer.length = size := by
  rw [fill, List.length_append, List.length_replicate]
  omega

theorem checkedClose_eq {hash : Sha256} (h : hash.buffer.length ≤ 56) :
    hash.checkedClose = some hash.close := by
  rw [checkedClose, checkedFill_eq (by omega) (by omega), Option.bind_eq_bind, Option.bind_some,
    foldlM_put (by rw [fill_length h, digits, List.length_map, List.length_range])]
  rfl

theorem checkedFinish_eq {hash : Sha256} (h : hash.buffer.length < 64) :
    hash.checkedFinish = some hash.finish := by
  have hlen : (hash.buffer ++ [0x80]).length = hash.buffer.length + 1 := by simp
  rw [checkedFinish, finish_eq_close, put_eq h, Option.bind_eq_bind, Option.bind_some]
  by_cases hbig : 56 < (hash.buffer ++ [0x80]).length
  · rw [if_pos hbig, if_pos hbig, checkedFill_eq (by simp only [hlen]; omega) (by omega),
      Option.bind_some, checkedClose_eq]
    rw [transform_buffer]
    exact Nat.zero_le _
  · rw [if_neg hbig, if_neg hbig, checkedClose_eq (by simp only [hlen] at hbig ⊢; omega)]

theorem checked_updates (chunks : List Bytes) {hash : Sha256} (h : hash.buffer.length < 64) :
    chunks.foldlM checkedUpdate hash >>= checkedFinish =
      some (chunks.foldl update hash).finish := by
  induction chunks generalizing hash with
  | nil => exact checkedFinish_eq h
  | cons input chunks ih =>
    rw [List.foldlM_cons, (checkedUpdate_eq h input).1]
    exact ih (checkedUpdate_eq h input).2

end Sha256

open Gemma4PromptRenderer in
/-- The streamed hash is the standard's, however the input is cut, and no write of it is
past the buffer; prompt identities carry the hash of the rendered text. -/
theorem promptIdentity_sha256 {D : Type} :
    (∀ chunks : List Bytes, chunks.flatten.length < 2 ^ 61 →
      (chunks.foldl Sha256.update {}).finish = Sha2.hex (Sha2.digest chunks.flatten) ∧
      (chunks.foldl Sha256.update {}).finish.length = 64) ∧
    (∀ chunks : List Bytes, chunks.foldlM Sha256.checkedUpdate {} >>= Sha256.checkedFinish =
      some (chunks.foldl Sha256.update {}).finish) ∧
    ∀ (lib : Json.NumberLibrary D) (state question : Bytes) (options : List DecisionOption)
      (hasImage : Bool) (policy : PromptPolicy) (file : Option Bytes) (present : Bool)
      (prompt : RenderedPrompt),
      render lib state question options hasImage policy file present = .ok prompt →
      prompt.text.length < 2 ^ 61 →
      prompt.identity = rendererId options.length ++ bytes "/sha256:" ++
        Sha2.hex (Sha2.digest prompt.text) := by
  have hupdates : ∀ chunks : List Bytes, chunks.flatten.length < 2 ^ 61 →
      (chunks.foldl Sha256.update {}).finish = Sha2.hex (Sha2.digest chunks.flatten) := by
    intro chunks hsize
    obtain ⟨habs, hcount⟩ := Sha256.absorbed_updates chunks Sha256.absorbed_nil rfl
    exact Sha256.finish_absorbed habs hcount hsize
  refine ⟨?_, ?_, ?_⟩
  · intro chunks hsize
    rw [hupdates chunks hsize]
    exact ⟨rfl, Sha2.hex_digest_length _⟩
  · intro chunks
    exact Sha256.checked_updates chunks (Nat.zero_lt_succ _)
  · intro lib state question options hasImage policy file present prompt h hsize
    have hdigest := hupdates [prompt.text] (by simpa using hsize)
    rw [List.flatten_singleton] at hdigest
    obtain ⟨-, -, -, -, -, list, -, -, hidentity⟩ := render_eq_ok h
    rw [hidentity, promptIdentity, ← hdigest]
    rfl

theorem promptIdentity_sha256_split :
    (([bytes "a", bytes "bc"] : List Bytes).foldl Sha256.update {}).finish =
        Sha2.hex (Sha2.digest (bytes "abc")) ∧
      ∃ prompt, Gemma4PromptRenderer.render Json.digitNumbers (bytes "state") (bytes "question")
          [⟨bytes "a", bytes "first"⟩, ⟨bytes "b", bytes "second"⟩] false {} none false =
            .ok prompt ∧
        prompt.identity = bytes "gemma4-categorical-v1/sha256:" ++
          Sha2.hex (Sha2.digest prompt.text) := by
  obtain ⟨prompt, hprompt, hsize⟩ : ∃ prompt,
      Gemma4PromptRenderer.render Json.digitNumbers (bytes "state") (bytes "question")
          [⟨bytes "a", bytes "first"⟩, ⟨bytes "b", bytes "second"⟩] false {} none false =
            .ok prompt ∧ prompt.text.length < 2 ^ 61 := ⟨_, rfl, by decide +kernel⟩
  have h := @promptIdentity_sha256 (Fin 10)
  exact ⟨(h.1 [bytes "a", bytes "bc"] (by decide)).1, prompt, hprompt,
    h.2.2 _ _ _ _ _ _ _ _ _ hprompt hsize⟩

example : (({} : Sha256).update (bytes "abc")).finish =
    bytes "ba7816bf8f01cfea414140de5dae2223b00361a396177a9cb410ff61f20015ad" := by decide +kernel

end Branchscore
