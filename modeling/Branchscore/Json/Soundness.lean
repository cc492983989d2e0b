import Branchscore.Json.Grammar
import Branchscore.Json.Parser

/-!
# The parser only accepts words of the grammar

Every parsing function leaves what follows a word of its language, or reports an
error: it neither steps past the end of the text nor runs out of fuel.
-/

namespace Branchscore.Json.Parser

open Foundation Foundation.Parsing Outcome Grammar
set_option autoImplicit false

variable {α σ D : Type}

/-- A failure that the source throws through `fail`. -/
def Reported : Failure → Prop
  | .fail _ _ => True
  | _ => False

theorem ends_fail {Q : α → Prop} (rest : Bytes) (message : String) :
    Ends Reported Q (fail rest message) := trivial

/-! ## Character classes -/

set_option maxRecDepth 4000 in
theorem isSpace_iff : ∀ b : Byte, isSpace b = true ↔ b ∈ bytes " \t\n\r" := by decide

set_option maxRecDepth 4000 in
theorem isDigit_iff : ∀ b : Byte, isDigit b = true ↔ b ∈ bytes "0123456789" := by decide

set_option maxRecDepth 8000 in
theorem hexDigit_sound : ∀ b : Byte, ∀ digit ∈ hexDigit b, HexDigit b digit ∧ digit < 16 := by
  simp only [HexDigit]
  decide

theorem skipSpace_spec (input : Bytes) : ∃ space, Space space ∧ input = space ++ skipSpace input := by
  refine ⟨input.takeWhile isSpace, ?_, (List.takeWhile_append_dropWhile).symm⟩
  intro b hb
  exact (isSpace_iff b).mp (List.mem_takeWhile_imp hb)

theorem dropDigits_spec (input : Bytes) :
    ∃ word, Digits word ∧ input = word ++ input.dropWhile isDigit := by
  refine ⟨input.takeWhile isDigit, ?_, (List.takeWhile_append_dropWhile).symm⟩
  intro b hb
  exact (isDigit_iff b).mp (List.mem_takeWhile_imp hb)

/-! ## UTF-8 -/

theorem or_lead : ∀ k < 64, 0x80 ||| k = k + 0x80 ∧ (k < 32 → 0xc0 ||| k = k + 0xc0) ∧
    (k < 16 → 0xe0 ||| k = k + 0xe0) ∧ (k < 8 → 0xf0 ||| k = k + 0xf0) := by decide

theorem and_tail (n : Nat) : n &&& 0x3f = n % 64 := Nat.and_two_pow_sub_one_eq_mod n 6

theorem toNat_ofNat_of_scalar {n : Nat} (hs : n < 0xd800 ∨ 0xdfff < n ∧ n ≤ 0x10ffff) :
    (Char.ofNat n).val.toNat = n := by
  have hv : n.isValidChar := by
    unfold Nat.isValidChar
    omega
  rw [Char.ofNat, dif_pos hv]
  rfl
theorem ofNat_toNat (k : Nat) : Fin.ofNat 256 (UInt8.ofNat k).toNat = Fin.ofNat 256 k := by
  ext
  simp

/-- `append_utf8` appends the UTF-8 code of a scalar value. -/
theorem appendUtf8_eq (result : Bytes) {n : Nat}
    (hs : n < 0xd800 ∨ 0xdfff < n ∧ n ≤ 0x10ffff) :
    appendUtf8 result n = .ok (result ++ utf8 n) := by
  have hc := toNat_ofNat_of_scalar hs
  have htail (k : Nat) : 0x80 ||| k % 64 = k % 64 + 0x80 := (or_lead _ (Nat.mod_lt k (by omega))).1
  unfold appendUtf8 utf8 String.utf8EncodeChar
  simp only [hc, and_tail, Nat.shiftRight_eq_div_pow, Nat.reducePow, htail]
  split
  · simp only [List.map_cons, List.map_nil, ofNat_toNat]
  · split
    · have hk : n / 64 < 32 := by omega
      have hlead := (or_lead (n / 64) (by omega)).2.1 hk
      simp only [hlead, Nat.mod_eq_of_lt hk, List.map_cons, List.map_nil, ofNat_toNat]
    · split
      · have hk : n / 4096 < 16 := by omega
        have hlead := (or_lead (n / 4096) (by omega)).2.2.1 hk
        simp only [hlead, Nat.mod_eq_of_lt hk, List.map_cons, List.map_nil, ofNat_toNat]
      · have hk : n / 262144 < 8 := by omega
        have hlead := (or_lead (n / 262144) (by omega)).2.2.2 hk
        simp only [hlead, Nat.mod_eq_of_lt hk, List.map_cons, List.map_nil, ofNat_toNat,
          show n ≤ 0x10ffff by omega, if_true]
/-! ## Reading bytes -/

theorem eq_cons_of_peek {input : Bytes} {b : Byte} (h : peek input = b) (hb : b ≠ 0) :
    input = b :: input.tail := by
  cases input with
  | nil => exact absurd h.symm hb
  | cons a rest => exact congrArg (· :: rest) h

theorem advance_ends {input : Bytes} {b : Byte} (h : peek input = b) (hb : b ≠ 0) :
    Ends Reported (fun rest => input = b :: rest) (advance input) := by
  rw [eq_cons_of_peek h hb]
  exact rfl

theorem expect_ends {expected : Char} (hne : byte expected ≠ 0) (input : Bytes) :
    Ends Reported (fun rest => input = byte expected :: rest) (expect expected input) := by
  rw [expect]
  split
  · exact ends_fail _ _
  · exact advance_ends (not_not.mp ‹_›) hne

theorem parseLiteral_ends (literal : String) (input : Bytes) :
    Ends Reported (fun rest => input = bytes literal ++ rest) (parseLiteral literal input) := by
  rw [parseLiteral]
  split
  · exact ends_fail _ _
  · rename_i h
    have happ := List.take_append_drop (bytes literal).length input
    rw [not_not.mp h] at happ
    exact happ.symm

/-! ## Escapes and strings -/

theorem hexLoop_ends (count value : Nat) (input : Bytes) (h : count ≤ input.length) :
    Ends Reported (fun r => ∃ digits : List (Byte × Nat), digits.length = count ∧
      (∀ d ∈ digits, HexDigit d.1 d.2) ∧ input = digits.map Prod.fst ++ r.2 ∧
      r.1 = digits.foldl (fun value d => value * 16 + d.2) value) (hexLoop count value input) := by
  induction count generalizing value input with
  | zero => exact ⟨[], rfl, by simp, rfl, rfl⟩
  | succ count ih =>
    cases input with
    | nil => simp at h
    | cons b rest =>
      simp only [hexLoop, next, ok_bind]
      split
      · exact ends_fail _ _
      · rename_i digit hd
        obtain ⟨hb, hlt⟩ := hexDigit_sound b digit hd
        apply (ih (value <<< 4 ||| digit) rest (by simpa using h)).mono
        rintro ⟨result, rest'⟩ ⟨digits, hlen, hall, hrest, hresult⟩
        refine ⟨(b, digit) :: digits, by simp [hlen], ?_, by simpa using hrest, ?_⟩
        · exact List.forall_mem_cons.mpr ⟨hb, hall⟩
        · rw [hresult, ← Nat.shiftLeft_add_eq_or_of_lt hlt, Nat.shiftLeft_eq]
          rfl

theorem parseHexQuad_ends (input : Bytes) :
    Ends Reported (Leaves HexQuad input) (parseHexQuad input) := by
  rw [parseHexQuad]
  split
  · exact ends_fail _ _
  · apply (hexLoop_ends 4 0 input (by omega)).mono
    rintro ⟨value, rest⟩ ⟨digits, hlen, hall, hinput, hvalue⟩
    obtain ⟨a, b, c, d, rfl⟩ := List.length_eq_four.mp hlen
    simp only [List.forall_mem_cons] at hall
    simp only [List.foldl_cons, List.foldl_nil, Nat.zero_mul, Nat.zero_add] at hvalue
    rw [hvalue]
    exact ⟨_, .intro hall.1 hall.2.1 hall.2.2.1 hall.2.2.2.1, hinput⟩

theorem HexDigit.lt {b : Byte} {digit : Nat} (h : HexDigit b digit) : digit < 16 := by
  rcases h with h | h
  · exact (List.getElem?_eq_some_iff.mp h).1
  · exact (List.getElem?_eq_some_iff.mp h).1

theorem HexQuad.lt {word : Bytes} {unit : Nat} (h : HexQuad word unit) : unit < 0x10000 := by
  obtain ⟨hp, hq, hr, hs⟩ := h
  have := HexDigit.lt hp
  have := HexDigit.lt hq
  have := HexDigit.lt hr
  have := HexDigit.lt hs
  omega

theorem Codepoint.scalar_value {word : Bytes} {codepoint : Nat} (h : Codepoint word codepoint) :
    codepoint < 0xd800 ∨ 0xdfff < codepoint ∧ codepoint ≤ 0x10ffff := by
  cases h with
  | scalar hq hs =>
    have := HexQuad.lt hq
    omega
  | pair => omega

theorem eq_cons_cons {input : Bytes} {a b : Byte} (ha : input[0]? = some a)
    (hb : input[1]? = some b) : ∃ rest, input = a :: b :: rest := by
  rcases input with _ | ⟨c, _ | ⟨d, rest⟩⟩
  · simp at ha
  · simp at hb
  · simp only [List.getElem?_cons_zero, List.getElem?_cons_succ, Option.some.injEq] at ha hb
    exact ⟨rest, by rw [ha, hb]⟩

theorem parseCodepoint_ends (input : Bytes) :
    Ends Reported (Leaves Codepoint input) (parseCodepoint input) := by
  rw [parseCodepoint]
  apply (parseHexQuad_ends input).bind
  rintro ⟨first, rest⟩ ⟨quad, hquad, hinput⟩
  dsimp only at hquad hinput ⊢
  split
  · rename_i hhigh
    split
    · exact ends_fail _ _
    · rename_i hnext
      apply (parseHexQuad_ends (rest.drop 2)).bind
      rintro ⟨second, rest'⟩ ⟨quad', hquad', hrest⟩
      dsimp only at hquad' hrest ⊢
      split
      · rename_i hlow
        simp only [isHighSurrogate, isLowSurrogate, Bool.and_eq_true, decide_eq_true_eq]
          at hhigh hlow
        obtain ⟨high, rfl⟩ := Nat.exists_eq_add_of_le hhigh.1
        obtain ⟨low, rfl⟩ := Nat.exists_eq_add_of_le hlow.1
        simp only [not_or, not_not] at hnext
        obtain ⟨t, rfl⟩ := eq_cons_cons hnext.2.1 hnext.2.2
        rw [Nat.add_sub_cancel_left, Nat.add_sub_cancel_left, Nat.shiftLeft_eq]
        refine ⟨_, .pair hquad (by omega) hquad' (by omega), ?_⟩
        rw [hinput]
        simpa using hrest
      · exact ends_fail _ _
  · split
    · exact ends_fail _ _
    · rename_i hhigh hlow
      refine ⟨quad, .scalar hquad ?_, hinput⟩
      simp only [isHighSurrogate, isLowSurrogate, Bool.and_eq_true, decide_eq_true_eq] at hhigh hlow
      omega

theorem simpleEscapes_sound : ∀ escape decoded : Byte,
    simpleEscapes.lookup escape = some decoded → (escape, decoded) ∈ Grammar.simpleEscapes := by
  intro escape decoded h
  have hmem := List.lookup_eq_some_iff.mp h
  obtain ⟨pre, post, he, _⟩ := hmem
  have : (escape, decoded) ∈ simpleEscapes := by rw [he]; simp
  exact this

theorem parseEscape_ends (result input : Bytes) :
    Ends Reported (fun r => ∃ word decoded, Escape word decoded ∧ input = word ++ r.2 ∧
      r.1 = result ++ decoded) (parseEscape result input) := by
  rw [parseEscape]
  cases input with
  | nil => exact ends_fail _ _
  | cons escape rest =>
    simp only [List.cons_ne_nil, if_false, next, ok_bind]
    split
    · rename_i decoded hd
      exact ⟨_, _, .simple (simpleEscapes_sound _ _ hd), rfl, rfl⟩
    · split
      · rename_i hu
        apply (parseCodepoint_ends rest).bind
        rintro ⟨codepoint, rest'⟩ ⟨word, hword, hrest⟩
        dsimp only at hword hrest ⊢
        rw [appendUtf8_eq result (Codepoint.scalar_value hword)]
        exact ⟨_, _, .unicode hword, by rw [hu, hrest, List.cons_append], rfl⟩
      · exact ends_fail _ _

theorem stringLoop_ends (fuel : Nat) (result input : Bytes) (h : input.length < fuel) :
    Ends Reported (fun r => ∃ word value, StringBody word value ∧
      input = word ++ byte '"' :: r.2 ∧ r.1 = result ++ value) (stringLoop fuel result input) := by
  induction fuel generalizing result input with
  | zero => simp at h
  | succ fuel ih =>
    rw [stringLoop]
    cases input with
    | nil => exact ends_fail _ _
    | cons b rest =>
      have hlen : rest.length < fuel := by simpa using h
      simp only [List.cons_ne_nil, if_false, next, ok_bind]
      split
      · rename_i hb
        exact ⟨[], [], .nil, by rw [hb]; rfl, by simp⟩
      · split
        · exact ends_fail _ _
        · split
          · apply (ih (result ++ [b]) rest hlen).mono
            rintro ⟨value, rest'⟩ ⟨word, tail, hbody, hrest, hvalue⟩
            refine ⟨b :: word, b :: tail, .raw (not_lt.mp ‹_›) ‹_› ‹_› hbody, ?_, ?_⟩
            · rw [hrest, List.cons_append]
            · simpa using hvalue
          · rename_i hb
            apply (parseEscape_ends result rest).bind
            rintro ⟨result', rest'⟩ ⟨escape, decoded, hescape, hrest, hresult⟩
            dsimp only at hrest hresult
            have hlen' : rest'.length < fuel := by
              rw [hrest, List.length_append] at hlen
              omega
            apply (ih result' rest' hlen').mono
            rintro ⟨value, rest''⟩ ⟨word, tail, hbody, hrest', hvalue⟩
            refine ⟨_, _, .escape hescape hbody, ?_, ?_⟩
            · rw [not_not.mp hb, hrest]
              simp [hrest']
            · rw [hvalue, hresult, List.append_assoc]

theorem parseString_ends (input : Bytes) :
    Ends Reported (Leaves StringToken input) (parseString input) := by
  rw [parseString]
  apply (expect_ends (by decide) input).bind
  intro rest hinput
  apply (stringLoop_ends (rest.length + 1) [] rest (Nat.lt_succ_self _)).mono
  rintro ⟨value, rest'⟩ ⟨word, tail, hbody, hrest, hvalue⟩
  simp only [List.nil_append] at hvalue
  rw [hvalue]
  refine ⟨_, .intro hbody, ?_⟩
  rw [hinput, hrest]
  simp

/-! ## Numbers -/

set_option maxRecDepth 4000 in
theorem nonzeroDigit_iff : ∀ b : Byte,
    ¬(b < byte '1' ∨ byte '9' < b) ↔ b ∈ bytes "123456789" := by decide

set_option maxRecDepth 4000 in
theorem isDigit_of_nonzero : ∀ b ∈ bytes "123456789", isDigit b = true := by decide

theorem integerDigits_ends (input : Bytes) :
    Ends Reported (fun rest => ∃ word, IntegerPart word ∧ input = word ++ rest)
      (integerDigits input) := by
  rw [integerDigits]
  split
  · apply (advance_ends ‹_› (by decide)).bind
    intro rest hinput
    split
    · exact ends_fail _ _
    · exact ⟨_, .zero, hinput⟩
  · split
    · exact ends_fail _ _
    · rename_i hdigit
      have hb := (nonzeroDigit_iff _).mp hdigit
      have hinput := eq_cons_of_peek (b := peek input) rfl fun h0 => by
        rw [h0] at hb
        exact absurd hb (by decide)
      obtain ⟨word, hword, htail⟩ := dropDigits_spec input.tail
      refine ⟨_, .digits hb hword, ?_⟩
      rw [hinput, List.dropWhile_cons_of_pos (isDigit_of_nonzero _ hb), List.cons_append, ← htail]
      rfl

theorem someDigits_ends (message : String) (input : Bytes) :
    Ends Reported (fun rest => ∃ b word, Digits (b :: word) ∧ input = b :: word ++ rest)
      (someDigits message input) := by
  rw [someDigits]
  split
  · rename_i hdigit
    have hb := (isDigit_iff _).mp hdigit
    have hinput := eq_cons_of_peek (b := peek input) rfl fun h0 => by
      rw [h0] at hb
      exact absurd hb (by decide)
    obtain ⟨word, hword, htail⟩ := dropDigits_spec input.tail
    refine ⟨_, word, List.forall_mem_cons.mpr ⟨hb, hword⟩, ?_⟩
    rw [hinput, List.dropWhile_cons_of_pos hdigit, List.cons_append, ← htail]
    rfl
  · exact ends_fail _ _

theorem fractionDigits_ends (input : Bytes) :
    Ends Reported (fun rest => ∃ word, FractionPart word ∧ input = word ++ rest)
      (fractionDigits input) := by
  rw [fractionDigits]
  split
  · apply (advance_ends ‹_› (by decide)).bind
    intro rest hinput
    apply (someDigits_ends _ rest).mono
    rintro rest' ⟨b, word, hword, hrest⟩
    exact ⟨_, .digits hword, by rw [hinput, hrest]; rfl⟩
  · exact ⟨[], .none, rfl⟩

theorem skipSign_ends {signs : List Byte} (h0 : 0 ∉ signs) (input : Bytes) :
    Ends Reported (fun rest => ∃ sign ∈ [] :: signs.map ([·]), input = sign ++ rest)
      (skipSign signs input) := by
  rw [skipSign]
  split
  · rename_i hmem
    have hne : peek input ≠ 0 := fun h => h0 (h ▸ hmem)
    apply (advance_ends rfl hne).mono
    intro rest hinput
    exact ⟨[peek input], List.mem_cons_of_mem _ (List.mem_map_of_mem hmem), hinput⟩
  · exact ⟨[], List.mem_cons_self, rfl⟩

theorem exponentDigits_ends (input : Bytes) :
    Ends Reported (fun rest => ∃ word, ExponentPart word ∧ input = word ++ rest)
      (exponentDigits input) := by
  rw [exponentDigits]
  split
  · rename_i he
    have hmem : peek input ∈ bytes "eE" := by
      rcases he with he | he
      · rw [he]
        decide
      · rw [he]
        decide
    have hne : peek input ≠ 0 := fun h0 => by
      rw [h0] at hmem
      exact absurd hmem (by decide)
    apply (advance_ends rfl hne).bind
    intro rest hinput
    apply (skipSign_ends (by decide) rest).bind
    rintro rest' ⟨sign, hsign, hrest⟩
    apply (someDigits_ends _ rest').mono
    rintro rest'' ⟨b, word, hword, hrest'⟩
    rw [hrest, hrest'] at hinput
    exact ⟨_, .digits hmem hsign hword, hinput.trans (by simp)⟩
  · exact ⟨[], .none, rfl⟩

def numberBytes : Bytes := bytes "0123456789-+.eE"

theorem digits_subset {word : Bytes} (h : Digits word) : word ⊆ numberBytes := by
  have hdigits : bytes "0123456789" ⊆ numberBytes := by decide
  exact fun b hb => hdigits (h b hb)

theorem signs_subset {sign : Bytes} (h : sign ∈ [[], bytes "+", bytes "-"]) :
    sign ⊆ numberBytes := by
  revert sign
  decide

theorem integerPart_subset {word : Bytes} (h : IntegerPart word) : word ⊆ numberBytes := by
  have hnonzero : bytes "123456789" ⊆ numberBytes := by decide
  cases h with
  | zero => decide
  | digits hb hw => exact List.cons_subset.mpr ⟨hnonzero hb, digits_subset hw⟩

theorem fractionPart_subset {word : Bytes} (h : FractionPart word) : word ⊆ numberBytes := by
  cases h with
  | none => exact List.nil_subset _
  | digits hw => exact List.cons_subset.mpr ⟨by decide, digits_subset hw⟩

theorem exponentPart_subset {word : Bytes} (h : ExponentPart word) : word ⊆ numberBytes := by
  have hexponent : bytes "eE" ⊆ numberBytes := by decide
  cases h with
  | none => exact List.nil_subset _
  | digits he hs hw =>
    exact List.cons_subset.mpr ⟨hexponent he, List.append_subset.mpr
      ⟨signs_subset hs, digits_subset hw⟩⟩

theorem numberToken_subset {word : Bytes} (h : NumberToken word) : word ⊆ numberBytes := by
  obtain ⟨hs, hw, hf, he⟩ := h
  have hsign := signs_subset (List.Sublist.subset (by decide) hs)
  exact List.append_subset.mpr ⟨hsign, List.append_subset.mpr ⟨integerPart_subset hw,
    List.append_subset.mpr ⟨fractionPart_subset hf, exponentPart_subset he⟩⟩⟩

/-- A number token holds no NUL, so `strtod` sees all of it. -/
theorem cString_numberToken {word : Bytes} (h : NumberToken word) : cString word = word := by
  rw [cString, List.takeWhile_eq_self_iff]
  intro b hb
  have h0 : (0 : Byte) ∉ numberBytes := by decide
  have hne : b ≠ 0 := fun h => h0 (h ▸ numberToken_subset ‹_› hb)
  simpa using hne

theorem skipNumber_ends (input : Bytes) :
    Ends Reported (fun rest => ∃ word, NumberToken word ∧ input = word ++ rest)
      (skipNumber input) := by
  rw [skipNumber]
  apply (skipSign_ends (by decide) input).bind
  rintro rest₁ ⟨sign, hsign, hinput⟩
  apply (integerDigits_ends rest₁).bind
  rintro rest₂ ⟨whole, hwhole, hrest₁⟩
  apply (fractionDigits_ends rest₂).bind
  rintro rest₃ ⟨fraction, hfraction, hrest₂⟩
  apply (exponentDigits_ends rest₃).mono
  rintro rest₄ ⟨exponent, hexponent, hrest₃⟩
  refine ⟨_, .intro hsign hwhole hfraction hexponent, ?_⟩
  rw [hinput, hrest₁, hrest₂, hrest₃]
  simp only [List.append_assoc]

theorem take_consumed (word rest : Bytes) :
    (word ++ rest).take ((word ++ rest).length - rest.length) = word := by
  rw [List.length_append, Nat.add_sub_cancel, List.take_left]

theorem parseNumber_ends (lib : NumberLibrary D) (input : Bytes) :
    Ends Reported (Leaves (Scans lib) input) (parseNumber lib input) := by
  rw [parseNumber]
  apply (skipNumber_ends input).bind
  rintro rest ⟨word, htoken, hinput⟩
  dsimp only
  rw [hinput, take_consumed, cString_numberToken htoken]
  split
  · exact ends_fail _ _
  · rename_i hnot
    simp only [not_or, Bool.not_eq_false, ne_eq, not_not] at hnot
    exact ⟨word, ⟨htoken, hnot.2.2, Prod.ext rfl hnot.2.1⟩, rfl⟩

/-! ## Containers -/

section Containers
variable {R : Bytes → α → Prop} {item : Bytes → Except Failure (α × Bytes)}

theorem elementsLoop_ends (add : σ → α → Option σ) {close : Char} (hclose : byte close ≠ 0)
    (fuel : Nat) (result : σ) (input : Bytes) (hfuel : input.length < fuel)
    (hitem : ∀ input', input'.length ≤ input.length →
      Ends Reported (Leaves R input') (item input')) :
    Ends Reported (fun r => ∃ words values, Elements Space (byte ',') R words values ∧
      input = words ++ byte close :: r.2 ∧ values.foldlM add result = some r.1)
      (elementsLoop item add close fuel result input) := by
  induction fuel generalizing result input with
  | zero => simp at hfuel
  | succ fuel ih =>
    rw [elementsLoop]
    apply (hitem input (Nat.le_refl _)).bind
    rintro ⟨value, rest⟩ ⟨word, hword, hinput⟩
    dsimp only at hword hinput ⊢
    split
    · exact ends_fail _ _
    · rename_i result' hadd
      obtain ⟨after, hafter, hrest⟩ := skipSpace_spec rest
      split
      · rename_i hpeek
        apply (advance_ends hpeek hclose).bind
        intro rest' hrest'
        refine ⟨_, _, .one hword hafter, ?_, by simpa using hadd⟩
        rw [hinput, hrest, hrest', List.append_assoc]
      · apply (expect_ends (by decide) (skipSpace rest)).bind
        intro rest' hrest'
        obtain ⟨before, hbefore, hskip⟩ := skipSpace_spec rest'
        rw [hrest'] at hrest
        rw [hrest] at hinput
        have hlen := congrArg List.length hinput
        have hlen' := congrArg List.length hskip
        simp only [List.length_append, List.length_cons] at hlen hlen'
        apply (ih result' (skipSpace rest') (by omega) fun input' h => hitem input' (by omega)).mono
        rintro ⟨final, rest''⟩ ⟨words, values, hwords, hdone, hfold⟩
        refine ⟨_, _, .cons hword hafter hbefore hwords, ?_, ?_⟩
        · rw [hinput, hskip, hdone]
          simp
        · rw [List.foldlM_cons, hadd]
          exact hfold

theorem parseContainer_ends (add : σ → α → Option σ) (empty : σ) {opening close : Char}
    (hopening : byte opening ≠ 0) (hclose : byte close ≠ 0) (input : Bytes)
    (hitem : ∀ input', input'.length < input.length →
      Ends Reported (Leaves R input') (item input')) :
    Ends Reported (fun r => ∃ space, Space space ∧
      ((input = byte opening :: (space ++ [byte close]) ++ r.2 ∧ r.1 = empty) ∨
        ∃ words values, Elements Space (byte ',') R words values ∧
          input = byte opening :: (space ++ (words ++ [byte close])) ++ r.2 ∧
          values.foldlM add empty = some r.1))
      (parseContainer item add empty opening close input) := by
  rw [parseContainer]
  apply (expect_ends hopening input).bind
  intro rest hinput
  obtain ⟨space, hspace, hrest⟩ := skipSpace_spec rest
  dsimp only
  split
  · rename_i hpeek
    apply (advance_ends hpeek hclose).bind
    intro rest' hrest'
    refine ⟨space, hspace, Or.inl ⟨?_, rfl⟩⟩
    rw [hinput, hrest, hrest']
    simp
  · have hlen := congrArg List.length hrest
    have hlen' := congrArg List.length hinput
    simp only [List.length_append, List.length_cons] at hlen hlen'
    apply (elementsLoop_ends add hclose _ empty _ (Nat.lt_succ_self _)
      fun input' h => hitem input' (by omega)).mono
    rintro ⟨final, rest'⟩ ⟨words, values, hwords, hdone, hfold⟩
    refine ⟨space, hspace, Or.inr ⟨words, values, hwords, ?_, hfold⟩⟩
    rw [hinput, hrest, hdone]
    simp

end Containers

theorem foldlM_append_some (items acc : List α) :
    items.foldlM (fun items item => some (items ++ [item])) acc = some (acc ++ items) := by
  induction items generalizing acc with
  | nil => simp
  | cons item items ih =>
    rw [List.foldlM_cons]
    simpa using ih (acc ++ [item])

section Values
variable {lib : NumberLibrary D} {element : Bytes → Except Failure (Value D × Bytes)}
  {input : Bytes}

theorem parseArray_ends (helement : ∀ input', input'.length < input.length →
      Ends Reported (Leaves (Derives (Scans lib)) input') (element input')) :
    Ends Reported (Leaves (fun word items => Derives (Scans lib) word (.array items)) input)
      (parseArray element input) := by
  apply (parseContainer_ends _ [] (by decide) (by decide) input helement).mono
  rintro ⟨items, rest⟩ ⟨space, hspace, ⟨hinput, hempty⟩ | ⟨words, values, hwords, hinput, hfold⟩⟩
  · dsimp only at hempty
    rw [hempty]
    exact ⟨_, .emptyArray hspace, hinput⟩
  · rw [foldlM_append_some, Option.some.injEq, List.nil_append] at hfold
    obtain rfl : values = items := hfold
    exact ⟨_, .array hspace hwords, hinput⟩

theorem parseMember_ends (input : Bytes) (helement : ∀ input', input'.length < input.length →
      Ends Reported (Leaves (Derives (Scans lib)) input') (element input')) :
    Ends Reported (Leaves (Member (Derives (Scans lib))) input) (parseMember element input) := by
  rw [parseMember]
  split
  · exact ends_fail _ _
  · apply (parseString_ends input).bind
    rintro ⟨name, rest⟩ ⟨key, hkey, hinput⟩
    obtain ⟨before, hbefore, hrest⟩ := skipSpace_spec rest
    apply (expect_ends (by decide) (skipSpace rest)).bind
    intro rest' hrest'
    obtain ⟨after, hafter, hskip⟩ := skipSpace_spec rest'
    dsimp only at hkey hinput
    rw [hrest, hrest', hskip] at hinput
    have hlen := congrArg List.length hinput
    simp only [List.length_append, List.length_cons] at hlen
    apply (helement (skipSpace rest') (by omega)).bind
    rintro ⟨value, rest''⟩ ⟨word, hword, hdone⟩
    dsimp only at hword hdone
    refine ⟨_, .intro hkey hbefore hafter hword, ?_⟩
    rw [hinput, hdone]
    simp

theorem parseObject_ends (helement : ∀ input', input'.length < input.length →
      Ends Reported (Leaves (Derives (Scans lib)) input') (element input')) :
    Ends Reported (Leaves (fun word members => Derives (Scans lib) word (.object members)) input)
      (parseObject element input) := by
  apply (parseContainer_ends _ [] (by decide) (by decide) input fun input' h =>
    parseMember_ends input' fun input'' h' => helement input'' (h'.trans h)).mono
  rintro ⟨members, rest⟩
    ⟨space, hspace, ⟨hinput, hempty⟩ | ⟨words, entries, hwords, hinput, hfold⟩⟩
  · dsimp only at hempty
    rw [hempty]
    exact ⟨_, .emptyObject hspace, hinput⟩
  · obtain ⟨hsorted, hperm⟩ := (SortedMap.emplaceAll_eq_some List.Pairwise.nil).mp hfold
    rw [List.append_nil] at hperm
    exact ⟨_, .object hspace hwords hsorted hperm, hinput⟩

end Values

theorem parseValue_ends (lib : NumberLibrary D) (fuel : Nat) (input : Bytes)
    (hfuel : input.length < fuel) :
    Ends Reported (Leaves (Derives (Scans lib)) input) (parseValue lib fuel input) := by
  induction fuel generalizing input with
  | zero => simp at hfuel
  | succ fuel ih =>
    rw [parseValue]
    have hnested : ∀ input', input'.length < input.length →
        Ends Reported (Leaves (Derives (Scans lib)) input') (parseValue lib fuel input') :=
      fun input' h => ih input' (by omega)
    split
    · exact (parseLiteral_ends "null" input).bind fun rest h => ⟨_, .null, h⟩
    split
    · exact (parseLiteral_ends "true" input).bind fun rest h => ⟨_, .true, h⟩
    split
    · exact (parseLiteral_ends "false" input).bind fun rest h => ⟨_, .false, h⟩
    split
    · exact (parseString_ends input).bind fun r ⟨word, hword, h⟩ => ⟨word, .string hword, h⟩
    split
    · exact (parseArray_ends hnested).bind fun r h => h
    split
    · exact (parseObject_ends hnested).bind fun r h => h
    split
    · exact (parseNumber_ends lib input).bind fun r ⟨word, hword, h⟩ => ⟨word, .number hword, h⟩
    · exact ends_fail _ _

/-- A parsed text is a word of the grammar that denotes the result, and every failure
is one that the source reports. -/
theorem parseDocument_ends (lib : NumberLibrary D) (text : Bytes) :
    Ends Reported (Document (Scans lib) text) (parseDocument lib text) := by
  rw [parseDocument]
  obtain ⟨before, hbefore, htext⟩ := skipSpace_spec text
  have hlen := congrArg List.length htext
  rw [List.length_append] at hlen
  apply (parseValue_ends lib (text.length + 1) (skipSpace text) (by omega)).bind
  rintro ⟨value, rest⟩ ⟨word, hword, hinput⟩
  obtain ⟨after, hafter, hrest⟩ := skipSpace_spec rest
  dsimp only at hword hinput ⊢
  split
  · exact ends_fail _ _
  · rename_i hend
    rw [not_not.mp hend, List.append_nil] at hrest
    rw [htext, hinput, hrest]
    exact .intro hbefore hword hafter

end Branchscore.Json.Parser
