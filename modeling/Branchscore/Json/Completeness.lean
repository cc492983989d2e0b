import Branchscore.Json.Soundness

/-!
# The parser accepts every word of the grammar

The scanners are greedy, so a word is read back only where what follows cannot
extend it. Only numbers can be extended, and never by what may follow a value.
-/

namespace Branchscore.Json.Parser

open Foundation Foundation.Parsing Outcome Grammar
set_option autoImplicit false

variable {α σ D : Type}

/-- What follows does not extend a number. -/
def Stops (rest : Bytes) : Prop := peek rest ∉ numberBytes

/-! ## Greedy scans -/

theorem dropWhile_append {p : Byte → Bool} {word rest : Bytes} (hword : ∀ b ∈ word, p b = true)
    (hrest : p (peek rest) = false) : (word ++ rest).dropWhile p = rest := by
  rw [List.dropWhile_append_of_pos hword]
  cases rest with
  | nil => rfl
  | cons b rest => exact List.dropWhile_cons_of_neg (by simpa [peek] using hrest)

theorem skipSpace_append {space rest : Bytes} (hspace : Space space)
    (hrest : isSpace (peek rest) = false) : skipSpace (space ++ rest) = rest :=
  dropWhile_append (fun b hb => (isSpace_iff b).mpr (hspace b hb)) hrest

theorem skipSpace_append_cons {space : Bytes} (hspace : Space space) {b : Byte}
    (hb : isSpace b = false) (rest : Bytes) : skipSpace (space ++ b :: rest) = b :: rest :=
  skipSpace_append hspace hb

theorem dropDigits_append {word rest : Bytes} (hword : Digits word)
    (hrest : isDigit (peek rest) = false) : (word ++ rest).dropWhile isDigit = rest :=
  dropWhile_append (fun b hb => (isDigit_iff b).mpr (hword b hb)) hrest

@[simp] theorem peek_cons (b : Byte) (rest : Bytes) : peek (b :: rest) = b := rfl

@[simp] theorem advance_cons (b : Byte) (rest : Bytes) : advance (b :: rest) = .ok rest := rfl

@[simp] theorem expect_cons (c : Char) (rest : Bytes) : expect c (byte c :: rest) = .ok rest := by
  simp [expect]

/-! ## Escapes and strings -/

theorem hexDigit_complete {b : Byte} {digit : Nat} (h : HexDigit b digit) :
    hexDigit b = some digit := by
  have hlower : (bytes "0123456789abcdef").zipIdx.all fun p => hexDigit p.1 = some p.2 := by decide
  have hupper : (bytes "0123456789ABCDEF").zipIdx.all fun p => hexDigit p.1 = some p.2 := by decide
  rcases h with h | h
  · simpa using List.all_eq_true.mp hlower (b, digit) (List.mem_zipIdx_iff_getElem?.mpr h)
  · simpa using List.all_eq_true.mp hupper (b, digit) (List.mem_zipIdx_iff_getElem?.mpr h)

theorem hexLoop_cons {b : Byte} {digit : Nat} (h : HexDigit b digit) (count value : Nat)
    (rest : Bytes) :
    hexLoop (count + 1) value (b :: rest) = hexLoop count (value * 16 + digit) rest := by
  simp only [hexLoop, next, ok_bind, hexDigit_complete h]
  rw [← Nat.shiftLeft_add_eq_or_of_lt (HexDigit.lt h), Nat.shiftLeft_eq]

theorem parseHexQuad_append {word : Bytes} {unit : Nat} (h : HexQuad word unit) (rest : Bytes) :
    parseHexQuad (word ++ rest) = .ok (unit, rest) := by
  obtain ⟨hp, hq, hr, hs⟩ := h
  rw [parseHexQuad, if_neg (by simp)]
  simp only [List.cons_append, List.nil_append]
  rw [hexLoop_cons hp, hexLoop_cons hq, hexLoop_cons hr, hexLoop_cons hs, hexLoop, Nat.zero_mul,
    Nat.zero_add]

theorem HexQuad.length_eq {word : Bytes} {unit : Nat} (h : HexQuad word unit) :
    word.length = 4 := by
  cases h
  rfl

theorem parseCodepoint_append {word : Bytes} {codepoint : Nat} (h : Codepoint word codepoint)
    (rest : Bytes) : parseCodepoint (word ++ rest) = .ok (codepoint, rest) := by
  rw [parseCodepoint]
  cases h with
  | scalar hquad hs =>
    have hhigh : isHighSurrogate codepoint = false := by
      simp only [isHighSurrogate, Bool.and_eq_false_iff, decide_eq_false_iff_not]
      omega
    have hlow : isLowSurrogate codepoint = false := by
      simp only [isLowSurrogate, Bool.and_eq_false_iff, decide_eq_false_iff_not]
      omega
    rw [parseHexQuad_append hquad, ok_bind]
    simp [hhigh, hlow]
  | @pair quad quad' high low hquad hh hquad' hl =>
    have hhigh : isHighSurrogate (0xd800 + high) = true := by
      simp only [isHighSurrogate, Bool.and_eq_true, decide_eq_true_eq]
      omega
    have hlow : isLowSurrogate (0xdc00 + low) = true := by
      simp only [isLowSurrogate, Bool.and_eq_true, decide_eq_true_eq]
      omega
    have hlen := HexQuad.length_eq hquad'
    rw [List.append_assoc, parseHexQuad_append hquad, ok_bind]
    dsimp only
    rw [if_pos hhigh, if_neg (by simp [hlen])]
    simp only [List.cons_append, List.drop_succ_cons, List.drop_zero]
    rw [parseHexQuad_append hquad', ok_bind]
    dsimp only
    rw [if_pos hlow, Nat.add_sub_cancel_left, Nat.add_sub_cancel_left, Nat.shiftLeft_eq]
    rfl

theorem parseEscape_append {word decoded : Bytes} (h : Escape word decoded)
    (result rest : Bytes) : parseEscape result (word ++ rest) = .ok (result ++ decoded, rest) := by
  cases h with
  | simple hmem =>
    have hall : Grammar.simpleEscapes.all fun p => simpleEscapes.lookup p.1 = some p.2 := by decide
    have hlookup := of_decide_eq_true (List.all_eq_true.mp hall _ hmem)
    simp only [parseEscape, List.cons_append, List.cons_ne_nil, if_false, next, ok_bind] at hlookup ⊢
    rw [hlookup]
    rfl
  | @unicode word codepoint hword =>
    have hlookup : simpleEscapes.lookup (byte 'u') = none := by decide
    simp only [parseEscape, List.cons_append, List.cons_ne_nil, if_false, next, ok_bind, if_true]
    rw [hlookup]
    dsimp only
    rw [parseCodepoint_append hword, ok_bind]
    dsimp only
    rw [appendUtf8_eq result (Codepoint.scalar_value hword)]
    rfl

theorem stringLoop_append {word value : Bytes} (h : StringBody word value) {fuel : Nat}
    (result rest : Bytes) (hfuel : word.length < fuel) :
    stringLoop fuel result (word ++ byte '"' :: rest) = .ok (result ++ value, rest) := by
  induction h generalizing fuel result with
  | nil =>
    obtain ⟨fuel, rfl⟩ := Nat.exists_eq_add_of_lt hfuel
    simp [stringLoop, next]
  | @raw b word value hb hquote hslash _ ih =>
    obtain ⟨fuel, rfl⟩ := Nat.exists_eq_add_of_lt hfuel
    simp only [List.length_cons, stringLoop, List.cons_append, List.cons_ne_nil, if_false, next,
      ok_bind, hquote, not_lt.mpr hb, hslash, Ne, not_false_eq_true, if_true]
    rw [ih (result ++ [b]) (by omega), List.append_assoc]
    rfl
  | @escape escape decoded word value hescape _ ih =>
    obtain ⟨fuel, rfl⟩ := Nat.exists_eq_add_of_lt hfuel
    have hslash : byte '\\' ≠ byte '"' := by decide
    have hctl : ¬byte '\\' < 0x20 := by decide
    simp only [stringLoop, List.cons_append, List.cons_ne_nil, if_false, next, ok_bind, hslash,
      hctl, Ne, not_true_eq_false, List.append_assoc]
    rw [parseEscape_append hescape, ok_bind]
    dsimp only
    rw [ih (result ++ decoded) (by simp; omega), List.append_assoc]

theorem parseString_append {word value : Bytes} (h : StringToken word value) (rest : Bytes) :
    parseString (word ++ rest) = .ok (value, rest) := by
  obtain ⟨hbody⟩ := h
  simp only [parseString, List.cons_append, expect_cons, ok_bind, List.append_assoc,
    List.nil_append]
  rw [stringLoop_append hbody [] rest (by simp)]
  rfl

/-! ## Numbers -/

theorem Stops.isDigit {rest : Bytes} (h : Stops rest) : isDigit (peek rest) = false := by
  have hdigits : bytes "0123456789" ⊆ numberBytes := by decide
  cases hd : Parser.isDigit (peek rest) with
  | false => rfl
  | true => exact absurd (hdigits ((isDigit_iff _).mp hd)) h

theorem Stops.ne {rest : Bytes} (h : Stops rest) {b : Byte} (hb : b ∈ numberBytes) :
    peek rest ≠ b := fun he => h (he ▸ hb)

theorem skipSign_append {signs : List Byte} {sign rest : Bytes}
    (hsign : sign ∈ [] :: signs.map ([·])) (hrest : peek rest ∉ signs) :
    skipSign signs (sign ++ rest) = .ok rest := by
  rcases List.mem_cons.mp hsign with rfl | hsign
  · exact if_neg hrest
  · obtain ⟨b, hb, rfl⟩ := List.mem_map.mp hsign
    exact if_pos hb

theorem integerDigits_append {word rest : Bytes} (h : IntegerPart word)
    (hrest : isDigit (peek rest) = false) : integerDigits (word ++ rest) = .ok rest := by
  cases h with
  | zero =>
    simp only [List.cons_append, List.nil_append, integerDigits, peek_cons, if_true, advance_cons,
      ok_bind, hrest]
    rfl
  | @digits b word hb hword =>
    have h0 : b ≠ byte '0' := by
      rintro rfl
      exact absurd hb (by decide)
    rw [List.cons_append, integerDigits, peek_cons, if_neg h0, if_neg ((nonzeroDigit_iff b).mpr hb),
      List.dropWhile_cons_of_pos (isDigit_of_nonzero b hb), dropDigits_append hword hrest]
    rfl

theorem someDigits_append (message : String) {b : Byte} {word rest : Bytes}
    (h : Digits (b :: word)) (hrest : isDigit (peek rest) = false) :
    someDigits message (b :: word ++ rest) = .ok rest := by
  have hb := (isDigit_iff b).mpr (h b List.mem_cons_self)
  rw [someDigits, dropDigits_append h hrest]
  exact if_pos hb

theorem fractionDigits_append {word rest : Bytes} (h : FractionPart word)
    (hdigit : isDigit (peek rest) = false) (hpoint : peek rest ≠ byte '.') :
    fractionDigits (word ++ rest) = .ok rest := by
  cases h with
  | none => exact if_neg hpoint
  | digits hword =>
    simp only [List.cons_append, fractionDigits, peek_cons, if_true, advance_cons, ok_bind]
    exact someDigits_append _ hword hdigit

theorem exponentDigits_append {word rest : Bytes} (h : ExponentPart word)
    (hdigit : isDigit (peek rest) = false) (he : peek rest ∉ bytes "eE") :
    exponentDigits (word ++ rest) = .ok rest := by
  cases h with
  | none =>
    refine if_neg fun h => he ?_
    rw [List.nil_append] at h
    rcases h with h | h
    · rw [h]
      decide
    · rw [h]
      decide
  | @digits e b sign word he hsign hword =>
    have hletter : e = byte 'e' ∨ e = byte 'E' := by simpa [bytes] using he
    have hb : b ∈ bytes "0123456789" := hword b List.mem_cons_self
    have hnosign : b ∉ [byte '+', byte '-'] := by
      intro hmem
      rcases List.mem_pair.mp hmem with rfl | rfl
      · exact absurd hb (by decide)
      · exact absurd hb (by decide)
    rw [List.cons_append, exponentDigits, peek_cons, if_pos hletter, advance_cons, ok_bind,
      List.append_assoc, skipSign_append hsign hnosign, ok_bind]
    exact someDigits_append _ hword hdigit

theorem integerPart_peek {word : Bytes} (h : IntegerPart word) (rest : Bytes) :
    peek (word ++ rest) ∉ [byte '-'] := by
  cases h with
  | zero => exact (by decide : byte '0' ∉ [byte '-'])
  | digits hb =>
    rw [List.cons_append, peek_cons, List.mem_singleton]
    rintro rfl
    exact absurd hb (by decide)

theorem fractionPart_peek {word rest : Bytes} (h : FractionPart word)
    (hrest : isDigit (peek rest) = false) : isDigit (peek (word ++ rest)) = false := by
  cases h with
  | none => exact hrest
  | digits => exact (by decide : isDigit (byte '.') = false)

theorem exponentPart_peek {word rest : Bytes} (h : ExponentPart word) (hstops : Stops rest) :
    isDigit (peek (word ++ rest)) = false ∧ peek (word ++ rest) ≠ byte '.' := by
  cases h with
  | none => exact ⟨hstops.isDigit, hstops.ne (by decide)⟩
  | @digits e =>
    have hletter : (bytes "eE").all fun e => isDigit e = false ∧ e ≠ byte '.' := by decide
    exact of_decide_eq_true (List.all_eq_true.mp hletter e ‹_›)

theorem skipNumber_append {word rest : Bytes} (h : NumberToken word) (hstops : Stops rest) :
    skipNumber (word ++ rest) = .ok rest := by
  obtain ⟨hs, hw, hf, he⟩ := h
  obtain ⟨hdigit, hpoint⟩ := exponentPart_peek he hstops
  have hletters : bytes "eE" ⊆ numberBytes := by decide
  simp only [skipNumber, List.append_assoc]
  rw [skipSign_append hs (integerPart_peek hw _), ok_bind,
    integerDigits_append hw (fractionPart_peek hf hdigit), ok_bind,
    fractionDigits_append hf hdigit hpoint, ok_bind,
    exponentDigits_append he hstops.isDigit fun hmem => hstops (hletters hmem)]

theorem numberToken_ne_nil {word : Bytes} (h : NumberToken word) : word ≠ [] := by
  obtain ⟨_, hw, _, _⟩ := h
  cases hw <;> simp

theorem parseNumber_append {lib : NumberLibrary D} {word rest : Bytes} {value : D}
    (h : Scans lib word value) (hstops : Stops rest) :
    parseNumber lib (word ++ rest) = .ok (value, rest) := by
  obtain ⟨htoken, hfinite, hread⟩ := h
  have hpos : word.length ≠ 0 := fun h0 =>
    numberToken_ne_nil htoken (List.length_eq_zero_iff.mp h0)
  rw [parseNumber, skipNumber_append htoken hstops, ok_bind, take_consumed,
    cString_numberToken htoken]
  simp only [hread]
  rw [if_neg (by simp [hpos, hfinite])]
  rfl

/-! ## Containers -/

/-- The word starts with a byte that is neither space nor a closing bracket. -/
def Headed (word : Bytes) : Prop := ∀ rest, peek (word ++ rest) ∉ bytes " \t\n\r]\x7d"

theorem Headed.isSpace {word : Bytes} (h : Headed word) (rest : Bytes) :
    isSpace (peek (word ++ rest)) = false := by
  have hspace : bytes " \t\n\r" ⊆ bytes " \t\n\r]\x7d" := by decide
  cases hs : Parser.isSpace (peek (word ++ rest)) with
  | false => rfl
  | true => exact absurd (hspace ((isSpace_iff _).mp hs)) (h rest)

theorem Headed.ne_closing {word : Bytes} (h : Headed word) (rest : Bytes) {close : Byte}
    (hclose : close ∈ bytes "]\x7d") : peek (word ++ rest) ≠ close := by
  have hclosing : bytes "]\x7d" ⊆ bytes " \t\n\r]\x7d" := by decide
  exact fun he => h rest (he ▸ hclosing hclose)

theorem Headed.append {word : Bytes} (h : Headed word) (word' : Bytes) : Headed (word ++ word') := by
  intro rest
  rw [List.append_assoc]
  exact h _

theorem headed_cons {b : Byte} (hb : b ∉ bytes " \t\n\r]\x7d") (word : Bytes) : Headed (b :: word) :=
  fun _ => hb

theorem stops_cons {b : Byte} (hb : b ∉ numberBytes) (rest : Bytes) : Stops (b :: rest) := hb

theorem stops_nil : Stops [] := by
  unfold Stops
  decide

theorem stops_space {space rest : Bytes} (hspace : Space space) (hrest : Stops rest) :
    Stops (space ++ rest) := by
  have hdisjoint : (bytes " \t\n\r").all fun b => b ∉ numberBytes := by decide
  cases space with
  | nil => exact hrest
  | cons b space =>
    have hb := List.all_eq_true.mp hdisjoint b (hspace b List.mem_cons_self)
    exact of_decide_eq_true (p := b ∉ numberBytes) hb

/-- What the parsers rely on for a closing bracket. -/
theorem closing_spec {close : Byte} (h : close ∈ bytes "]\x7d") :
    isSpace close = false ∧ close ∉ numberBytes ∧ close ≠ byte ',' := by
  have hall : (bytes "]\x7d").all fun close =>
      isSpace close = false ∧ close ∉ numberBytes ∧ close ≠ byte ',' := by decide
  exact of_decide_eq_true (List.all_eq_true.mp hall close h)

section Containers
variable {R : Bytes → α → Prop} {item : Bytes → Except Failure (α × Bytes)}

theorem Elements.headed {words : Bytes} {values : List α}
    (h : Elements Space (byte ',') R words values)
    (hheaded : ∀ word value, R word value → Headed word) : Headed words := by
  cases h with
  | one hR => exact (hheaded _ _ hR).append _
  | cons hR => exact (hheaded _ _ hR).append _

theorem elementsLoop_append (add : σ → α → Option σ) {close : Char}
    (hclose : byte close ∈ bytes "]\x7d") {words : Bytes} {values : List α}
    (h : Elements Space (byte ',') R words values) {result final : σ}
    (hadd : values.foldlM add result = some final)
    (hheaded : ∀ word value, R word value → Headed word)
    (hitem : ∀ word value, R word value → word.length ≤ words.length → ∀ rest, Stops rest →
      item (word ++ rest) = .ok (value, rest))
    {fuel : Nat} (hfuel : words.length < fuel) (rest : Bytes) :
    elementsLoop item add close fuel result (words ++ byte close :: rest) = .ok (final, rest) := by
  obtain ⟨hspace, hnumber, hcomma⟩ := closing_spec hclose
  have hstops : Stops (byte close :: rest) := hnumber
  induction h generalizing result fuel with
  | @one word after value hR hafter =>
    obtain ⟨fuel, rfl⟩ := Nat.exists_eq_add_of_lt hfuel
    have hvalue : add result value = some final := by simpa using hadd
    rw [elementsLoop, List.append_assoc, hitem word value hR (by simp) _ (stops_space hafter hstops),
      ok_bind]
    dsimp only
    rw [hvalue]
    dsimp only
    rw [skipSpace_append_cons hafter hspace, peek_cons, if_pos rfl, advance_cons, ok_bind]
    rfl
  | @cons word after before words value values hR hafter hbefore hwords ih =>
    obtain ⟨fuel, rfl⟩ := Nat.exists_eq_add_of_lt hfuel
    rw [List.foldlM_cons] at hadd
    obtain ⟨result', hvalue, hrest⟩ := Option.bind_eq_some_iff.mp hadd
    have hlen : words.length ≤ (word ++ (after ++ byte ',' :: (before ++ words))).length := by
      simp only [List.length_append, List.length_cons]
      omega
    have hafterStops : Stops (after ++ byte ',' :: (before ++ (words ++ byte close :: rest))) :=
      stops_space hafter (stops_cons (by decide) _)
    have hsplit : word ++ (after ++ byte ',' :: (before ++ words)) ++ byte close :: rest =
        word ++ (after ++ byte ',' :: (before ++ (words ++ byte close :: rest))) := by simp
    rw [elementsLoop, hsplit, hitem word value hR (by simp) _ hafterStops, ok_bind]
    dsimp only
    rw [hvalue]
    dsimp only
    rw [skipSpace_append_cons hafter (by decide), peek_cons, if_neg hcomma.symm, expect_cons, ok_bind,
      skipSpace_append hbefore ((Elements.headed hwords hheaded).isSpace _)]
    apply ih hrest
    · intro word' value' hR' hle
      exact hitem word' value' hR' (hle.trans hlen)
    · simp only [List.length_append, List.length_cons] at hlen ⊢
      omega

theorem parseContainer_empty (add : σ → α → Option σ) (empty : σ) (opening close : Char)
    (hclose : byte close ∈ bytes "]\x7d") {space : Bytes} (hspace : Space space) (rest : Bytes) :
    parseContainer item add empty opening close
      (byte opening :: (space ++ [byte close]) ++ rest) = .ok (empty, rest) := by
  have hsplit : byte opening :: (space ++ [byte close]) ++ rest =
      byte opening :: (space ++ byte close :: rest) := by simp
  rw [parseContainer, hsplit, expect_cons, ok_bind]
  dsimp only
  rw [skipSpace_append_cons hspace (closing_spec hclose).1, peek_cons, if_pos rfl, advance_cons,
    ok_bind]
  rfl

theorem parseContainer_append (add : σ → α → Option σ) (empty : σ) {opening close : Char}
    (hclose : byte close ∈ bytes "]\x7d") {space words : Bytes} (hspace : Space space)
    {values : List α} (h : Elements Space (byte ',') R words values) {final : σ}
    (hadd : values.foldlM add empty = some final)
    (hheaded : ∀ word value, R word value → Headed word)
    (hitem : ∀ word value, R word value → word.length ≤ words.length → ∀ rest, Stops rest →
      item (word ++ rest) = .ok (value, rest)) (rest : Bytes) :
    parseContainer item add empty opening close
      (byte opening :: (space ++ (words ++ [byte close])) ++ rest) = .ok (final, rest) := by
  have hsplit : byte opening :: (space ++ (words ++ [byte close])) ++ rest =
      byte opening :: (space ++ (words ++ byte close :: rest)) := by simp
  have hwords := Elements.headed h hheaded
  rw [parseContainer, hsplit, expect_cons, ok_bind]
  dsimp only
  rw [skipSpace_append hspace (hwords.isSpace _), if_neg (hwords.ne_closing _ hclose)]
  apply elementsLoop_append add hclose h hadd hheaded hitem
  simp only [List.length_append, List.length_cons]
  omega

end Containers

/-! ## Values -/

theorem stringToken_headed {word value : Bytes} (h : StringToken word value) : Headed word := by
  cases h
  exact headed_cons (by decide) _

theorem numberToken_headed {word : Bytes} (h : NumberToken word) : Headed word := by
  have hdisjoint : numberBytes.all fun b => b ∉ bytes " \t\n\r]\x7d" := by decide
  intro rest
  have hne := numberToken_ne_nil h
  have hsub := numberToken_subset h
  cases word with
  | nil => exact absurd rfl hne
  | cons b word =>
    exact of_decide_eq_true (List.all_eq_true.mp hdisjoint b (hsub List.mem_cons_self))

theorem derives_headed {lib : NumberLibrary D} {word : Bytes} {value : Value D}
    (h : Derives (Scans lib) word value) : Headed word := by
  cases h with
  | null => exact headed_cons (by decide) _
  | true => exact headed_cons (by decide) _
  | false => exact headed_cons (by decide) _
  | number hnumber => exact numberToken_headed hnumber.1
  | string htoken => exact stringToken_headed htoken
  | emptyArray => exact headed_cons (by decide) _
  | array => exact headed_cons (by decide) _
  | emptyObject => exact headed_cons (by decide) _
  | object => exact headed_cons (by decide) _

theorem member_headed {R : Bytes → α → Prop} {word : Bytes} {member : Bytes × α}
    (h : Member R word member) : Headed word := by
  obtain ⟨hkey, _, _, _⟩ := h
  exact (stringToken_headed hkey).append _

set_option maxRecDepth 4000 in
theorem numberStart_spec : ∀ b : Byte, (b = byte '-' ∨ isDigit b = true) →
    b ≠ byte 'n' ∧ b ≠ byte 't' ∧ b ≠ byte 'f' ∧ b ≠ byte '"' ∧ b ≠ byte '[' ∧ b ≠ byte '{' := by
  decide

theorem numberToken_peek {word : Bytes} (h : NumberToken word) (rest : Bytes) :
    peek (word ++ rest) = byte '-' ∨ isDigit (peek (word ++ rest)) = true := by
  obtain ⟨hsign, hwhole, _, _⟩ := h
  simp only [bytes, List.mem_cons, List.not_mem_nil, or_false] at hsign
  rcases hsign with rfl | rfl
  · cases hwhole with
    | zero => exact Or.inr (by decide : isDigit (byte '0') = true)
    | digits hb => exact Or.inr (isDigit_of_nonzero _ hb)
  · exact Or.inl rfl

section Complete
variable {lib : NumberLibrary D} {element : Bytes → Except Failure (Value D × Bytes)}

theorem parseMember_append {word : Bytes} {member : Bytes × Value D}
    (h : Member (Derives (Scans lib)) word member)
    (helement : ∀ word' value, Derives (Scans lib) word' value → word'.length ≤ word.length →
      ∀ rest, Stops rest → element (word' ++ rest) = .ok (value, rest))
    (rest : Bytes) (hstops : Stops rest) :
    parseMember element (word ++ rest) = .ok (member, rest) := by
  obtain @⟨key, name, before, after, word, value, hkey, hbefore, hafter, hword⟩ := h
  have hpeek (rest : Bytes) : peek (key ++ rest) = byte '"' := by
    cases hkey
    rfl
  have hsplit : key ++ (before ++ byte ':' :: (after ++ word)) ++ rest =
      key ++ (before ++ byte ':' :: (after ++ (word ++ rest))) := by simp
  rw [parseMember, hsplit, if_neg (not_not.mpr (hpeek _)), parseString_append hkey, ok_bind]
  dsimp only
  rw [skipSpace_append_cons hbefore (by decide), expect_cons, ok_bind,
    skipSpace_append hafter ((derives_headed hword).isSpace _),
    helement word value hword (by simp only [List.length_append, List.length_cons]; omega) rest
      hstops]
  rfl

theorem parseValue_string (fuel : Nat) (rest : Bytes) :
    parseValue lib (fuel + 1) (byte '"' :: rest) =
      (parseString (byte '"' :: rest)).map fun r => (.string r.1, r.2) := by
  rw [parseValue]
  cases parseString (byte '"' :: rest) <;> rfl

theorem parseValue_array (fuel : Nat) (rest : Bytes) :
    parseValue lib (fuel + 1) (byte '[' :: rest) =
      (parseArray (parseValue lib fuel) (byte '[' :: rest)).map fun r => (.array r.1, r.2) := by
  rw [parseValue]
  cases parseArray (parseValue lib fuel) (byte '[' :: rest) <;> rfl

theorem parseValue_object (fuel : Nat) (rest : Bytes) :
    parseValue lib (fuel + 1) (byte '{' :: rest) =
      (parseObject (parseValue lib fuel) (byte '{' :: rest)).map fun r => (.object r.1, r.2) := by
  rw [parseValue]
  cases parseObject (parseValue lib fuel) (byte '{' :: rest) <;> rfl

theorem parseValue_number (fuel : Nat) {input : Bytes}
    (h : peek input = byte '-' ∨ isDigit (peek input) = true) :
    parseValue lib (fuel + 1) input =
      (parseNumber lib input).map fun r => (.number r.1, r.2) := by
  obtain ⟨hn, ht, hf, hq, ha, ho⟩ := numberStart_spec _ h
  rw [parseValue, if_neg hn, if_neg ht, if_neg hf, if_neg hq, if_neg ha, if_neg ho, if_pos h]
  cases parseNumber lib input <;> rfl

/-- The element parser reads back the words of at most the given length. -/
def ReadsBack (lib : NumberLibrary D) (element : Bytes → Except Failure (Value D × Bytes))
    (length : Nat) : Prop :=
  ∀ word value, Derives (Scans lib) word value → word.length ≤ length → ∀ rest, Stops rest →
    element (word ++ rest) = .ok (value, rest)

theorem parseArray_append {space words : Bytes} {items : List (Value D)} (hspace : Space space)
    (h : Elements Space (byte ',') (Derives (Scans lib)) words items)
    (helement : ReadsBack lib element words.length) (rest : Bytes) :
    parseArray element (byte '[' :: (space ++ (words ++ [byte ']'])) ++ rest) =
      .ok (items, rest) := by
  rw [parseArray]
  exact parseContainer_append _ _ (by decide) hspace h (foldlM_append_some items [])
    (fun _ _ => derives_headed) helement rest

theorem parseObject_append {space words : Bytes} {entries members : List (Bytes × Value D)}
    (hspace : Space space) (h : Elements Space (byte ',') (Member (Derives (Scans lib))) words entries)
    (hsorted : SortedMap.Sorted members) (hperm : members.Perm entries)
    (helement : ReadsBack lib element words.length) (rest : Bytes) :
    parseObject element (byte '{' :: (space ++ (words ++ [byte '}'])) ++ rest) =
      .ok (members, rest) := by
  have hadd : SortedMap.emplaceAll [] entries = some members :=
    (SortedMap.emplaceAll_eq_some List.Pairwise.nil).mpr ⟨hsorted, by rwa [List.append_nil]⟩
  rw [parseObject]
  refine parseContainer_append _ _ (by decide) hspace h hadd (fun _ _ => member_headed) ?_ rest
  intro word member hmember hle rest hstops
  refine parseMember_append hmember ?_ rest hstops
  exact fun word' value hword hle' => helement word' value hword (hle'.trans hle)

/-- The word of a value is read back in front of anything that does not extend a number. -/
theorem parseValue_append {fuel : Nat} {word : Bytes} {value : Value D}
    (h : Derives (Scans lib) word value) (hfuel : word.length < fuel) (rest : Bytes)
    (hstops : Stops rest) : parseValue lib fuel (word ++ rest) = .ok (value, rest) := by
  induction fuel generalizing word value rest with
  | zero => simp at hfuel
  | succ fuel ih =>
    have hnested (length : Nat) (hlt : length < fuel) :
        ReadsBack lib (parseValue lib fuel) length :=
      fun _ _ hword hle => ih hword (by omega)
    cases h with
    | null => rfl
    | true => rfl
    | false => rfl
    | number hnumber =>
      rw [parseValue_number fuel (numberToken_peek hnumber.1 rest),
        parseNumber_append hnumber hstops]
      rfl
    | string htoken =>
      have hparse := parseString_append htoken rest
      obtain ⟨hbody⟩ := htoken
      rw [List.cons_append] at hparse ⊢
      rw [parseValue_string, hparse]
      rfl
    | emptyArray hspace =>
      rw [List.cons_append, parseValue_array, parseArray, ← List.cons_append,
        parseContainer_empty _ _ _ _ (by decide) hspace]
      rfl
    | @array space words items hspace hwords =>
      simp only [List.length_append, List.length_cons] at hfuel
      have hparse := parseArray_append hspace hwords (hnested words.length (by omega)) rest
      rw [List.cons_append] at hparse ⊢
      rw [parseValue_array, hparse]
      rfl
    | emptyObject hspace =>
      rw [List.cons_append, parseValue_object, parseObject, ← List.cons_append,
        parseContainer_empty _ _ _ _ (by decide) hspace]
      rfl
    | @object space words entries members hspace hwords hsorted hperm =>
      simp only [List.length_append, List.length_cons] at hfuel
      have hparse := parseObject_append hspace hwords hsorted hperm
        (hnested words.length (by omega)) rest
      rw [List.cons_append] at hparse ⊢
      rw [parseValue_object, hparse]
      rfl

theorem parseDocument_complete {text : Bytes} {value : Value D}
    (h : Document (Scans lib) text value) : parseDocument lib text = .ok value := by
  obtain @⟨before, word, after, value, hbefore, hword, hafter⟩ := h
  have hend : Stops after := List.append_nil after ▸ stops_space hafter stops_nil
  have hskip : skipSpace (after ++ []) = [] := skipSpace_append hafter (by decide)
  rw [List.append_nil] at hskip
  rw [parseDocument, skipSpace_append hbefore ((derives_headed hword).isSpace _),
    parseValue_append hword (by simp only [List.length_append]; omega) after hend, ok_bind]
  dsimp only
  rw [hskip]
  rfl

end Complete

end Branchscore.Json.Parser

namespace Branchscore.Json

open Foundation Outcome Grammar Json.Parser
set_option autoImplicit false

variable {D : Type}

theorem parse_eq_ok {lib : NumberLibrary D} {text : Bytes} {value : Value D} :
    parse lib text = .ok value ↔ Document (Scans lib) text value := by
  have hends := parseDocument_ends lib text
  constructor
  · intro h
    rw [parse] at h
    cases hparse : parseDocument lib text with
    | error e => simp [hparse, Except.mapError] at h
    | ok value' =>
      simp only [hparse, Except.mapError, Except.ok.injEq] at h
      rw [← h]
      exact hends.of_eq_ok hparse
  · intro h
    rw [parse, parseDocument_complete h]
    rfl

/-- Whatever the text, a failing parse throws, and through `fail`. -/
theorem parse_eq_error {lib : NumberLibrary D} {text : Bytes} {e : Exception}
    (h : parse lib text = .error e) : ∃ position ≤ text.length, ∃ message, e = .runtimeError
      (bytes ("invalid JSON at byte " ++ toString position ++ ": " ++ message)) := by
  have hends := parseDocument_ends lib text
  rw [parse] at h
  cases hparse : parseDocument lib text with
  | ok value => simp [hparse, Except.mapError] at h
  | error failure =>
    have hreported := hends.of_eq_error hparse
    simp only [hparse, Except.mapError, Except.error.injEq] at h
    cases failure with
    | fail unread message => exact ⟨_, Nat.sub_le text.length unread, message, h.symm⟩
    | codePoint => exact absurd hreported id
    | pastEnd => exact absurd hreported id
    | outOfFuel => exact absurd hreported id

/-- `strtod` consumes all of a JSON number. -/
def ReadsNumbers (lib : NumberLibrary D) : Prop :=
  ∀ word, NumberToken word → (lib.strtod word).2 = word.length

theorem scans_eq_denotes {lib : NumberLibrary D} (hread : ReadsNumbers lib) :
    Scans lib = Denotes lib := by
  funext word value
  apply propext
  constructor
  · rintro ⟨htoken, hfinite, h⟩
    exact ⟨htoken, hfinite, by rw [h]⟩
  · rintro ⟨htoken, hfinite, h⟩
    exact ⟨htoken, hfinite, Prod.ext h (hread word htoken)⟩

/-- The parser accepts exactly the documents of the grammar, with the value they denote.
Every other text makes it throw, and neither reading past the end of the text nor an
endless loop is among the outcomes. -/
theorem parse_iff_document (lib : NumberLibrary D) (hread : ReadsNumbers lib) (text : Bytes) :
    (∀ value, parse lib text = .ok value ↔ Document (Denotes lib) text value) ∧
    ((∀ value, ¬Document (Denotes lib) text value) → ∃ position ≤ text.length, ∃ message,
      parse lib text = .error (.runtimeError
        (bytes ("invalid JSON at byte " ++ toString position ++ ": " ++ message)))) := by
  rw [← scans_eq_denotes hread]
  refine ⟨fun value => parse_eq_ok, ?_⟩
  intro hnone
  cases hparse : parse lib text with
  | ok value => exact absurd (parse_eq_ok.mp hparse) (hnone value)
  | error e =>
    obtain ⟨position, hle, message, rfl⟩ := parse_eq_error hparse
    exact ⟨position, hle, message, rfl⟩

instance digitCount : NeZero 10 := ⟨by decide⟩

/-- Doubles that are single decimal digits. -/
def digitNumbers : NumberLibrary (Fin 10) where
  isfinite _ := true
  strtod text := (Fin.ofNat 10 ((text.headD 0).val - (byte '0').val), text.length)
  print value := [byte '0' + ⟨value.val, by omega⟩]

theorem parse_iff_document_sample :
    parse digitNumbers (bytes " \x7b\"a\" : [1,\ttrue], \"\\u0041\": \"\\n\"\x7d") =
        .ok (.object [(bytes "A", .string (bytes "\n")),
          (bytes "a", .array [.number 1, .boolean true])]) ∧
      Document (Denotes digitNumbers) (bytes " \x7b\"a\" : [1,\ttrue], \"\\u0041\": \"\\n\"\x7d")
        (.object [(bytes "A", .string (bytes "\n")),
          (bytes "a", .array [.number 1, .boolean true])]) :=
  ⟨rfl, ((parse_iff_document digitNumbers (fun _ _ => rfl) _).1 _).mp rfl⟩

end Branchscore.Json
