import Branchscore.Tokenizer.Lossless

/-!
# Progress of the scanning loop

`from_gguf` does not reject empty special pieces, and the loop of `tokenize` stands
still on one. This says exactly when.
-/

namespace Branchscore

open Foundation Foundation.Outcome Foundation.Search Foundation.Scan
set_option autoImplicit false

namespace GemmaTokenizer
variable (t : GemmaTokenizer)

/-- The raw stretch in front of a match. -/
def tokenizeLead (rest : Bytes) (matchPosition : Nat) : Except Exception (List TokenId) :=
  if 0 < matchPosition then t.tokenizeRaw (rest.take matchPosition) else .ok []

/-- Where the loop of `tokenize` goes on from a position, unless it ends there. -/
def turn (parseSpecial : Bool) (text : Bytes) (position : Nat) : Option Nat :=
  if position < text.length then
    match earliest SpecialToken.text (t.eligible parseSpecial) (text.drop position) with
    | none => none
    | some (i, special) =>
      match t.tokenizeLead (text.drop position) i with
      | .error _ => none
      | .ok _ => some (position + i + special.text.length)
  else none

def Reaches (parseSpecial : Bool) (text : Bytes) : Nat → Nat → Prop :=
  Relation.ReflTransGen fun a b => t.turn parseSpecial text a = some b

/-- Every turn that does not end the loop moves forward. -/
def Progresses (parseSpecial : Bool) (text : Bytes) : Prop :=
  ∀ position next, t.Reaches parseSpecial text 0 position →
    t.turn parseSpecial text position = some next → position < next

/-- The text is used up by taking the longest special token it starts with again and
again. -/
inductive Tiled (specials : List SpecialToken) : Bytes → Prop where
  | nil {text : Bytes} : text = [] → Tiled specials text
  | cons {text : Bytes} {special : SpecialToken} : special.text ≠ [] →
      IsLongest SpecialToken.text specials text 0 special →
      Tiled specials (text.drop special.text.length) → Tiled specials text

theorem turn_eq_some {parseSpecial : Bool} {text : Bytes} {position next : Nat}
    (h : t.turn parseSpecial text position = some next) :
    ∃ i special, position < text.length ∧
      IsLongest SpecialToken.text (t.eligible parseSpecial) (text.drop position) i special ∧
      next = position + i + special.text.length := by
  unfold turn at h
  split at h
  · rename_i hlt
    split at h
    · cases h
    · rename_i i special he
      split at h
      · cases h
      · cases h
        exact ⟨i, special, hlt,
          (earliest_eq_some_iff (t.eligible_longestFirst parseSpecial)).mp he, rfl⟩
  · cases h

/-! ## Tokenization of a stretch never diverges -/

theorem tokenizeSegment_ends (segment : Bytes) :
    Ends (· ≠ .diverges) (fun _ => True) (t.tokenizeSegment segment) := by
  unfold tokenizeSegment
  split
  · trivial
  · split
    · trivial
    · refine (Ends.mapM (R := fun _ _ => True) fun text _ => ?_).bind fun _ _ => trivial
      unfold emitSymbol
      split
      · trivial
      · refine (Ends.mapM (R := fun _ _ => True) fun b _ => ?_).mono fun _ _ => trivial
        split
        · trivial
        · exact nofun

theorem tokenizeRaw_ends (raw : Bytes) :
    Ends (· ≠ .diverges) (fun _ => True) (t.tokenizeRaw raw) :=
  (Ends.mapM (R := fun _ _ => True) fun run _ => t.tokenizeSegment_ends run).bind
    fun _ _ => trivial

theorem emit_ends (pieces : List (Piece Byte SpecialToken)) :
    Ends (· ≠ .diverges) (fun _ => True) (t.emit pieces) := by
  induction pieces with
  | nil => trivial
  | cons piece pieces ih =>
    have hpiece : Ends (· ≠ .diverges) (fun _ => True) (t.emitPiece piece) := by
      cases piece with
      | raw raw => exact t.tokenizeRaw_ends raw
      | hit special => trivial
    exact hpiece.bind fun _ _ => ih.bind fun _ _ => trivial

/-! ## Where the loop moves -/

theorem progresses_of_nonempty {parseSpecial : Bool} (h : t.NonemptySpecials parseSpecial)
    (text : Bytes) : t.Progresses parseSpecial text := by
  intro position next _ hturn
  obtain ⟨i, special, -, hlongest, rfl⟩ := t.turn_eq_some hturn
  have := List.length_pos_of_ne_nil (h special hlongest.mem)
  omega

theorem tokenize_of_nonempty {parseSpecial : Bool} (h : t.NonemptySpecials parseSpecial)
    (text : Bytes) (addBos : Bool) :
    Ends (· ≠ .diverges) (fun _ => True) (t.tokenize text addBos parseSpecial) := by
  obtain ⟨pieces, hpieces⟩ := Segments.total h text
  unfold tokenize
  rw [t.scanTokens_eq_emit h hpieces (Nat.lt_succ_self _)]
  exact (t.emit_ends pieces).bind fun _ _ => trivial

theorem tiled_of_reaches {parseSpecial : Bool} {text : Bytes} {position next : Nat}
    (htiled : Tiled (t.eligible parseSpecial) (text.drop position))
    (h : t.turn parseSpecial text position = some next) :
    position < next ∧ Tiled (t.eligible parseSpecial) (text.drop next) := by
  obtain ⟨i, special, hlt, hlongest, rfl⟩ := t.turn_eq_some h
  cases htiled with
  | nil hnil =>
    rw [List.drop_eq_nil_iff] at hnil
    omega
  | cons hne hfirst htail =>
    obtain ⟨rfl, rfl⟩ := hlongest.unique (t.eligible_longestFirst parseSpecial) hfirst
    have := List.length_pos_of_ne_nil hne
    rw [Nat.add_zero]
    rw [List.drop_drop] at htail
    exact ⟨by omega, htail⟩

theorem progresses_of_tiled {parseSpecial : Bool} {text : Bytes}
    (h : Tiled (t.eligible parseSpecial) text) : t.Progresses parseSpecial text := by
  intro position next hreaches hturn
  have htiled : Tiled (t.eligible parseSpecial) (text.drop position) := by
    clear hturn
    induction hreaches with
    | refl => exact h
    | tail _ hturn ih => exact (t.tiled_of_reaches ih hturn).2
  exact (t.tiled_of_reaches htiled hturn).1

theorem scanTokens_of_tiled {parseSpecial : Bool} {text : Bytes}
    (h : Tiled (t.eligible parseSpecial) text) {fuel : Nat} (hf : text.length < fuel) :
    ∃ ids, t.scanTokens parseSpecial fuel text = .ok ids := by
  induction h generalizing fuel with
  | nil hnil =>
    obtain ⟨fuel, rfl⟩ := Nat.exists_eq_add_of_lt hf
    exact ⟨[], by rw [scanTokens, if_pos hnil]⟩
  | @cons text special hne hfirst _ ih =>
    obtain ⟨fuel, rfl⟩ := Nat.exists_eq_add_of_lt hf
    have hpos := List.length_pos_of_ne_nil hne
    have hend := hfirst.occurs.end_le (Nat.zero_le _)
    have hdrop : (text.drop special.text.length).length < text.length + fuel := by
      rw [List.length_drop]
      omega
    obtain ⟨ids, hok⟩ := ih hdrop
    have he := (earliest_eq_some_iff (t.eligible_longestFirst parseSpecial)).mpr hfirst
    have htext : text ≠ [] := by
      rintro rfl
      rw [List.length_nil] at hend
      omega
    exact ⟨special.id :: ids, by simp [scanTokens, htext, he, hok]⟩

theorem tokenize_of_tiled {parseSpecial : Bool} {text : Bytes}
    (h : Tiled (t.eligible parseSpecial) text) (addBos : Bool) :
    ∃ ids, t.tokenize text addBos parseSpecial = .ok ids := by
  obtain ⟨ids, hok⟩ := t.scanTokens_of_tiled h (Nat.lt_succ_self _)
  exact ⟨_, by rw [tokenize, hok]; rfl⟩

/-! ## Where the loop stands still -/

/-- An empty special token is found everywhere, so something is matched at once. -/
theorem earliest_of_empty {parseSpecial : Bool} {empty : SpecialToken}
    (hmem : empty ∈ t.eligible parseSpecial) (hempty : empty.text = []) (rest : Bytes) :
    ∃ special, earliest SpecialToken.text (t.eligible parseSpecial) rest = some (0, special) ∧
      IsLongest SpecialToken.text (t.eligible parseSpecial) rest 0 special := by
  rcases earliest_cases SpecialToken.text (t.eligible parseSpecial) rest with
    ⟨-, hnone⟩ | ⟨i, special, he, hspecial⟩
  · have := hnone empty hmem
    rw [hempty, find?_nil_pattern] at this
    cases this
  · have hi := hspecial.le hmem (j := 0) (by rw [hempty, find?_nil_pattern])
    obtain rfl : i = 0 := by omega
    exact ⟨special, he, hspecial.isLongest (t.eligible_longestFirst parseSpecial)⟩

theorem diverges_of_not_tiled {parseSpecial : Bool} {empty : SpecialToken}
    (hmem : empty ∈ t.eligible parseSpecial) (hempty : empty.text = []) {rest : Bytes}
    (h : ¬Tiled (t.eligible parseSpecial) rest) (fuel : Nat) :
    t.scanTokens parseSpecial fuel rest = .error .diverges := by
  induction fuel generalizing rest with
  | zero => rfl
  | succ fuel ih =>
    obtain ⟨special, he, hlongest⟩ := t.earliest_of_empty hmem hempty rest
    have hrest : rest ≠ [] := fun hnil => h (.nil hnil)
    have htail : ¬Tiled (t.eligible parseSpecial) (rest.drop special.text.length) := by
      by_cases hne : special.text = []
      · rwa [hne, List.length_nil, List.drop_zero]
      · exact fun htail => h (.cons hne hlongest htail)
    simp [scanTokens, hrest, he, ih htail]

theorem stands_of_not_tiled {parseSpecial : Bool} {empty : SpecialToken}
    (hmem : empty ∈ t.eligible parseSpecial) (hempty : empty.text = []) {text : Bytes}
    {position : Nat} (h : ¬Tiled (t.eligible parseSpecial) (text.drop position)) :
    ∃ stuck, t.Reaches parseSpecial text position stuck ∧
      t.turn parseSpecial text stuck = some stuck := by
  induction hn : text.length - position using Nat.strong_induction_on generalizing position with
  | _ n ih =>
    obtain ⟨special, he, hlongest⟩ := t.earliest_of_empty hmem hempty (text.drop position)
    have hlt : position < text.length := by
      by_contra hge
      exact h (.nil (List.drop_eq_nil_iff.mpr (by omega)))
    have hturn : t.turn parseSpecial text position = some (position + special.text.length) := by
      simp [turn, hlt, he, tokenizeLead]
    by_cases hne : special.text = []
    · rw [hne] at hturn
      exact ⟨position, .refl, hturn⟩
    · have hpos := List.length_pos_of_ne_nil hne
      have htail : ¬Tiled (t.eligible parseSpecial)
          (text.drop (position + special.text.length)) := by
        rw [← List.drop_drop]
        exact fun htail => h (.cons hne hlongest htail)
      obtain ⟨stuck, hreaches, hstuck⟩ := ih _ (by omega) htail rfl
      exact ⟨stuck, .head hturn hreaches, hstuck⟩

/-- The longest matches alone use the text up, or no eligible special token is empty. -/
def Moves (parseSpecial : Bool) (text : Bytes) : Prop :=
  t.NonemptySpecials parseSpecial ∨ Tiled (t.eligible parseSpecial) text

theorem exists_empty_of_not_moves {parseSpecial : Bool} {text : Bytes}
    (h : ¬t.Moves parseSpecial text) :
    (∃ empty ∈ t.eligible parseSpecial, empty.text = []) ∧
      ¬Tiled (t.eligible parseSpecial) text := by
  simpa only [Moves, NonemptySpecials, not_or, not_forall, not_not, exists_prop] using h

theorem progresses_iff {parseSpecial : Bool} {text : Bytes} :
    t.Progresses parseSpecial text ↔ t.Moves parseSpecial text := by
  constructor
  · intro h
    by_contra hmoves
    obtain ⟨⟨empty, hmem, hempty⟩, htiled⟩ := t.exists_empty_of_not_moves hmoves
    rw [← List.drop_zero (l := text)] at htiled
    obtain ⟨stuck, hreaches, hstuck⟩ := t.stands_of_not_tiled hmem hempty htiled
    exact Nat.lt_irrefl stuck (h stuck stuck hreaches hstuck)
  · rintro (hne | htiled)
    · exact t.progresses_of_nonempty hne text
    · exact t.progresses_of_tiled htiled

theorem tokenize_diverges_iff {parseSpecial : Bool} {text : Bytes} {addBos : Bool} :
    t.tokenize text addBos parseSpecial ≠ .error .diverges ↔ t.Moves parseSpecial text := by
  constructor
  · intro h
    by_contra hmoves
    obtain ⟨⟨empty, hmem, hempty⟩, htiled⟩ := t.exists_empty_of_not_moves hmoves
    refine h ?_
    rw [tokenize, t.diverges_of_not_tiled hmem hempty htiled]
    rfl
  · rintro (hne | htiled) he
    · exact (t.tokenize_of_nonempty hne text addBos).of_eq_error he rfl
    · obtain ⟨ids, hok⟩ := t.tokenize_of_tiled htiled addBos
      rw [hok] at he
      cases he

/-- The file types an empty piece as special. -/
def EmptySpecial (context : Gguf) : Prop :=
  ∃ tokens types, requireTokens context = .ok tokens ∧
    requireTokenTypes context tokens.length = .ok types ∧
    ∃ (i : Nat) (type : Int), tokens[i]? = some [] ∧ types.1[i]? = some type ∧ isSpecialType type = true

theorem effectiveType_nil (type : Int) : effectiveType [] type = type := by
  rw [effectiveType, if_neg (by decide)]

theorem emptySpecial_iff {context : Gguf} {t : GemmaTokenizer} (h : fromGguf context = .ok t) :
    EmptySpecial context ↔ ∃ special ∈ t.specialTokens, special.text = [] := by
  obtain ⟨htokens, types, htypes, htokenTypes⟩ := fromGguf_spec h
  have htype : ∀ i : Nat, t.idToPiece[i]? = some [] → t.tokenTypes[i]? = types.1[i]? := by
    intro i hi
    rw [htokenTypes, List.getElem?_zipWith, hi]
    cases types.1[i]? with
    | none => rfl
    | some type => exact congrArg some (effectiveType_nil type)
  constructor
  · rintro ⟨tokens, types', htokens', htypes', i, type, hi, htype', hspecial⟩
    cases htokens.symm.trans htokens'
    cases htypes.symm.trans htypes'
    refine ⟨⟨[], i, type⟩, t.mem_specialTokens_iff.mpr ⟨hi, ?_, hspecial⟩, rfl⟩
    exact (htype i hi).trans htype'
  · rintro ⟨⟨text, i, type⟩, hmem, rfl⟩
    obtain ⟨hi, htype', hspecial⟩ := t.mem_specialTokens_iff.mp hmem
    exact ⟨_, types, htokens, htypes, i, type, hi, (htype i hi).symm.trans htype', hspecial⟩

/-- A text of one NUL is never used up, since no piece contains a NUL. -/
theorem not_tiled_zero {context : Gguf} {t : GemmaTokenizer} (h : fromGguf context = .ok t)
    (parseSpecial : Bool) : ¬Tiled (t.eligible parseSpecial) [0] := by
  intro htiled
  cases htiled with
  | nil hnil => cases hnil
  | cons hne hlongest _ =>
    rename_i special
    have hpiece := t.mem_specialTokens (List.mem_of_mem_filter hlongest.mem)
    have hzero := zero_notMem_piece (fromGguf_spec h).1 (List.mem_of_getElem? hpiece)
    obtain ⟨rest, hrest⟩ := occursAt_zero.mp hlongest.occurs
    rcases List.append_eq_singleton_iff.mp hrest with ⟨hnil, -⟩ | ⟨hsingle, -⟩
    · exact hne hnil
    · exact hzero (by simp [hsingle])

/-- The loop moves on at every turn, and `tokenize` returns or throws, exactly where no
eligible special token is empty or the longest matches use the text up. It does so on
every text exactly for a file that types no empty piece as special. -/
theorem tokenize_progresses_iff {context : Gguf} {t : GemmaTokenizer}
    (h : fromGguf context = .ok t) :
    (∀ parseSpecial text,
      (t.Progresses parseSpecial text ↔ t.Moves parseSpecial text) ∧
      (∀ addBos, t.tokenize text addBos parseSpecial ≠ .error .diverges ↔
        t.Moves parseSpecial text) ∧
      (¬t.Moves parseSpecial text →
        ∀ fuel, t.scanTokens parseSpecial fuel text = .error .diverges)) ∧
    ((∀ parseSpecial text, t.Progresses parseSpecial text ∧
      ∀ addBos, t.tokenize text addBos parseSpecial ≠ .error .diverges) ↔
        ¬EmptySpecial context) := by
  refine ⟨fun _ _ => ⟨t.progresses_iff, fun _ => t.tokenize_diverges_iff, fun hmoves => ?_⟩, ?_⟩
  · obtain ⟨⟨empty, hmem, hempty⟩, htiled⟩ := t.exists_empty_of_not_moves hmoves
    exact t.diverges_of_not_tiled hmem hempty htiled
  rw [emptySpecial_iff h]
  constructor
  · rintro hall ⟨special, hmem, hempty⟩
    rcases t.progresses_iff.mp (hall true [0]).1 with hne | htiled
    · exact hne special (by rwa [eligible_true]) hempty
    · exact not_tiled_zero h true htiled
  · intro hnone parseSpecial text
    have hmoves : t.Moves parseSpecial text := Or.inl fun special hmem hempty =>
      hnone ⟨special, List.mem_of_mem_filter hmem, hempty⟩
    exact ⟨t.progresses_iff.mpr hmoves, fun _ => t.tokenize_diverges_iff.mpr hmoves⟩

end GemmaTokenizer

/-- The second of two pieces is a normal token, the first an empty control token. -/
def emptySpecialFile : Gguf where
  entries := [("tokenizer.ggml.model", GgufValue.string (bytes "gemma4")),
    ("tokenizer.ggml.tokens", .array (.string [[], bytes "a"])),
    ("tokenizer.ggml.token_type", .array (.int32 [3, 1])),
    ("tokenizer.ggml.merges", .array (.string [])),
    ("tokenizer.ggml.bos_token_id", .uint32 0),
    ("tokenizer.ggml.eos_token_id", .uint32 1)].map fun entry => (bytes entry.1, entry.2)
  tensors := []

def emptySpecialTokenizer : GemmaTokenizer where
  idToPiece := [[], bytes "a"]
  tokenTypes := [3, 1]
  merges := []
  bos := 0
  eos := 1
  chatTemplate := none
  unique := by decide
  typed := by decide
  bos_lt := by decide
  eos_lt := by decide

theorem emptySpecialFile_loads :
    GemmaTokenizer.fromGguf emptySpecialFile = .ok emptySpecialTokenizer := by
  decide +kernel

theorem emptySpecial_turn : emptySpecialTokenizer.turn true (bytes "a") 0 = some 0 := by
  decide +kernel

theorem emptySpecial_stands : ¬emptySpecialTokenizer.Progresses true (bytes "a") :=
  fun h => Nat.lt_irrefl 0 (h 0 0 .refl emptySpecial_turn)

/-- The loop stands still at the start of `a`. -/
theorem tokenize_progresses_fails :
    GemmaTokenizer.fromGguf emptySpecialFile = .ok emptySpecialTokenizer ∧
    emptySpecialTokenizer.turn true (bytes "a") 0 = some 0 ∧
    ¬emptySpecialTokenizer.Progresses true (bytes "a") ∧
    emptySpecialTokenizer.tokenize (bytes "a") false true = .error .diverges :=
  ⟨emptySpecialFile_loads, emptySpecial_turn, emptySpecial_stands, by decide +kernel⟩

/-- Where control tokens are plain text the loop leaves `a`; where they are parsed no fuel
is enough. -/
theorem tokenize_progresses_iff_sample :
    emptySpecialTokenizer.Progresses false (bytes "a") ∧
    (∀ addBos, emptySpecialTokenizer.tokenize (bytes "a") addBos false ≠ .error .diverges) ∧
    ¬emptySpecialTokenizer.Progresses true (bytes "a") ∧
    (∀ fuel, emptySpecialTokenizer.scanTokens true fuel (bytes "a") = .error .diverges) ∧
    GemmaTokenizer.EmptySpecial emptySpecialFile := by
  obtain ⟨htexts, hfile⟩ := GemmaTokenizer.tokenize_progresses_iff emptySpecialFile_loads
  obtain ⟨hplain, hreturns, -⟩ := htexts false (bytes "a")
  obtain ⟨hparsed, -, hdiverges⟩ := htexts true (bytes "a")
  have hmoves : emptySpecialTokenizer.Moves false (bytes "a") :=
    Or.inl (by unfold GemmaTokenizer.NonemptySpecials; decide +kernel)
  refine ⟨hplain.mpr hmoves, fun addBos => (hreturns addBos).mpr hmoves, emptySpecial_stands,
    hdiverges fun h => emptySpecial_stands (hparsed.mpr h), ?_⟩
  by_contra hnone
  exact emptySpecial_stands (hfile.mpr hnone true (bytes "a")).1

end Branchscore
