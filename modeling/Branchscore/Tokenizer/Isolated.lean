import Branchscore.Foundation.Isolated
import Branchscore.Foundation.Words
import Branchscore.Tokenizer.Lossless

/-!
# Markers among the tokens

A special token that nothing overlaps is one token where it stands. A special token that
does not stand in a text is not among its tokens.
-/

namespace Branchscore

open Foundation Foundation.Outcome Foundation.Search Foundation.Scan Foundation.Words
set_option autoImplicit false

namespace GemmaTokenizer
variable (t : GemmaTokenizer)

theorem tokenize_pieces (hne : ∀ special ∈ t.specialTokens, special.text ≠ []) {text : Bytes}
    {pieces : List (Piece Byte SpecialToken)}
    (h : Segments SpecialToken.text t.specialTokens text pieces) :
    t.tokenize text false true = t.emit pieces := by
  have hne' : t.NonemptySpecials true := by simpa [NonemptySpecials] using hne
  have h' : Segments SpecialToken.text (t.eligible true) text pieces := by simpa using h
  have hemit := t.tokenize_eq_emit hne' h' false
  rw [hemit]
  cases t.emit pieces <;> rfl

/-- The text in front of a marker and the text behind it are tokenized on their own. -/
theorem tokenize_isolated {special : SpecialToken} {a b : Bytes}
    (h : Isolated SpecialToken.text t.specialTokens a special.text b)
    (hmem : special ∈ t.specialTokens) (hsize : 2 ≤ special.text.length) {ids : List TokenId} :
    t.tokenize (a ++ (special.text ++ b)) false true = .ok ids ↔
      ∃ before after, t.tokenize a false true = .ok before ∧ t.tokenize b false true = .ok after ∧
        ids = before ++ special.id :: after := by
  have hne : ∀ special ∈ t.specialTokens, special.text ≠ [] := fun q hq => h.nonempty hsize hq
  have hfirst : LongestFirst SpecialToken.text t.specialTokens := by
    simpa using t.eligible_longestFirst true
  obtain ⟨sa, ha⟩ := Segments.total hne a
  obtain ⟨sb, hb⟩ := Segments.total hne b
  rw [t.tokenize_pieces hne (Segments.isolated h hmem hne hfirst ha hb), t.tokenize_pieces hne ha,
    t.tokenize_pieces hne hb, emit_append]
  simp only [bind_eq_ok, pure_eq_ok, emit, emitPiece]
  constructor
  · rintro ⟨before, hbefore, rest, hrest, hids⟩
    obtain ⟨head, hhead, after, hafter, hrest⟩ := hrest
    cases hhead
    cases hrest
    cases hids
    exact ⟨before, after, hbefore, hafter, rfl⟩
  · rintro ⟨before, after, hbefore, hafter, rfl⟩
    exact ⟨before, hbefore, _, ⟨[special.id], rfl, after, hafter, rfl⟩, rfl⟩

/-! ## Tokens of a text -/

theorem findToken_special {special : SpecialToken} (h : special ∈ t.specialTokens) :
    t.findToken special.text = some special.id :=
  t.findToken_eq_some.mpr (t.mem_specialTokens h)

omit t in
theorem escapeSpaces_spares {word : Bytes}
    (h : ∀ b ∈ word, b ≠ byte ' ' ∧ b ∉ ([0xE2, 0x96, 0x81] : Bytes)) :
    Spares (fun b => if b = byte ' ' then [0xE2, 0x96, 0x81] else [b]) word := by
  intro b
  dsimp only
  by_cases hb : b = byte ' '
  · refine Or.inr ⟨fun hmem => (h b hmem).1 hb, ?_, ?_⟩
    · rw [if_pos hb]
      exact ⟨0xE2, rfl, fun hmem => (h _ hmem).2 List.mem_cons_self⟩
    · intro x hx
      rw [if_pos hb]
      exact (h x (List.mem_of_mem_head? hx)).2
  · exact Or.inl (if_neg hb)

/-- A piece that is no byte fallback and has no escaped space stands in the text where its
id is among the tokens. -/
theorem infix_of_mem_tokenize (hne : ∀ special ∈ t.specialTokens, special.text ≠ [])
    {word text : Bytes} {id : TokenId} {ids : List TokenId} (hid : t.findToken word = some id)
    (hword : ∀ b ∈ word, b ≠ byte ' ' ∧ b ∉ ([0xE2, 0x96, 0x81] : Bytes))
    (hbyte : ∀ b, bytePiece b ≠ word) (h : t.tokenize text false true = .ok ids)
    (hmem : id ∈ ids) : word <:+: text := by
  have hpieceId {piece : Bytes} (hpiece : t.pieceToId piece = some id) : piece = word :=
    Option.some.inj ((t.findToken_eq_some.mp hpiece).symm.trans (t.findToken_eq_some.mp hid))
  obtain ⟨pieces, groups, hlongest, _, _, htext, hgroups, hids, _⟩ := t.tokenize_lossless hne h
  rw [hids] at hmem
  obtain ⟨chunk, hchunk, hmem⟩ := List.mem_flatMap.mp hmem
  obtain ⟨group, hgroup, hchunk⟩ := List.mem_flatten.mp hchunk
  obtain ⟨piece, hpiece, hchunks⟩ := exists_left_of_mem hgroups hgroup
  have hstands : piece.toText SpecialToken.text <:+: text := by
    rw [← htext]
    exact List.infix_of_mem_flatten (List.mem_map_of_mem hpiece)
  refine List.IsInfix.trans ?_ hstands
  cases piece with
  | raw raw =>
    have hescaped : chunk.text <:+: escapeSpaces raw := by
      have hflat := hchunks.flatMap_text
      rw [escapedText] at hflat
      rw [← hflat]
      exact List.infix_of_mem_flatten (List.mem_map_of_mem hchunk)
    have hemits : t.Emits chunk.text chunk.ids := by
      obtain ⟨runs, parts, _, hparts, rfl⟩ := hchunks
      obtain ⟨part, hpart, hchunk⟩ := List.mem_flatten.mp hchunk
      obtain ⟨run, _, hrun⟩ := exists_left_of_mem hparts hpart
      exact hrun.2 chunk hchunk
    rcases hemits with ⟨id', hid', hone⟩ | ⟨_, hbytes⟩
    · rw [hone] at hmem
      cases List.mem_singleton.mp hmem
      rw [hpieceId hid'] at hescaped
      exact (escapeSpaces_spares hword).infix_flatMap_iff.mp hescaped
    · obtain ⟨b, _, hb⟩ := exists_left_of_mem hbytes hmem
      exact absurd (hpieceId hb) (hbyte b)
  | hit special =>
    cases hchunks
    cases List.mem_singleton.mp hchunk
    cases List.mem_singleton.mp hmem
    have hspecial : special ∈ t.specialTokens := by
      simpa using hlongest.mem_of_hit hpiece
    have hword : special.text = word := hpieceId (t.findToken_special hspecial)
    rw [Piece.toText, hword]

end GemmaTokenizer

end Branchscore
