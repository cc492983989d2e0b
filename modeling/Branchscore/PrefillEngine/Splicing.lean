import Branchscore.PrefillEngine.Chunks

/-!
# Tokens and visual rows in the chunks

The rows and per-layer ids of the chunks, put together, are those of the sequence
`tokens before ++ visual rows ++ tokens after`.
-/

namespace Branchscore

open Foundation Outcome CausalPass
set_option autoImplicit false

namespace PrefillEngine

section Splice
variable {Row : Type} (ops : TensorOps Row) (model : ModelBundle) (tokenEmbedding : GgufTensor)
  (tokensBeforeImage : List TokenId) (visualTokens : Option (VisualTokens Row))
  (tokensAfterImage : List TokenId)

def visualRows : List Row :=
  match visualTokens with
  | none => []
  | some visual => (List.range visual.tokenCount).map visual.row

/-- The input rows of the whole sequence. -/
def inputRows : List Row :=
  tokensBeforeImage.map (textRow ops model tokenEmbedding) ++ visualRows visualTokens ++
    tokensAfterImage.map (textRow ops model tokenEmbedding)

/-- The per-layer ids of the whole sequence. -/
def inputIds : List TokenId :=
  tokensBeforeImage ++ List.replicate (visualCount visualTokens) 0 ++ tokensAfterImage

theorem visualRows_length : (visualRows visualTokens).length = visualCount visualTokens := by
  cases visualTokens with
  | none => rfl
  | some visual =>
    rw [visualRows, List.length_map, List.length_range]
    rfl

theorem inputIds_getElem? {position : Nat}
    (h : position < totalCount tokensBeforeImage visualTokens tokensAfterImage) :
    (inputIds tokensBeforeImage visualTokens tokensAfterImage)[position]? =
      some (perLayerId tokensBeforeImage visualTokens tokensAfterImage position) := by
  unfold totalCount at h
  unfold inputIds perLayerId
  dsimp only
  by_cases hbefore : position < tokensBeforeImage.length
  · rw [if_pos hbefore, List.append_assoc, List.getElem?_append_left hbefore,
      List.getElem?_eq_getElem hbefore, List.getD_eq_getElem _ _ hbefore]
  rw [if_neg hbefore]
  by_cases hvisual : tokensBeforeImage.length + visualCount visualTokens ≤ position
  · have hlength : (tokensBeforeImage ++ List.replicate (visualCount visualTokens) 0).length ≤
        position := by
      rwa [List.length_append, List.length_replicate]
    rw [if_pos hvisual, List.getElem?_append_right hlength, List.length_append,
      List.length_replicate, List.getElem?_eq_getElem (by omega),
      List.getD_eq_getElem _ _ (by omega)]
  · rw [if_neg hvisual, List.append_assoc, List.getElem?_append_right (by omega),
      List.getElem?_append_left (by rw [List.length_replicate]; omega), List.getElem?_replicate,
      if_pos (by omega)]

/-- The rows of `tokenSequence` are those of the three segments. -/
theorem inputRows_getElem? {position : Nat}
    (h : position < totalCount tokensBeforeImage visualTokens tokensAfterImage) :
    (inputRows ops model (textWeight model (bytes "token_embd.weight")) tokensBeforeImage
        visualTokens tokensAfterImage)[position]? =
      some ((tokenSequence ops model tokensBeforeImage visualTokens tokensAfterImage).input
        position) := by
  unfold totalCount at h
  unfold inputRows tokenSequence
  dsimp only
  by_cases hbefore : position < tokensBeforeImage.length
  · rw [if_pos hbefore, List.append_assoc,
      List.getElem?_append_left (by rwa [List.length_map]), List.getElem?_map,
      List.getElem?_eq_getElem hbefore, List.getD_eq_getElem _ _ hbefore]
    rfl
  rw [if_neg hbefore]
  by_cases hvisual : tokensBeforeImage.length + visualCount visualTokens ≤ position
  · have hlength : (tokensBeforeImage.map (textRow ops model
        (textWeight model (bytes "token_embd.weight"))) ++ visualRows visualTokens).length ≤
        position := by
      rwa [List.length_append, List.length_map, visualRows_length]
    rw [rowBehind_text _ _ _ _ (by omega), List.getElem?_append_right hlength, List.length_append,
      List.length_map, visualRows_length, List.getElem?_map, List.getElem?_eq_getElem (by omega),
      List.getD_eq_getElem _ _ (by omega)]
    simp only [Option.map_some, Nat.sub_sub]
  · have hindex : position - tokensBeforeImage.length < visualCount visualTokens := by omega
    rw [List.append_assoc, List.getElem?_append_right (by rw [List.length_map]; omega),
      List.getElem?_append_left (by rw [List.length_map, visualRows_length]; omega),
      List.length_map]
    cases visualTokens with
    | none => exact absurd hindex (Nat.not_lt_zero _)
    | some visual =>
      have hcount : position - tokensBeforeImage.length < visual.tokenCount := hindex
      rw [visualRows, List.getElem?_map, List.getElem?_range hcount, rowBehind]
      dsimp only
      rw [if_pos hcount]
      rfl

/-- A list read at consecutive positions is a slice of it. -/
theorem range'_map_eq_slice {α : Type} {xs : List α} {f : Nat → α} {start count : Nat}
    (h : ∀ position < start + count, xs[position]? = some (f position)) :
    (List.range' start count).map f = (xs.drop start).take count := by
  apply List.ext_getElem?
  intro i
  rw [List.getElem?_map, List.getElem?_take]
  by_cases hi : i < count
  · rw [if_pos hi, List.getElem?_drop, List.getElem?_range' hi, h (start + i) (by omega),
      Option.map_some, Nat.one_mul]
  · rw [if_neg hi, List.getElem?_eq_none (by rw [List.length_range']; omega), Option.map_none]

/-- The part of a segment that a chunk takes lies within the segment. -/
def WithinSegment (segmentStart segmentLength chunkStart chunkEnd : Nat) : Prop :=
  let overlapStart := overlapStart segmentStart chunkStart
  let overlapEnd := overlapEnd (segmentStart + segmentLength) chunkEnd
  overlapStart < overlapEnd →
    segmentStart ≤ overlapStart ∧ overlapEnd - segmentStart ≤ segmentLength ∧
      overlapStart - segmentStart + (overlapEnd - overlapStart) ≤ segmentLength

theorem withinSegment (segmentStart segmentLength chunkStart chunkEnd : Nat) :
    WithinSegment segmentStart segmentLength chunkStart chunkEnd := by
  unfold WithinSegment overlapStart overlapEnd
  dsimp only
  intro h
  omega

/-- What the chunks of a sequence of `count` positions are made of. -/
structure Splices (count : Nat) (source : ChunkSource Row) (rows : List Row) (ids : List TokenId) :
    Prop where
  partition : (chunkStarts count).flatMap (fun start => List.range' start (chunkCount count start)) =
    List.range count
  chunkRows : ∀ start ∈ chunkStarts count,
    source.rows start (chunkCount count start) = (rows.drop start).take (chunkCount count start)
  rowCount : ∀ start ∈ chunkStarts count,
    (source.rows start (chunkCount count start)).length = chunkCount count start
  chunkIds : ∀ start ∈ chunkStarts count,
    source.ids start (chunkCount count start) = (ids.drop start).take (chunkCount count start)
  positions : ∀ start ∈ chunkStarts count, ∀ index < chunkCount count start,
    start + index < 2 ^ 31 →
      (positionValues start (chunkCount count start))[index]? = some ((start + index : Nat) : Int)
  lastChunk : ∀ start ∈ chunkStarts count,
    start + chunkCount count start = count ↔ (chunkStarts count).getLast? = some start

theorem int32_of_lt {n : Nat} (h : n < 2 ^ 31) : int32 n = n := by
  have hmod : n % 2 ^ 32 = n := Nat.mod_eq_of_lt (by omega)
  unfold int32
  rw [BitVec.toInt_eq_toNat_of_lt (by rw [BitVec.toNat_ofNat]; omega), BitVec.toNat_ofNat, hmod]

/-- The logits of a chunk depend on its last row only, and only the last chunk has any. -/
theorem chunkLogits_eq (count chunkEnd : Nat) (previous : Option Row) {rows : List Row} {last : Row}
    (hlast : rows.getLast? = some last) :
    chunkLogits ops model tokenEmbedding count chunkEnd previous rows =
      if chunkEnd = count then buildLogits ops model tokenEmbedding [last] else .ok previous := by
  unfold chunkLogits buildLogits
  dsimp only
  simp only [List.getLast?_map, hlast, List.map_singleton, List.getLast?_singleton]
  rfl

theorem tokenSource_splices
    (hembedding : model.textTensor (bytes "token_embd.weight") = some tokenEmbedding) :
    Splices (totalCount tokensBeforeImage visualTokens tokensAfterImage)
      (tokenSource ops model tokensBeforeImage visualTokens tokensAfterImage tokenEmbedding)
      (inputRows ops model tokenEmbedding tokensBeforeImage visualTokens tokensAfterImage)
      (inputIds tokensBeforeImage visualTokens tokensAfterImage) := by
  have hweight := textWeight_of_eq hembedding
  subst hweight
  have hyields := tokenSource_yields ops model tokensBeforeImage visualTokens tokensAfterImage
  refine ⟨chunks_partition _, ?_, ?_, ?_, ?_, fun start hstart => last_chunk hstart⟩
  · intro start hstart
    have hend := chunkEnd_le hstart
    rw [hyields.rows start _ hend]
    exact range'_map_eq_slice fun position hposition =>
      inputRows_getElem? _ _ _ _ _ (Nat.lt_of_lt_of_le hposition hend)
  · intro start hstart
    have hend := chunkEnd_le hstart
    rw [hyields.rows start _ hend, List.length_map, List.length_range']
  · intro start hstart
    have hend := chunkEnd_le hstart
    rw [hyields.ids start _ hend]
    exact range'_map_eq_slice fun position hposition =>
      inputIds_getElem? _ _ _ (Nat.lt_of_lt_of_le hposition hend)
  · intro start _ index hindex hsmall
    rw [positionValues, List.getElem?_map, List.getElem?_range' hindex, Option.map_some,
      Nat.one_mul, int32_of_lt hsmall]

end Splice

/-! ## Nothing is lost -/

section Claim
variable {Row : Type} {ops : TensorOps Row} {model : ModelBundle} {tokenEmbedding : GgufTensor}
  {tokensBeforeImage : List TokenId} {visualTokens : Option (VisualTokens Row)}
  {tokensAfterImage : List TokenId}

theorem refuses_shape {backend : BackendContext} {tokenCount : Nat} {visualWidth : Option Nat} :
    ¬Refuses model backend tokenCount visualWidth
      (.runtimeError (bytes "Prefill chunk input has an unexpected shape")) := by
  intro h
  generalize he : Exception.runtimeError (bytes "Prefill chunk input has an unexpected shape") = e
    at h
  have hhead : ∀ message : Bytes, message.head? ≠ some (byte 'P') →
      Exception.runtimeError (bytes "Prefill chunk input has an unexpected shape") ≠
        .runtimeError message := by
    intro message hmessage heq
    cases heq
    exact hmessage rfl
  cases h with
  | source _ hsource =>
    rcases TextModelConfig.sourceLayer_error hsource with rfl | rfl
    · cases he
    · exact absurd he (hhead _ (by decide))
  | pattern => cases he
  | slot => cases he
  | allocation => exact absurd he (hhead _ (by rw [Allocation.message_head]; decide))
  | _ => exact absurd he (hhead _ (by simp [bytes, byte]))

theorem prefill_splices
    (hembedding : model.textTensor (bytes "token_embd.weight") = some tokenEmbedding) :
    Splices (totalCount tokensBeforeImage visualTokens tokensAfterImage)
        (tokenSource ops model tokensBeforeImage visualTokens tokensAfterImage tokenEmbedding)
        (inputRows ops model tokenEmbedding tokensBeforeImage visualTokens tokensAfterImage)
        (inputIds tokensBeforeImage visualTokens tokensAfterImage) ∧
      (∀ start ∈ chunkStarts (totalCount tokensBeforeImage visualTokens tokensAfterImage),
        let chunkEnd := start +
          chunkCount (totalCount tokensBeforeImage visualTokens tokensAfterImage) start
        let visualEnd := tokensBeforeImage.length + visualCount visualTokens
        WithinSegment 0 tokensBeforeImage.length start chunkEnd ∧
          WithinSegment tokensBeforeImage.length (visualCount visualTokens) start chunkEnd ∧
          WithinSegment visualEnd tokensAfterImage.length start chunkEnd) ∧
      (∀ count chunkEnd previous, ∀ rows : List Row, ∀ last, rows.getLast? = some last →
        chunkLogits ops model tokenEmbedding count chunkEnd previous rows =
          if chunkEnd = count then buildLogits ops model tokenEmbedding [last] else .ok previous) ∧
      ∀ backend, prefill ops model backend tokensBeforeImage visualTokens tokensAfterImage ≠
        .error (.runtimeError (bytes "Prefill chunk input has an unexpected shape")) := by
  refine ⟨tokenSource_splices _ _ _ _ _ _ hembedding, ?_, ?_, ?_⟩
  · intro start _
    exact ⟨withinSegment _ _ _ _, withinSegment _ _ _ _, withinSegment _ _ _ _⟩
  · intro count chunkEnd previous rows last hlast
    exact chunkLogits_eq ops model tokenEmbedding count chunkEnd previous hlast
  · intro backend herror
    exact refuses_shape ((prefill_ends ops model tokensBeforeImage visualTokens
      tokensAfterImage).of_eq_error herror)

end Claim

theorem sample_embedding :
    (modelWith (requiredTextTensors sampleTextConfig)).textTensor (bytes "token_embd.weight") =
      some ⟨bytes "token_embd.weight", .f32, 1, 0⟩ := by
  decide

def sampleVisual : VisualTokens Nat where
  tokenCount := 4
  embeddingLength := 1
  row index := 100 + index

/-- The second chunk starts with the last two of four visual rows. -/
theorem prefill_splices_sample :
    let source := tokenSource sampleOps (modelWith (requiredTextTensors sampleTextConfig))
      (List.replicate 510 1) (some sampleVisual) [3] ⟨bytes "token_embd.weight", .f32, 1, 0⟩
    512 ∈ chunkStarts 515 ∧ source.rows 512 (chunkCount 515 512) = [102, 103, 3] ∧
      source.ids 512 (chunkCount 515 512) = [0, 0, 3] ∧
      (positionValues 512 (chunkCount 515 512))[2]? = some 514 ∧
      (chunkStarts 515).getLast? = some 512 := by
  have htotal : totalCount (List.replicate 510 1) (some sampleVisual) [3] = 515 := by
    rw [totalCount, List.length_replicate]
    rfl
  have hstart : 512 ∈ chunkStarts 515 := mem_chunkStarts.mpr (by decide)
  obtain ⟨_, hrows, _, hids, hpositions, hlast⟩ := htotal ▸
    (@prefill_splices _ sampleOps _ _ (List.replicate 510 1) (some sampleVisual) [3]
      sample_embedding).1
  refine ⟨hstart, ?_, ?_, hpositions 512 hstart 2 (by decide) (by decide),
    (hlast 512 hstart).mp (by decide)⟩
  · rw [hrows 512 hstart]
    decide +kernel
  · rw [hids 512 hstart]
    decide +kernel

/-- The position value of the last of `2 ^ 31 + 1` tokens is negative. -/
theorem prefill_positions_wrap :
    2147483648 ∈ chunkStarts
        (totalCount (List.replicate 2147483649 0) (none : Option (VisualTokens Nat)) []) ∧
      (positionValues 2147483648 (chunkCount
        (totalCount (List.replicate 2147483649 0) (none : Option (VisualTokens Nat)) [])
          2147483648))[0]? = some (-2147483648) := by
  have hcount : totalCount (List.replicate 2147483649 0) (none : Option (VisualTokens Nat)) [] =
      2147483649 := by
    rw [totalCount, List.length_replicate]
    rfl
  rw [hcount]
  constructor
  · exact mem_chunkStarts.mpr ⟨by omega, 4194304, rfl⟩
  · have hone : chunkCount 2147483649 2147483648 = 1 := rfl
    rw [hone]
    decide

end PrefillEngine

end Branchscore
