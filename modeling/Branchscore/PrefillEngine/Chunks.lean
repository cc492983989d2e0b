import Branchscore.PrefillEngine.Correctness

/-!
# The chunks of a sequence

Chunks cut the positions into consecutive pieces; the tokens, visual rows and masks of a
chunk are those of its positions. The padded key counts of the flash path change no mask,
but they may exceed the context.
-/

namespace Branchscore

open Foundation Outcome CausalPass
set_option autoImplicit false

namespace PrefillEngine

/-! ## Positions -/

theorem mem_chunkStarts {tokenCount start : Nat} :
    start ∈ chunkStarts tokenCount ↔ start < tokenCount ∧ 512 ∣ start := by
  unfold chunkStarts prefillTokenMicrobatchSize
  rw [List.mem_map]
  constructor
  · rintro ⟨i, hi, rfl⟩
    have := List.mem_range.mp hi
    exact ⟨by omega, Nat.dvd_mul_right 512 i⟩
  · rintro ⟨hlt, i, rfl⟩
    exact ⟨i, List.mem_range.mpr (by omega), rfl⟩

theorem chunkEnd_le {tokenCount start : Nat} (h : start ∈ chunkStarts tokenCount) :
    start + chunkCount tokenCount start ≤ tokenCount := by
  have := (mem_chunkStarts.mp h).1
  unfold chunkCount
  omega

/-- The first `i` chunks cover the first `512 * i` positions. -/
theorem chunks_cover (tokenCount i : Nat) :
    ((List.range i).map (512 * ·)).flatMap
        (fun start => List.range' start (chunkCount tokenCount start)) =
      List.range (min (512 * i) tokenCount) := by
  induction i with
  | zero => rfl
  | succ i ih =>
    rw [List.range_succ, List.map_append, List.flatMap_append, ih, List.map_singleton,
      List.flatMap_singleton]
    unfold chunkCount prefillTokenMicrobatchSize
    rcases Nat.le_total tokenCount (512 * i) with h | h
    · rw [Nat.min_eq_right h, Nat.min_eq_right (by omega : tokenCount ≤ 512 * (i + 1)),
        show min 512 (tokenCount - 512 * i) = 0 by omega, List.range'_zero, List.append_nil]
    · rw [Nat.min_eq_left h, List.range_eq_range', List.range_eq_range']
      have happend := @List.range'_append_1 0 (512 * i) (min 512 (tokenCount - 512 * i))
      rw [Nat.zero_add] at happend
      rw [happend]
      congr 1
      omega

theorem chunks_partition (tokenCount : Nat) :
    (chunkStarts tokenCount).flatMap (fun start => List.range' start (chunkCount tokenCount start)) =
      List.range tokenCount := by
  rw [chunkStarts, prefillTokenMicrobatchSize, chunks_cover]
  congr 1
  omega

theorem last_chunk {tokenCount start : Nat} (h : start ∈ chunkStarts tokenCount) :
    start + chunkCount tokenCount start = tokenCount ↔
      (chunkStarts tokenCount).getLast? = some start := by
  obtain ⟨hlt, i, rfl⟩ := mem_chunkStarts.mp h
  rw [chunkStarts, List.getLast?_map, List.getLast?_range]
  unfold chunkCount prefillTokenMicrobatchSize
  rw [if_neg (by omega), Option.map_some, Option.some.injEq]
  omega

/-! ## Masks -/

/-- The keys that a row of a mask leaves. -/
def unmaskedKeys (mask : List (List Bool)) (row : Nat) : Set Nat :=
  { key | mask[row]?.bind (fun keys => keys[key]?) = some false }

theorem mem_unmaskedKeys {start count keyCount window row key : Nat} (hrow : row < count) :
    key ∈ unmaskedKeys (causalMask start count keyCount window) row ↔
      key < keyCount ∧ key ≤ start + row ∧ (window = 0 ∨ start + row < key + window) := by
  rw [unmaskedKeys, Set.mem_ofPred_eq, causalMask_eq, List.getElem?_map,
    List.getElem?_range' hrow, Option.map_some, Option.bind_some, List.getElem?_map, Nat.one_mul]
  by_cases hkey : key < keyCount
  · rw [List.getElem?_range hkey, Option.map_some, Option.some.injEq, Bool.not_eq_false', visible,
      Bool.and_eq_true, Bool.or_eq_true, decide_eq_true_eq, decide_eq_true_eq, decide_eq_true_eq]
    exact ⟨fun h => ⟨hkey, h⟩, fun h => h.2⟩
  · rw [List.getElem?_eq_none (by rw [List.length_range]; omega), Option.map_none]
    exact ⟨fun h => (nomatch h), fun h => absurd h.1 hkey⟩

/-- With every key up to the end of the chunk the mask leaves the keys that the query sees. -/
theorem unmaskedKeys_eq {start count keyCount window row : Nat} (hrow : row < count)
    (hkeyCount : start + count ≤ keyCount) :
    unmaskedKeys (causalMask start count keyCount window) row =
      { key | key ≤ start + row ∧ (window = 0 ∨ start + row < key + window) } := by
  apply Set.ext
  intro key
  rw [mem_unmaskedKeys hrow, Set.mem_ofPred_eq]
  constructor
  · exact fun h => h.2
  · exact fun h => ⟨by omega, h⟩

/-- Padded and plain key counts mask alike: a query sees itself and the written keys
before it in the window, as in the mask of the whole sequence. -/
theorem causalMask_padding {tokenCount start row window : Nat}
    (hstart : start ∈ chunkStarts tokenCount) (hrow : row < chunkCount tokenCount start) :
    let count := chunkCount tokenCount start
    let query := start + row
    let seen := { key | key ≤ query ∧ (window = 0 ∨ query < key + window) }
    unmaskedKeys (causalMask start count (paddedCount (start + count)) window) row = seen ∧
      unmaskedKeys (causalMask start count (start + count) window) row = seen ∧
      unmaskedKeys (causalMask 0 tokenCount tokenCount window) query = seen ∧
      (∀ key ∈ seen, key < start + count) ∧ query ∈ seen := by
  have hend := chunkEnd_le hstart
  refine ⟨unmaskedKeys_eq hrow (le_paddedCount _), unmaskedKeys_eq hrow (Nat.le_refl _), ?_, ?_, ?_⟩
  · have hwhole := @unmaskedKeys_eq 0 tokenCount tokenCount window (start + row) (by omega) (by omega)
    rw [Nat.zero_add] at hwhole
    exact hwhole
  · intro key hkey
    have := hkey.1
    omega
  · refine ⟨Nat.le_refl _, ?_⟩
    rcases Nat.eq_zero_or_pos window with h | h
    · exact .inl h
    · exact .inr (Nat.lt_add_of_pos_right h)

/-- The last of 513 positions sees only itself in a window of one. -/
theorem causalMask_padding_sample :
    unmaskedKeys (causalMask 512 (chunkCount 513 512) (paddedCount (512 + chunkCount 513 512)) 1) 0 =
      { key | key ≤ 512 + 0 ∧ (1 = 0 ∨ 512 + 0 < key + 1) } :=
  (causalMask_padding (mem_chunkStarts.mpr (by decide)) (by decide)).1

/-! ## Capacity -/

/-- What the cache throws when its rows do not suffice. -/
def capacityErrors : List Exception :=
  ["state-cache capacity is outside the model context",
    "prefix length is outside state-cache capacity",
    "state-cache prefix is already frozen"].map fun message => .runtimeError (bytes message)

/-- Nothing refuses `tokenCount` positions for want of room in the cache. -/
structure FitsCache (Row : Type) (config : TextModelConfig) (backend : BackendContext)
    (tokenCount : Nat) : Prop where
  create : StateCache.create Row config (cacheRows backend tokenCount) backend ≠
    .error (.runtimeError (bytes "state-cache capacity is outside the model context"))
  length : tokenCount ≤ cacheRows backend tokenCount
  freeze : ∀ cache : StateCache Row, cache.capacity = cacheRows backend tokenCount →
    cache.prefixLength = 0 → ∃ frozen, cache.freezePrefix tokenCount = .ok frozen
  keyCounts : ∀ start ∈ chunkStarts tokenCount,
    cacheRows backend (start + chunkCount tokenCount start) ≤ cacheRows backend tokenCount
  prefill : ∀ (ops : TensorOps Row) (model : ModelBundle) (tokensBeforeImage : List TokenId)
      (visualTokens : Option (VisualTokens Row)) (tokensAfterImage : List TokenId),
    model.textConfig = config →
    totalCount tokensBeforeImage visualTokens tokensAfterImage = tokenCount →
      Ends (fun e => e ∉ capacityErrors)
        (fun state => state.cache.capacity = cacheRows backend tokenCount ∧
          state.prefixLength = tokenCount ∧ state.cache.cursor = tokenCount)
        (prefill ops model backend tokensBeforeImage visualTokens tokensAfterImage)

theorem width_ends {config : TextModelConfig} {message : Bytes} (layer : Nat) :
    Ends (fun e => e ≠ .runtimeError message) (fun _ => True) (config.keyWidth layer) ∧
      Ends (fun e => e ≠ .runtimeError message) (fun _ => True) (config.valueWidth layer) := by
  have h : Ends (fun e => e ≠ .runtimeError message) (fun _ => True)
      (config.isSlidingWindow layer) := by
    unfold TextModelConfig.isSlidingWindow
    split
    · trivial
    · exact Exception.noConfusion
  exact ⟨h.bind fun _ _ => trivial, h.bind fun _ _ => trivial⟩

theorem create_eq_error {Row : Type} {config : TextModelConfig} {capacity : Nat}
    {backend : BackendContext} :
    StateCache.create Row config capacity backend =
        .error (.runtimeError (bytes "state-cache capacity is outside the model context")) ↔
      capacity = 0 ∨ config.contextLength < capacity := by
  by_cases h : capacity = 0 ∨ config.contextLength < capacity
  · refine ⟨fun _ => h, fun _ => ?_⟩
    unfold StateCache.create throwIf
    rw [if_pos h]
    rfl
  · refine ⟨fun herror => ?_, fun hc => absurd hc h⟩
    have hother : Ends (fun e => e ≠ .runtimeError
          (bytes "state-cache capacity is outside the model context")) (fun _ => True)
        (StateCache.create Row config capacity backend) := by
      unfold StateCache.create
      rw [throwIf_of_not h, ok_bind]
      refine (throwIf_ends fun _ => by decide).bind fun _ _ => ?_
      refine (throwIf_ends fun _ => by decide).bind fun _ _ => ?_
      refine (Ends.mapM (R := fun _ _ => True) fun layer _ => ?_).bind fun _ _ => ?_
      · refine (width_ends layer).1.bind fun _ _ => ?_
        exact (width_ends layer).2.bind fun _ _ => trivial
      · exact (throwIf_ends fun _ => by decide).bind fun _ _ => trivial
    exact absurd rfl (hother.of_eq_error herror)

/-- The first six letters tell these errors from the others. -/
theorem not_mem_capacityErrors {message : Bytes}
    (h : message.take 6 ≠ bytes "state-" ∧ message.take 6 ≠ bytes "prefix") :
    Exception.runtimeError message ∉ capacityErrors := by
  intro hmem
  obtain ⟨text, htext, heq⟩ := List.mem_map.mp hmem
  cases heq
  simp only [List.mem_cons, List.not_mem_nil, or_false] at htext
  rcases htext with rfl | rfl | rfl
  · exact h.1 (by decide)
  · exact h.2 (by decide)
  · exact h.1 (by decide)

theorem Refuses.not_mem_capacityErrors {model : ModelBundle} {backend : BackendContext}
    {tokenCount : Nat} {visualWidth : Option Nat} {e : Exception}
    (h : Refuses model backend tokenCount visualWidth e) (hpositive : 1 ≤ tokenCount)
    (hfits : cacheRows backend tokenCount ≤ model.textConfig.contextLength) :
    e ∉ capacityErrors := by
  have hle := le_cacheRows backend tokenCount
  cases h with
  | visualWidth => decide
  | context => decide
  | capacity hcapacity hoverflow => omega
  | sharedLayers => decide
  | @allocation allocation =>
    apply PrefillEngine.not_mem_capacityErrors
    cases allocation <;> simp [Allocation.message, bytes, byte]
  | pattern => decide
  | headWidths => decide
  | source _ hsource => rcases TextModelConfig.sourceLayer_error hsource with rfl | rfl <;> decide
  | slot => decide
  | missing =>
    apply PrefillEngine.not_mem_capacityErrors
    simp [bytes, byte]
  | unsupportedOp =>
    apply PrefillEngine.not_mem_capacityErrors
    simp [bytes, byte]
  | compute =>
    apply PrefillEngine.not_mem_capacityErrors
    simp [bytes, byte]

theorem fitsCache_iff {Row : Type} {config : TextModelConfig} {backend : BackendContext}
    {tokenCount : Nat} (hpositive : 1 ≤ tokenCount) (hcontext : tokenCount ≤ config.contextLength) :
    FitsCache Row config backend tokenCount ↔
      (backend.cuda = true → paddedCount tokenCount ≤ config.contextLength) := by
  have hlength := le_cacheRows backend tokenCount
  rw [← cacheRows_le_iff hcontext]
  constructor
  · intro h
    have hcreate := h.create
    rw [Ne, create_eq_error] at hcreate
    omega
  · intro hfits
    refine ⟨?_, hlength, ?_, fun start hstart => cacheRows_mono backend (chunkEnd_le hstart), ?_⟩
    · rw [Ne, create_eq_error]
      omega
    · intro cache hcapacity hfresh
      have hroom : ¬(tokenCount = 0 ∨ cache.capacity < tokenCount) := by
        rw [hcapacity]
        omega
      refine ⟨{ cache with prefixLength := tokenCount, cursor := tokenCount }, ?_⟩
      unfold StateCache.freezePrefix
      rw [throwIf_of_not hroom, ok_bind, throwIf_of_not (not_not.mpr hfresh)]
      rfl
    · rintro ops model tokensBeforeImage visualTokens tokensAfterImage rfl rfl
      have hends := @prefill_holds _ ops model tokensBeforeImage visualTokens tokensAfterImage
        backend
      cases hrun : prefill ops model backend tokensBeforeImage visualTokens tokensAfterImage with
      | error e => exact (hends.of_eq_error hrun).not_mem_capacityErrors hpositive hfits
      | ok state =>
        obtain ⟨⟨_, hcapacity⟩, hpass, _⟩ := hends.of_eq_ok hrun
        exact ⟨hcapacity, hpass.prefixLength, hpass.cursor⟩

theorem fitsCache_iff_sample :
    FitsCache Nat sampleTextConfig (.reliable (bytes "CUDA")) 600 ∧
      ¬FitsCache Nat { sampleTextConfig with contextLength := 700 } (.reliable (bytes "CUDA")) 600 ∧
      FitsCache Nat { sampleTextConfig with contextLength := 700 } (.reliable (bytes "CPU")) 600 :=
  ⟨(fitsCache_iff (by decide) (by decide)).mpr (by decide),
    fun h => absurd ((fitsCache_iff (by decide) (by decide)).mp h) (by decide),
    (fitsCache_iff (by decide) (by decide)).mpr (by decide)⟩

/-- On CUDA 1000 positions are padded to 1024, past a context of 1000. -/
theorem fitsCache_fails :
    1 ≤ 1000 ∧ 1000 ≤ { sampleTextConfig with contextLength := 1000 }.contextLength ∧
      StateCache.create Nat { sampleTextConfig with contextLength := 1000 }
          (cacheRows (.reliable (bytes "CUDA")) 1000) (.reliable (bytes "CUDA")) =
        .error (.runtimeError (bytes "state-cache capacity is outside the model context")) ∧
      ∀ (ops : TensorOps Nat) (model : ModelBundle) (tokens : List TokenId),
        model.textConfig = { sampleTextConfig with contextLength := 1000 } → tokens.length = 1000 →
          prefill ops model (.reliable (bytes "CUDA")) tokens none [] =
            .error (.runtimeError (bytes "state-cache capacity is outside the model context")) := by
  refine ⟨by decide, by decide, create_eq_error.mpr (.inr (by decide)), ?_⟩
  intro ops model tokens hconfig hlength
  have hcontext : model.textConfig.contextLength = 1000 := by rw [hconfig]
  have hcreate : StateCache.create Nat model.textConfig
      (cacheRows (.reliable (bytes "CUDA")) 1000) (.reliable (bytes "CUDA")) =
        .error (.runtimeError (bytes "state-cache capacity is outside the model context")) := by
    apply create_eq_error.mpr
    rw [hcontext]
    exact .inr (by decide)
  have htotal : totalCount tokens (none : Option (VisualTokens Nat)) [] = 1000 := by
    rw [totalCount, hlength]
    rfl
  unfold prefill
  dsimp only
  rw [htotal, throwIf_of_not (by simp), ok_bind, throwIf_of_not (by omega), ok_bind]
  unfold prefillSequence
  dsimp only
  rw [hcreate]
  rfl

end PrefillEngine

end Branchscore
