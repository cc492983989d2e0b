import Branchscore.PrefillEngine.Correctness

/-!
# Prompts with a common beginning

Attention is causal, so what a Prefill freezes for the beginning of a prompt does not depend on
what follows: neither on the tokens behind it nor on the chunks they are cut into.
-/

namespace Branchscore

open Foundation Outcome CausalPass
set_option autoImplicit false

namespace PrefillEngine

variable {Row : Type} {ops : TensorOps Row} {model : ModelBundle}

/-! ## Passes -/

section Passes
variable {cacheType : CacheType} {a b : Sequence Row} {bound : Nat}

/-- The sequences have the same rows and ids below `bound`. -/
structure AgreeBelow (bound : Nat) (a b : Sequence Row) : Prop where
  left : bound ≤ a.length
  right : bound ≤ b.length
  input : ∀ position < bound, a.input position = b.input position
  ids : ∀ position < bound, a.ids position = b.ids position

theorem AgreeBelow.alike (h : AgreeBelow bound a b) :
    Stack.Alike bound (wholePass ops model cacheType a) (wholePass ops model cacheType b) where
  source := rfl
  visible := rfl
  entry _ _ _ := rfl
  output layer position hp := by
    funext row entries
    simp only [wholePass, layerStack]
    rw [h.ids position hp, h.input position hp]

theorem AgreeBelow.cachedKey_eq (h : AgreeBelow bound a b) (layer : Nat) {position : Nat}
    (hp : position < bound) :
    cachedKey ops model cacheType a layer position =
      cachedKey ops model cacheType b layer position := by
  rw [cachedKey, cachedKey, h.alike.cached_eq h.left h.right h.input layer hp]

theorem AgreeBelow.cachedValue_eq (h : AgreeBelow bound a b) (layer : Nat) {position : Nat}
    (hp : position < bound) :
    cachedValue ops model cacheType a layer position =
      cachedValue ops model cacheType b layer position := by
  rw [cachedValue, cachedValue, h.alike.cached_eq h.left h.right h.input layer hp]

end Passes

/-! ## Token sequences -/

section Tokens
variable {common before before' : List TokenId}

theorem getD_of_common (h : common <+: before) {position : Nat} (hp : position < common.length) :
    before.getD position 0 = common.getD position 0 ∧ position < before.length := by
  obtain ⟨rest, rfl⟩ := h
  refine ⟨List.getD_append _ _ _ _ hp, ?_⟩
  rw [List.length_append]
  exact Nat.lt_add_right _ hp

theorem tokenSequence_common (h : common <+: before) (visual : Option (VisualTokens Row))
    (after : List TokenId) {position : Nat} (hp : position < common.length) :
    (tokenSequence ops model before visual after).input position =
        textRow ops model (textWeight model (bytes "token_embd.weight"))
          (common.getD position 0) ∧
      (tokenSequence ops model before visual after).ids position = common.getD position 0 := by
  obtain ⟨hget, hlt⟩ := getD_of_common h hp
  simp only [tokenSequence, perLayerId, if_pos hlt, hget]
  exact ⟨trivial, trivial⟩

theorem agreeBelow_common (h : common <+: before) (h' : common <+: before')
    (visual visual' : Option (VisualTokens Row)) (after after' : List TokenId) :
    AgreeBelow common.length (tokenSequence ops model before visual after)
      (tokenSequence ops model before' visual' after') where
  left := h.length_le.trans ((Nat.le_add_right _ _).trans (Nat.le_add_right _ _))
  right := h'.length_le.trans ((Nat.le_add_right _ _).trans (Nat.le_add_right _ _))
  input position hp := by
    rw [(tokenSequence_common h visual after hp).1, (tokenSequence_common h' visual' after' hp).1]
  ids position hp := by
    rw [(tokenSequence_common h visual after hp).2, (tokenSequence_common h' visual' after' hp).2]

/-- Two frozen caches hold the same keys and values for the positions below `bound`. -/
def SameBelow (bound layers : Nat) (cache cache' : StateCache Row) : Prop :=
  ∀ layer < layers, ∀ position < bound,
    (∃ key, cache.keys layer position = some key ∧ cache'.keys layer position = some key) ∧
    ∃ value, cache.values layer position = some value ∧ cache'.values layer position = some value

/-- Whatever follows a common beginning of two prompts, their Prefills freeze the same keys and
values for it. -/
theorem prefill_beginning {backend : BackendContext} {visual visual' : Option (VisualTokens Row)}
    {after after' : List TokenId} {state state' : PrefillState Row} (hcommon : common <+: before)
    (hcommon' : common <+: before')
    (h : prefill ops model backend before visual after = .ok state)
    (h' : prefill ops model backend before' visual' after' = .ok state') :
    SameBelow common.length model.textConfig.storedLayers state.cache state'.cache := by
  obtain ⟨_, hpass, _⟩ := (prefill_holds ops model before visual after).of_eq_ok h
  obtain ⟨_, hpass', _⟩ := (prefill_holds ops model before' visual' after').of_eq_ok h'
  have hagree := @agreeBelow_common _ ops model _ _ _ hcommon hcommon' visual visual' after after'
  intro layer hlayer position hp
  have hleft := Nat.lt_of_lt_of_le hp hagree.left
  have hright := Nat.lt_of_lt_of_le hp hagree.right
  refine ⟨⟨_, hpass.keys layer hlayer position hleft, ?_⟩,
    ⟨_, hpass.values layer hlayer position hleft, ?_⟩⟩
  · rw [hpass'.keys layer hlayer position hright, hagree.cachedKey_eq layer hp]
  · rw [hpass'.values layer hlayer position hright, hagree.cachedValue_eq layer hp]

/-- One chunk and two chunks behind the same 300 tokens. -/
theorem prefill_beginning_sample : ∃ state state',
    prefill sampleOps (modelWith (requiredTextTensors sampleTextConfig))
        (.reliable (bytes "CPU")) (List.replicate 300 1 ++ [2]) none [] = .ok state ∧
      prefill sampleOps (modelWith (requiredTextTensors sampleTextConfig))
        (.reliable (bytes "CPU")) (List.replicate 300 1 ++ List.replicate 300 3) none [] =
          .ok state' ∧
      SameBelow 300 1 state.cache state'.cache := by
  have hruns : ∀ tokens : List TokenId, 0 < tokens.length → tokens.length ≤ 2048 →
      ∃ state, prefill sampleOps (modelWith (requiredTextTensors sampleTextConfig))
        (.reliable (bytes "CPU")) tokens none [] = .ok state := by
    intro tokens hpos hmax
    have haccepts : Accepts (modelWith (requiredTextTensors sampleTextConfig))
        (.reliable (bytes "CPU")) tokens.length none :=
      { sample_accepts with
        positive := hpos
        context := hmax
        padding := fun h => absurd h (by decide) }
    have hends := @prefill_holds _ sampleOps (modelWith (requiredTextTensors sampleTextConfig))
      tokens none [] (.reliable (bytes "CPU"))
    cases hrun : prefill sampleOps (modelWith (requiredTextTensors sampleTextConfig))
        (.reliable (bytes "CPU")) tokens none [] with
    | ok state => exact ⟨state, rfl⟩
    | error e => exact absurd (hends.of_eq_error hrun) haccepts.not_refuses
  have hlength : (List.replicate 300 1 ++ [2]).length = 301 := by
    rw [List.length_append, List.length_replicate, List.length_singleton]
  have hlength' : (List.replicate 300 1 ++ List.replicate 300 3).length = 600 := by
    rw [List.length_append, List.length_replicate, List.length_replicate]
  obtain ⟨state, hstate⟩ := hruns (List.replicate 300 1 ++ [2])
    (by rw [hlength]; decide) (by rw [hlength]; decide)
  obtain ⟨state', hstate'⟩ := hruns (List.replicate 300 1 ++ List.replicate 300 3)
    (by rw [hlength']; decide) (by rw [hlength']; decide)
  have hsame := prefill_beginning (List.prefix_append _ _) (List.prefix_append _ _) hstate hstate'
  rw [List.length_replicate] at hsame
  exact ⟨state, state', hstate, hstate', hsame⟩

end Tokens

end PrefillEngine

end Branchscore
