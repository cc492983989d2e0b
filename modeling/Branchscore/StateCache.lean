import Branchscore.BackendContext
import Branchscore.Foundation.CausalPass
import Branchscore.Foundation.Outcome
import Branchscore.ModelConfig

/-!
# The state cache

Key and value rows of the layers that store them; the later layers read the rows of a
source layer. A row is `none` until a graph has written it.
-/

namespace Branchscore

open Foundation Outcome
set_option autoImplicit false

namespace TextModelConfig

/-- `block_count - shared_kv_layers`. -/
def storedLayers (config : TextModelConfig) : Nat :=
  uint32Sub config.blockCount config.sharedKvLayers

def sourceLayer (config : TextModelConfig) (layer : Nat) : Except Exception Nat :=
  if config.blockCount ≤ layer then
    .error (.outOfRange (bytes "Gemma 4 layer index is out of range"))
  else if layer < config.storedLayers then .ok layer
  else do
    let source := uint32Sub config.storedLayers (if ← config.isSlidingWindow layer then 2 else 1)
    let sourceSliding ← config.isSlidingWindow source
    let sliding ← config.isSlidingWindow layer
    throwIf (sourceSliding ≠ sliding) "shared-KV source has a different attention type"
    return source

/-- The row widths of the key and of the value tensor of a layer. -/
def rowWidths (config : TextModelConfig) (layer : Nat) : Except Exception (Nat × Nat) := do
  return (← config.keyWidth layer, ← config.valueWidth layer)

/-- The row widths of the tensors that the constructor of the cache creates, in order. -/
def tensorWidths (config : TextModelConfig) : Except Exception (List (Nat × Nat)) :=
  (List.range config.storedLayers).mapM config.rowWidths

end TextModelConfig

structure StateCache (Row : Type) where
  config : TextModelConfig
  capacity : Nat
  prefixLength : Nat
  cursor : Nat
  keys : Nat → Nat → Option Row
  values : Nat → Nat → Option Row

namespace StateCache
variable {Row : Type}

def create (Row : Type) (config : TextModelConfig) (capacity : Nat) (backend : BackendContext) :
    Except Exception (StateCache Row) := do
  throwIf (capacity = 0 ∨ config.contextLength < capacity)
    "state-cache capacity is outside the model context"
  throwIf (config.blockCount ≤ config.sharedKvLayers) "invalid Gemma 4 shared-KV layer count"
  backend.allocate .stateCacheContext
  let _ ← config.tensorWidths
  backend.allocate .stateCache
  return {
    config, capacity, prefixLength := 0, cursor := 0
    keys := fun _ _ => none
    values := fun _ _ => none }

/-- The index `keys.at(source_layer(layer))` selects, the same for `values`. -/
def slot (cache : StateCache Row) (layer : Nat) : Except Exception Nat := do
  let source ← cache.config.sourceLayer layer
  if source < cache.config.storedLayers then return source
  else .error (.outOfRange (bytes "vector::_M_range_check"))

def key (cache : StateCache Row) (layer : Nat) : Except Exception (Nat → Option Row) := do
  return cache.keys (← cache.slot layer)

def value (cache : StateCache Row) (layer : Nat) : Except Exception (Nat → Option Row) := do
  return cache.values (← cache.slot layer)

def freezePrefix (cache : StateCache Row) (length : Nat) : Except Exception (StateCache Row) := do
  throwIf (length = 0 ∨ cache.capacity < length)
    "prefix length is outside state-cache capacity"
  throwIf (cache.prefixLength ≠ 0) "state-cache prefix is already frozen"
  return { cache with prefixLength := length, cursor := length }

end StateCache

end Branchscore
