import Branchscore.Foundation.Ieee
import Branchscore.Tokenizer.Vocabulary

/-!
# The categorical readout

Numbers are exact: a `float` is an exact number, an infinity or NaN, and arithmetic on
finite values does not round. The exponential is a parameter.
-/

namespace Branchscore

open Foundation
set_option autoImplicit false

variable {R : Type} [Field R] [LinearOrder R]

structure CategoricalSummary (R : Type) where
  relativeProbabilities : List R
  selectedIndex : Nat
  exactTie : Bool
  deriving DecidableEq, Repr

/-- `if (!std::isfinite(value)) throw`, then `static_cast<double>(value)`. -/
def finiteLogit (value : Ieee R) : Except Exception R :=
  match value with
  | .finite value => .ok value
  | _ => runtimeError "categorical answer logits must be finite"

def summarizeCategorical (exp : R → R) (rawScores : List (Ieee R)) :
    Except Exception (CategoricalSummary R) :=
  match maxElement Ieee.lt rawScores with
  | none => runtimeError "cannot normalize an empty categorical readout"
  | some (largest, selectedIndex) => do
    let maximum ← finiteLogit largest
    let values ← rawScores.mapM finiteLogit
    let weights := values.map fun value => exp (value - maximum)
    let denominator := weights.foldl (· + ·) 0
    throwIf (denominator ≤ 0) "categorical softmax normalization failed"
    return {
      relativeProbabilities := weights.map fun weight => weight / denominator
      selectedIndex
      exactTie := rawScores.zipIdx.any fun score =>
        score.2 ≠ selectedIndex && Ieee.eq score.1 largest }

/-! ## The gather -/

/-- The device as the gather sees it; `compute` is the status of a failed computation. -/
structure ReadoutDevice where
  createsContext : Bool
  allocatesGraph : Bool
  compute : Except Bytes Unit

/-- `logits` are the values of the frozen tensor, `none` when there is none. -/
def gatherCategoricalLogits (logits : Option (List (Ieee R))) (answerTokenIds : List TokenId)
    (device : ReadoutDevice) : Except Exception (List (Ieee R)) := do
  throwIf (answerTokenIds = []) "categorical readout requires at least one answer token"
  match logits with
  | none => runtimeError "categorical readout has no Prefill logits"
  | some logits =>
    throwIf (∃ id ∈ answerTokenIds, logits.length ≤ id)
      "categorical answer token is outside the vocabulary"
    throwIf (device.createsContext = false) "failed to create categorical readout context"
    throwIf (device.allocatesGraph = false) "failed to allocate categorical readout graph"
    match device.compute with
    | .error status => .error (.runtimeError
        (bytes "categorical readout graph compute failed: " ++ status))
    | .ok () =>
      let rawScores := answerTokenIds.map fun id => logits.getD id .nan
      throwIf (∃ score ∈ rawScores, score.isFinite = false)
        "categorical answer logits must be finite"
      return rawScores

end Branchscore
