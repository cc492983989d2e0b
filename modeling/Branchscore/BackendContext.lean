import Branchscore.Exception

/-!
# The device

What the host code learns from the device: its family, whether an allocation
succeeds, which operations a graph is refused for, and the status of a computation.
-/

namespace Branchscore

open Foundation
set_option autoImplicit false

inductive Allocation where
  | stateCacheContext
  | stateCache
  | logitsContext
  | logits
  | prefillContext (chunkStart : Nat)
  | prefillGraph (chunkStart : Nat)
  | visionContext (flash : Bool)
  | visionAllocator
  | visionGraph
  | visualTokensContext
  | visualTokens
  deriving DecidableEq, Repr

/-- The text of the exception when the allocation fails. -/
def Allocation.message : Allocation → String
  | .stateCacheContext => "failed to create state-cache tensor context"
  | .stateCache => "failed to allocate state cache on selected backend"
  | .logitsContext => "failed to create persistent logits context"
  | .logits => "failed to allocate persistent Prefill logits"
  | .prefillContext _ => "failed to create prefill graph context"
  | .prefillGraph _ => "failed to allocate prefill graph on selected backend"
  | .visionContext _ => "failed to create vision graph context"
  | .visionAllocator => "failed to create vision graph allocator"
  | .visionGraph => "failed to allocate vision graph on selected backend"
  | .visualTokensContext => "failed to create persistent visual-token context"
  | .visualTokens => "failed to allocate persistent visual-token buffer"

theorem Allocation.message_head (allocation : Allocation) :
    (bytes allocation.message).head? = some (byte 'f') := by
  cases allocation <;> simp [message, bytes]

inductive Graph where
  | prefill (chunkStart : Nat)
  | vision
  deriving DecidableEq, Repr

/-- `unsupportedOp` names an operation that the device does not support, `compute` is
the status of a failed computation. -/
structure BackendContext where
  family : Bytes
  allocates : Allocation → Bool
  unsupportedOp : Graph → Option Bytes
  compute : Graph → Except Bytes Unit
  supportsFlashAttention : Bool

namespace BackendContext

def cuda (backend : BackendContext) : Bool := backend.family = bytes "CUDA"

/-- `if (allocation == nullptr) throw std::runtime_error(message);` -/
def allocate (backend : BackendContext) (allocation : Allocation) : Except Exception Unit :=
  throwIf (backend.allocates allocation = false) allocation.message

/-- A device on which nothing fails. -/
def reliable (family : Bytes) : BackendContext where
  family
  allocates _ := true
  unsupportedOp _ := none
  compute _ := .ok ()
  supportsFlashAttention := true

end BackendContext

end Branchscore
