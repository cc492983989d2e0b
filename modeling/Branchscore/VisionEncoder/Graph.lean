import Branchscore.VisionEncoder.Tensors

/-!
# The nodes of the vision graph

The graph itself is one choice of tensors: its nodes are the calls that build it. Every other
choice is the value of that graph, so what holds of the nodes holds of any tensors.
-/

namespace Branchscore

open Foundation Outcome
set_option autoImplicit false

deriving instance Inhabited for VisionOps

/-- The calls that make a tensor, as a tree. -/
inductive VisionNode where
  | input (width height : Nat) (pixels : List Float32Bits)
  | positions (values : List Int)
  | weight (tensor : GgufTensor)
  | tableView (tensor : GgufTensor) (width : Nat) (half : Fin 2)
  | scaleBias (scale bias : Float32Bits) (node : VisionNode)
  | conv2d (kernel : VisionNode) (stride : Nat) (node : VisionNode)
  | reshape (dimensions : List Nat) (node : VisionNode)
  | transpose (node : VisionNode)
  | permute (axes : List Nat) (node : VisionNode)
  | getRows (table ids : VisionNode)
  | add (left right : VisionNode)
  | mul (left right : VisionNode)
  | mulMat (left right : VisionNode)
  | clamp (low high : Float32Bits) (node : VisionNode)
  | rmsNorm (epsilon : Float32Bits) (node : VisionNode)
  | rope (positions : VisionNode) (dimensions : Nat) (node : VisionNode)
  | ropeOffset (offset : Nat) (node : VisionNode)
  | castF16 (node : VisionNode)
  | flashAttention (query key value : VisionNode)
  | softMax (node : VisionNode)
  | gegluQuick (gate up : VisionNode)
  | averagePool (size : Nat) (node : VisionNode)
  | scaleSqrt (count : Nat) (node : VisionNode)

namespace VisionNode
variable {Tensor Row : Type} (ops : VisionOps Tensor Row)

/-- The tensor that the calls make. -/
def eval : VisionNode → Tensor
  | input width height pixels => ops.input width height pixels
  | positions values => ops.positions values
  | weight tensor => ops.weight tensor
  | tableView tensor width half => ops.tableView tensor width half
  | scaleBias scale bias node => ops.scaleBias scale bias node.eval
  | conv2d kernel stride node => ops.conv2d kernel.eval stride node.eval
  | reshape dimensions node => ops.reshape dimensions node.eval
  | transpose node => ops.transpose node.eval
  | permute axes node => ops.permute axes node.eval
  | getRows table ids => ops.getRows table.eval ids.eval
  | add left right => ops.add left.eval right.eval
  | mul left right => ops.mul left.eval right.eval
  | mulMat left right => ops.mulMat left.eval right.eval
  | clamp low high node => ops.clamp low high node.eval
  | rmsNorm epsilon node => ops.rmsNorm epsilon node.eval
  | rope ids dimensions node => ops.rope ids.eval dimensions node.eval
  | ropeOffset offset node => ops.ropeOffset offset node.eval
  | castF16 node => ops.castF16 node.eval
  | flashAttention query key value => ops.flashAttention query.eval key.eval value.eval
  | softMax node => ops.softMax node.eval
  | gegluQuick gate up => ops.gegluQuick gate.eval up.eval
  | averagePool size node => ops.averagePool size node.eval
  | scaleSqrt count node => ops.scaleSqrt count node.eval

end VisionNode

/-- The nodes as tensors; a node has the width, the elements and the rows of its value. -/
def VisionOps.nodes {Tensor Row : Type} (ops : VisionOps Tensor Row) : VisionOps VisionNode Row where
  input := .input
  positions := .positions
  weight := .weight
  tableView := .tableView
  scaleBias := .scaleBias
  conv2d := .conv2d
  reshape := .reshape
  transpose := .transpose
  permute := .permute
  getRows := .getRows
  add := .add
  mul := .mul
  mulMat := .mulMat
  clamp := .clamp
  rmsNorm := .rmsNorm
  rope := .rope
  ropeOffset := .ropeOffset
  castF16 := .castF16
  flashAttention := .flashAttention
  softMax := .softMax
  gegluQuick := .gegluQuick
  averagePool := .averagePool
  scaleSqrt := .scaleSqrt
  headWidth node := ops.headWidth (node.eval ops)
  elements node := ops.elements (node.eval ops)
  row node := ops.row (node.eval ops)

/-! ## Values of the nodes -/

namespace VisionEncoder

section Values
variable {ε α β γ δ : Type}

theorem map_bind {x : Except ε α} {k : α → Except ε γ} {l : α → Except ε δ} {f : γ → δ}
    (h : ∀ a, (k a).map f = l a) : (x >>= k).map f = (x >>= l) := by
  cases x with
  | error e => rfl
  | ok a => exact h a

/-- The results of `y` are those of `x` under `g`. -/
theorem map_bind_map {x : Except ε α} {y : Except ε β} {g : α → β} {k : α → Except ε γ}
    {l : β → Except ε δ} {f : γ → δ} (hxy : x.map g = y) (h : ∀ a, (k a).map f = l (g a)) :
    (x >>= k).map f = (y >>= l) := by
  subst hxy
  cases x with
  | error e => rfl
  | ok a => exact h a

variable {Tensor Row : Type} (ops : VisionOps Tensor Row) (model : ModelBundle)

theorem clippedMm_eval (weight : GgufTensor) (input : VisionNode) :
    (clippedMm ops.nodes model weight input).map (VisionNode.eval ops) =
      clippedMm ops model weight (input.eval ops) := by
  unfold clippedMm
  apply map_bind
  intro inputMin
  apply map_bind
  intro inputMax
  apply map_bind
  intro outputMin
  apply map_bind
  intro outputMax
  rfl

variable (config : VisionModelConfig) (flash : Bool) (layer positionCount : Nat)
  (posX posY : VisionNode)

theorem attention_eval (input : VisionNode) :
    (attention ops.nodes model config flash layer positionCount posX posY input).map
        (VisionNode.eval ops) =
      attention ops model config flash layer positionCount (posX.eval ops) (posY.eval ops)
        (input.eval ops) := by
  unfold attention
  split
  · rfl
  apply map_bind
  intro queryWeight
  apply map_bind_map (clippedMm_eval ops model queryWeight input)
  intro query
  apply map_bind
  intro keyWeight
  apply map_bind_map (clippedMm_eval ops model keyWeight input)
  intro key
  apply map_bind
  intro valueWeight
  apply map_bind_map (clippedMm_eval ops model valueWeight input)
  intro value
  apply map_bind
  intro queryNorm
  apply map_bind
  intro keyNorm
  apply map_bind
  intro outWeight
  rw [clippedMm_eval]
  cases flash <;> rfl

theorem transformerLayer_eval (input : VisionNode) :
    (transformerLayer ops.nodes model config flash layer positionCount posX posY input).map
        (VisionNode.eval ops) =
      transformerLayer ops model config flash layer positionCount (posX.eval ops) (posY.eval ops)
        (input.eval ops) := by
  unfold transformerLayer
  apply map_bind
  intro norm
  apply map_bind_map (attention_eval ops model config flash layer positionCount posX posY _)
  intro attended
  apply map_bind
  intro postNorm
  apply map_bind
  intro secondNorm
  apply map_bind
  intro upWeight
  apply map_bind_map (clippedMm_eval ops model upWeight _)
  intro up
  apply map_bind
  intro gateWeight
  apply map_bind_map (clippedMm_eval ops model gateWeight _)
  intro gate
  apply map_bind
  intro downWeight
  apply map_bind_map (clippedMm_eval ops model downWeight _)
  intro down
  apply map_bind
  intro finalNorm
  rfl

theorem layers_eval (layers : List Nat) (input : VisionNode) :
    (layers.foldlM (fun current layer => transformerLayer ops.nodes model config flash layer
        positionCount posX posY current) input).map (VisionNode.eval ops) =
      layers.foldlM (fun current layer => transformerLayer ops model config flash layer positionCount
        (posX.eval ops) (posY.eval ops) current) (input.eval ops) := by
  induction layers generalizing input with
  | nil => rfl
  | cons layer layers ih =>
    rw [List.foldlM_cons, List.foldlM_cons]
    exact map_bind_map
      (transformerLayer_eval ops model config flash layer positionCount posX posY input) ih

/-- The tensor that is built is the value of the graph. -/
theorem buildVisionGraph_eval (backend : BackendContext) (image : PreparedImage) :
    (buildVisionGraph ops.nodes model flash backend image).map (VisionNode.eval ops) =
      buildVisionGraph ops model flash backend image := by
  unfold buildVisionGraph
  apply map_bind
  intro positionCount
  apply map_bind
  intro outputTokens
  apply map_bind
  intro _
  apply map_bind
  intro kernel
  apply map_bind
  intro positions
  apply map_bind_map (layers_eval ops model model.visionConfig flash positionCount _ _ _ _)
  intro current
  apply map_bind
  intro weight
  exact clippedMm_eval ops model weight _

end Values

end VisionEncoder

/-! ## Products by a weight -/

/-- The bounds of the two clamps around a product. -/
structure ClampLimits where
  inputMin : Float32Bits
  inputMax : Float32Bits
  outputMin : Float32Bits
  outputMax : Float32Bits

/-- The product of an input by a weight between its two clamps. -/
def ClampLimits.clip {Tensor Row : Type} (limits : ClampLimits) (ops : VisionOps Tensor Row)
    (weight : GgufTensor) (input : Tensor) : Tensor :=
  ops.clamp limits.outputMin limits.outputMax
    (ops.mulMat (ops.weight weight) (ops.clamp limits.inputMin limits.inputMax input))

/-- A product by a weight, and its limits if it stands between two clamps. -/
structure WeightProduct where
  weight : GgufTensor
  limits : Option ClampLimits

/-- Every product by a weight in the graph. -/
def VisionNode.products : VisionNode → List WeightProduct
  | clamp outputMin outputMax (mulMat (weight tensor) (clamp inputMin inputMax node)) =>
    ⟨tensor, some ⟨inputMin, inputMax, outputMin, outputMax⟩⟩ :: node.products
  | mulMat (weight tensor) node => ⟨tensor, none⟩ :: node.products
  | mulMat left right => left.products ++ right.products
  | input .. | positions .. | weight .. | tableView .. => []
  | scaleBias _ _ node | reshape _ node | transpose node | permute _ node | clamp _ _ node
  | rmsNorm _ node | ropeOffset _ node | castF16 node | softMax node | averagePool _ node
  | scaleSqrt _ node => node.products
  | conv2d kernel _ node => kernel.products ++ node.products
  | rope ids _ node => ids.products ++ node.products
  | getRows left right | add left right | mul left right | gegluQuick left right =>
    left.products ++ right.products
  | flashAttention query key value => query.products ++ key.products ++ value.products

end Branchscore
