import Branchscore.Foundation.Chunked
import Branchscore.ModelLoader

/-!
# Copying the weights

The selected tensors of a file are copied to the device one after the other. When the copy
succeeds, the device has for each of them the bytes that the file has, and nothing else has
changed.
-/

namespace Branchscore

open Foundation Outcome
set_option autoImplicit false

/-! ## The copy -/

/-- The bytes of a GGUF file, if it can be opened, and where its tensors are in it. -/
structure WeightFile where
  content : Option Bytes
  dataOffset : Nat
  tensorOffset : Bytes → Option Nat
  tensorBytes : Bytes → Nat

structure WeightDevice where
  name : Bytes
  createsContext : Bool
  allocates : Nat → Bool

/-- What the device has for a tensor. -/
abbrev Buffers := Bytes → Bytes

def copyChunkSize : Nat := 16 * 1024 * 1024

instance copyChunkSize_ne : NeZero copyChunkSize := ⟨by decide⟩

def quoted (before : String) (name : Bytes) : Bytes := bytes before ++ name ++ bytes "'"

/-- Offsets are added on `std::size_t`, and a stream is positioned by a signed offset. -/
def copyTensor (file : WeightFile) (content : Bytes) (buffers : Buffers) (name : Bytes) :
    Except Bytes Buffers :=
  match file.tensorOffset name with
  | none => .error (quoted "GGUF tensor index missing for '" name)
  | some offset => do
    let fileOffset := (file.dataOffset + offset) % 2 ^ 64
    if 2 ^ 63 ≤ fileOffset then .error (quoted "failed to seek to tensor '" name)
    else do
      let buffer ← copyChunks copyChunkSize (quoted "short read for tensor '" name)
        (file.tensorBytes name) 0 (content.drop fileOffset) (buffers name)
      return Function.update buffers name buffer

/-- The part of `LoadedWeights::load` behind the choice of the tensors. -/
def copyWeights (device : WeightDevice) (file : WeightFile) (path : Bytes) (buffers : Buffers)
    (names : List Bytes) : Except Bytes Buffers :=
  let weightBytes := (names.map file.tensorBytes).sum % 2 ^ 64
  if device.createsContext = false then
    .error (quoted "failed to create tensor metadata context for '" path)
  else if device.allocates weightBytes = false then
    .error (bytes "failed to allocate " ++ decimal weightBytes ++
      quoted " weight bytes on backend '" device.name)
  else
    match file.content with
    | none => .error (quoted "failed to open GGUF data file '" path)
    | some content => names.foldlM (copyTensor file content) buffers

/-! ## What is copied -/

/-- Where a tensor is in its file. -/
structure Place (file : WeightFile) (name : Bytes) (fileOffset : Nat) : Prop where
  offset : ∃ offset, file.tensorOffset name = some offset ∧
    fileOffset = (file.dataOffset + offset) % 2 ^ 64
  seekable : fileOffset < 2 ^ 63

/-- The file has these bytes for a tensor. -/
structure Stored (file : WeightFile) (content name data : Bytes) : Prop where
  slice : ∃ fileOffset, Place file name fileOffset ∧
    data = (content.drop fileOffset).take (file.tensorBytes name)
  size : data.length = file.tensorBytes name

theorem Stored.unique {file : WeightFile} {content name data other : Bytes}
    (h : Stored file content name data) (hother : Stored file content name other) :
    data = other := by
  obtain ⟨⟨_, ⟨⟨offset, hoffset, rfl⟩, _⟩, rfl⟩, _⟩ := h
  obtain ⟨⟨_, ⟨⟨same, hsame, rfl⟩, _⟩, rfl⟩, _⟩ := hother
  cases hoffset.symm.trans hsame
  rfl

section Copy
variable {file : WeightFile} {content name : Bytes} {buffers final : Buffers}

theorem copyTensor_iff (hallocated : (buffers name).length = file.tensorBytes name) :
    copyTensor file content buffers name = .ok final ↔
      ∃ data, Stored file content name data ∧ final = Function.update buffers name data := by
  unfold copyTensor
  cases hoffset : file.tensorOffset name with
  | none =>
    refine iff_of_false nofun ?_
    rintro ⟨_, ⟨⟨_, ⟨⟨offset, hsome, _⟩, _⟩, _⟩, _⟩, _⟩
    cases hoffset.symm.trans hsome
  | some offset =>
    have hplace (fileOffset : Nat) : Place file name fileOffset ↔
        fileOffset = (file.dataOffset + offset) % 2 ^ 64 ∧ fileOffset < 2 ^ 63 := by
      constructor
      · rintro ⟨⟨other, hother, heq⟩, hseekable⟩
        cases hoffset.symm.trans hother
        exact ⟨heq, hseekable⟩
      · exact fun ⟨heq, hseekable⟩ => ⟨⟨offset, hoffset, heq⟩, hseekable⟩
    dsimp only
    by_cases hseek : 2 ^ 63 ≤ (file.dataOffset + offset) % 2 ^ 64
    · rw [if_pos hseek]
      refine iff_of_false nofun ?_
      rintro ⟨_, ⟨⟨fileOffset, hfile, _⟩, _⟩, _⟩
      obtain ⟨rfl, hseekable⟩ := (hplace fileOffset).mp hfile
      omega
    · rw [if_neg hseek, copyChunks_whole _ _ hallocated.symm]
      have hstored := (hplace _).mpr ⟨rfl, Nat.lt_of_not_le hseek⟩
      by_cases hlong : file.tensorBytes name ≤
          (content.drop ((file.dataOffset + offset) % 2 ^ 64)).length
      · rw [if_pos hlong, ok_bind]
        constructor
        · intro h
          cases h
          exact ⟨_, ⟨⟨_, hstored, rfl⟩, List.length_take_of_le hlong⟩, rfl⟩
        · rintro ⟨data, ⟨⟨fileOffset, hfile, rfl⟩, _⟩, rfl⟩
          rw [((hplace fileOffset).mp hfile).1]
          rfl
      · rw [if_neg hlong]
        refine iff_of_false nofun ?_
        rintro ⟨data, ⟨⟨fileOffset, hfile, rfl⟩, hsize⟩, _⟩
        rw [((hplace fileOffset).mp hfile).1, List.length_take] at hsize
        omega

/-- The tensors are copied one by one, and none of them twice. -/
theorem foldlM_copyTensor {names : List Bytes} (hnodup : names.Nodup)
    (hallocated : ∀ name ∈ names, (buffers name).length = file.tensorBytes name) :
    names.foldlM (copyTensor file content) buffers = .ok final ↔
      (∀ name ∈ names, Stored file content name (final name)) ∧
        ∀ name, name ∉ names → final name = buffers name := by
  induction names generalizing buffers with
  | nil =>
    constructor
    · intro h
      cases h
      exact ⟨List.forall_mem_nil _, fun _ _ => rfl⟩
    · intro ⟨_, hsame⟩
      rw [funext fun name => hsame name List.not_mem_nil]
      rfl
  | cons name names ih =>
    obtain ⟨hnotMem, hnodup⟩ := List.nodup_cons.mp hnodup
    obtain ⟨hfirst, hrest⟩ := List.forall_mem_cons.mp hallocated
    have hother {other data : Bytes} (hne : other ≠ name) :
        Function.update buffers name data other = buffers other := Function.update_of_ne hne _ _
    have hkept (data : Bytes) : ∀ other ∈ names,
        (Function.update buffers name data other).length = file.tensorBytes other := by
      intro other hmem
      rw [hother fun heq => hnotMem (heq ▸ hmem)]
      exact hrest other hmem
    rw [List.foldlM_cons, bind_eq_ok]
    constructor
    · rintro ⟨next, hcopied, h⟩
      obtain ⟨data, hdata, rfl⟩ := (copyTensor_iff hfirst).mp hcopied
      obtain ⟨hstored, hsame⟩ := (ih hnodup (hkept data)).mp h
      refine ⟨List.forall_mem_cons.mpr ⟨?_, hstored⟩, fun other hmem => ?_⟩
      · rw [hsame name hnotMem, Function.update_self]
        exact hdata
      · rw [List.mem_cons, not_or] at hmem
        rw [hsame other hmem.2, hother hmem.1]
    · intro ⟨hstored, hsame⟩
      obtain ⟨hname, hnames⟩ := List.forall_mem_cons.mp hstored
      refine ⟨_, (copyTensor_iff hfirst).mpr ⟨final name, hname, rfl⟩,
        (ih hnodup (hkept _)).mpr ⟨hnames, fun other hmem => ?_⟩⟩
      by_cases heq : other = name
      · rw [heq, Function.update_self]
      · rw [hother heq]
        exact hsame other (List.not_mem_cons_of_ne_of_not_mem heq hmem)

/-- The device can hold these tensors. -/
structure WeightDevice.Holds (device : WeightDevice) (file : WeightFile) (names : List Bytes) :
    Prop where
  context : device.createsContext = true
  buffer : device.allocates ((names.map file.tensorBytes).sum % 2 ^ 64) = true

theorem copyWeights_iff {device : WeightDevice} {path : Bytes} {names : List Bytes}
    (hnodup : names.Nodup)
    (hallocated : ∀ name ∈ names, (buffers name).length = file.tensorBytes name) :
    copyWeights device file path buffers names = .ok final ↔ device.Holds file names ∧
      ∃ content, file.content = some content ∧
        (∀ name ∈ names, Stored file content name (final name)) ∧
        ∀ name, name ∉ names → final name = buffers name := by
  unfold copyWeights
  dsimp only
  by_cases hcontext : device.createsContext = false
  · rw [if_pos hcontext]
    refine iff_of_false nofun fun h => ?_
    cases hcontext.symm.trans h.1.context
  rw [if_neg hcontext]
  by_cases hbuffer : device.allocates ((names.map file.tensorBytes).sum % 2 ^ 64) = false
  · rw [if_pos hbuffer]
    refine iff_of_false nofun fun h => ?_
    cases hbuffer.symm.trans h.1.buffer
  rw [if_neg hbuffer]
  have hholds : device.Holds file names :=
    ⟨eq_true_of_ne_false hcontext, eq_true_of_ne_false hbuffer⟩
  cases hcontent : file.content with
  | none => exact iff_of_false nofun fun ⟨_, _, h, _⟩ => nomatch h
  | some content =>
    refine (foldlM_copyTensor hnodup hallocated).trans ?_
    constructor
    · exact fun h => ⟨hholds, content, rfl, h⟩
    · rintro ⟨_, other, hother, h⟩
      cases hother
      exact h

/-- A file with all the bytes can be copied to a device that can hold them. -/
theorem exists_copyWeights {device : WeightDevice} {path : Bytes} {names : List Bytes}
    (hnodup : names.Nodup)
    (hallocated : ∀ name ∈ names, (buffers name).length = file.tensorBytes name)
    (hholds : device.Holds file names) (hcontent : file.content = some content)
    (hstored : ∀ name ∈ names, ∃ data, Stored file content name data) :
    ∃ final, copyWeights device file path buffers names = .ok final := by
  choose! data hdata using hstored
  refine ⟨fun name => if name ∈ names then data name else buffers name,
    (copyWeights_iff hnodup hallocated).mpr ⟨hholds, content, hcontent, ?_, ?_⟩⟩
  · intro name hname
    rw [if_pos hname]
    exact hdata name hname
  · intro name hname
    exact if_neg hname

end Copy

/-! ## The load -/

/-- The files on the disk, each with its metadata and its data. -/
structure Disk where
  metadata : Bytes → Option Gguf
  file : Bytes → WeightFile

/-- The files as the loader reads them. -/
def Disk.files (disk : Disk) (device : WeightDevice) (buffers : Buffers) : ModelFiles where
  read := disk.metadata
  copy path tensors := (copyWeights device (disk.file path) path buffers
    (tensors.map GgufTensor.name)).map fun _ => ()

theorem Disk.copied {disk : Disk} {device : WeightDevice} {buffers : Buffers} {path : Bytes}
    {tensors : List GgufTensor} {done : Unit}
    (h : ((disk.files device buffers).copy path tensors).mapError Exception.runtimeError =
      .ok done) :
    ∃ final, copyWeights device (disk.file path) path buffers (tensors.map GgufTensor.name) =
      .ok final := by
  change ((copyWeights _ _ _ _ _).map _).mapError _ = _ at h
  cases hcopied : copyWeights device (disk.file path) path buffers
      (tensors.map GgufTensor.name) with
  | error e =>
    rw [hcopied] at h
    cases h
  | ok final => exact ⟨final, rfl⟩

theorem Disk.copy_eq_ok {disk : Disk} {device : WeightDevice} {buffers final : Buffers}
    {path : Bytes} {tensors : List GgufTensor}
    (h : copyWeights device (disk.file path) path buffers (tensors.map GgufTensor.name) =
      .ok final) :
    ((disk.files device buffers).copy path tensors).mapError Exception.runtimeError = .ok () := by
  change ((copyWeights _ _ _ _ _).map _).mapError _ = _
  rw [h]
  rfl

/-- Loading succeeds exactly if some tensors are selected, the device can hold them and the file
has the bytes of each. Then the device has these bytes for each, and what it has for others is as
it was. -/
theorem load_copies {disk : Disk} {device : WeightDevice} {buffers : Buffers} {path : Bytes}
    (hnodup : ∀ gguf, disk.metadata path = some gguf → (gguf.tensors.map GgufTensor.name).Nodup)
    (hallocated : ∀ gguf, disk.metadata path = some gguf → ∀ tensor ∈ gguf.tensors,
      (buffers tensor.name).length = (disk.file path).tensorBytes tensor.name)
    (selected : Bytes → Bool) (weights : LoadedWeights) :
    (LoadedWeights.load (disk.files device buffers) path selected = .ok weights ↔
      disk.metadata path = some weights.gguf ∧
      weights.tensors = (weights.gguf.tensors.filter fun tensor => selected tensor.name) ∧
      weights.tensors ≠ [] ∧
      device.Holds (disk.file path) (weights.tensors.map GgufTensor.name) ∧
      ∃ content, (disk.file path).content = some content ∧
        ∀ tensor ∈ weights.tensors, ∃ data, Stored (disk.file path) content tensor.name data) ∧
    (LoadedWeights.load (disk.files device buffers) path selected = .ok weights →
      ∃ content final, (disk.file path).content = some content ∧
        copyWeights device (disk.file path) path buffers (weights.tensors.map GgufTensor.name) =
          .ok final ∧
        (∀ tensor ∈ weights.tensors, Stored (disk.file path) content tensor.name
          (final tensor.name)) ∧
        ∀ name, name ∉ weights.tensors.map GgufTensor.name → final name = buffers name) := by
  unfold LoadedWeights.load
  cases hread : (disk.files device buffers).read path with
  | none =>
    refine ⟨iff_of_false nofun fun ⟨hmetadata, _⟩ => ?_, nofun⟩
    cases hread.symm.trans hmetadata
  | some gguf =>
    dsimp only
    have hmetadata : disk.metadata path = some gguf := hread
    have hnames : ((gguf.tensors.filter fun tensor => selected tensor.name).map
        GgufTensor.name).Nodup :=
      (hnodup gguf hmetadata).sublist (List.filter_sublist.map _)
    have hselected : ∀ name ∈ (gguf.tensors.filter fun tensor => selected tensor.name).map
        GgufTensor.name, (buffers name).length = (disk.file path).tensorBytes name := by
      intro name hname
      obtain ⟨tensor, htensor, rfl⟩ := List.mem_map.mp hname
      exact hallocated gguf hmetadata tensor (List.mem_of_mem_filter htensor)
    by_cases hnone : (gguf.tensors.filter fun tensor => selected tensor.name) = []
    · rw [if_pos hnone]
      refine ⟨iff_of_false nofun fun ⟨hgguf, htensors, hne, _⟩ => ?_, nofun⟩
      cases hmetadata.symm.trans hgguf
      exact hne (htensors.trans hnone)
    rw [if_neg hnone, bind_eq_ok]
    refine ⟨⟨?_, ?_⟩, ?_⟩
    · rintro ⟨_, hcopy, h⟩
      cases h
      obtain ⟨final, hcopied⟩ := Disk.copied hcopy
      obtain ⟨hholds, content, hcontent, hstored, _⟩ :=
        (copyWeights_iff hnames hselected).mp hcopied
      exact ⟨hmetadata, rfl, hnone, hholds, content, hcontent, fun tensor htensor =>
        ⟨_, hstored _ (List.mem_map_of_mem htensor)⟩⟩
    · obtain ⟨read, tensors⟩ := weights
      dsimp only
      rintro ⟨hgguf, htensors, _, hholds, content, hcontent, hstored⟩
      cases hmetadata.symm.trans hgguf
      subst htensors
      obtain ⟨final, hcopied⟩ := exists_copyWeights hnames hselected hholds hcontent
        (List.forall_mem_map.mpr hstored)
      exact ⟨(), Disk.copy_eq_ok hcopied, rfl⟩
    · rintro ⟨_, hcopy, h⟩
      cases h
      obtain ⟨final, hcopied⟩ := Disk.copied hcopy
      obtain ⟨_, content, hcontent, hstored, hsame⟩ :=
        (copyWeights_iff hnames hselected).mp hcopied
      exact ⟨content, final, hcontent, hcopied, fun tensor htensor =>
        hstored _ (List.mem_map_of_mem htensor), hsame⟩

/-! A file with two tensors, of which the second one is selected. -/

def sampleGguf : Gguf where
  entries := []
  tensors := [⟨bytes "a", .f32, 1, 0⟩, ⟨bytes "b", .f32, 1, 0⟩]

def sampleWeightDisk (content : Bytes) : Disk where
  metadata path := if path = bytes "m" then some sampleGguf else none
  file _ :=
    { content := some content
      dataOffset := 1
      tensorOffset := fun name => some (if name = bytes "b" then 4 else 0)
      tensorBytes := fun _ => 4 }

/-- The last byte of the file decides. -/
theorem load_copies_sample :
    let device : WeightDevice := ⟨bytes "CPU", true, fun _ => true⟩
    let buffers : Buffers := fun _ => [0, 0, 0, 0]
    let weights : LoadedWeights := ⟨sampleGguf, [⟨bytes "b", .f32, 1, 0⟩]⟩
    LoadedWeights.load ((sampleWeightDisk [7, 1, 2, 3, 4, 5, 6, 7, 8]).files device buffers)
        (bytes "m") (fun name => name = bytes "b") = .ok weights ∧
      (∃ final, copyWeights device ((sampleWeightDisk [7, 1, 2, 3, 4, 5, 6, 7, 8]).file (bytes "m"))
          (bytes "m") buffers [bytes "b"] = .ok final ∧
        final (bytes "b") = [5, 6, 7, 8] ∧ final (bytes "a") = [0, 0, 0, 0]) ∧
      LoadedWeights.load ((sampleWeightDisk [7, 1, 2, 3, 4, 5, 6, 7]).files device buffers)
        (bytes "m") (fun name => name = bytes "b") ≠ .ok weights := by
  intro device buffers weights
  have hplace (content : Bytes) : Place ((sampleWeightDisk content).file (bytes "m")) (bytes "b") 5 :=
    ⟨⟨4, rfl, rfl⟩, by decide⟩
  have hstored : Stored ((sampleWeightDisk [7, 1, 2, 3, 4, 5, 6, 7, 8]).file (bytes "m"))
      [7, 1, 2, 3, 4, 5, 6, 7, 8] (bytes "b") [5, 6, 7, 8] := ⟨⟨5, hplace _, rfl⟩, rfl⟩
  have hcopies (content : Bytes) := @load_copies (sampleWeightDisk content) device buffers
    (bytes "m")
    (fun gguf h => by cases h; decide) (fun gguf h tensor _ => rfl)
    (fun name => name = bytes "b") weights
  have hload := (hcopies _).1.mpr ⟨rfl, by decide, by decide, ⟨rfl, rfl⟩, _, rfl,
    List.forall_mem_singleton.mpr ⟨_, hstored⟩⟩
  refine ⟨hload, ?_, fun h => ?_⟩
  · obtain ⟨content, final, hcontent, hfinal, hdata, hsame⟩ := (hcopies _).2 hload
    cases hcontent
    exact ⟨final, hfinal, (hdata _ List.mem_cons_self).unique hstored, hsame _ (by decide)⟩
  · obtain ⟨_, _, _, _, content, hcontent, hdata⟩ := (hcopies _).1.mp h
    cases hcontent
    obtain ⟨data, ⟨fileOffset, ⟨⟨offset, hoffset, rfl⟩, _⟩, rfl⟩, hsize⟩ :=
      hdata _ List.mem_cons_self
    cases hoffset
    exact absurd hsize (by decide)

end Branchscore
