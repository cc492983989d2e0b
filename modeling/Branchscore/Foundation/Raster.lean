import Mathlib

/-!
# Rows of equal length

Concatenations of blocks of one length, read at a row and a column.
-/

namespace Foundation

set_option autoImplicit false

variable {α : Type}

theorem length_flatMap_range {f : Nat → List α} {width : Nat} (h : ∀ i, (f i).length = width)
    (n : Nat) : ((List.range n).flatMap f).length = n * width := by
  simp [List.length_flatMap, h]

theorem getElem?_flatMap_range {f : Nat → List α} {width : Nat} (h : ∀ i, (f i).length = width)
    {n i j : Nat} (hi : i < n) (hj : j < width) :
    ((List.range n).flatMap f)[i * width + j]? = (f i)[j]? := by
  induction n with
  | zero => exact absurd hi (Nat.not_lt_zero i)
  | succ n ih =>
    have hlength := length_flatMap_range h n
    rw [List.range_succ, List.flatMap_append, List.flatMap_singleton]
    rcases Nat.lt_succ_iff_lt_or_eq.mp hi with hlt | rfl
    · have hbound : i * width + j < n * width := by
        have hmul := Nat.mul_le_mul_right width (Nat.succ_le_of_lt hlt)
        rw [Nat.succ_mul] at hmul
        omega
      rw [List.getElem?_append_left (by omega), ih hlt]
    · rw [List.getElem?_append_right (by omega), hlength, Nat.add_sub_cancel_left]

/-- An image of `height` rows, `width` pixels and `depth` samples a pixel, row by row. -/
def raster (height width depth : Nat) (sample : Nat → Nat → Nat → α) : List α :=
  (List.range height).flatMap fun y => (List.range width).flatMap fun x =>
    (List.range depth).map fun channel => sample y x channel

variable {height width depth : Nat} {sample : Nat → Nat → Nat → α}

theorem raster_length : (raster height width depth sample).length = height * (width * depth) := by
  apply length_flatMap_range
  intro y
  apply length_flatMap_range
  intro x
  rw [List.length_map, List.length_range]

theorem raster_getElem? {y x channel : Nat} (hy : y < height) (hx : x < width)
    (hchannel : channel < depth) :
    (raster height width depth sample)[(y * width + x) * depth + channel]? =
      some (sample y x channel) := by
  have hpixel (y x : Nat) :
      ((List.range depth).map fun channel => sample y x channel).length = depth := by
    rw [List.length_map, List.length_range]
  have hrow (y : Nat) := length_flatMap_range (hpixel y) width
  have hindex : (y * width + x) * depth + channel =
      y * (width * depth) + (x * depth + channel) := by ring
  have hcolumn : x * depth + channel < width * depth := by
    have hmul := Nat.mul_le_mul_right depth (Nat.succ_le_of_lt hx)
    rw [Nat.succ_mul] at hmul
    omega
  rw [raster, hindex, getElem?_flatMap_range hrow hy hcolumn,
    getElem?_flatMap_range (hpixel y) hx hchannel, List.getElem?_map,
    List.getElem?_range hchannel, Option.map_some]

end Foundation
