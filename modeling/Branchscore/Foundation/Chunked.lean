import Branchscore.Foundation.Cells

/-!
# Copying in chunks

A block is copied from a source into an array, chunk by chunk. The size of the chunks has no
part in the result.
-/

namespace Foundation

set_option autoImplicit false

variable {ε α : Type}

theorem overwrite_append {cells front back : List α} {base : Nat}
    (h : base + (front.length + back.length) ≤ cells.length) :
    overwrite (overwrite cells base front) (base + front.length) back =
      overwrite cells base (front ++ back) := by
  have hpre : (cells.take base).length = base := by
    rw [List.length_take]
    omega
  have htake : (overwrite cells base front).take (base + front.length) =
      cells.take base ++ front := by
    rw [overwrite, ← List.append_assoc]
    exact List.take_left' (by rw [List.length_append, hpre])
  have hdrop : (overwrite cells base front).drop (base + front.length + back.length) =
      cells.drop (base + (front ++ back).length) := by
    rw [overwrite, ← List.append_assoc, List.drop_append, List.drop_of_length_le
      (by rw [List.length_append, hpre]; omega), List.nil_append, List.length_append, hpre,
      List.drop_drop, List.length_append]
    congr 1
    omega
  rw [overwrite, htake, hdrop, overwrite, List.append_assoc, List.append_assoc]

/-- The loop over the chunks of a block of this size: `source` is what is left to be read behind
the first `offset` values. -/
def copyChunks (chunk : Nat) [NeZero chunk] (fault : ε) (size offset : Nat)
    (source cells : List α) : Except ε (List α) :=
  if offset < size then
    let count := min chunk (size - offset)
    let values := source.take count
    if values.length ≠ count then .error fault
    else copyChunks chunk fault size (offset + count) (source.drop count) (overwrite cells offset values)
  else .ok cells
termination_by size - offset
decreasing_by
  have := NeZero.pos chunk
  omega

section Chunks
variable (chunk : Nat) [NeZero chunk] (fault : ε) {size : Nat}

theorem copyChunks_eq {offset : Nat} {source cells : List α} (hfits : size ≤ cells.length) :
    copyChunks chunk fault size offset source cells =
      if size - offset ≤ source.length then
        .ok (overwrite cells offset (source.take (size - offset)))
      else .error fault := by
  induction offset, source, cells using copyChunks.induct chunk size with
  | case1 offset source cells hmore count values hshort =>
    have hlength : ¬size - offset ≤ source.length := by
      intro hle
      apply hshort
      rw [List.length_take]
      omega
    rw [copyChunks, if_pos hmore, if_pos hshort, if_neg hlength]
  | case2 offset source cells hmore count values hread ih =>
    have hcount : (source.take count).length = count := not_not.mp hread
    have hsource : count ≤ source.length := by
      rw [List.length_take] at hcount
      omega
    have hsize : offset + count ≤ size := by omega
    have hwritten : (overwrite cells offset values).length = cells.length :=
      length_overwrite (by rw [hcount]; omega)
    rw [copyChunks, if_pos hmore, if_neg hread, ih (hwritten.symm ▸ hfits), List.length_drop]
    by_cases hrest : size - offset ≤ source.length
    · have hsplit : size - offset = count + (size - (offset + count)) := by omega
      rw [if_pos hrest, if_pos (by omega), hsplit, List.take_add]
      have happend := @overwrite_append α cells (source.take count)
        ((source.drop count).take (size - (offset + count))) offset
        (by rw [hcount, List.length_take, List.length_drop]; omega)
      rw [hcount] at happend
      rw [happend]
    · rw [if_neg hrest, if_neg (by omega)]
  | case3 offset source cells hend =>
    rw [copyChunks, if_neg hend, Nat.sub_eq_zero_of_le (Nat.le_of_not_lt hend), if_pos (Nat.zero_le _),
      List.take_zero, overwrite_nil]

/-- A whole block is copied, if the source has it. -/
theorem copyChunks_whole {source cells : List α} (hfits : size = cells.length) :
    copyChunks chunk fault size 0 source cells =
      if size ≤ source.length then .ok (source.take size) else .error fault := by
  rw [copyChunks_eq chunk fault hfits.le, Nat.sub_zero]
  by_cases hlength : size ≤ source.length
  · rw [if_pos hlength, if_pos hlength, overwrite, List.take_zero, List.nil_append, List.length_take,
      Nat.min_eq_left hlength, Nat.zero_add, List.drop_of_length_le hfits.ge, List.append_nil]
  · rw [if_neg hlength, if_neg hlength]

end Chunks

end Foundation
