import Mathlib

/-!
# Passes through a stack of attention layers

A stack is given by row-wise functions: what a layer caches for a row, which earlier
layer's cache it reads, which positions a query sees, and its output. `hidden` is one
pass over a whole sequence. `Filled` describes a cache that holds the entries of a
prefix of the positions, with its own bound at each layer.
-/

namespace Foundation.CausalPass

set_option autoImplicit false

structure Stack (Row Entry : Type) where
  source : Nat → Nat
  source_le : ∀ layer, source layer ≤ layer
  entry : Nat → Nat → Row → Entry
  visible : Nat → Nat → Nat → Bool
  causal : ∀ {layer query key}, visible layer query key = true → key ≤ query
  output : Nat → Nat → Row → List (Nat × Entry) → Row

namespace Stack
variable {Row Entry : Type} (s : Stack Row Entry)

/-- The positions below `count` that `query` attends to, in order. -/
def seen (layer query count : Nat) : List Nat := (List.range count).filter (s.visible layer query)

/-- The row of a position before a layer, in one pass over `count` rows. -/
def hidden (count : Nat) (input : Nat → Row) : Nat → Nat → Row
  | 0, position => input position
  | layer + 1, position =>
    s.output layer position (hidden count input layer position)
      ((s.seen layer position count).map fun key =>
        (key, s.entry (s.source layer) key (hidden count input (s.source layer) key)))
termination_by layer => layer
decreasing_by
  · exact Nat.lt_succ_self layer
  · exact Nat.lt_succ_of_le (s.source_le layer)

/-- What the pass caches at a layer and a position. -/
def cached (count : Nat) (input : Nat → Row) (layer position : Nat) : Entry :=
  s.entry layer position (s.hidden count input layer position)

@[simp] theorem hidden_zero (count : Nat) (input : Nat → Row) (position : Nat) :
    s.hidden count input 0 position = input position := by
  rw [hidden]

theorem hidden_succ (count : Nat) (input : Nat → Row) (layer position : Nat) :
    s.hidden count input (layer + 1) position =
      s.output layer position (s.hidden count input layer position)
        ((s.seen layer position count).map fun key =>
          (key, s.cached count input (s.source layer) key)) := by
  rw [hidden]
  rfl

theorem mem_seen {layer query count key : Nat} :
    key ∈ s.seen layer query count ↔ key < count ∧ s.visible layer query key = true := by
  rw [seen, List.mem_filter, List.mem_range]

theorem lt_of_mem_seen {layer query count key bound : Nat} (h : key ∈ s.seen layer query count)
    (hq : query < bound) : key < bound :=
  Nat.lt_of_le_of_lt (s.causal (s.mem_seen.mp h).2) hq

/-- A query sees the same positions in every sequence that reaches beyond it. -/
theorem seen_eq {layer query a b : Nat} (ha : query < a) (hb : query < b) :
    s.seen layer query a = s.seen layer query b := by
  have hstep : ∀ c, query < c → s.seen layer query c = s.seen layer query (query + 1) := by
    intro c hc
    obtain ⟨d, rfl⟩ := Nat.exists_eq_add_of_lt hc
    have hhidden : ∀ key ∈ (List.range d).map (query + 1 + ·), ¬s.visible layer query key = true := by
      intro key hkey hvisible
      obtain ⟨e, _, rfl⟩ := List.mem_map.mp hkey
      have := s.causal hvisible
      omega
    have hrange : List.range (query + d + 1) =
        List.range (query + 1) ++ (List.range d).map (query + 1 + ·) := by
      rw [show query + d + 1 = query + 1 + d by omega, List.range_add]
    rw [seen, seen, hrange, List.filter_append, List.filter_eq_nil_iff.mpr hhidden,
      List.append_nil]
  rw [hstep a ha, hstep b hb]

/-- The stacks do the same to the positions below `bound`. -/
structure Alike (bound : Nat) (s s' : Stack Row Entry) : Prop where
  source : s.source = s'.source
  visible : s.visible = s'.visible
  entry : ∀ layer, ∀ position < bound, s.entry layer position = s'.entry layer position
  output : ∀ layer, ∀ position < bound, s.output layer position = s'.output layer position

section Causality
variable {s} {s' : Stack Row Entry} {bound a b : Nat} {input input' : Nat → Row}

theorem Alike.seen_eq (h : Alike bound s s') (ha : bound ≤ a) (hb : bound ≤ b)
    {layer query : Nat} (hq : query < bound) : s.seen layer query a = s'.seen layer query b := by
  rw [s.seen_eq (Nat.lt_of_lt_of_le hq ha) (Nat.lt_of_lt_of_le hq hb), seen, seen, h.visible]

/-- The rows below `bound` are the same in all sequences that agree below it. -/
theorem Alike.hidden_eq (h : Alike bound s s') (ha : bound ≤ a) (hb : bound ≤ b)
    (hinput : ∀ position < bound, input position = input' position) (layer : Nat) {position : Nat}
    (hp : position < bound) :
    s.hidden a input layer position = s'.hidden b input' layer position := by
  induction layer using Nat.strong_induction_on generalizing position with
  | _ layer ih =>
    cases layer with
    | zero =>
      rw [hidden_zero, hidden_zero]
      exact hinput position hp
    | succ layer =>
      have hcached : ∀ key ∈ s.seen layer position a,
          (key, s.cached a input (s.source layer) key) =
            (key, s'.cached b input' (s'.source layer) key) := by
        intro key hkey
        have hlt := s.lt_of_mem_seen hkey hp
        have hsource := Nat.lt_succ_of_le (s.source_le layer)
        rw [cached, cached, h.entry _ key hlt, ih _ hsource hlt, h.source]
      rw [hidden_succ, hidden_succ, h.output layer position hp, ih layer (Nat.lt_succ_self layer) hp,
        List.map_congr_left hcached, h.seen_eq ha hb hp]

theorem Alike.cached_eq (h : Alike bound s s') (ha : bound ≤ a) (hb : bound ≤ b)
    (hinput : ∀ position < bound, input position = input' position) (layer : Nat) {position : Nat}
    (hp : position < bound) :
    s.cached a input layer position = s'.cached b input' layer position := by
  rw [cached, cached, h.entry layer position hp, h.hidden_eq ha hb hinput layer hp]

end Causality

end Stack

/-! ## Caches -/

variable {α : Type}

/-- The rows of a layer are written from `start` on. -/
def write (cache : Nat → Nat → Option α) (layer start : Nat) (rows : List α) :
    Nat → Nat → Option α :=
  fun l position =>
    if l = layer ∧ start ≤ position ∧ position < start + rows.length then rows[position - start]?
    else cache l position

/-- Each layer holds the entries of `table` below its bound, and nothing else. -/
def Filled (table : Nat → Nat → α) (bound : Nat → Nat) (cache : Nat → Nat → Option α) : Prop :=
  ∀ layer position,
    cache layer position = if position < bound layer then some (table layer position) else none

namespace Filled
variable {table : Nat → Nat → α} {bound : Nat → Nat} {cache : Nat → Nat → Option α}

theorem empty (table : Nat → Nat → α) : Filled table (fun _ => 0) fun _ _ => none := by
  intro layer position
  simp

theorem read (h : Filled table bound cache) {layer position : Nat} (hp : position < bound layer) :
    cache layer position = some (table layer position) := by
  rw [h layer position, if_pos hp]

theorem write (h : Filled table bound cache) {bound' : Nat → Nat} {layer count : Nat}
    (hlayer : bound' layer = bound layer + count)
    (hother : ∀ l, l ≠ layer → bound' l = bound l) :
    Filled table bound' (CausalPass.write cache layer (bound layer)
      ((List.range' (bound layer) count).map (table layer))) := by
  intro l position
  rw [CausalPass.write, List.length_map, List.length_range']
  by_cases hl : l = layer
  · subst l
    by_cases hin : bound layer ≤ position ∧ position < bound layer + count
    · have hindex : position - bound layer < count := by omega
      rw [if_pos ⟨rfl, hin⟩, hlayer, if_pos hin.2, List.getElem?_map,
        List.getElem?_range' hindex, Option.map_some, Nat.one_mul,
        show bound layer + (position - bound layer) = position by omega]
    · rw [if_neg (fun hc => hin hc.2), h layer position, hlayer]
      by_cases hp : position < bound layer
      · rw [if_pos hp, if_pos (by omega)]
      · rw [if_neg hp, if_neg (by omega)]
  · rw [if_neg (fun hc => hl hc.1), h l position, hother l hl]

end Filled

end Foundation.CausalPass
