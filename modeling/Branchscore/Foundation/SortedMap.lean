import Mathlib

/-!
# Maps as lists in strictly increasing key order

The list of the entries of an ordered map, in iteration order. An entry list is
determined by its entries, so inserting them in any order gives the same map.
-/

namespace Foundation.SortedMap

set_option autoImplicit false

universe u v
variable {κ : Type u} {α : Type v} [LinearOrder κ]

def Sorted (m : List (κ × α)) : Prop := m.Pairwise fun a b => a.1 < b.1

/-- Insert unless the key is already present. -/
def emplace (key : κ) (value : α) : List (κ × α) → Option (List (κ × α))
  | [] => some [(key, value)]
  | entry :: rest =>
    if key < entry.1 then some ((key, value) :: entry :: rest)
    else if entry.1 < key then (emplace key value rest).map (entry :: ·)
    else none

/-- Insert, or replace the value of a key already present. -/
def assign (key : κ) (value : α) : List (κ × α) → List (κ × α)
  | [] => [(key, value)]
  | entry :: rest =>
    if key < entry.1 then (key, value) :: entry :: rest
    else if entry.1 < key then entry :: assign key value rest
    else (key, value) :: rest

def lookup (key : κ) (m : List (κ × α)) : Option α :=
  (m.find? fun entry => entry.1 = key).map Prod.snd

def emplaceAll (m : List (κ × α)) (entries : List (κ × α)) : Option (List (κ × α)) :=
  entries.foldlM (fun m entry => emplace entry.1 entry.2 m) m

/-- The map after emplacing the entries one by one: the first entry of a key stays. -/
def build (entries : List (κ × α)) : List (κ × α) :=
  entries.foldl (fun m entry => (emplace entry.1 entry.2 m).getD m) []

variable {key : κ} {value : α} {m m' : List (κ × α)}

theorem Sorted.nodup_keys (h : Sorted m) : (m.map Prod.fst).Nodup := by
  rw [List.Nodup, List.pairwise_map]
  exact h.imp fun hab => ne_of_lt hab

theorem Sorted.keys (h : Sorted m) : (m.map Prod.fst).Pairwise (· < ·) := List.pairwise_map.mpr h

theorem Sorted.eq_of_perm (h : Sorted m) (h' : Sorted m') (hp : m.Perm m') : m = m' := by
  apply List.Perm.eq_of_pairwise _ h h' hp
  intro a b _ _ hab hba
  exact absurd hab (lt_asymm hba)

theorem emplace_perm (h : emplace key value m = some m') : m'.Perm ((key, value) :: m) := by
  induction m generalizing m' with
  | nil => simp [emplace] at h; simp [← h]
  | cons entry rest ih =>
    rw [emplace] at h
    split at h
    · simp only [Option.some.injEq] at h
      rw [← h]
    · split at h
      · obtain ⟨r, hr, rfl⟩ := Option.map_eq_some_iff.mp h
        exact ((ih hr).cons entry).trans (.swap _ _ _)
      · simp at h

theorem emplace_sorted (hm : Sorted m) (h : emplace key value m = some m') : Sorted m' := by
  induction m generalizing m' with
  | nil => simp [emplace] at h; simp [← h, Sorted]
  | cons entry rest ih =>
    rw [emplace] at h
    have hrest := List.pairwise_cons.mp hm
    split at h
    · rename_i hlt
      simp only [Option.some.injEq] at h
      rw [← h]
      refine List.pairwise_cons.mpr ⟨?_, hm⟩
      intro b hb
      rcases List.mem_cons.mp hb with rfl | hb
      · exact hlt
      · exact lt_trans hlt (hrest.1 b hb)
    · split at h
      · rename_i hlt
        obtain ⟨r, hr, rfl⟩ := Option.map_eq_some_iff.mp h
        refine List.pairwise_cons.mpr ⟨?_, ih hrest.2 hr⟩
        intro b hb
        rcases List.mem_cons.mp ((emplace_perm hr).mem_iff.mp hb) with rfl | hb
        · exact hlt
        · exact hrest.1 b hb
      · simp at h

theorem emplace_isSome (h : key ∉ m.map Prod.fst) : ∃ m', emplace key value m = some m' := by
  induction m with
  | nil => exact ⟨_, rfl⟩
  | cons entry rest ih =>
    simp only [List.map_cons, List.mem_cons, not_or] at h
    rw [emplace]
    split
    · exact ⟨_, rfl⟩
    · obtain ⟨r, hr⟩ := ih h.2
      rw [if_pos (lt_of_le_of_ne (not_lt.mp ‹_›) (Ne.symm h.1)), hr]
      exact ⟨_, rfl⟩

theorem emplaceAll_cons (entry : κ × α) (entries : List (κ × α)) :
    emplaceAll m (entry :: entries) =
      (emplace entry.1 entry.2 m).bind (emplaceAll · entries) := rfl

/-- Inserting entries one after the other succeeds exactly when it gives the sorted
map of all of them. -/
theorem emplaceAll_eq_some {entries : List (κ × α)} (hm : Sorted m) :
    emplaceAll m entries = some m' ↔ Sorted m' ∧ m'.Perm (entries ++ m) := by
  induction entries generalizing m with
  | nil =>
    simp only [emplaceAll, List.foldlM_nil, List.nil_append]
    constructor
    · intro h
      cases h
      exact ⟨hm, .refl _⟩
    · rintro ⟨hm', hp⟩
      rw [hm'.eq_of_perm hm hp]
      rfl
  | cons entry entries ih =>
    rw [emplaceAll_cons, Option.bind_eq_some_iff]
    constructor
    · rintro ⟨m₁, h₁, h⟩
      obtain ⟨hs, hp⟩ := (ih (emplace_sorted hm h₁)).mp h
      refine ⟨hs, hp.trans ?_⟩
      exact ((emplace_perm h₁).append_left entries).trans List.perm_middle
    · rintro ⟨hs, hp⟩
      have hnodup := (hp.map Prod.fst).nodup_iff.mp hs.nodup_keys
      have hkey : entry.1 ∉ m.map Prod.fst := by
        simp only [List.cons_append, List.map_cons, List.nodup_cons, List.map_append,
          List.mem_append, not_or] at hnodup
        exact hnodup.1.2
      obtain ⟨m₁, h₁⟩ : ∃ m₁, emplace entry.1 entry.2 m = some m₁ := emplace_isSome hkey
      refine ⟨m₁, h₁, (ih (emplace_sorted hm h₁)).mpr ⟨hs, hp.trans ?_⟩⟩
      exact (((emplace_perm h₁).append_left entries).trans List.perm_middle).symm

theorem lookup_eq_some (hm : Sorted m) : lookup key m = some value ↔ (key, value) ∈ m := by
  simp only [lookup, Option.map_eq_some_iff, Prod.exists, exists_eq_right]
  constructor
  · rintro ⟨k, h⟩
    have hk : k = key := by simpa using List.find?_some h
    rw [← hk]
    exact List.mem_of_find?_eq_some h
  · intro h
    refine ⟨key, ?_⟩
    cases hf : m.find? (fun entry => decide (entry.1 = key)) with
    | none => exact absurd (List.find?_eq_none.mp hf _ h) (by simp)
    | some entry =>
      have hk : entry.1 = key := by simpa using List.find?_some hf
      have := List.inj_on_of_nodup_map hm.nodup_keys (List.mem_of_find?_eq_some hf) h hk
      rw [this]

theorem lookup_assign_self : lookup key (assign key value m) = some value := by
  have hne {entry : κ × α} (h : entry.1 < key) : ¬entry.1 = key := ne_of_lt h
  induction m with
  | nil => simp [assign, lookup]
  | cons entry rest ih =>
    rw [assign]
    split
    · simp [lookup]
    · split
      · rw [lookup, List.find?_cons_of_neg (by simpa using hne ‹_›)]
        exact ih
      · simp [lookup]

theorem lookup_assign_of_ne {other : κ} (h : other ≠ key) :
    lookup other (assign key value m) = lookup other m := by
  induction m with
  | nil => simp [assign, lookup, h.symm]
  | cons entry rest ih =>
    rw [assign]
    split
    · rw [lookup, List.find?_cons_of_neg (by simpa using h.symm)]
      rfl
    · split
      · by_cases hentry : entry.1 = other
        · rw [lookup, lookup, List.find?_cons_of_pos (by simpa using hentry),
            List.find?_cons_of_pos (by simpa using hentry)]
        · rw [lookup, lookup, List.find?_cons_of_neg (by simpa using hentry),
            List.find?_cons_of_neg (by simpa using hentry)]
          exact ih
      · have hkey : entry.1 = key := le_antisymm (not_lt.mp ‹_›) (not_lt.mp ‹_›)
        rw [lookup, lookup, List.find?_cons_of_neg (by simpa using h.symm),
          List.find?_cons_of_neg (by simpa [hkey] using h.symm)]

/-- A map is determined by its lookups. -/
theorem Sorted.ext (h : Sorted m) (h' : Sorted m') (hlookup : ∀ key, lookup key m = lookup key m') :
    m = m' := by
  apply h.eq_of_perm h'
  refine (List.perm_ext_iff_of_nodup ?_ ?_).mpr fun entry => ?_
  · exact h.nodup_keys.of_map
  · exact h'.nodup_keys.of_map
  · rw [← lookup_eq_some h, ← lookup_eq_some h', hlookup]

theorem mem_of_mem_assign {entry : κ × α} (h : entry ∈ assign key value m) :
    entry = (key, value) ∨ entry ∈ m := by
  induction m with
  | nil => exact Or.inl (List.mem_singleton.mp h)
  | cons first rest ih =>
    rw [assign] at h
    split_ifs at h
    · exact List.mem_cons.mp h
    · rcases List.mem_cons.mp h with rfl | h
      · exact Or.inr List.mem_cons_self
      · exact (ih h).imp_right (List.mem_cons_of_mem _)
    · exact (List.mem_cons.mp h).imp_right (List.mem_cons_of_mem _)

theorem assign_sorted (hm : Sorted m) : Sorted (assign key value m) := by
  induction m with
  | nil => exact List.pairwise_singleton _ _
  | cons first rest ih =>
    have hrest := List.pairwise_cons.mp hm
    rw [assign]
    split_ifs with hlt hgt
    · refine List.pairwise_cons.mpr ⟨fun entry hentry => ?_, hm⟩
      rcases List.mem_cons.mp hentry with rfl | hentry
      · exact hlt
      · exact hlt.trans (hrest.1 entry hentry)
    · refine List.pairwise_cons.mpr ⟨fun entry hentry => ?_, ih hrest.2⟩
      rcases mem_of_mem_assign hentry with rfl | hentry
      · exact hgt
      · exact hrest.1 entry hentry
    · have hkey : first.1 = key := le_antisymm (not_lt.mp hlt) (not_lt.mp hgt)
      rw [hkey] at hrest
      exact List.pairwise_cons.mpr hrest

/-! ## Building a map entry by entry -/

theorem emplace_getD_sorted (hm : Sorted m) : Sorted ((emplace key value m).getD m) := by
  cases h : emplace key value m with
  | none => exact hm
  | some m' => exact emplace_sorted hm h

theorem build_sorted (entries : List (κ × α)) : Sorted (build entries) := by
  have hfold : ∀ m : List (κ × α), Sorted m → Sorted
      (entries.foldl (fun m entry => (emplace entry.1 entry.2 m).getD m) m) := by
    induction entries with
    | nil => exact fun m hm => hm
    | cons entry entries ih => exact fun m hm => ih _ (emplace_getD_sorted hm)
  exact hfold [] List.Pairwise.nil

theorem foldl_emplace_perm {entries m : List (κ × α)}
    (h : ((entries ++ m).map Prod.fst).Nodup) :
    (entries.foldl (fun m entry => (emplace entry.1 entry.2 m).getD m) m).Perm (entries ++ m) := by
  induction entries generalizing m with
  | nil => exact .refl _
  | cons entry entries ih =>
    have hkey : entry.1 ∉ m.map Prod.fst := by
      simp only [List.cons_append, List.map_cons, List.nodup_cons, List.map_append,
        List.mem_append, not_or] at h
      exact h.1.2
    obtain ⟨m₁, h₁⟩ : ∃ m₁, emplace entry.1 entry.2 m = some m₁ := emplace_isSome hkey
    have hperm : (entries ++ m₁).Perm (entry :: entries ++ m) :=
      ((emplace_perm h₁).append_left entries).trans List.perm_middle
    rw [List.foldl_cons, h₁, Option.getD_some]
    exact (ih ((hperm.map Prod.fst).nodup_iff.mpr h)).trans hperm

theorem build_perm {entries : List (κ × α)} (h : (entries.map Prod.fst).Nodup) :
    (build entries).Perm entries := by
  have hperm := foldl_emplace_perm (m := []) (by rwa [List.append_nil])
  rwa [List.append_nil] at hperm

theorem build_of_sorted (h : Sorted m) : build m = m :=
  (build_sorted m).eq_of_perm h (build_perm h.nodup_keys)

theorem mem_of_mem_build {entries : List (κ × α)} {entry : κ × α} (h : entry ∈ build entries) :
    entry ∈ entries := by
  have hfold : ∀ m : List (κ × α), entry ∈
      entries.foldl (fun m entry => (emplace entry.1 entry.2 m).getD m) m →
      entry ∈ entries ∨ entry ∈ m := by
    clear h
    induction entries with
    | nil => exact fun m h => Or.inr h
    | cons e entries ih =>
      intro m h
      rcases ih _ h with h | h
      · exact Or.inl (List.mem_cons_of_mem _ h)
      · have hm : entry ∈ (emplace e.1 e.2 m).getD m := h
        cases he : emplace e.1 e.2 m with
        | none =>
          rw [he] at hm
          exact Or.inr hm
        | some m' =>
          rw [he] at hm
          rcases List.mem_cons.mp ((emplace_perm he).mem_iff.mp hm) with rfl | hm
          · exact Or.inl List.mem_cons_self
          · exact Or.inr hm
  rcases hfold [] h with h | h
  · exact h
  · simp at h

theorem lookup_build {entries : List (κ × α)} (h : (entries.map Prod.fst).Nodup) :
    lookup key (build entries) = some value ↔ (key, value) ∈ entries := by
  rw [lookup_eq_some (build_sorted entries), (build_perm h).mem_iff]

end Foundation.SortedMap
