import Mathlib

/-!
# Words in composed texts

A word that does not share the first and the last element of a gap stands on one side of
it. A code that writes the elements of a word as themselves neither makes nor hides it.
-/

namespace Foundation.Words

set_option autoImplicit false

universe u
variable {α : Type u} {word : List α}

/-- A word stands on one side of an element it does not have. -/
theorem infix_append_cons_iff {a b : List α} {c : α} (hc : c ∉ word) :
    word <:+: a ++ c :: b ↔ word <:+: a ∨ word <:+: b := by
  have hpre {l : List α} (hl : l ⊆ word) (h : l <+: c :: b) : l = [] := by
    rcases List.prefix_cons_iff.mp h with hnil | ⟨rest, hcons, _⟩
    · exact hnil
    · exact absurd (hl (hcons ▸ List.mem_cons_self)) hc
  constructor
  · intro h
    rcases List.infix_append_iff.mp h with hleft | hright | ⟨left, right, heq, hleft, hright⟩
    · exact Or.inl hleft
    · rcases List.infix_cons_iff.mp hright with hfirst | hrest
      · rw [hpre (List.Subset.refl _) hfirst]
        exact Or.inl List.nil_infix
      · exact Or.inr hrest
    · have hempty := hpre (heq ▸ List.subset_append_right _ _) hright
      rw [hempty, List.append_nil] at heq
      exact Or.inl (heq ▸ hleft.isInfix)
  · intro h
    rcases h with hleft | hright
    · exact List.infix_append_of_infix_left hleft
    · exact List.infix_append_of_infix_right (List.infix_cons hright)

/-- What stands between two parts of a text and keeps the word on one side. -/
structure Gap (word gap : List α) : Prop where
  first : ∃ c ∈ gap.head?, c ∉ word
  last : ∃ c ∈ gap.getLast?, c ∉ word
  free : ¬word <:+: gap

instance [DecidableEq α] (word gap : List α) : Decidable (Gap word gap) :=
  decidable_of_iff ((∃ c ∈ gap.head?, c ∉ word) ∧ (∃ c ∈ gap.getLast?, c ∉ word) ∧ ¬word <:+: gap)
    ⟨fun ⟨hfirst, hlast, hfree⟩ => ⟨hfirst, hlast, hfree⟩, fun h => ⟨h.first, h.last, h.free⟩⟩

theorem Gap.infix_append_iff {gap : List α} (h : Gap word gap) {a b : List α} :
    word <:+: a ++ (gap ++ b) ↔ word <:+: a ∨ word <:+: b := by
  obtain ⟨c, hfirst, hc⟩ := h.first
  obtain ⟨d, hlast, hd⟩ := h.last
  obtain ⟨front, rfl⟩ := List.getLast?_eq_some_iff.mp hlast
  have hfront : ¬word <:+: front := fun hf => h.free (List.infix_append_of_infix_left hf)
  cases front with
  | nil => exact infix_append_cons_iff hd
  | cons c' front =>
    cases hfirst
    have hrest : ¬word <:+: front := fun hf => hfront (List.infix_cons hf)
    rw [List.append_assoc, List.cons_append, infix_append_cons_iff hc, List.singleton_append,
      infix_append_cons_iff hd, or_iff_right hrest]

/-- Behind a text that lacks the word and ends outside it. -/
theorem infix_append_right_iff {front b : List α} (hlast : ∃ c ∈ front.getLast?, c ∉ word)
    (hfree : ¬word <:+: front) : word <:+: front ++ b ↔ word <:+: b := by
  obtain ⟨c, hlast, hc⟩ := hlast
  obtain ⟨init, rfl⟩ := List.getLast?_eq_some_iff.mp hlast
  have hinit : ¬word <:+: init := fun hi => hfree (List.infix_append_of_infix_left hi)
  rw [List.append_assoc, List.singleton_append, infix_append_cons_iff hc, or_iff_right hinit]

theorem Gap.infix_iff {gap : List α} (h : Gap word gap) {b : List α} :
    word <:+: gap ++ b ↔ word <:+: b := infix_append_right_iff h.last h.free

/-! ## Codes -/

/-- The code of an element is the element, or starts outside the word and lacks what the
word starts with. -/
def Spares (code : α → List α) (word : List α) : Prop :=
  ∀ c, code c = [c] ∨ c ∉ word ∧ (∃ x ∈ (code c).head?, x ∉ word) ∧ ∀ x ∈ word.head?, x ∉ code c

theorem Spares.flatMap {code : α → List α} (h : Spares code word) {l : List α} (hl : l ⊆ word) :
    l.flatMap code = l := by
  induction l with
  | nil => rfl
  | cons c l ih =>
    obtain ⟨hc, hl⟩ := List.cons_subset.mp hl
    rcases h c with heq | ⟨hnot, _⟩
    · rw [List.flatMap_cons, ih hl, heq, List.singleton_append]
    · exact absurd hc hnot

theorem Spares.prefixed {code : α → List α} (h : Spares code word) {l text : List α} (hl : l ⊆ word)
    (hpre : l <+: text.flatMap code) : l <+: text := by
  induction text generalizing l with
  | nil => exact hpre
  | cons c text ih =>
    cases l with
    | nil => exact List.nil_prefix
    | cons x l =>
      obtain ⟨hx, hl⟩ := List.cons_subset.mp hl
      rw [List.flatMap_cons] at hpre
      rcases h c with heq | ⟨_, ⟨y, hy, hnot⟩, _⟩
      · rw [heq, List.singleton_append] at hpre
        obtain ⟨rfl, hrest⟩ := List.cons_prefix_cons.mp hpre
        exact List.cons_prefix_cons.mpr ⟨rfl, ih hl hrest⟩
      · obtain ⟨rest, hcode⟩ := List.head?_eq_some_iff.mp hy
        rw [hcode, List.cons_append] at hpre
        obtain ⟨rfl, _⟩ := List.cons_prefix_cons.mp hpre
        exact absurd hx hnot

/-- A word stands in a coded text exactly where it stands in the text. -/
theorem Spares.infix_flatMap_iff {code : α → List α} (h : Spares code word) {text : List α} :
    word <:+: text.flatMap code ↔ word <:+: text := by
  constructor
  · intro hinfix
    induction text with
    | nil => exact hinfix
    | cons c text ih =>
      cases hword : word with
      | nil => exact List.nil_infix
      | cons x rest =>
        rw [← hword]
        rw [List.flatMap_cons] at hinfix
        rcases h c with heq | ⟨_, _, hlacks⟩
        · rw [heq, List.singleton_append] at hinfix
          rcases List.infix_cons_iff.mp hinfix with hfirst | hrest
          · have hcode : word <+: (c :: text).flatMap code := by
              rw [List.flatMap_cons, heq]
              exact hfirst
            exact (h.prefixed (List.Subset.refl _) hcode).isInfix
          · exact List.infix_cons (ih hrest)
        · have hx : x ∉ code c := hlacks x (by rw [hword]; rfl)
          rcases List.infix_append_iff.mp hinfix with hleft | hright | ⟨left, right, heq, hleft, _⟩
          · exact absurd (hleft.subset (by rw [hword]; exact List.mem_cons_self)) hx
          · exact List.infix_cons (ih hright)
          · cases left with
            | nil =>
              rename_i hright
              rw [List.nil_append] at heq
              exact List.infix_cons (ih (heq ▸ hright.isInfix))
            | cons y left =>
              rw [hword, List.cons_append] at heq
              obtain ⟨rfl, _⟩ := List.cons.inj heq
              exact absurd (hleft.subset List.mem_cons_self) hx
  · intro ⟨before, after, heq⟩
    rw [← heq, List.flatMap_append, List.flatMap_append, h.flatMap (List.Subset.refl _)]
    exact List.infix_append _ _ _

/-! ## Related lists -/

theorem exists_left_of_mem {β : Type u} {R : α → β → Prop} {as : List α} {bs : List β}
    (h : List.Forall₂ R as bs) {b : β} (hb : b ∈ bs) : ∃ a ∈ as, R a b := by
  obtain ⟨i, hi, rfl⟩ := List.getElem_of_mem hb
  have hi' : i < as.length := by rwa [h.length_eq]
  exact ⟨as[i], List.getElem_mem hi', h.get hi' hi⟩

end Foundation.Words
