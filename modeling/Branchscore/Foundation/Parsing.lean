import Branchscore.Foundation.Outcome

/-!
# Languages of separated lists

A language relates a word to the value it denotes. `Elements` is the language of
nonempty lists of such words with a separator between them.
-/

namespace Foundation.Parsing

set_option autoImplicit false

universe u v w
variable {τ : Type u} {α : Type v} {β : Type w}

/-- `rest` is what is left of `input` behind a word that denotes `value`. -/
def Leaves (R : List τ → α → Prop) (input : List τ) (r : α × List τ) : Prop :=
  ∃ word, R word r.1 ∧ input = word ++ r.2

/-- Words of `R` with `separator` between them, and words of `Space` allowed around
every separator and after the last word. -/
inductive Elements (Space : List τ → Prop) (separator : τ) (R : List τ → α → Prop) :
    List τ → List α → Prop where
  | one {word after : List τ} {value : α} : R word value → Space after →
      Elements Space separator R (word ++ after) [value]
  | cons {word after before words : List τ} {value : α} {values : List α} :
      R word value → Space after → Space before →
      Elements Space separator R words values →
      Elements Space separator R (word ++ (after ++ separator :: (before ++ words)))
        (value :: values)

namespace Elements
variable {Space : List τ → Prop} {separator : τ} {R : List τ → α → Prop}
  {words : List τ} {values : List α}

/-- What is related to `R` only where the words are short enough suffices. -/
theorem mono {S : List τ → α → Prop} (h : Elements Space separator R words values)
    (himp : ∀ word value, word.length ≤ words.length → R word value → S word value) :
    Elements Space separator S words values := by
  induction h with
  | one hR hs => exact .one (himp _ _ (by simp) hR) hs
  | cons hR hs hs' _ ih =>
    refine .cons (himp _ _ (by simp) hR) hs hs' (ih ?_)
    intro word value hlen
    apply himp
    simp only [List.length_append, List.length_cons]
    omega

/-- Values of the words in another language, related one by one to the given ones. -/
theorem lift {R' : List τ → β → Prop} {S : β → α → Prop}
    (h : Elements Space separator R words values)
    (hlift : ∀ word value, word.length ≤ words.length → R word value →
      ∃ other, R' word other ∧ S other value) :
    ∃ others, Elements Space separator R' words others ∧ List.Forall₂ S others values := by
  induction h with
  | one hR hs =>
    obtain ⟨other, hR', hS⟩ := hlift _ _ (by simp) hR
    exact ⟨[other], .one hR' hs, .cons hS .nil⟩
  | cons hR hs hs' _ ih =>
    obtain ⟨other, hR', hS⟩ := hlift _ _ (by simp) hR
    obtain ⟨others, hothers, hall⟩ := ih fun word value hle =>
      hlift word value (by simp only [List.length_append, List.length_cons]; omega)
    exact ⟨other :: others, .cons hR' hs hs' hothers, .cons hS hall⟩

theorem forall_mem {P : α → Prop} (h : Elements Space separator (fun _ => P) words values) :
    ∀ value ∈ values, P value := by
  induction h with
  | one hR => exact List.forall_mem_singleton.mpr hR
  | cons hR _ _ _ ih => exact List.forall_mem_cons.mpr ⟨hR, ih⟩

end Elements

end Foundation.Parsing
