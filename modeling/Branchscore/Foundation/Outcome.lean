import Mathlib

/-!
# Computations that may throw

Inversion lemmas say what a run with a given result must have done. `Ends` is the
triple of such a computation, with one condition for its result and one for its
error.
-/

namespace Foundation.Outcome

set_option autoImplicit false

variable {ε α β : Type}

@[simp] theorem ok_bind (a : α) (f : α → Except ε β) : (Except.ok a >>= f) = f a := rfl

@[simp] theorem error_bind (e : ε) (f : α → Except ε β) :
    ((Except.error e : Except ε α) >>= f) = .error e := rfl

@[simp] theorem pure_eq_ok (a : α) : (pure a : Except ε α) = .ok a := rfl

@[simp] theorem throw_eq_error (e : ε) : (throw e : Except ε α) = .error e := rfl

@[simp] theorem map_of_ok (f : α → β) (a : α) : (Except.ok a : Except ε α).map f = .ok (f a) := rfl

@[simp] theorem map_of_error (f : α → β) (e : ε) :
    (Except.error e : Except ε α).map f = .error e := rfl

theorem bind_eq_ok {x : Except ε α} {f : α → Except ε β} {b : β} :
    (x >>= f) = .ok b ↔ ∃ a, x = .ok a ∧ f a = .ok b := by
  cases x <;> simp

theorem bind_eq_error {x : Except ε α} {f : α → Except ε β} {e : ε} :
    (x >>= f) = .error e ↔ x = .error e ∨ ∃ a, x = .ok a ∧ f a = .error e := by
  cases x <;> simp

theorem map_eq_ok {x : Except ε α} {f : α → β} {b : β} :
    x.map f = .ok b ↔ ∃ a, x = .ok a ∧ f a = b := by
  cases x <;> simp

theorem exists_of_isOk {x : Except ε α} (h : x.isOk = true) : ∃ a, x = .ok a := by
  cases x with
  | ok a => exact ⟨a, rfl⟩
  | error e => cases h

theorem mapM_eq_ok {f : α → Except ε β} {as : List α} {bs : List β} :
    as.mapM f = .ok bs ↔ List.Forall₂ (fun a b => f a = .ok b) as bs := by
  induction as generalizing bs with
  | nil => simp [List.forall₂_nil_left_iff, eq_comm]
  | cons a as ih =>
    simp only [List.mapM_cons, bind_eq_ok, ih, List.forall₂_cons_left_iff, pure_eq_ok,
      Except.ok.injEq]
    constructor
    · rintro ⟨b, hb, bs', hbs, rfl⟩
      exact ⟨b, bs', hb, hbs, rfl⟩
    · rintro ⟨b, bs', hb, hbs, rfl⟩
      exact ⟨b, hb, bs', hbs, rfl⟩

theorem mapM_eq_error {f : α → Except ε β} {as : List α} {e : ε} (h : as.mapM f = .error e) :
    ∃ a ∈ as, f a = .error e := by
  induction as with
  | nil => simp at h
  | cons a as ih =>
    rw [List.mapM_cons, bind_eq_error] at h
    rcases h with h | ⟨b, _, h⟩
    · exact ⟨a, List.mem_cons_self, h⟩
    · rw [bind_eq_error] at h
      rcases h with h | ⟨bs, _, h⟩
      · obtain ⟨x, hx, hxe⟩ := ih h
        exact ⟨x, List.mem_cons_of_mem a hx, hxe⟩
      · simp at h

theorem mapM_ok {f : α → Except ε β} {g : α → β} {as : List α} (h : ∀ a ∈ as, f a = .ok (g a)) :
    as.mapM f = .ok (as.map g) := by
  rw [mapM_eq_ok, List.forall₂_map_right_iff, List.forall₂_same]
  exact h

theorem forM_eq_ok {f : α → Except ε Unit} {as : List α} :
    forM as f = .ok () ↔ ∀ a ∈ as, f a = .ok () := by
  induction as with
  | nil => simp
  | cons a as ih =>
    rw [List.forM_cons, bind_eq_ok, List.forall_mem_cons, ← ih]
    exact ⟨fun ⟨_, h⟩ => h, fun h => ⟨(), h⟩⟩

/-- Every result satisfies `Q` and every error `P`. -/
def Ends (P : ε → Prop) (Q : α → Prop) : Except ε α → Prop
  | .ok a => Q a
  | .error e => P e

namespace Ends
variable {P : ε → Prop} {Q : α → Prop} {S : β → Prop} {x : Except ε α}

theorem bind {f : α → Except ε β} (hx : Ends P Q x) (hf : ∀ a, Q a → Ends P S (f a)) :
    Ends P S (x >>= f) := by
  cases x with
  | error e => exact hx
  | ok a => exact hf a hx

theorem mono {Q' : α → Prop} (hx : Ends P Q x) (himp : ∀ a, Q a → Q' a) : Ends P Q' x := by
  cases x with
  | error e => exact hx
  | ok a => exact himp a hx

theorem of_eq_ok {a : α} (hx : Ends P Q x) (h : x = .ok a) : Q a := by
  rw [h] at hx
  exact hx

theorem of_eq_error {e : ε} (hx : Ends P Q x) (h : x = .error e) : P e := by
  rw [h] at hx
  exact hx

theorem mapM {R : α → β → Prop} {f : α → Except ε β} {as : List α}
    (h : ∀ a ∈ as, Ends P (R a) (f a)) : Ends P (List.Forall₂ R as) (as.mapM f) := by
  induction as with
  | nil => exact List.Forall₂.nil
  | cons a as ih =>
    rw [List.mapM_cons]
    refine (h a List.mem_cons_self).bind fun b hb => ?_
    refine (ih fun a ha => h a (List.mem_cons_of_mem _ ha)).bind fun bs hbs => ?_
    exact List.Forall₂.cons hb hbs

theorem forM {f : α → Except ε Unit} {as : List α}
    (h : ∀ a ∈ as, Ends P (fun _ => True) (f a)) : Ends P (fun _ => True) (forM as f) := by
  induction as with
  | nil => trivial
  | cons a as ih =>
    rw [List.forM_cons]
    exact (h a List.mem_cons_self).bind fun _ _ =>
      ih fun a ha => h a (List.mem_cons_of_mem _ ha)

theorem foldlM_range {I : Nat → β → Prop} {f : β → Nat → Except ε β} {b : β} {n : Nat}
    (h0 : I 0 b) (hstep : ∀ i < n, ∀ b, I i b → Ends P (I (i + 1)) (f b i)) :
    Ends P (I n) ((List.range n).foldlM f b) := by
  induction n with
  | zero => exact h0
  | succ n ih =>
    rw [List.range_succ, List.foldlM_append]
    refine (ih fun i hi => hstep i (Nat.lt_succ_of_lt hi)).bind fun b' hb' => ?_
    rw [List.foldlM_cons]
    refine (hstep n (Nat.lt_succ_self n) b' hb').bind fun b'' hb'' => ?_
    exact hb''

end Ends

end Foundation.Outcome
