import Branchscore.Foundation.Outcome

/-!
# Event streams cut into pieces

A callback parser reports data spans and signals. How its input is split decides only into
how many consecutive pieces a span is cut. A step function whose spans are seamless ends
alike on a stream and on any cut of it.
-/

namespace Foundation.Fragmentation

open Outcome
set_option autoImplicit false

variable {κ β ς σ ε : Type}

inductive Event (κ β ς : Type) where
  | span (kind : κ) (data : List β)
  | signal (signal : ς)
  deriving DecidableEq, Repr

/-- The second stream has the spans of the first in pieces, some of them possibly empty. -/
inductive Cuts : List (Event κ β ς) → List (Event κ β ς) → Prop where
  | nil : Cuts [] []
  | span (kind : κ) (pieces : List (List β)) {events events' : List (Event κ β ς)} :
      Cuts events events' →
      Cuts (.span kind pieces.flatten :: events) (pieces.map (.span kind) ++ events')
  | signal (s : ς) {events events' : List (Event κ β ς)} : Cuts events events' →
      Cuts (.signal s :: events) (.signal s :: events')

/-- Equal results, or errors related by `R`. -/
def Alike (R : ε → ε → Prop) : Except ε σ → Except ε σ → Prop
  | .ok a, .ok b => a = b
  | .error e, .error e' => R e e'
  | _, _ => False

theorem alike_eq {x y : Except ε σ} : Alike Eq x y ↔ x = y := by
  cases x <;> cases y <;> simp [Alike]

namespace Alike
variable {R : ε → ε → Prop} {x y z : Except ε σ}

theorem refl (hR : Equivalence R) (x : Except ε σ) : Alike R x x := by
  cases x with
  | error e => exact hR.refl e
  | ok a => exact Eq.refl a

theorem trans (hR : Equivalence R) (hxy : Alike R x y) (hyz : Alike R y z) : Alike R x z := by
  cases x with
  | error e =>
    cases y with
    | ok a => cases hxy
    | error e' =>
      cases z with
      | ok a => cases hyz
      | error e'' => exact hR.trans hxy hyz
  | ok a =>
    cases y with
    | error e => cases hxy
    | ok b =>
      cases hxy
      exact hyz

theorem bind {f g : σ → Except ε σ} (hxy : Alike R x y)
    (hfg : ∀ a, y = .ok a → Alike R (f a) (g a)) : Alike R (x >>= f) (y >>= g) := by
  cases x with
  | error e =>
    cases y with
    | ok a => cases hxy
    | error e' => exact hxy
  | ok a =>
    cases y with
    | error e => cases hxy
    | ok b =>
      cases hxy
      exact hfg a rfl

end Alike

section Run
variable {R : ε → ε → Prop} {step : σ → Event κ β ς → Except ε σ}

/-- In the given state a span of this kind may be empty or come in two pieces. -/
structure Seamless (R : ε → ε → Prop) (step : σ → Event κ β ς → Except ε σ) (s : σ) (kind : κ) :
    Prop where
  nil : step s (.span kind []) = .ok s
  append : ∀ a b, Alike R (step s (.span kind (a ++ b)))
    (step s (.span kind a) >>= fun s' => step s' (.span kind b))

/-- What holds of a state and the events it still has to take, while taking them. -/
structure Invariant (step : σ → Event κ β ς → Except ε σ) (I : σ → List (Event κ β ς) → Prop) :
    Prop where
  next : ∀ s s' event events, I s (event :: events) → step s event = .ok s' → I s' events
  within : ∀ s s' kind a b events, I s (.span kind (a ++ b) :: events) →
    step s (.span kind a) = .ok s' → I s' (.span kind b :: events)

theorem pieces_alike (hR : Equivalence R) {I : σ → List (Event κ β ς) → Prop}
    (hI : Invariant step I)
    (hseamless : ∀ s kind data events, I s (.span kind data :: events) → Seamless R step s kind)
    {events events' : List (Event κ β ς)}
    (hrest : ∀ s, I s events → Alike R (events.foldlM step s) (events'.foldlM step s))
    (kind : κ) (pieces : List (List β)) {s : σ} (hs : I s (.span kind pieces.flatten :: events)) :
    Alike R ((.span kind pieces.flatten :: events).foldlM step s)
      ((pieces.map (Event.span kind) ++ events').foldlM step s) := by
  induction pieces generalizing s with
  | nil =>
    have hstep := (hseamless s kind _ events hs).nil
    have hnext := hI.next s s _ events hs hstep
    rw [List.foldlM_cons, List.flatten_nil, hstep]
    exact hrest s hnext
  | cons piece pieces ih =>
    have happend := (hseamless s kind _ events hs).append piece pieces.flatten
    rw [List.map_cons, List.cons_append, List.foldlM_cons, List.foldlM_cons, List.flatten_cons]
    refine (happend.bind fun a _ => .refl hR _).trans hR ?_
    rw [bind_assoc]
    refine (Alike.refl hR _).bind fun s' hs' => ?_
    exact ih (hI.within s s' kind piece _ events hs hs')

/-- A run over a stream and a run over a cut of it end alike. -/
theorem run_cuts (hR : Equivalence R) {I : σ → List (Event κ β ς) → Prop}
    (hI : Invariant step I)
    (hseamless : ∀ s kind data events, I s (.span kind data :: events) → Seamless R step s kind)
    {events events' : List (Event κ β ς)} (h : Cuts events events') {s : σ} (hs : I s events) :
    Alike R (events.foldlM step s) (events'.foldlM step s) := by
  induction h generalizing s with
  | nil => exact .refl hR _
  | span kind pieces _ ih => exact pieces_alike hR hI hseamless (fun s => ih) kind pieces hs
  | signal signal _ ih =>
    rw [List.foldlM_cons, List.foldlM_cons]
    refine (Alike.refl hR _).bind fun s' hs' => ?_
    exact ih (hI.next s s' _ _ hs hs')

end Run

end Foundation.Fragmentation
