import Branchscore.Foundation.Outcome

/-!
# Computations with a log

A computation leaves the calls it has made, also where it throws. A handler goes on
with the log of what it handles.
-/

namespace Foundation

open Outcome
set_option autoImplicit false

structure Logged (ω ε α : Type) where
  log : List ω
  result : Except ε α

namespace Logged
variable {ω ε α β : Type}

instance : Monad (Logged ω ε) where
  pure a := ⟨[], .ok a⟩
  bind x f :=
    match x.result with
    | .ok a => ⟨x.log ++ (f a).log, (f a).result⟩
    | .error e => ⟨x.log, .error e⟩

/-- No call, with the given result. -/
def lift (result : Except ε α) : Logged ω ε α := ⟨[], result⟩

def call (entry : ω) (result : Except ε α) : Logged ω ε α := ⟨[entry], result⟩

def handle (x : Logged ω ε α) (handler : ε → Logged ω ε α) : Logged ω ε α :=
  match x.result with
  | .ok _ => x
  | .error e => ⟨x.log ++ (handler e).log, (handler e).result⟩

@[simp] theorem log_pure (a : α) : (pure a : Logged ω ε α).log = [] := rfl

@[simp] theorem result_pure (a : α) : (pure a : Logged ω ε α).result = .ok a := rfl

@[simp] theorem log_lift (r : Except ε α) : (lift r : Logged ω ε α).log = [] := rfl

@[simp] theorem result_lift (r : Except ε α) : (lift r : Logged ω ε α).result = r := rfl

@[simp] theorem log_call (entry : ω) (r : Except ε α) : (call entry r).log = [entry] := rfl

@[simp] theorem result_call (entry : ω) (r : Except ε α) : (call entry r).result = r := rfl

section Bind
variable {x : Logged ω ε α} {f : α → Logged ω ε β}

theorem bind_of_ok {a : α} (h : x.result = .ok a) :
    x >>= f = ⟨x.log ++ (f a).log, (f a).result⟩ := by
  change (match x.result with
    | .ok a => ⟨x.log ++ (f a).log, (f a).result⟩
    | .error e => ⟨x.log, .error e⟩ : Logged ω ε β) = _
  rw [h]

theorem bind_of_error {e : ε} (h : x.result = .error e) : x >>= f = ⟨x.log, .error e⟩ := by
  change (match x.result with
    | .ok a => ⟨x.log ++ (f a).log, (f a).result⟩
    | .error e => ⟨x.log, .error e⟩ : Logged ω ε β) = _
  rw [h]

theorem lift_bind_ok (a : α) (f : α → Logged ω ε β) : (lift (.ok a) : Logged ω ε α) >>= f = f a := by
  rw [bind_of_ok rfl]
  rfl

theorem lift_bind_error (e : ε) (f : α → Logged ω ε β) :
    (lift (.error e) : Logged ω ε α) >>= f = lift (.error e) :=
  bind_of_error rfl

theorem result_bind : (x >>= f).result = x.result >>= fun a => (f a).result := by
  cases h : x.result with
  | error e => rw [bind_of_error h]; rfl
  | ok a => rw [bind_of_ok h]; rfl

theorem bind_assoc {γ : Type} (x : Logged ω ε α) (f : α → Logged ω ε β) (g : β → Logged ω ε γ) :
    x >>= f >>= g = x >>= fun a => f a >>= g := by
  cases h : x.result with
  | error e => rw [bind_of_error h, bind_of_error h, bind_of_error rfl]
  | ok a =>
    rw [bind_of_ok h, bind_of_ok h]
    cases hf : (f a).result with
    | error e => rw [bind_of_error rfl, bind_of_error hf]
    | ok b => rw [bind_of_ok rfl, bind_of_ok hf, List.append_assoc]

theorem mem_log_bind {entry : ω} : entry ∈ (x >>= f).log ↔
    entry ∈ x.log ∨ ∃ a, x.result = .ok a ∧ entry ∈ (f a).log := by
  cases h : x.result with
  | error e => simp [bind_of_error h]
  | ok a => simp [bind_of_ok h]

end Bind

theorem handle_of_ok {x : Logged ω ε α} {a : α} (h : x.result = .ok a)
    (handler : ε → Logged ω ε α) : x.handle handler = x := by
  unfold handle
  rw [h]

theorem handle_of_error {x : Logged ω ε α} {e : ε} (h : x.result = .error e)
    (handler : ε → Logged ω ε α) :
    x.handle handler = ⟨x.log ++ (handler e).log, (handler e).result⟩ := by
  unfold handle
  rw [h]

theorem mem_log_handle {x : Logged ω ε α} {handler : ε → Logged ω ε α} {entry : ω} :
    entry ∈ (x.handle handler).log ↔
      entry ∈ x.log ∨ ∃ e, x.result = .error e ∧ entry ∈ (handler e).log := by
  unfold handle
  cases h : x.result with
  | error e => simp
  | ok a => simp

/-! ## Rules -/

section Rules
variable {P : ω → Prop} {p : ω → Bool} {x : Logged ω ε α} {f : α → Logged ω ε β}
  {handler : ε → Logged ω ε α}

def Every (P : ω → Prop) (x : Logged ω ε α) : Prop := ∀ entry ∈ x.log, P entry

theorem Every.lift (r : Except ε α) : Every P (Logged.lift r : Logged ω ε α) := nofun

theorem Every.call {entry : ω} (h : P entry) (r : Except ε α) : Every P (Logged.call entry r) := by
  intro other hother
  rw [List.mem_singleton.mp hother]
  exact h

theorem Every.bind (hx : Every P x) (hf : ∀ a, x.result = .ok a → Every P (f a)) :
    Every P (x >>= f) := by
  intro entry hentry
  rcases mem_log_bind.mp hentry with h | ⟨a, ha, h⟩
  · exact hx entry h
  · exact hf a ha entry h

theorem Every.handle (hx : Every P x) (hh : ∀ e, x.result = .error e → Every P (handler e)) :
    Every P (x.handle handler) := by
  intro entry hentry
  rcases mem_log_handle.mp hentry with h | ⟨e, he, h⟩
  · exact hx entry h
  · exact hh e he entry h

/-- No entry of the kind `p`. -/
abbrev Silent (p : ω → Bool) (x : Logged ω ε α) : Prop := Every (fun entry => p entry = false) x

theorem Silent.call {entry : ω} (h : p entry = false) (r : Except ε α) :
    Silent p (Logged.call entry r) :=
  @Every.call _ _ _ (fun entry => p entry = false) entry h r

/-- A computation that returns has logged one entry of the kind `p`, its last; one that throws
has logged none. -/
inductive EndsOnce (p : ω → Bool) (x : Logged ω ε α) : Prop where
  | returned {a : α} {front : List ω} {last : ω} (result : x.result = .ok a)
      (log : x.log = front ++ [last]) (once : p last = true)
      (silent : ∀ entry ∈ front, p entry = false) : EndsOnce p x
  | thrown {e : ε} (result : x.result = .error e) (silent : Silent p x) : EndsOnce p x

theorem EndsOnce.call {entry : ω} (h : p entry = true) (a : α) :
    EndsOnce p (Logged.call entry (.ok a) : Logged ω ε α) :=
  .returned rfl (List.nil_append [entry]).symm h nofun

theorem EndsOnce.throw (e : ε) : EndsOnce p (lift (.error e) : Logged ω ε α) :=
  .thrown rfl (.lift _)

/-- Silence before the computation changes nothing. -/
theorem EndsOnce.after {earlier : List ω} (h : EndsOnce p x)
    (hearlier : ∀ entry ∈ earlier, p entry = false) : EndsOnce p ⟨earlier ++ x.log, x.result⟩ := by
  cases h with
  | @returned a front last result log once silent =>
    refine @EndsOnce.returned _ _ _ p _ a (earlier ++ front) last result ?_ once ?_
    · rw [log, List.append_assoc]
    · intro entry hentry
      rcases List.mem_append.mp hentry with h | h
      · exact hearlier entry h
      · exact silent entry h
  | thrown result silent =>
    refine .thrown result fun entry hentry => ?_
    rcases List.mem_append.mp hentry with h | h
    · exact hearlier entry h
    · exact silent entry h

theorem EndsOnce.bind (hx : Silent p x) (hf : ∀ a, EndsOnce p (f a)) : EndsOnce p (x >>= f) := by
  cases hresult : x.result with
  | error e =>
    rw [bind_of_error hresult]
    exact .thrown rfl hx
  | ok a =>
    rw [bind_of_ok hresult]
    exact (hf a).after hx

theorem EndsOnce.handle (hx : EndsOnce p x) (hh : ∀ e, EndsOnce p (handler e)) :
    EndsOnce p (x.handle handler) := by
  cases hx with
  | returned result log once silent =>
    rw [handle_of_ok result]
    exact .returned result log once silent
  | @thrown e result silent =>
    rw [handle_of_error result]
    exact (hh e).after silent

/-- An error with `T` that is thrown is one that an entry of the log has failed with. -/
def Traced (T : ε → Prop) (fails : ω → ε → Prop) (x : Logged ω ε α) : Prop :=
  ∀ e, x.result = .error e → T e → ∃ entry ∈ x.log, fails entry e

variable {T : ε → Prop} {fails : ω → ε → Prop}

theorem Traced.lift {r : Except ε α} {Q : α → Prop} (h : Ends (fun e => ¬T e) Q r) :
    Traced T fails (Logged.lift r) :=
  fun _ hresult hT => absurd hT (h.of_eq_error hresult)

theorem Traced.call {entry : ω} {r : Except ε α} (h : ∀ e, r = .error e → T e → fails entry e) :
    Traced T fails (Logged.call entry r) :=
  fun e hresult hT => ⟨entry, List.mem_singleton_self entry, h e hresult hT⟩

theorem Traced.bind (hx : Traced T fails x) (hf : ∀ a, x.result = .ok a → Traced T fails (f a)) :
    Traced T fails (x >>= f) := by
  intro e hresult hT
  rw [result_bind] at hresult
  rcases bind_eq_error.mp hresult with herror | ⟨a, ha, herror⟩
  · obtain ⟨entry, hentry, hfails⟩ := hx e herror hT
    exact ⟨entry, mem_log_bind.mpr (Or.inl hentry), hfails⟩
  · obtain ⟨entry, hentry, hfails⟩ := hf a ha e herror hT
    exact ⟨entry, mem_log_bind.mpr (Or.inr ⟨a, ha, hentry⟩), hfails⟩

/-- A handler may pass on what it does not handle. -/
theorem Traced.handle (hx : Traced T fails x)
    (hh : ∀ e, x.result = .error e → (T e ∧ handler e = Logged.lift (.error e)) ∨
      Traced T fails (handler e)) : Traced T fails (x.handle handler) := by
  intro e hresult hT
  cases hthrown : x.result with
  | ok a =>
    rw [handle_of_ok hthrown, hthrown] at hresult
    cases hresult
  | error e' =>
    rw [handle_of_error hthrown] at hresult
    rcases hh e' hthrown with ⟨hT', hpassed⟩ | htraced
    · rw [hpassed] at hresult
      cases hresult
      obtain ⟨entry, hentry, hfails⟩ := hx _ hthrown hT'
      exact ⟨entry, mem_log_handle.mpr (Or.inl hentry), hfails⟩
    · obtain ⟨entry, hentry, hfails⟩ := htraced e hresult hT
      exact ⟨entry, mem_log_handle.mpr (Or.inr ⟨e', hthrown, hentry⟩), hfails⟩

end Rules

end Logged

end Foundation
