import Branchscore.Foundation.ByteString

/-!
# Reading decimal numbers

A nonempty string of digits is read as its value, and a printed number as itself.
-/

namespace Foundation

set_option autoImplicit false

def readDigit (c : Byte) : Option Nat :=
  if byte '0' ≤ c ∧ c ≤ byte '9' then some (c.val - (byte '0').val) else none

def readDigits : Nat → Bytes → Option Nat
  | n, [] => some n
  | n, c :: rest => (readDigit c).bind fun digit => readDigits (n * 10 + digit) rest

/-- The number of a nonempty string of digits. -/
def readDecimal (text : Bytes) : Option Nat := if text = [] then none else readDigits 0 text

theorem readDigits_append (n : Nat) (a b : Bytes) :
    readDigits n (a ++ b) = (readDigits n a).bind fun n => readDigits n b := by
  induction a generalizing n with
  | nil => rfl
  | cons c a ih =>
    rw [List.cons_append, readDigits, readDigits]
    cases readDigit c with
    | none => rfl
    | some digit => exact ih _

theorem readDigit_digitChar {d : Nat} (h : d < 10) : readDigit (byte d.digitChar) = some d := by
  interval_cases d <;> decide

theorem decimal_of_lt {n : Nat} (h : n < 10) : decimal n = [byte n.digitChar] := by
  change bytes n.repr = _
  rw [Nat.repr_eq_ofList_toDigits, Nat.toDigits_of_lt_base h, bytes, String.toList_ofList]
  rfl

theorem decimal_of_ge {n : Nat} (h : 10 ≤ n) :
    decimal n = decimal (n / 10) ++ [byte (n % 10).digitChar] := by
  change bytes n.repr = bytes (n / 10).repr ++ _
  rw [Nat.repr_eq_ofList_toDigits, Nat.repr_eq_ofList_toDigits,
    Nat.toDigits_of_base_le (by omega) h, bytes, bytes, String.toList_ofList, String.toList_ofList,
    List.map_append]
  rfl

theorem readDigits_decimal (n : Nat) : decimal n ≠ [] ∧ readDigits 0 (decimal n) = some n := by
  induction n using Nat.strong_induction_on with
  | _ n ih =>
    rcases Nat.lt_or_ge n 10 with hlt | hge
    · rw [decimal_of_lt hlt, readDigits, readDigit_digitChar hlt]
      exact ⟨List.cons_ne_nil _ _, by simp [readDigits]⟩
    · have hdigit : n % 10 < 10 := Nat.mod_lt n (by decide)
      rw [decimal_of_ge hge, readDigits_append, (ih (n / 10) (by omega)).2, Option.bind_some,
        readDigits, readDigit_digitChar hdigit, Option.bind_some, readDigits]
      exact ⟨by simp, by congr 1; omega⟩

theorem readDecimal_decimal (n : Nat) : readDecimal (decimal n) = some n := by
  rw [readDecimal, if_neg (readDigits_decimal n).1, (readDigits_decimal n).2]

theorem mem_decimal {n : Nat} {c : Byte} (h : c ∈ decimal n) : byte '0' ≤ c ∧ c ≤ byte '9' := by
  have hchar : ∀ d, d < 10 → byte '0' ≤ byte d.digitChar ∧ byte d.digitChar ≤ byte '9' := by
    decide
  induction n using Nat.strong_induction_on with
  | _ n ih =>
    rcases Nat.lt_or_ge n 10 with hlt | hge
    · rw [decimal_of_lt hlt, List.mem_singleton] at h
      exact h ▸ hchar n hlt
    · rw [decimal_of_ge hge, List.mem_append, List.mem_singleton] at h
      rcases h with h | h
      · exact ih (n / 10) (by omega) h
      · exact h ▸ hchar _ (Nat.mod_lt n (by decide))

end Foundation
