import Branchscore.Foundation.ByteString
import Branchscore.Foundation.Outcome

/-! The C++ exceptions of the program, with the data their handlers read. -/

namespace Branchscore

open Foundation
set_option autoImplicit false

inductive Exception where
  | runtimeError (message : Bytes)
  | outOfRange (message : Bytes)
  | invalidArgument (message : Bytes)
  | imageDecodeError (message : Bytes)
  | decisionBudgetError (code message : Bytes)
  | requestError (code message : Bytes)
  /-- No C++ exception: an access past the end of an object. -/
  | undefinedBehavior
  /-- No C++ exception: the loop that stands here in the source does not end. -/
  | diverges
  deriving Repr, DecidableEq

def runtimeError {α : Type} (message : String) : Except Exception α :=
  .error (.runtimeError (bytes message))

/-- `if (c) throw std::runtime_error(message);` -/
def throwIf (c : Prop) [Decidable c] (message : String) : Except Exception Unit :=
  if c then runtimeError message else .ok ()

@[simp] theorem throwIf_eq_ok {c : Prop} [Decidable c] {message : String} {u : Unit} :
    throwIf c message = .ok u ↔ ¬c := by
  unfold throwIf
  split <;> simp [*, runtimeError]

theorem throwIf_of_not {c : Prop} [Decidable c] (h : ¬c) (message : String) :
    throwIf c message = .ok () := if_neg h

theorem throwIf_ends {P : Exception → Prop} {c : Prop} [Decidable c] {message : String}
    (h : c → P (.runtimeError (bytes message))) :
    Outcome.Ends P (fun _ => ¬c) (throwIf c message) := by
  unfold throwIf
  split
  · exact h ‹c›
  · assumption

end Branchscore
