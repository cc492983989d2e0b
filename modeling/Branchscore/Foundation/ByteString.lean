import Mathlib

/-! Byte strings: lists of octets with the unsigned lexicographic order. -/

namespace Foundation

set_option autoImplicit false

abbrev Byte := Fin 256

abbrev Bytes := List Byte

instance byteCount : NeZero 256 := ⟨by decide⟩

instance bytesLawful : LawfulBEq Bytes := inferInstance

/-- The octet of an ASCII character literal. -/
def byte (c : Char) : Byte := Fin.ofNat 256 c.toNat

/-- The octets of an ASCII string literal. -/
def bytes (s : String) : Bytes := s.toList.map byte

/-- The decimal digits of a number. -/
def decimal (n : Nat) : Bytes := bytes (toString n)

/-- A string read through a NUL-terminated pointer ends at its first NUL. -/
def cString (s : Bytes) : Bytes := s.takeWhile (· ≠ 0)

end Foundation
