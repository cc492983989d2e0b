import Branchscore.Foundation.Parsing
import Branchscore.Json.Value

/-!
# The JSON grammar

The words of the language and the values they denote, independently of any parser.
A string denotes the bytes of its items, with escaped code points in UTF-8, and an
object the map of its members, which has no repeated key.
-/

namespace Branchscore.Json.Grammar

open Foundation Foundation.Parsing
set_option autoImplicit false

variable {α D : Type}

def Space (word : Bytes) : Prop := ∀ b ∈ word, b ∈ bytes " \t\n\r"

def Digits (word : Bytes) : Prop := ∀ b ∈ word, b ∈ bytes "0123456789"

def HexDigit (b : Byte) (digit : Nat) : Prop :=
  (bytes "0123456789abcdef")[digit]? = some b ∨ (bytes "0123456789ABCDEF")[digit]? = some b

inductive HexQuad : Bytes → Nat → Prop where
  | intro {a b c d : Byte} {p q r s : Nat} : HexDigit a p → HexDigit b q → HexDigit c r →
      HexDigit d s → HexQuad [a, b, c, d] (((p * 16 + q) * 16 + r) * 16 + s)

def utf8 (codepoint : Nat) : Bytes :=
  (String.utf8EncodeChar (Char.ofNat codepoint)).map fun b => Fin.ofNat 256 b.toNat

/-- What follows `\u`: a scalar value, or a high and a low surrogate. -/
inductive Codepoint : Bytes → Nat → Prop where
  | scalar {quad : Bytes} {unit : Nat} : HexQuad quad unit → (unit < 0xd800 ∨ 0xdfff < unit) →
      Codepoint quad unit
  | pair {quad quad' : Bytes} {high low : Nat} : HexQuad quad (0xd800 + high) → high < 0x400 →
      HexQuad quad' (0xdc00 + low) → low < 0x400 →
      Codepoint (quad ++ byte '\\' :: byte 'u' :: quad') (0x10000 + high * 0x400 + low)

def simpleEscapes : List (Byte × Byte) :=
  [(0x22, 0x22), (0x5c, 0x5c), (0x2f, 0x2f), (0x62, 0x08), (0x66, 0x0c), (0x6e, 0x0a),
    (0x72, 0x0d), (0x74, 0x09)]

/-- What may follow a backslash. -/
inductive Escape : Bytes → Bytes → Prop where
  | simple {escape decoded : Byte} : (escape, decoded) ∈ simpleEscapes → Escape [escape] [decoded]
  | unicode {word : Bytes} {codepoint : Nat} : Codepoint word codepoint →
      Escape (byte 'u' :: word) (utf8 codepoint)

inductive StringBody : Bytes → Bytes → Prop where
  | nil : StringBody [] []
  | raw {b : Byte} {word value : Bytes} : 0x20 ≤ b → b ≠ byte '"' → b ≠ byte '\\' →
      StringBody word value → StringBody (b :: word) (b :: value)
  | escape {escape decoded word value : Bytes} : Escape escape decoded →
      StringBody word value → StringBody (byte '\\' :: (escape ++ word)) (decoded ++ value)

inductive StringToken : Bytes → Bytes → Prop where
  | intro {word value : Bytes} : StringBody word value →
      StringToken (byte '"' :: (word ++ [byte '"'])) value

inductive IntegerPart : Bytes → Prop where
  | zero : IntegerPart [byte '0']
  | digits {b : Byte} {word : Bytes} : b ∈ bytes "123456789" → Digits word →
      IntegerPart (b :: word)

inductive FractionPart : Bytes → Prop where
  | none : FractionPart []
  | digits {b : Byte} {word : Bytes} : Digits (b :: word) → FractionPart (byte '.' :: b :: word)

inductive ExponentPart : Bytes → Prop where
  | none : ExponentPart []
  | digits {e b : Byte} {sign word : Bytes} : e ∈ bytes "eE" →
      sign ∈ [[], bytes "+", bytes "-"] → Digits (b :: word) →
      ExponentPart (e :: (sign ++ b :: word))

/-- `-?(0|[1-9][0-9]*)(\.[0-9]+)?([eE][+-]?[0-9]+)?` -/
inductive NumberToken : Bytes → Prop where
  | intro {sign whole fraction exponent : Bytes} : sign ∈ [[], bytes "-"] → IntegerPart whole →
      FractionPart fraction → ExponentPart exponent →
      NumberToken (sign ++ (whole ++ (fraction ++ exponent)))

inductive Member (R : Bytes → α → Prop) : Bytes → Bytes × α → Prop where
  | intro {key name before after word : Bytes} {value : α} : StringToken key name →
      Space before → Space after → R word value →
      Member R (key ++ (before ++ byte ':' :: (after ++ word))) (name, value)

/-- The word denotes the value, given what number tokens denote. A sorted list of entries
has no repeated key, so no two members of an object may have equal names. -/
inductive Derives (Number : Bytes → D → Prop) : Bytes → Value D → Prop where
  | null : Derives Number (bytes "null") .null
  | true : Derives Number (bytes "true") (.boolean true)
  | false : Derives Number (bytes "false") (.boolean false)
  | number {word : Bytes} {value : D} : Number word value → Derives Number word (.number value)
  | string {word value : Bytes} : StringToken word value → Derives Number word (.string value)
  | emptyArray {space : Bytes} : Space space →
      Derives Number (byte '[' :: (space ++ [byte ']'])) (.array [])
  | array {space words : Bytes} {items : List (Value D)} : Space space →
      Elements Space (byte ',') (Derives Number) words items →
      Derives Number (byte '[' :: (space ++ (words ++ [byte ']']))) (.array items)
  | emptyObject {space : Bytes} : Space space →
      Derives Number (byte '{' :: (space ++ [byte '}'])) (.object [])
  | object {space words : Bytes} {entries members : List (Bytes × Value D)} : Space space →
      Elements Space (byte ',') (Member (Derives Number)) words entries →
      SortedMap.Sorted members → members.Perm entries →
      Derives Number (byte '{' :: (space ++ (words ++ [byte '}']))) (.object members)

/-- A value with space around it. -/
inductive Document (Number : Bytes → D → Prop) : Bytes → Value D → Prop where
  | intro {before word after : Bytes} {value : Value D} : Space before → Derives Number word value →
      Space after → Document Number (before ++ (word ++ after)) value

/-- A number token denotes the double it converts to, if that is finite. -/
def Denotes (lib : NumberLibrary D) (word : Bytes) (value : D) : Prop :=
  NumberToken word ∧ lib.isfinite value = true ∧ (lib.strtod word).1 = value

/-- The conversion consumes the whole token. -/
def Scans (lib : NumberLibrary D) (word : Bytes) (value : D) : Prop :=
  NumberToken word ∧ lib.isfinite value = true ∧ lib.strtod word = (value, word.length)

end Branchscore.Json.Grammar
