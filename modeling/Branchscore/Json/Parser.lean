import Branchscore.Json.Value

/-!
# The recursive-descent JSON parser

The parser's position is kept as the unread input: the position is the length of
the text less the length of what is unread. Stepping or reading past the end of
the text is an error of its own, as is running out of fuel.
-/

namespace Branchscore.Json

open Foundation
set_option autoImplicit false

inductive Failure where
  /-- `fail`, with the number of unread bytes it was called at. -/
  | fail (unread : Nat) (message : String)
  | codePoint
  | pastEnd
  | outOfFuel
  deriving DecidableEq, Repr

namespace Parser
variable {α β σ D : Type}

def fail (rest : Bytes) (message : String) : Except Failure α :=
  .error (.fail rest.length message)

def isSpace (b : Byte) : Bool :=
  b = byte ' ' || b = byte '\t' || b = byte '\n' || b = byte '\r'

def isDigit (b : Byte) : Bool := byte '0' ≤ b && b ≤ byte '9'

def skipSpace (rest : Bytes) : Bytes := rest.dropWhile isSpace

def peek (rest : Bytes) : Byte := rest.headD 0

def next : Bytes → Except Failure (Byte × Bytes)
  | [] => .error .pastEnd
  | b :: rest => .ok (b, rest)

def advance (rest : Bytes) : Except Failure Bytes := (next rest).map Prod.snd

def expect (expected : Char) (rest : Bytes) : Except Failure Bytes :=
  if peek rest ≠ byte expected then fail rest ("expected '" ++ expected.toString ++ "'")
  else advance rest

def parseLiteral (literal : String) (rest : Bytes) : Except Failure Bytes :=
  if rest.take (bytes literal).length ≠ bytes literal then fail rest "invalid literal"
  else .ok (rest.drop (bytes literal).length)

def appendUtf8 (result : Bytes) (codepoint : Nat) : Except Failure Bytes :=
  if codepoint ≤ 0x7f then .ok (result ++ [Fin.ofNat 256 codepoint])
  else if codepoint ≤ 0x7ff then
    .ok (result ++ [Fin.ofNat 256 (0xc0 ||| codepoint >>> 6),
      Fin.ofNat 256 (0x80 ||| codepoint &&& 0x3f)])
  else if codepoint ≤ 0xffff then
    .ok (result ++ [Fin.ofNat 256 (0xe0 ||| codepoint >>> 12),
      Fin.ofNat 256 (0x80 ||| codepoint >>> 6 &&& 0x3f),
      Fin.ofNat 256 (0x80 ||| codepoint &&& 0x3f)])
  else if codepoint ≤ 0x10ffff then
    .ok (result ++ [Fin.ofNat 256 (0xf0 ||| codepoint >>> 18),
      Fin.ofNat 256 (0x80 ||| codepoint >>> 12 &&& 0x3f),
      Fin.ofNat 256 (0x80 ||| codepoint >>> 6 &&& 0x3f),
      Fin.ofNat 256 (0x80 ||| codepoint &&& 0x3f)])
  else .error .codePoint

def hexDigit (b : Byte) : Option Nat :=
  if byte '0' ≤ b ∧ b ≤ byte '9' then some (b.val - (byte '0').val)
  else if byte 'a' ≤ b ∧ b ≤ byte 'f' then some (b.val - (byte 'a').val + 10)
  else if byte 'A' ≤ b ∧ b ≤ byte 'F' then some (b.val - (byte 'A').val + 10)
  else none

def hexLoop : Nat → Nat → Bytes → Except Failure (Nat × Bytes)
  | 0, value, rest => .ok (value, rest)
  | count + 1, value, rest => do
    let (b, rest) ← next rest
    match hexDigit b with
    | none => fail rest "invalid Unicode escape"
    | some digit => hexLoop count (value <<< 4 ||| digit) rest

def parseHexQuad (rest : Bytes) : Except Failure (Nat × Bytes) :=
  if rest.length < 4 then fail rest "truncated Unicode escape" else hexLoop 4 0 rest

def isHighSurrogate (unit : Nat) : Bool := 0xd800 ≤ unit && unit ≤ 0xdbff

def isLowSurrogate (unit : Nat) : Bool := 0xdc00 ≤ unit && unit ≤ 0xdfff

/-- The code point of a `\u` escape, of two of them for a surrogate pair. -/
def parseCodepoint (rest : Bytes) : Except Failure (Nat × Bytes) := do
  let (first, rest) ← parseHexQuad rest
  if isHighSurrogate first then
    if rest.length < 6 ∨ rest[0]? ≠ some (byte '\\') ∨ rest[1]? ≠ some (byte 'u') then
      fail rest "unpaired high surrogate"
    else do
      let (second, rest) ← parseHexQuad (rest.drop 2)
      if isLowSurrogate second then
        return (0x10000 + (first - 0xd800) <<< 10 + (second - 0xdc00), rest)
      else fail rest "invalid low surrogate"
  else if isLowSurrogate first then fail rest "unpaired low surrogate"
  else return (first, rest)

def simpleEscapes : List (Byte × Byte) :=
  [(byte '"', byte '"'), (byte '\\', byte '\\'), (byte '/', byte '/'), (byte 'b', 8),
    (byte 'f', 12), (byte 'n', byte '\n'), (byte 'r', byte '\r'), (byte 't', byte '\t')]

/-- The `switch` on the byte after a backslash. -/
def parseEscape (result rest : Bytes) : Except Failure (Bytes × Bytes) := do
  if rest = [] then fail rest "truncated string escape"
  else do
    let (escape, rest) ← next rest
    match simpleEscapes.lookup escape with
    | some decoded => return (result ++ [decoded], rest)
    | none =>
      if escape = byte 'u' then do
        let (codepoint, rest) ← parseCodepoint rest
        return (← appendUtf8 result codepoint, rest)
      else fail rest "unknown string escape"

def stringLoop : Nat → Bytes → Bytes → Except Failure (Bytes × Bytes)
  | 0, _, _ => .error .outOfFuel
  | fuel + 1, result, rest => do
    if rest = [] then fail rest "unterminated string"
    else do
      let (b, rest) ← next rest
      if b = byte '"' then return (result, rest)
      else if b < 0x20 then fail rest "control character in string"
      else if b ≠ byte '\\' then stringLoop fuel (result ++ [b]) rest
      else do
        let (result, rest) ← parseEscape result rest
        stringLoop fuel result rest

def parseString (rest : Bytes) : Except Failure (Bytes × Bytes) := do
  let rest ← expect '"' rest
  stringLoop (rest.length + 1) [] rest

def integerDigits (rest : Bytes) : Except Failure Bytes := do
  if peek rest = byte '0' then do
    let rest ← advance rest
    if isDigit (peek rest) then fail rest "leading zero in number" else return rest
  else if peek rest < byte '1' ∨ byte '9' < peek rest then fail rest "invalid number"
  else return rest.dropWhile isDigit

def skipSign (signs : List Byte) (rest : Bytes) : Except Failure Bytes :=
  if peek rest ∈ signs then advance rest else .ok rest

def someDigits (message : String) (rest : Bytes) : Except Failure Bytes :=
  if isDigit (peek rest) then .ok (rest.dropWhile isDigit) else fail rest message

def fractionDigits (rest : Bytes) : Except Failure Bytes := do
  if peek rest = byte '.' then do
    let rest ← advance rest
    someDigits "missing fraction digits" rest
  else return rest

def exponentDigits (rest : Bytes) : Except Failure Bytes := do
  if peek rest = byte 'e' ∨ peek rest = byte 'E' then do
    let rest ← advance rest
    let rest ← skipSign [byte '+', byte '-'] rest
    someDigits "missing exponent digits" rest
  else return rest

/-- The part of `parse_number` that steps over the token. -/
def skipNumber (rest : Bytes) : Except Failure Bytes := do
  let rest ← skipSign [byte '-'] rest
  let rest ← integerDigits rest
  let rest ← fractionDigits rest
  exponentDigits rest

def parseNumber (lib : NumberLibrary D) (start : Bytes) : Except Failure (D × Bytes) := do
  let rest ← skipNumber start
  let text := cString (start.take (start.length - rest.length))
  let (value, stop) := lib.strtod text
  if stop = 0 ∨ stop ≠ text.length ∨ lib.isfinite value = false then
    fail rest "number is not finite"
  else return (value, rest)

/-- The `while (true)` of arrays and objects: read an item, add it to the container,
and go on after a comma. -/
def elementsLoop (item : Bytes → Except Failure (α × Bytes)) (add : σ → α → Option σ)
    (close : Char) : Nat → σ → Bytes → Except Failure (σ × Bytes)
  | 0, _, _ => .error .outOfFuel
  | fuel + 1, result, rest => do
    let (value, rest) ← item rest
    match add result value with
    | none => fail rest "duplicate object key"
    | some result => do
      let rest := skipSpace rest
      if peek rest = byte close then return (result, ← advance rest)
      else do
        let rest ← expect ',' rest
        elementsLoop item add close fuel result (skipSpace rest)

/-- A container: nothing but space between the brackets, or a list of items. -/
def parseContainer (item : Bytes → Except Failure (α × Bytes)) (add : σ → α → Option σ)
    (empty : σ) (opening close : Char) (rest : Bytes) : Except Failure (σ × Bytes) := do
  let rest ← expect opening rest
  let rest := skipSpace rest
  if peek rest = byte close then return (empty, ← advance rest)
  else elementsLoop item add close (rest.length + 1) empty rest

def parseArray (element : Bytes → Except Failure (Value D × Bytes)) (rest : Bytes) :
    Except Failure (List (Value D) × Bytes) :=
  parseContainer element (fun items item => some (items ++ [item])) [] '[' ']' rest

def parseMember (element : Bytes → Except Failure (Value D × Bytes)) (rest : Bytes) :
    Except Failure ((Bytes × Value D) × Bytes) := do
  if peek rest ≠ byte '"' then fail rest "object key must be a string"
  else do
    let (key, rest) ← parseString rest
    let rest ← expect ':' (skipSpace rest)
    let (value, rest) ← element (skipSpace rest)
    return ((key, value), rest)

def parseObject (element : Bytes → Except Failure (Value D × Bytes)) (rest : Bytes) :
    Except Failure (List (Bytes × Value D) × Bytes) :=
  parseContainer (parseMember element)
    (fun members member => SortedMap.emplace member.1 member.2 members) [] '{' '}' rest

/-- The fuel bounds the nesting depth. -/
def parseValue (lib : NumberLibrary D) : Nat → Bytes → Except Failure (Value D × Bytes)
  | 0, _ => .error .outOfFuel
  | fuel + 1, rest => do
    if peek rest = byte 'n' then return (.null, ← parseLiteral "null" rest)
    else if peek rest = byte 't' then return (.boolean true, ← parseLiteral "true" rest)
    else if peek rest = byte 'f' then return (.boolean false, ← parseLiteral "false" rest)
    else if peek rest = byte '"' then do
      let (value, rest) ← parseString rest
      return (.string value, rest)
    else if peek rest = byte '[' then do
      let (items, rest) ← parseArray (parseValue lib fuel) rest
      return (.array items, rest)
    else if peek rest = byte '{' then do
      let (members, rest) ← parseObject (parseValue lib fuel) rest
      return (.object members, rest)
    else if peek rest = byte '-' ∨ isDigit (peek rest) then do
      let (value, rest) ← parseNumber lib rest
      return (.number value, rest)
    else fail rest "expected a JSON value"

def parseDocument (lib : NumberLibrary D) (text : Bytes) : Except Failure (Value D) := do
  let (value, rest) ← parseValue lib (text.length + 1) (skipSpace text)
  let rest := skipSpace rest
  if rest ≠ [] then fail rest "unexpected trailing input" else return value

end Parser

/-- The exception a failure of the parser is thrown as. -/
def Failure.toException (size : Nat) : Failure → Exception
  | .fail unread message =>
    .runtimeError (bytes ("invalid JSON at byte " ++ toString (size - unread) ++ ": " ++ message))
  | .codePoint => .runtimeError (bytes "invalid JSON Unicode code point")
  | .pastEnd => .undefinedBehavior
  | .outOfFuel => .diverges

def parse {D : Type} (lib : NumberLibrary D) (text : Bytes) : Except Exception (Value D) :=
  (Parser.parseDocument lib text).mapError (Failure.toException text.length)

end Branchscore.Json
