import Branchscore.Json.Completeness

/-!
# The encoder and its round trip

What the encoder prints is a word of the grammar that denotes the printed value, so
the parser reads it back.
-/

namespace Branchscore.Json

open Foundation Foundation.Parsing Outcome Grammar
set_option autoImplicit false

variable {D : Type}

/-! ## The encoder -/

def hexDigits : Bytes := bytes "0123456789abcdef"

/-- `std::hex` with `std::setw(4)` and `std::setfill('0')`. -/
def hexQuad (n : Nat) : Bytes :=
  [n / 0x1000 % 16, n / 0x100 % 16, n / 0x10 % 16, n % 16].map fun d => hexDigits.getD d 0

def escapeByte (b : Byte) : Bytes :=
  if b = byte '"' then bytes "\\\""
  else if b = byte '\\' then bytes "\\\\"
  else if b = 8 then bytes "\\b"
  else if b = 12 then bytes "\\f"
  else if b = byte '\n' then bytes "\\n"
  else if b = byte '\r' then bytes "\\r"
  else if b = byte '\t' then bytes "\\t"
  else if b < 0x20 then bytes "\\u" ++ hexQuad b.val
  else [b]

def appendEscaped (output value : Bytes) : Bytes :=
  value.foldl (fun output b => output ++ escapeByte b) (output ++ [byte '"']) ++ [byte '"']

mutual

def appendValue (lib : NumberLibrary D) (output : Bytes) : Value D → Except Exception Bytes
  | .null => .ok (output ++ bytes "null")
  | .boolean value => .ok (output ++ if value then bytes "true" else bytes "false")
  | .number value =>
    if lib.isfinite value = false then runtimeError "cannot encode a non-finite JSON number"
    else .ok (output ++ lib.print value)
  | .string value => .ok (appendEscaped output value)
  | .array items => do
    let output ← appendItems lib (output ++ [byte '[']) true items
    return output ++ [byte ']']
  | .object members => do
    let output ← appendMembers lib (output ++ [byte '{']) true members
    return output ++ [byte '}']

def appendItems (lib : NumberLibrary D) (output : Bytes) (first : Bool) :
    List (Value D) → Except Exception Bytes
  | [] => .ok output
  | item :: items => do
    let output := if first then output else output ++ [byte ',']
    let output ← appendValue lib output item
    appendItems lib output false items

def appendMembers (lib : NumberLibrary D) (output : Bytes) (first : Bool) :
    List (Bytes × Value D) → Except Exception Bytes
  | [] => .ok output
  | (key, item) :: members => do
    let output := if first then output else output ++ [byte ',']
    let output := appendEscaped output key ++ [byte ':']
    let output ← appendValue lib output item
    appendMembers lib output false members

end

def stringify (lib : NumberLibrary D) (value : Value D) : Except Exception Bytes :=
  appendValue lib [] value

/-! ## What is printed is a word of the grammar -/

/-- The byte is printed as a two-byte escape that denotes it. -/
def isSimplyEscaped (b : Byte) : Bool :=
  Grammar.simpleEscapes.any fun p => p.2 = b ∧ escapeByte b = [byte '\\', p.1]

set_option maxRecDepth 8000 in
theorem escapeByte_cases : ∀ b : Byte,
    (escapeByte b = [b] ∧ 0x20 ≤ b ∧ b ≠ byte '"' ∧ b ≠ byte '\\') ∨ isSimplyEscaped b = true ∨
    (escapeByte b = bytes "\\u" ++ hexQuad b.val ∧ b < 0x20) := by
  decide

theorem hexDigits_getD {digit : Nat} (h : digit < 16) : HexDigit (hexDigits.getD digit 0) digit := by
  have hlen : digit < hexDigits.length := h
  refine Or.inl ?_
  rw [List.getD_eq_getElem _ _ hlen]
  exact List.getElem?_eq_getElem hlen

theorem hexQuad_derives {n : Nat} (h : n < 0x10000) : HexQuad (hexQuad n) n := by
  have hd (k : Nat) : HexDigit (hexDigits.getD (k % 16) 0) (k % 16) :=
    hexDigits_getD (Nat.mod_lt k (by omega))
  have hn : ((n / 0x1000 % 16 * 16 + n / 0x100 % 16) * 16 + n / 0x10 % 16) * 16 + n % 16 = n := by
    omega
  have hquad := HexQuad.intro (hd (n / 0x1000)) (hd (n / 0x100)) (hd (n / 0x10)) (hd n)
  rwa [hn] at hquad

set_option maxRecDepth 4000 in
theorem utf8_control : ∀ b : Byte, b < 0x20 → utf8 b.val = [b] := by decide

theorem stringBody_escape (value : Bytes) : StringBody (value.flatMap escapeByte) value := by
  induction value with
  | nil => exact .nil
  | cons b value ih =>
    rw [List.flatMap_cons]
    rcases escapeByte_cases b with ⟨he, hb, hquote, hslash⟩ | hsimple | ⟨he, hb⟩
    · rw [he]
      exact .raw hb hquote hslash ih
    · obtain ⟨⟨escape, decoded⟩, hmem, hp⟩ := List.any_eq_true.mp hsimple
      obtain ⟨rfl, he⟩ := of_decide_eq_true hp
      rw [he]
      exact .escape (.simple hmem) ih
    · have hquad := hexQuad_derives (n := b.val) (by omega)
      have hescape := StringBody.escape (.unicode (.scalar hquad (Or.inl (by omega)))) ih
      rw [utf8_control b hb] at hescape
      rw [he]
      exact hescape

theorem appendEscaped_eq (output value : Bytes) :
    appendEscaped output value = output ++ (byte '"' :: (value.flatMap escapeByte ++ [byte '"'])) := by
  have hfold (output : Bytes) : value.foldl (fun output b => output ++ escapeByte b) output =
      output ++ value.flatMap escapeByte := by
    induction value generalizing output with
    | nil => simp
    | cons b value ih =>
      rw [List.foldl_cons, ih, List.flatMap_cons, List.append_assoc]
  rw [appendEscaped, hfold]
  simp

/-- The value is printed as a word of `R` behind whatever was printed before. -/
def Prints {α : Type} (R : Bytes → α → Prop) (one : Bytes → α → Except Exception Bytes)
    (value : α) : Prop :=
  ∃ word, R word value ∧ ∀ output, one output value = .ok (output ++ word)

/-- The loop that arrays and objects share. -/
def appendSeparated {α : Type} (one : Bytes → α → Except Exception Bytes) (output : Bytes)
    (first : Bool) : List α → Except Exception Bytes
  | [] => .ok output
  | item :: items => do
    let output ← one (if first then output else output ++ [byte ',']) item
    appendSeparated one output false items

theorem appendSeparated_prints {α : Type} {R : Bytes → α → Prop}
    {one : Bytes → α → Except Exception Bytes} {items : List α} {item : α}
    (h : ∀ item' ∈ item :: items, Prints R one item') :
    ∃ words, Elements Space (byte ',') R words (item :: items) ∧ ∀ output first,
      appendSeparated one output first (item :: items) =
        .ok ((if first then output else output ++ [byte ',']) ++ words) := by
  have hspace : Space [] := by simp [Space]
  obtain ⟨word, hword, hone⟩ := h item List.mem_cons_self
  induction items generalizing item word with
  | nil =>
    refine ⟨_, .one hword hspace, ?_⟩
    intro output first
    rw [appendSeparated, hone, ok_bind, appendSeparated, List.append_nil]
  | cons item' items ih =>
    obtain ⟨word', hword', hone'⟩ := h item' (by simp)
    obtain ⟨words, hwords, hloop⟩ := ih (fun i hi => h i (List.mem_cons_of_mem _ hi)) word' hword'
      hone'
    refine ⟨_, .cons hword hspace hspace hwords, ?_⟩
    intro output first
    rw [appendSeparated, hone, ok_bind, hloop]
    simp

theorem appendItems_eq (lib : NumberLibrary D) (output : Bytes) (first : Bool)
    (items : List (Value D)) :
    appendItems lib output first items = appendSeparated (appendValue lib) output first items := by
  induction items generalizing output first with
  | nil => rw [appendItems, appendSeparated]
  | cons item items ih => simp only [appendItems, appendSeparated, ih]

def appendMember (lib : NumberLibrary D) (output : Bytes) (member : Bytes × Value D) :
    Except Exception Bytes :=
  appendValue lib (appendEscaped output member.1 ++ [byte ':']) member.2

theorem appendMembers_eq (lib : NumberLibrary D) (output : Bytes) (first : Bool)
    (members : List (Bytes × Value D)) :
    appendMembers lib output first members =
      appendSeparated (appendMember lib) output first members := by
  induction members generalizing output first with
  | nil => rw [appendMembers, appendSeparated]
  | cons member members ih =>
    obtain ⟨key, item⟩ := member
    simp only [appendMembers, appendSeparated, ih, appendMember]

theorem appendMember_prints {Number : Bytes → D → Prop} {lib : NumberLibrary D}
    (member : Bytes × Value D) (h : Prints (Derives Number) (appendValue lib) member.2) :
    Prints (Member (Derives Number)) (appendMember lib) member := by
  have hspace : Space [] := by simp [Space]
  obtain ⟨word, hword, happend⟩ := h
  refine ⟨_, .intro (.intro (stringBody_escape member.1)) hspace hspace hword, ?_⟩
  intro output
  rw [appendMember, happend, appendEscaped_eq]
  simp

theorem appendValue_prints {Number : Bytes → D → Prop} {finite : D → Prop}
    {lib : NumberLibrary D}
    (hprint : ∀ value, finite value → lib.isfinite value = true ∧ Number (lib.print value) value)
    {value : Value D} (h : value.Regular finite) :
    Prints (Derives Number) (appendValue lib) value := by
  have hspace : Space [] := by simp [Space]
  induction h with
  | null => exact ⟨_, .null, fun output => by rw [appendValue]⟩
  | boolean value =>
    cases value with
    | true => exact ⟨_, .true, fun output => by rw [appendValue]; rfl⟩
    | false => exact ⟨_, .false, fun output => by rw [appendValue]; rfl⟩
  | @number value hfinite =>
    obtain ⟨hlib, hnumber⟩ := hprint value hfinite
    exact ⟨_, .number hnumber, fun output => by rw [appendValue]; simp [hlib]⟩
  | string value =>
    exact ⟨_, .string (.intro (stringBody_escape value)), fun output => by
      rw [appendValue, appendEscaped_eq]⟩
  | @array items _ ih =>
    cases items with
    | nil => exact ⟨_, .emptyArray hspace, fun output => by rw [appendValue, appendItems]; simp⟩
    | cons item items =>
      obtain ⟨words, hwords, hloop⟩ := appendSeparated_prints ih
      refine ⟨_, .array hspace hwords, ?_⟩
      intro output
      rw [appendValue, appendItems_eq, hloop]
      simp
  | @object members hsorted _ ih =>
    cases members with
    | nil => exact ⟨_, .emptyObject hspace, fun output => by rw [appendValue, appendMembers]; simp⟩
    | cons member members =>
      obtain ⟨words, hwords, hloop⟩ := appendSeparated_prints fun member hm =>
        appendMember_prints member (ih member hm)
      refine ⟨_, .object hspace hwords hsorted (.refl _), ?_⟩
      intro output
      rw [appendValue, appendMembers_eq, hloop]
      simp

theorem derives_nonempty {Number : Bytes → D → Prop} {word : Bytes} {value : Value D}
    (h : Derives Number word value) (hcontainer : (∃ items, value = .array items) ∨
      ∃ members, value = .object members) : word ≠ [] := by
  cases h with
  | emptyArray => simp
  | array => simp
  | emptyObject => simp
  | object => simp
  | _ => simp at hcontainer

/-- What the grammar denotes is a tree of maps, strings and finite numbers. -/
theorem derives_regular {Number : Bytes → D → Prop} {finite : D → Prop}
    (hnumber : ∀ word value, Number word value → finite value) {word : Bytes} {value : Value D}
    (h : Derives Number word value) : value.Regular finite := by
  induction hn : word.length using Nat.strong_induction_on generalizing word value with
  | _ n ih =>
    have hnested : ∀ word' value', word'.length < n → Derives Number word' value' →
        value'.Regular finite := fun word' value' hlt h' => ih _ hlt h' rfl
    cases h with
    | null => exact .null
    | true => exact .boolean _
    | false => exact .boolean _
    | number h => exact .number (hnumber _ _ h)
    | string => exact .string _
    | emptyArray => exact .array (by simp)
    | @array space words items _ hwords =>
      simp only [List.length_cons, List.length_append] at hn
      have hall := hwords.mono (S := fun _ value => value.Regular finite) fun word' value' hle =>
        hnested word' value' (by omega)
      exact .array hall.forall_mem
    | emptyObject => exact .object List.Pairwise.nil (by simp)
    | @object space words entries members _ hwords hsorted hperm =>
      simp only [List.length_cons, List.length_append] at hn
      have hall := hwords.mono (S := fun _ member => member.2.Regular finite) fun word' member hle h => by
        obtain ⟨_, _, _, hword⟩ := h
        simp only [List.length_cons, List.length_append] at hle
        exact hnested _ _ (by omega) hword
      have hmem := hall.forall_mem (P := fun member : Bytes × Value D => member.2.Regular finite)
      exact .object hsorted fun member hm => hmem member (hperm.mem_iff.mp hm)

theorem parse_regular {lib : NumberLibrary D} {text : Bytes} {value : Value D}
    (h : parse lib text = .ok value) : value.Regular fun d => lib.isfinite d = true := by
  obtain ⟨_, hword, _⟩ := parse_eq_ok.mp h
  exact derives_regular (fun _ _ hnumber => hnumber.2.1) hword

/-- A tree of maps, strings and finite numbers is always printed. -/
theorem stringify_eq_ok {lib : NumberLibrary D} {value : Value D}
    (h : value.Regular fun d => lib.isfinite d = true) : ∃ text, stringify lib value = .ok text ∧
      (((∃ items, value = .array items) ∨ ∃ members, value = .object members) → text ≠ []) := by
  have hprints : Prints (Derives fun _ _ => True) (appendValue lib) value :=
    appendValue_prints (fun _ hfinite => ⟨hfinite, trivial⟩) h
  obtain ⟨word, hword, happend⟩ := hprints
  exact ⟨word, happend [], derives_nonempty hword⟩

/-- A printed finite double is a number token that `strtod` reads back. -/
def PrintsNumbers (lib : NumberLibrary D) : Prop :=
  ∀ value, lib.isfinite value = true → NumberToken (lib.print value) ∧
    lib.strtod (lib.print value) = (value, (lib.print value).length)

theorem stringify_reads_back {lib : NumberLibrary D} {finite : D → Prop}
    (hscan : ∀ d, finite d → Scans lib (lib.print d) d) {value : Value D}
    (h : value.Regular finite) :
    ∃ text, stringify lib value = .ok text ∧ parse lib text = .ok value := by
  obtain ⟨word, hword, happend⟩ := appendValue_prints
    (fun d hfinite => ⟨(hscan d hfinite).2.1, hscan d hfinite⟩) h
  have hspace : Space [] := by simp [Space]
  refine ⟨word, happend [], ?_⟩
  rw [parse_eq_ok, ← List.append_nil word, ← List.nil_append (word ++ [])]
  exact .intro hspace hword hspace

/-- Every tree of maps, strings and finite numbers is printed, and read back as itself. -/
theorem parse_stringify (lib : NumberLibrary D) (hprint : PrintsNumbers lib) (value : Value D)
    (h : value.Regular fun d => lib.isfinite d = true) :
    ∃ text, stringify lib value = .ok text ∧ parse lib text = .ok value ∧
      (parse lib text).bind (stringify lib) = .ok text := by
  have hscan : ∀ d, lib.isfinite d = true → Scans lib (lib.print d) d := fun d hfinite =>
    ⟨(hprint d hfinite).1, hfinite, (hprint d hfinite).2⟩
  obtain ⟨text, hstringify, hparse⟩ := stringify_reads_back hscan h
  refine ⟨text, hstringify, hparse, ?_⟩
  rw [hparse]
  exact hstringify

theorem numberToken_digit {b : Byte} (hb : b ∈ bytes "0123456789") : NumberToken [b] := by
  have hcases : b = byte '0' ∨ b ∈ bytes "123456789" := List.mem_cons.mp hb
  have hsign : ([] : Bytes) ∈ [[], bytes "-"] := List.mem_cons_self
  have hnone : Digits [] := by simp [Digits]
  rcases hcases with rfl | hb
  · exact .intro hsign .zero .none .none
  · exact .intro hsign (.digits hb hnone) .none .none

theorem digitNumbers_prints : PrintsNumbers digitNumbers := by
  have hdigit : ∀ value : Fin 10, byte '0' + ⟨value.val, by omega⟩ ∈ bytes "0123456789" := by
    decide
  have hread : ∀ value : Fin 10, digitNumbers.strtod (digitNumbers.print value) =
      (value, (digitNumbers.print value).length) := by decide
  exact fun value _ => ⟨numberToken_digit (hdigit value), hread value⟩

theorem parse_stringify_sample :
    ∃ text, stringify digitNumbers (.object [(bytes "k\n", .array [.number 7, .null]),
        ([0xff], .object [])]) = .ok text ∧
      parse digitNumbers text = .ok (.object [(bytes "k\n", .array [.number 7, .null]),
        ([0xff], .object [])]) := by
  have hsorted : SortedMap.Sorted [(bytes "k\n", Value.array [.number (7 : Fin 10), .null]),
      ([0xff], .object [])] := by
    simp only [SortedMap.Sorted, List.pairwise_cons]
    decide
  have hregular : (Value.object [(bytes "k\n", Value.array [.number (7 : Fin 10), .null]),
      ([0xff], .object [])]).Regular fun d => digitNumbers.isfinite d = true := by
    refine .object hsorted ?_
    simp only [List.forall_mem_cons]
    exact ⟨.array (by simpa using ⟨.number rfl, .null⟩), .object .nil (by simp), by simp⟩
  obtain ⟨text, hs, hp, _⟩ := parse_stringify digitNumbers digitNumbers_prints _ hregular
  exact ⟨text, hs, hp⟩

end Branchscore.Json
