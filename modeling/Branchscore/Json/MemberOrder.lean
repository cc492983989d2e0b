import Branchscore.Json.Completeness

/-!
# The order of object members

A text is read first as a tree that keeps the members of objects as they are written.
The parser makes of it the tree with every object sorted, or fails on a repeated key,
so the written order and the white space leave no trace in the value.
-/

namespace Branchscore.Json

open Foundation Foundation.Parsing Outcome
set_option autoImplicit false

variable {α β σ τ D : Type}

/-- A JSON text as a tree, with the members of objects in written order. -/
inductive WireTree (D : Type) where
  | null
  | boolean (value : Bool)
  | number (value : D)
  | string (value : Bytes)
  | array (items : List (WireTree D))
  | object (entries : List (Bytes × WireTree D))

/-- Two entries with the same key and related values. -/
inductive Keyed (R : α → β → Prop) : Bytes × α → Bytes × β → Prop where
  | intro {key : Bytes} {a : α} {b : β} : R a b → Keyed R (key, a) (key, b)

namespace WireTree

/-- Equal up to the order of object members at any depth. -/
inductive Same : WireTree D → WireTree D → Prop where
  | null : Same .null .null
  | boolean (value : Bool) : Same (.boolean value) (.boolean value)
  | number (value : D) : Same (.number value) (.number value)
  | string (value : Bytes) : Same (.string value) (.string value)
  | array {items items' : List (WireTree D)} : items.length = items'.length →
      (∀ (i : Nat) item item', items[i]? = some item → items'[i]? = some item' → Same item item') →
      Same (.array items) (.array items')
  | object {entries entries' moved : List (Bytes × WireTree D)} :
      entries.map Prod.fst = moved.map Prod.fst →
      (∀ (i : Nat) entry entry', entries[i]? = some entry → moved[i]? = some entry' →
        Same entry.2 entry'.2) →
      moved.Perm entries' → Same (.object entries) (.object entries')

/-- The value has the members of every object sorted, with no repeated key. -/
inductive Sorts : WireTree D → Value D → Prop where
  | null : Sorts .null .null
  | boolean (value : Bool) : Sorts (.boolean value) (.boolean value)
  | number (value : D) : Sorts (.number value) (.number value)
  | string (value : Bytes) : Sorts (.string value) (.string value)
  | array {items : List (WireTree D)} {values : List (Value D)} :
      List.Forall₂ Sorts items values → Sorts (.array items) (.array values)
  | object {entries : List (Bytes × WireTree D)} {values members : List (Bytes × Value D)} :
      List.Forall₂ (Keyed Sorts) entries values →
      SortedMap.Sorted members → members.Perm values → Sorts (.object entries) (.object members)

end WireTree

namespace Grammar

/-- The word is the written form of the tree. -/
inductive Reads (Number : Bytes → D → Prop) : Bytes → WireTree D → Prop where
  | null : Reads Number (bytes "null") .null
  | true : Reads Number (bytes "true") (.boolean true)
  | false : Reads Number (bytes "false") (.boolean false)
  | number {word : Bytes} {value : D} : Number word value → Reads Number word (.number value)
  | string {word value : Bytes} : StringToken word value → Reads Number word (.string value)
  | emptyArray {space : Bytes} : Space space →
      Reads Number (byte '[' :: (space ++ [byte ']'])) (.array [])
  | array {space words : Bytes} {items : List (WireTree D)} : Space space →
      Elements Space (byte ',') (Reads Number) words items →
      Reads Number (byte '[' :: (space ++ (words ++ [byte ']']))) (.array items)
  | emptyObject {space : Bytes} : Space space →
      Reads Number (byte '{' :: (space ++ [byte '}'])) (.object [])
  | object {space words : Bytes} {entries : List (Bytes × WireTree D)} : Space space →
      Elements Space (byte ',') (Member (Reads Number)) words entries →
      Reads Number (byte '{' :: (space ++ (words ++ [byte '}']))) (.object entries)

/-- A tree with space around it. -/
inductive Writes (Number : Bytes → D → Prop) : Bytes → WireTree D → Prop where
  | intro {before word after : Bytes} {tree : WireTree D} : Space before → Reads Number word tree →
      Space after → Writes Number (before ++ (word ++ after)) tree

end Grammar

open WireTree Grammar Json.Parser

/-! ## Trees -/

theorem forall₂_of_pointwise {R R' : α → β → Prop} {items items' : List α} {values : List β}
    (hlength : items.length = items'.length)
    (h : ∀ (i : Nat) item item', items[i]? = some item → items'[i]? = some item' →
      ∀ value, R item value → R' item' value)
    (hall : List.Forall₂ R items values) : List.Forall₂ R' items' values := by
  induction hall generalizing items' with
  | nil => rw [List.length_eq_zero_iff.mp hlength.symm]; exact .nil
  | @cons item value items values hR _ ih =>
    cases items' with
    | nil => cases hlength
    | cons item' items' =>
      refine .cons (h 0 item item' rfl rfl value hR) (ih (Nat.succ.inj hlength) ?_)
      exact fun i => h (i + 1)

theorem forall₂_keyed_map {R : α → β → Prop} {entries : List (Bytes × α)}
    {values : List (Bytes × β)} (h : List.Forall₂ (Keyed R) entries values) :
    values.map Prod.fst = entries.map Prod.fst := by
  induction h with
  | nil => rfl
  | cons hkeyed _ ih =>
    cases hkeyed
    rw [List.map_cons, List.map_cons, ih]

namespace WireTree

/-- The sorted value does not depend on the order of members. -/
theorem Same.sorts_iff {tree tree' : WireTree D} (h : Same tree tree') (value : Value D) :
    Sorts tree value ↔ Sorts tree' value := by
  induction h generalizing value with
  | null => rfl
  | boolean => rfl
  | number => rfl
  | string => rfl
  | @array items items' hlength _ ih =>
    constructor
    · rintro (_ | _ | _ | _ | h | _)
      exact .array (forall₂_of_pointwise hlength
        (fun i item item' hi hi' value => (ih i item item' hi hi' value).mp) h)
    · rintro (_ | _ | _ | _ | h | _)
      exact .array (forall₂_of_pointwise hlength.symm
        (fun i item item' hi hi' value => (ih i item' item hi' hi value).mpr) h)
  | @object entries entries' moved hkeys _ hperm ih =>
    have hkey : ∀ (i : Nat) entry entry', entries[i]? = some entry → moved[i]? = some entry' →
        entry.1 = entry'.1 := by
      intro i entry entry' hi hi'
      have := congrArg (·[i]?) hkeys
      simpa [hi, hi'] using this
    have hlength : entries.length = moved.length := by
      simpa using congrArg List.length hkeys
    constructor
    · rintro (_ | _ | _ | _ | _ | ⟨hvalues, hsorted, hvperm⟩)
      rename_i values members
      have hmoved : List.Forall₂ (Keyed Sorts) moved values := by
        refine forall₂_of_pointwise hlength ?_ hvalues
        rintro i _ ⟨key, tree⟩ hi hi' _ ⟨h⟩
        cases hkey i _ _ hi hi'
        exact ⟨(ih i _ _ hi hi' _).mp h⟩
      obtain ⟨values', hvalues', hperm'⟩ := List.perm_comp_forall₂ hperm.symm hmoved
      exact .object hvalues' hsorted (hvperm.trans hperm'.symm)
    · rintro (_ | _ | _ | _ | _ | ⟨hvalues, hsorted, hvperm⟩)
      rename_i values members
      obtain ⟨values', hvalues', hperm'⟩ := List.perm_comp_forall₂ hperm hvalues
      refine .object (forall₂_of_pointwise hlength.symm ?_ hvalues') hsorted
        (hvperm.trans hperm'.symm)
      rintro i _ ⟨key, tree⟩ hi hi' _ ⟨h⟩
      cases hkey i _ _ hi' hi
      exact ⟨(ih i _ _ hi' hi _).mpr h⟩

theorem exists_related {R : α → β → Prop} {items : List α} {values : List β}
    (h : List.Forall₂ R items values) {i : Nat} {item : α} (hi : items[i]? = some item) :
    ∃ value, values[i]? = some value ∧ R item value := by
  induction h generalizing i with
  | nil => simp at hi
  | cons hR _ ih =>
    cases i with
    | zero =>
      cases hi
      exact ⟨_, rfl, hR⟩
    | succ i => exact ih hi

/-- Trees sorted to the same value are equal up to the order of members. -/
theorem Sorts.same {tree tree' : WireTree D} {value : Value D} (h : Sorts tree value)
    (h' : Sorts tree' value) : Same tree tree' := by
  induction hsize : sizeOf value using Nat.strong_induction_on generalizing tree tree' value with
  | _ size ih =>
  cases h with
  | null =>
    cases h'
    exact .null
  | boolean value =>
    cases h'
    exact .boolean value
  | number value =>
    cases h'
    exact .number value
  | string value =>
    cases h'
    exact .string value
  | @array items values hitems =>
    rcases h' with _ | _ | _ | _ | hitems' | _
    rename_i items'
    refine .array (hitems.length_eq.trans hitems'.length_eq.symm) fun i item item' hi hi' => ?_
    obtain ⟨value, hvalue, hsorts⟩ := exists_related hitems hi
    obtain ⟨_, hvalue', hsorts'⟩ := exists_related hitems' hi'
    cases hvalue.symm.trans hvalue'
    have hlt := List.sizeOf_lt_of_mem (List.mem_of_getElem? hvalue)
    refine ih (sizeOf value) ?_ hsorts hsorts' rfl
    simp only [← hsize, Value.array.sizeOf_spec]
    omega
  | @object entries values members hvalues _ hperm =>
    cases h' with
    | @object entries' values' _ hvalues' _ hperm' =>
      obtain ⟨moved, hmoved, hvaluesMoved⟩ :=
        (congrFun₂ List.forall₂_comp_perm_eq_perm_comp_forall₂ entries' values).mp
          ⟨values', hvalues', hperm'.symm.trans hperm⟩
      refine .object ?_ ?_ hmoved.symm
      · rw [← forall₂_keyed_map hvalues, ← forall₂_keyed_map hvaluesMoved]
      · intro i entry entry' hi hi'
        obtain ⟨_, hvalue, ⟨hsorts⟩⟩ := exists_related hvalues hi
        obtain ⟨_, hvalue', hkeyed⟩ := exists_related hvaluesMoved hi'
        cases hvalue.symm.trans hvalue'
        obtain ⟨hsorts'⟩ := hkeyed
        have hlt := List.sizeOf_lt_of_mem (hperm.mem_iff.mpr (List.mem_of_getElem? hvalue))
        refine ih _ ?_ hsorts hsorts' rfl
        simp only [← hsize, Value.object.sizeOf_spec]
        simp only [Prod.mk.sizeOf_spec] at hlt
        omega

end WireTree

/-! ## The parser on a written tree -/

/-- In front of anything that does not extend a number, the word is parsed as a value that
`S` relates to the tree, or not at all. -/
def ParsesAs (S : τ → α → Prop) (item : Bytes → Except Failure (α × Bytes)) (word : Bytes)
    (tree : τ) : Prop :=
  ∀ rest, Stops rest → ∀ value rest', item (word ++ rest) = .ok (value, rest') ↔
    S tree value ∧ rest' = rest

section Containers
variable {R : Bytes → τ → Prop} {S : τ → α → Prop} {item : Bytes → Except Failure (α × Bytes)}

theorem ParsesAs.bind_eq_ok {word : Bytes} {tree : τ} (h : ParsesAs S item word tree)
    {rest : Bytes} (hstops : Stops rest) {f : α × Bytes → Except Failure β} {b : β} :
    (item (word ++ rest) >>= f) = .ok b ↔ ∃ value, S tree value ∧ f (value, rest) = .ok b := by
  rw [Outcome.bind_eq_ok]
  constructor
  · rintro ⟨⟨value, rest'⟩, hitem, hf⟩
    obtain ⟨hS, rfl⟩ := (h rest hstops value rest').mp hitem
    exact ⟨value, hS, hf⟩
  · rintro ⟨value, hS, hf⟩
    exact ⟨(value, rest), (h rest hstops value rest).mpr ⟨hS, rfl⟩, hf⟩

theorem elementsLoop_iff (add : σ → α → Option σ) {close : Char}
    (hclose : byte close ∈ bytes "]\x7d") {words : Bytes} {trees : List τ}
    (h : Elements Space (byte ',') R words trees)
    (hheaded : ∀ word tree, R word tree → Headed word)
    (hitem : ∀ word tree, R word tree → word.length ≤ words.length → ParsesAs S item word tree)
    {fuel : Nat} (hfuel : words.length < fuel) {result : σ} (rest : Bytes) (final : σ)
    (rest' : Bytes) :
    elementsLoop item add close fuel result (words ++ byte close :: rest) = .ok (final, rest') ↔
      (∃ values, List.Forall₂ S trees values ∧ values.foldlM add result = some final) ∧
        rest' = rest := by
  obtain ⟨hspace, hnumber, hcomma⟩ := closing_spec hclose
  have hstops : Stops (byte close :: rest) := hnumber
  induction h generalizing result fuel with
  | @one word after tree hR hafter =>
    obtain ⟨fuel, rfl⟩ := Nat.exists_eq_add_of_lt hfuel
    rw [elementsLoop, List.append_assoc,
      (hitem word tree hR (by simp)).bind_eq_ok (stops_space hafter hstops)]
    dsimp only
    simp only [skipSpace_append_cons hafter hspace, peek_cons, if_true, advance_cons, ok_bind]
    constructor
    · rintro ⟨value, hS, hadd⟩
      cases hvalue : add result value with
      | none =>
        rw [hvalue] at hadd
        cases hadd
      | some result' =>
        rw [hvalue] at hadd
        cases hadd
        exact ⟨⟨[value], .cons hS .nil, by simp [hvalue]⟩, rfl⟩
    · rintro ⟨⟨values, hvalues, hfold⟩, rfl⟩
      obtain ⟨value, _, hS, ⟨⟩, rfl⟩ := List.forall₂_cons_left_iff.mp hvalues
      refine ⟨value, hS, ?_⟩
      rw [show add result value = some final by simpa using hfold]
      rfl
  | @cons word after before words tree trees hR hafter hbefore hwords ih =>
    obtain ⟨fuel, rfl⟩ := Nat.exists_eq_add_of_lt hfuel
    have hlen : words.length ≤ (word ++ (after ++ byte ',' :: (before ++ words))).length := by
      simp only [List.length_append, List.length_cons]
      omega
    have hafterStops : Stops (after ++ byte ',' :: (before ++ (words ++ byte close :: rest))) :=
      stops_space hafter (stops_cons (by decide) _)
    have hsplit : word ++ (after ++ byte ',' :: (before ++ words)) ++ byte close :: rest =
        word ++ (after ++ byte ',' :: (before ++ (words ++ byte close :: rest))) := by simp
    have hfuel : words.length < (word ++ (after ++ byte ',' :: (before ++ words))).length + fuel := by
      simp only [List.length_append, List.length_cons]
      omega
    have htail (result' : σ) := @ih
      (fun word' tree' hR' hle => hitem word' tree' hR' (hle.trans hlen)) _ hfuel result'
    rw [elementsLoop, hsplit, (hitem word tree hR (by simp)).bind_eq_ok hafterStops]
    dsimp only
    simp only [skipSpace_append_cons (b := byte ',') hafter (by decide), peek_cons, hcomma.symm,
      if_false, expect_cons, ok_bind,
      skipSpace_append hbefore ((Elements.headed hwords hheaded).isSpace _)]
    constructor
    · rintro ⟨value, hS, hadd⟩
      cases hvalue : add result value with
      | none =>
        rw [hvalue] at hadd
        cases hadd
      | some result' =>
        rw [hvalue] at hadd
        obtain ⟨⟨values, hvalues, hfold⟩, rfl⟩ := (htail result').mp hadd
        refine ⟨⟨value :: values, .cons hS hvalues, ?_⟩, rfl⟩
        rw [List.foldlM_cons, hvalue]
        exact hfold
    · rintro ⟨⟨values, hvalues, hfold⟩, rfl⟩
      obtain ⟨value, values, hS, htrees, rfl⟩ := List.forall₂_cons_left_iff.mp hvalues
      rw [List.foldlM_cons] at hfold
      obtain ⟨result', hvalue, hfold⟩ := Option.bind_eq_some_iff.mp hfold
      refine ⟨value, hS, ?_⟩
      rw [hvalue]
      exact (htail result').mpr ⟨⟨values, htrees, hfold⟩, rfl⟩

theorem parseContainer_iff (add : σ → α → Option σ) (empty : σ) {opening close : Char}
    (hclose : byte close ∈ bytes "]\x7d") {space words : Bytes} (hspace : Space space)
    {trees : List τ} (h : Elements Space (byte ',') R words trees)
    (hheaded : ∀ word tree, R word tree → Headed word)
    (hitem : ∀ word tree, R word tree → word.length ≤ words.length → ParsesAs S item word tree)
    (rest : Bytes) (final : σ) (rest' : Bytes) :
    parseContainer item add empty opening close
      (byte opening :: (space ++ (words ++ [byte close])) ++ rest) = .ok (final, rest') ↔
        (∃ values, List.Forall₂ S trees values ∧ values.foldlM add empty = some final) ∧
          rest' = rest := by
  have hsplit : byte opening :: (space ++ (words ++ [byte close])) ++ rest =
      byte opening :: (space ++ (words ++ byte close :: rest)) := by simp
  have hwords := Elements.headed h hheaded
  rw [parseContainer, hsplit, expect_cons, ok_bind]
  dsimp only
  rw [skipSpace_append hspace (hwords.isSpace _), if_neg (hwords.ne_closing _ hclose)]
  apply elementsLoop_iff add hclose h hheaded hitem
  simp only [List.length_append, List.length_cons]
  omega

end Containers

section Values
variable {lib : NumberLibrary D} {element : Bytes → Except Failure (Value D × Bytes)}

theorem reads_headed {word : Bytes} {tree : WireTree D} (h : Reads (Scans lib) word tree) :
    Headed word := by
  cases h with
  | number hnumber => exact numberToken_headed hnumber.1
  | string htoken => exact stringToken_headed htoken
  | _ => exact headed_cons (by decide) _

theorem parsesAs_of_ok {S : τ → α → Prop} {item : Bytes → Except Failure (α × Bytes)}
    {word : Bytes} {tree : τ} {value : α} (hitem : ∀ rest, Stops rest →
      item (word ++ rest) = .ok (value, rest)) (hS : ∀ value', S tree value' ↔ value' = value) :
    ParsesAs S item word tree := by
  intro rest hstops value' rest'
  rw [hitem rest hstops, hS, Except.ok.injEq, Prod.mk.injEq, eq_comm, @eq_comm _ rest]

theorem parseMember_parsesAs {word : Bytes} {entry : Bytes × WireTree D}
    (h : Member (Reads (Scans lib)) word entry)
    (helement : ∀ word' tree, Reads (Scans lib) word' tree → word'.length ≤ word.length →
      ParsesAs Sorts element word' tree) :
    ParsesAs (Keyed Sorts) (parseMember element) word entry := by
  obtain @⟨key, name, before, after, word, tree, hkey, hbefore, hafter, hword⟩ := h
  intro rest hstops member rest'
  have hpeek (rest : Bytes) : peek (key ++ rest) = byte '"' := by
    cases hkey
    rfl
  have hsplit : key ++ (before ++ byte ':' :: (after ++ word)) ++ rest =
      key ++ (before ++ byte ':' :: (after ++ (word ++ rest))) := by simp
  rw [parseMember, hsplit, if_neg (not_not.mpr (hpeek _)), parseString_append hkey, ok_bind]
  dsimp only
  rw [skipSpace_append_cons hbefore (by decide), expect_cons, ok_bind,
    skipSpace_append hafter ((reads_headed hword).isSpace _),
    (helement word tree hword (by simp only [List.length_append, List.length_cons]; omega)
      ).bind_eq_ok hstops]
  constructor
  · rintro ⟨value, hsorts, ⟨⟩⟩
    exact ⟨⟨hsorts⟩, rfl⟩
  · rintro ⟨⟨hsorts⟩, rfl⟩
    exact ⟨_, hsorts, rfl⟩

theorem parseArray_iff {space words : Bytes} {trees : List (WireTree D)} (hspace : Space space)
    (h : Elements Space (byte ',') (Reads (Scans lib)) words trees)
    (helement : ∀ word tree, Reads (Scans lib) word tree → word.length ≤ words.length →
      ParsesAs Sorts element word tree) (rest : Bytes) (items : List (Value D)) (rest' : Bytes) :
    parseArray element (byte '[' :: (space ++ (words ++ [byte ']'])) ++ rest) =
      .ok (items, rest') ↔ List.Forall₂ Sorts trees items ∧ rest' = rest := by
  rw [parseArray, parseContainer_iff _ _ (by decide) hspace h (fun _ _ => reads_headed) helement]
  simp only [foldlM_append_some, List.nil_append, Option.some.injEq, exists_eq_right]

theorem parseObject_iff {space words : Bytes} {entries : List (Bytes × WireTree D)}
    (hspace : Space space) (h : Elements Space (byte ',') (Member (Reads (Scans lib))) words entries)
    (helement : ∀ word tree, Reads (Scans lib) word tree → word.length ≤ words.length →
      ParsesAs Sorts element word tree) (rest : Bytes) (members : List (Bytes × Value D))
    (rest' : Bytes) :
    parseObject element (byte '{' :: (space ++ (words ++ [byte '}'])) ++ rest) =
      .ok (members, rest') ↔ Sorts (.object entries) (.object members) ∧ rest' = rest := by
  have hmember : ∀ word entry, Member (Reads (Scans lib)) word entry →
      word.length ≤ words.length → ParsesAs (Keyed Sorts) (parseMember element) word entry := by
    intro word entry hmember hle
    apply parseMember_parsesAs hmember
    exact fun word' tree hword hle' => helement word' tree hword (hle'.trans hle)
  rw [parseObject, parseContainer_iff _ _ (by decide) hspace h (fun _ _ => member_headed) hmember]
  refine and_congr_left fun _ => ?_
  constructor
  · rintro ⟨values, hvalues, hfold⟩
    obtain ⟨hsorted, hperm⟩ := (SortedMap.emplaceAll_eq_some List.Pairwise.nil).mp hfold
    exact .object hvalues hsorted (List.append_nil values ▸ hperm)
  · intro hsorts
    cases hsorts with
    | @object _ values _ hvalues hsorted hperm =>
      refine ⟨values, hvalues, (SortedMap.emplaceAll_eq_some List.Pairwise.nil).mpr ⟨hsorted, ?_⟩⟩
      rwa [List.append_nil]

/-- The word of a tree is parsed as the sorted tree. -/
theorem parseValue_parsesAs {fuel : Nat} {word : Bytes} {tree : WireTree D}
    (h : Reads (Scans lib) word tree) (hfuel : word.length < fuel) :
    ParsesAs Sorts (parseValue lib fuel) word tree := by
  induction fuel generalizing word tree with
  | zero => simp at hfuel
  | succ fuel ih =>
    cases h with
    | null =>
      refine parsesAs_of_ok (fun _ _ => rfl) fun value => ?_
      exact ⟨fun h => by cases h; rfl, fun h => h ▸ .null⟩
    | true =>
      refine parsesAs_of_ok (fun _ _ => rfl) fun value => ?_
      exact ⟨fun h => by cases h; rfl, fun h => h ▸ .boolean true⟩
    | false =>
      refine parsesAs_of_ok (fun _ _ => rfl) fun value => ?_
      exact ⟨fun h => by cases h; rfl, fun h => h ▸ .boolean false⟩
    | number hnumber =>
      refine parsesAs_of_ok (fun rest hstops => ?_) fun value =>
        ⟨fun h => by cases h; rfl, fun h => h ▸ .number _⟩
      rw [parseValue_number fuel (numberToken_peek hnumber.1 rest),
        parseNumber_append hnumber hstops]
      rfl
    | string htoken =>
      refine parsesAs_of_ok (fun rest hstops => ?_) fun value =>
        ⟨fun h => by cases h; rfl, fun h => h ▸ .string _⟩
      have hparse := parseString_append htoken rest
      obtain ⟨hbody⟩ := htoken
      rw [List.cons_append] at hparse ⊢
      rw [parseValue_string, hparse]
      rfl
    | @emptyArray space hspace =>
      refine @parsesAs_of_ok _ _ _ _ _ _ (.array []) (fun rest _ => ?_) fun value => ?_
      · rw [List.cons_append, parseValue_array, parseArray, ← List.cons_append,
          parseContainer_empty _ _ _ _ (by decide) hspace]
        rfl
      · constructor
        · rintro (_ | _ | _ | _ | h | _)
          cases h
          rfl
        · rintro rfl
          exact .array .nil
    | @array space words items hspace hwords =>
      intro rest hstops value rest'
      simp only [List.length_append, List.length_cons] at hfuel
      have hparse := parseArray_iff hspace hwords
        (fun word tree hword hle => ih hword (by omega)) rest
      rw [List.cons_append, parseValue_array, map_eq_ok, ← List.cons_append]
      constructor
      · rintro ⟨⟨values, rest''⟩, h, heq⟩
        obtain ⟨hvalues, rfl⟩ := (hparse values rest'').mp h
        cases heq
        exact ⟨.array hvalues, rfl⟩
      · rintro ⟨_ | _ | _ | _ | hvalues | _, rfl⟩
        exact ⟨_, (hparse _ rest').mpr ⟨hvalues, rfl⟩, rfl⟩
    | @emptyObject space hspace =>
      refine @parsesAs_of_ok _ _ _ _ _ _ (.object []) (fun rest _ => ?_) fun value => ?_
      · rw [List.cons_append, parseValue_object, parseObject, ← List.cons_append,
          parseContainer_empty _ _ _ _ (by decide) hspace]
        rfl
      · constructor
        · rintro (_ | _ | _ | _ | _ | ⟨h, _, hperm⟩)
          cases h
          rw [hperm.eq_nil]
        · rintro rfl
          exact .object .nil List.Pairwise.nil (.refl _)
    | @object space words entries hspace hwords =>
      intro rest hstops value rest'
      simp only [List.length_append, List.length_cons] at hfuel
      have hparse := parseObject_iff hspace hwords
        (fun word tree hword hle => ih hword (by omega)) rest
      rw [List.cons_append, parseValue_object, map_eq_ok, ← List.cons_append]
      constructor
      · rintro ⟨⟨members, rest''⟩, h, heq⟩
        obtain ⟨hsorts, rfl⟩ := (hparse members rest'').mp h
        cases heq
        exact ⟨hsorts, rfl⟩
      · rintro ⟨hsorts, rfl⟩
        cases hsorts with
        | object hvalues hsorted hperm =>
          exact ⟨_, (hparse _ rest').mpr ⟨.object hvalues hsorted hperm, rfl⟩, rfl⟩

/-- Any text of a tree is parsed as the sorted tree, and as nothing if there is none. -/
theorem parse_iff_sorts {text : Bytes} {tree : WireTree D} (h : Writes (Scans lib) text tree)
    (value : Value D) : parse lib text = .ok value ↔ Sorts tree value := by
  obtain @⟨before, word, after, tree, hbefore, hword, hafter⟩ := h
  have hend : Stops after := List.append_nil after ▸ stops_space hafter stops_nil
  have hskip : skipSpace (after ++ []) = [] := skipSpace_append hafter (by decide)
  rw [List.append_nil] at hskip
  have hfuel : word.length < (before ++ (word ++ after)).length + 1 := by
    simp only [List.length_append]
    omega
  have hdocument : parseDocument lib (before ++ (word ++ after)) = .ok value ↔
      Sorts tree value := by
    rw [parseDocument, skipSpace_append hbefore ((reads_headed hword).isSpace _),
      (parseValue_parsesAs hword hfuel).bind_eq_ok hend]
    dsimp only
    rw [hskip]
    simp only [ne_eq, not_true_eq_false, if_false, pure_eq_ok, Except.ok.injEq, exists_eq_right]
  rw [← hdocument, parse]
  cases parseDocument lib (before ++ (word ++ after)) <;> simp [Except.mapError]

/-- Every document is the text of a tree. -/
theorem exists_reads {Number : Bytes → D → Prop} {word : Bytes} {value : Value D}
    (h : Derives Number word value) : ∃ tree, Reads Number word tree ∧ Sorts tree value := by
  induction hlength : word.length using Nat.strong_induction_on generalizing word value with
  | _ length ih =>
  cases h with
  | null => exact ⟨_, .null, .null⟩
  | true => exact ⟨_, .true, .boolean _⟩
  | false => exact ⟨_, .false, .boolean _⟩
  | number hnumber => exact ⟨_, .number hnumber, .number _⟩
  | string htoken => exact ⟨_, .string htoken, .string _⟩
  | emptyArray hspace => exact ⟨_, .emptyArray hspace, .array .nil⟩
  | @array space words items hspace hwords =>
    simp only [List.length_append, List.length_cons] at hlength
    obtain ⟨trees, htrees, hall⟩ := hwords.lift fun word' value' hle hword =>
      ih word'.length (by omega) hword rfl
    exact ⟨_, .array hspace htrees, .array hall⟩
  | emptyObject hspace =>
    exact ⟨_, .emptyObject hspace, .object .nil List.Pairwise.nil (.refl _)⟩
  | @object space words entries members hspace hwords hsorted hperm =>
    simp only [List.length_append, List.length_cons] at hlength
    have hmember : ∀ word' entry, word'.length ≤ words.length → Member (Derives Number) word' entry →
        ∃ entry', Member (Reads Number) word' entry' ∧ Keyed Sorts entry' entry := by
      rintro _ _ hle @⟨key, name, before, after, word', value', hkey, hbefore, hafter, hword⟩
      simp only [List.length_append, List.length_cons] at hle
      obtain ⟨tree, htree, hsorts⟩ := ih word'.length (by omega) hword rfl
      exact ⟨(name, tree), ⟨hkey, hbefore, hafter, htree⟩, ⟨hsorts⟩⟩
    obtain ⟨entries', hentries, hall⟩ := hwords.lift hmember
    exact ⟨_, .object hspace hentries, .object hall hsorted hperm⟩

/-- Texts of trees that differ in the order of members have the same value or none. -/
theorem parse_same {text text' : Bytes} {tree tree' : WireTree D}
    (h : Writes (Scans lib) text tree) (h' : Writes (Scans lib) text' tree')
    (hsame : Same tree tree') (value : Value D) :
    parse lib text = .ok value ↔ parse lib text' = .ok value := by
  rw [parse_iff_sorts h, parse_iff_sorts h', hsame.sorts_iff]

/-- Texts with one value are texts of trees that differ in the order of members only. -/
theorem exists_same {text text' : Bytes} {value : Value D} (h : parse lib text = .ok value)
    (h' : parse lib text' = .ok value) : ∃ tree tree', Writes (Scans lib) text tree ∧
      Writes (Scans lib) text' tree' ∧ Same tree tree' := by
  obtain ⟨hbefore, hword, hafter⟩ := parse_eq_ok.mp h
  obtain ⟨hbefore', hword', hafter'⟩ := parse_eq_ok.mp h'
  obtain ⟨tree, htree, hsorts⟩ := exists_reads hword
  obtain ⟨tree', htree', hsorts'⟩ := exists_reads hword'
  exact ⟨tree, tree', ⟨hbefore, htree, hafter⟩, ⟨hbefore', htree', hafter'⟩, hsorts.same hsorts'⟩

end Values

end Branchscore.Json
