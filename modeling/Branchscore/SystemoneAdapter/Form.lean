import Branchscore.SystemoneAdapter.Accepted
import Branchscore.SystemoneAdapter.Base64
import Branchscore.SystemoneAdapter.Response

/-!
# The form of a request

The bodies that the adapter accepts are the texts of well-formed requests, and each of them is
read as the request that it spells.
-/

namespace Branchscore.Systemone

open Foundation Outcome
set_option autoImplicit false

variable {D : Type}

/-! ## Objects with given fields -/

/-- The fields that are there. -/
def present (fields : List (String × Option (Json.Value D))) : List (Bytes × Json.Value D) :=
  fields.filterMap fun field => field.2.map fun value => (bytes field.1, value)

def fieldObject (fields : List (String × Option (Json.Value D))) : Json.Value D :=
  .object (SortedMap.build (present fields))

section Fields
variable {fields : List (String × Option (Json.Value D))} {members : List (Bytes × Json.Value D)}
  {key : Bytes} {value : Json.Value D}

abbrev fieldNames (fields : List (String × Option (Json.Value D))) : List Bytes :=
  fields.map fun field => bytes field.1

theorem mem_present : (key, value) ∈ present fields ↔
    ∃ field ∈ fields, bytes field.1 = key ∧ field.2 = some value := by
  simp only [present, List.mem_filterMap, Option.map_eq_some_iff, Prod.mk.injEq]
  constructor
  · rintro ⟨field, hfield, _, hvalue, hkey, rfl⟩
    exact ⟨field, hfield, hkey, hvalue⟩
  · rintro ⟨field, hfield, hkey, hvalue⟩
    exact ⟨field, hfield, value, hvalue, hkey, rfl⟩

theorem present_nodup (hnodup : (fieldNames fields).Nodup) :
    ((present fields).map Prod.fst).Nodup := by
  refine hnodup.sublist ?_
  clear hnodup
  induction fields with
  | nil => exact List.Sublist.slnil
  | cons field fields ih =>
    cases hvalue : field.2 with
    | none =>
      rw [present, List.filterMap_cons_none (by rw [hvalue]; rfl)]
      exact ih.cons _
    | some value =>
      rw [present, List.filterMap_cons_some (by rw [hvalue]; rfl)]
      exact ih.cons_cons _

theorem lookup_of_notMem (h : ∀ member ∈ members, member.1 ≠ key) :
    SortedMap.lookup key members = none := by
  cases hlookup : SortedMap.lookup key members with
  | none => rfl
  | some value =>
    have hfind : (Json.Value.object members).find key = some value := hlookup
    obtain ⟨_, heq, hmember⟩ := find_eq_some hfind
    cases heq
    exact absurd rfl (h _ hmember)

theorem lookup_present (hnodup : (fieldNames fields).Nodup)
    {field : String × Option (Json.Value D)} (hfield : field ∈ fields) :
    SortedMap.lookup (bytes field.1) (SortedMap.build (present fields)) = field.2 := by
  cases hvalue : field.2 with
  | some value =>
    exact (SortedMap.lookup_build (present_nodup hnodup)).mpr
      (mem_present.mpr ⟨field, hfield, rfl, hvalue⟩)
  | none =>
    refine lookup_of_notMem fun member hmember heq => ?_
    obtain ⟨other, hother, hkey, hpresent⟩ := mem_present.mp (SortedMap.mem_of_mem_build hmember)
    have hsame := List.inj_on_of_nodup_map hnodup hother hfield (hkey.trans heq)
    rw [hsame, hvalue] at hpresent
    cases hpresent

/-- The object has these fields and no others. -/
theorem eq_fieldObject (hnodup : (fieldNames fields).Nodup) (hsorted : SortedMap.Sorted members) :
    .object members = fieldObject fields ↔ (∀ member ∈ members, member.1 ∈ fieldNames fields) ∧
      ∀ field ∈ fields, SortedMap.lookup (bytes field.1) members = field.2 := by
  constructor
  · intro h
    cases Json.Value.object.inj h
    refine ⟨fun member hmember => ?_, fun field hfield => lookup_present hnodup hfield⟩
    obtain ⟨field, hfield, hkey, _⟩ := mem_present.mp (SortedMap.mem_of_mem_build hmember)
    rw [← hkey]
    exact List.mem_map_of_mem hfield
  · intro ⟨hknown, hlookup⟩
    refine congrArg Json.Value.object (hsorted.ext (SortedMap.build_sorted _) fun key => ?_)
    by_cases hkey : key ∈ fieldNames fields
    · obtain ⟨field, hfield, rfl⟩ := List.mem_map.mp hkey
      rw [hlookup field hfield, lookup_present hnodup hfield]
    · have hmissing : SortedMap.lookup key members = none :=
        lookup_of_notMem fun member hmember heq => hkey (by rw [← heq]; exact hknown member hmember)
      rw [hmissing]
      refine (lookup_of_notMem fun member hmember heq => hkey ?_).symm
      obtain ⟨field, hfield, hname, _⟩ := mem_present.mp (SortedMap.mem_of_mem_build hmember)
      rw [← heq, ← hname]
      exact List.mem_map_of_mem hfield

/-- Equal objects with fields of equal names have equal fields. -/
theorem fieldObject_inj {fields' : List (String × Option (Json.Value D))}
    (hnodup : (fieldNames fields).Nodup) (h : fieldObject fields = fieldObject fields')
    (hnames : fields.map Prod.fst = fields'.map Prod.fst) : fields = fields' := by
  have hnames' : fieldNames fields = fieldNames fields' := by
    have hmap := congrArg (List.map bytes) hnames
    rwa [List.map_map, List.map_map] at hmap
  have hnodup' : (fieldNames fields').Nodup := hnames' ▸ hnodup
  have hlength : fields.length = fields'.length := by
    rw [← List.length_map (f := Prod.fst), hnames, List.length_map]
  refine List.ext_getElem hlength fun i hi hi' => ?_
  have hname : fields[i].1 = fields'[i].1 := by
    rw [← List.getElem_map Prod.fst (h := by rwa [List.length_map]),
      ← List.getElem_map Prod.fst (h := by rwa [List.length_map])]
    exact List.getElem_of_eq hnames _
  have hvalue := lookup_present hnodup (List.getElem_mem hi)
  rw [Json.Value.object.inj h, hname, lookup_present hnodup' (List.getElem_mem hi')] at hvalue
  exact Prod.ext hname hvalue.symm

theorem fieldObject_regular {finite : D → Prop}
    (h : ∀ field ∈ fields, ∀ value, field.2 = some value → value.Regular finite) :
    (fieldObject fields).Regular finite := by
  refine .object (SortedMap.build_sorted _) fun member hmember => ?_
  obtain ⟨field, hfield, _, hvalue⟩ := mem_present.mp (SortedMap.mem_of_mem_build hmember)
  exact h field hfield _ hvalue

end Fields

/-! ## The checks -/

section Checks
variable {value item : Json.Value D} {key text field : Bytes} {u : Unit}

theorem rejectIf_iff {c : Prop} [Decidable c] {code : String} {message : Bytes} :
    rejectIf c code message = .ok u ↔ ¬c := by
  unfold rejectIf requestError
  split_ifs with hc
  · exact iff_of_false nofun (not_not.mpr hc)
  · exact iff_of_true rfl hc

theorem requireObject_iff : requireObject value field = .ok u ↔ ∃ members, value = .object members := by
  cases value with
  | object members => exact iff_of_true rfl ⟨members, rfl⟩
  | _ => exact iff_of_false nofun nofun

theorem rejectUnknownFields_iff {members : List (Bytes × Json.Value D)} {supported : List Bytes} :
    rejectUnknownFields (.object members) supported field = .ok u ↔
      ∀ member ∈ members, member.1 ∈ supported := by
  rw [rejectUnknownFields, Json.Value.asObject, ok_bind]
  refine forM_eq_ok.trans (forall₂_congr fun member _ => ?_)
  rw [rejectIf_iff, not_not]

theorem required_iff : required value key = .ok item ↔ value.find key = some item := by
  unfold required requestError
  cases value.find key with
  | none => exact iff_of_false nofun nofun
  | some found => exact ⟨fun h => congrArg some (Except.ok.inj h), fun h => congrArg _ (Option.some.inj h)⟩

theorem requiredString_iff :
    requiredString value key = .ok text ↔ value.find key = some (.string text) := by
  unfold requiredString
  rw [bind_eq_ok]
  constructor
  · rintro ⟨found, hfound, h⟩
    rw [required_iff.mp hfound]
    cases found with
    | string found =>
      cases h
      rfl
    | _ => cases h
  · intro h
    exact ⟨.string text, required_iff.mpr h, rfl⟩

end Checks

/-! ## The state -/

/-- The text of a state that the prompt shows. -/
inductive StateText (lib : Json.NumberLibrary D) : Json.Value D → Bytes → Prop where
  | text {text : Bytes} : text ≠ [] → StateText lib (.string text) text
  | array {items : List (Json.Value D)} {text : Bytes} :
      Json.stringify lib (.array items) = .ok text → StateText lib (.array items) text
  | object {members : List (Bytes × Json.Value D)} {text : Bytes} :
      Json.stringify lib (.object members) = .ok text → StateText lib (.object members) text

theorem serializeState_iff {lib : Json.NumberLibrary D} {state : Json.Value D} {text : Bytes} :
    serializeState lib state = .ok text ↔ StateText lib state text := by
  cases state with
  | string value =>
    unfold serializeState
    rw [bind_eq_ok]
    constructor
    · rintro ⟨_, hne, h⟩
      cases h
      exact .text (rejectIf_iff.mp hne)
    · rintro ⟨hne⟩
      exact ⟨(), rejectIf_iff.mpr hne, rfl⟩
  | array items => exact ⟨.array, fun h => by cases h; assumption⟩
  | object members => exact ⟨.object, fun h => by cases h; assumption⟩
  | _ => exact iff_of_false nofun nofun

/-! ## An image -/

inductive MediaType where
  | png
  | jpeg
  deriving DecidableEq, Repr

def MediaType.text : MediaType → Bytes
  | .png => bytes "image/png"
  | .jpeg => bytes "image/jpeg"

def MediaType.signature : MediaType → Bytes
  | .png => pngSignature
  | .jpeg => jpegSignature

structure ImageForm where
  mediaType : MediaType
  content : Bytes
  deriving DecidableEq, Repr

namespace ImageForm

def fields (image : ImageForm) : List (String × Option (Json.Value D)) :=
  [("media_type", some (.string image.mediaType.text)),
    ("data_base64", some (.string (Base64.encode image.content)))]

/-- The image is what its media type says, and its header can be read. -/
structure Readable (stb : StbImage) (image : ImageForm) : Prop where
  signature : image.mediaType.signature <+: image.content
  inspected : ∃ info, ImagePreprocessor.inspectEncoded stb image.content = .ok info

theorem Readable.ne_nil {stb : StbImage} {image : ImageForm} (h : image.Readable stb) :
    image.content ≠ [] := by
  intro hnil
  have hsignature := h.signature
  rw [hnil, List.prefix_nil] at hsignature
  cases htype : image.mediaType <;> rw [htype] at hsignature <;> cases hsignature

end ImageForm

theorem mediaType_iff {text : Bytes} :
    ¬(text ≠ bytes "image/png" ∧ text ≠ bytes "image/jpeg") ↔
      ∃ mediaType : MediaType, mediaType.text = text ∧
        (if text = bytes "image/png" then pngSignature else jpegSignature) =
          mediaType.signature := by
  have hne : bytes "image/jpeg" ≠ bytes "image/png" := by decide
  constructor
  · intro h
    by_cases hpng : text = bytes "image/png"
    · exact ⟨.png, hpng.symm, if_pos hpng⟩
    · have hjpeg : text = bytes "image/jpeg" := by
        by_contra hjpeg
        exact h ⟨hpng, hjpeg⟩
      exact ⟨.jpeg, hjpeg.symm, if_neg hpng⟩
  · rintro ⟨mediaType, rfl, _⟩ ⟨hpng, hjpeg⟩
    cases mediaType with
    | png => exact hpng rfl
    | jpeg => exact hjpeg rfl

theorem ImageForm.fieldNames_nodup (image : ImageForm) :
    (fieldNames (image.fields (D := D))).Nodup := by
  change (["media_type", "data_base64"].map bytes).Nodup
  decide

/-- An image is read exactly if it is spelled as a readable image. -/
theorem parseImage_iff {finite : D → Prop} {stb : StbImage} {value : Json.Value D}
    (hregular : value.Regular finite) {content : Bytes} :
    parseImage stb value = .ok content ↔ ∃ image : ImageForm, image.Readable stb ∧
      value = fieldObject image.fields ∧ image.content = content := by
  constructor
  · intro h
    obtain ⟨_, hobject, h⟩ := bind_eq_ok.mp h
    obtain ⟨_, hknown, h⟩ := bind_eq_ok.mp h
    obtain ⟨text, htext, h⟩ := bind_eq_ok.mp h
    obtain ⟨encoded, hencoded, h⟩ := bind_eq_ok.mp h
    obtain ⟨_, hmedia, h⟩ := bind_eq_ok.mp h
    obtain ⟨decoded, hdecoded, h⟩ := bind_eq_ok.mp h
    obtain ⟨_, hsignature, hinspected⟩ := bind_eq_ok.mp h
    clear h
    obtain ⟨members, rfl⟩ := requireObject_iff.mp hobject
    obtain ⟨mediaType, rfl, hsign⟩ := mediaType_iff.mp (rejectIf_iff.mp hmedia)
    rw [hsign] at hsignature
    obtain ⟨_, rfl⟩ := decodeBase64_eq_ok.mp hdecoded
    cases hinspect : ImagePreprocessor.inspectEncoded stb decoded with
    | error e =>
      rw [hinspect] at hinspected
      cases hinspected
    | ok info =>
      rw [hinspect] at hinspected
      cases hinspected
      refine ⟨⟨mediaType, content⟩, ⟨?_, info, hinspect⟩, ?_, rfl⟩
      · exact List.prefix_iff_eq_take.mpr (not_not.mp (rejectIf_iff.mp hsignature)).symm
      · cases hregular with
        | object hsorted _ =>
          refine (eq_fieldObject (ImageForm.fieldNames_nodup _) hsorted).mpr
            ⟨rejectUnknownFields_iff.mp hknown, ?_⟩
          simp only [ImageForm.fields, List.forall_mem_cons]
          exact ⟨requiredString_iff.mp htext, requiredString_iff.mp hencoded, List.forall_mem_nil _⟩
  · rintro ⟨image, hreadable, rfl, rfl⟩
    obtain ⟨info, hinspect⟩ := hreadable.inspected
    obtain ⟨hknown, hlookup⟩ := (eq_fieldObject image.fieldNames_nodup
      (SortedMap.build_sorted _)).mp (Eq.refl (fieldObject image.fields))
    simp only [ImageForm.fields, List.forall_mem_cons] at hlookup
    have hsignature : (if image.mediaType.text = bytes "image/png" then pngSignature
        else jpegSignature) = image.mediaType.signature := by
      cases image.mediaType <;> decide
    have hmedia := mediaType_iff.mpr ⟨image.mediaType, rfl, hsignature⟩
    refine bind_eq_ok.mpr ⟨(), requireObject_iff.mpr ⟨_, rfl⟩, ?_⟩
    refine bind_eq_ok.mpr ⟨(), rejectUnknownFields_iff.mpr hknown, ?_⟩
    refine bind_eq_ok.mpr ⟨_, requiredString_iff.mpr hlookup.1, ?_⟩
    refine bind_eq_ok.mpr ⟨_, requiredString_iff.mpr hlookup.2.1, ?_⟩
    refine bind_eq_ok.mpr ⟨(), rejectIf_iff.mpr hmedia, ?_⟩
    refine bind_eq_ok.mpr ⟨_, decodeBase64_eq_ok.mpr ⟨hreadable.ne_nil, rfl⟩, ?_⟩
    rw [hsignature]
    refine bind_eq_ok.mpr ⟨(), rejectIf_iff.mpr (not_not.mpr
      (List.prefix_iff_eq_take.mp hreadable.signature).symm), ?_⟩
    rw [hinspect]
    rfl

/-! ## A question -/

/-- The criteria are the options under their keys, with descriptions that may be missing. -/
structure QuestionForm where
  id : Bytes
  instructions : Bytes
  criteria : List (Bytes × Option Bytes)
  deriving DecidableEq, Repr

def description : Option Bytes → Json.Value D
  | none => .null
  | some text => .string text

/-- The option that is shown for a criterion. -/
def shownOption : Bytes × Option Bytes → DecisionOption
  | (key, none) => ⟨key, key⟩
  | (key, some text) => ⟨key, key ++ bytes ": " ++ text⟩

theorem parseCriterion_iff {criterion : Bytes × Json.Value D} {option : DecisionOption} :
    parseCriterion criterion = .ok option ↔ ∃ form : Bytes × Option Bytes, form.1 ≠ [] ∧
      criterion = (form.1, description form.2) ∧ option = shownOption form := by
  obtain ⟨key, value⟩ := criterion
  unfold parseCriterion
  rw [bind_eq_ok]
  constructor
  · rintro ⟨_, hkey, h⟩
    have hne := rejectIf_iff.mp hkey
    cases value with
    | null =>
      cases h
      exact ⟨(key, none), hne, rfl, rfl⟩
    | string text =>
      cases h
      exact ⟨(key, some text), hne, rfl, rfl⟩
    | _ => cases h
  · rintro ⟨⟨key', text⟩, hne, heq, rfl⟩
    cases heq
    refine ⟨(), rejectIf_iff.mpr hne, ?_⟩
    cases text <;> rfl

/-- Criteria are read one by one. -/
theorem exists_forms {α β γ : Type} {f : α → Except Exception β} {P : γ → Prop} {encode : γ → α}
    {read : γ → β} {as : List α} {bs : List β}
    (hf : ∀ a ∈ as, ∀ b, f a = .ok b ↔ ∃ c, P c ∧ a = encode c ∧ b = read c) :
    as.mapM f = .ok bs ↔ ∃ cs : List γ, (∀ c ∈ cs, P c) ∧ as = cs.map encode ∧ bs = cs.map read := by
  rw [mapM_eq_ok]
  constructor
  · intro h
    induction h with
    | nil => exact ⟨[], nofun, rfl, rfl⟩
    | @cons a b as bs hab _ ih =>
      obtain ⟨hfirst, hrest⟩ := List.forall_mem_cons.mp hf
      obtain ⟨c, hc, rfl, rfl⟩ := (hfirst b).mp hab
      obtain ⟨cs, hcs, rfl, rfl⟩ := ih hrest
      exact ⟨c :: cs, List.forall_mem_cons.mpr ⟨hc, hcs⟩, rfl, rfl⟩
  · rintro ⟨cs, hcs, rfl, rfl⟩
    rw [List.forall₂_map_left_iff, List.forall₂_map_right_iff, List.forall₂_same]
    exact fun c hc => (hf _ (List.mem_map_of_mem hc) _).mpr ⟨c, hcs c hc, rfl, rfl⟩

namespace QuestionForm

def criteriaObject (question : QuestionForm) : List (Bytes × Json.Value D) :=
  question.criteria.map fun criterion => (criterion.1, description criterion.2)

def fields (question : QuestionForm) : List (String × Option (Json.Value D)) :=
  [("type", some (.string (bytes "choice"))),
    ("instructions", some (.string question.instructions)),
    ("criteria", some (.object question.criteriaObject))]

def member (question : QuestionForm) : Bytes × Json.Value D :=
  (question.id, fieldObject question.fields)

structure Acceptable (question : QuestionForm) : Prop where
  id : question.id ≠ []
  instructions : question.instructions ≠ []
  count : minDecisionOptions ≤ question.criteria.length ∧
    question.criteria.length ≤ maxDecisionOptions
  keys : ∀ criterion ∈ question.criteria, criterion.1 ≠ []
  sorted : SortedMap.Sorted question.criteria

def read (state : Bytes) (imageBytes : Option Bytes) (question : QuestionForm) : ChoiceQuestion :=
  ⟨question.id, { state, question := question.instructions
                  options := question.criteria.map shownOption, imageBytes }⟩

theorem fieldNames_nodup (question : QuestionForm) :
    (fieldNames (question.fields (D := D))).Nodup := by
  change (["type", "instructions", "criteria"].map bytes).Nodup
  decide

end QuestionForm

/-- A question is read exactly if it is spelled as an acceptable question. -/
theorem parseQuestion_iff {finite : D → Prop} {state : Bytes} {imageBytes : Option Bytes}
    {member : Bytes × Json.Value D} (hregular : member.2.Regular finite)
    {question : ChoiceQuestion} :
    parseQuestion state imageBytes member = .ok question ↔ ∃ form : QuestionForm,
      form.Acceptable ∧ member = form.member ∧ question = form.read state imageBytes := by
  constructor
  · intro h
    obtain ⟨id, value⟩ := member
    obtain ⟨_, hid, h⟩ := bind_eq_ok.mp h
    obtain ⟨_, hobject, h⟩ := bind_eq_ok.mp h
    obtain ⟨_, hknown, h⟩ := bind_eq_ok.mp h
    obtain ⟨type, htype, h⟩ := bind_eq_ok.mp h
    obtain ⟨_, hchoice, h⟩ := bind_eq_ok.mp h
    obtain ⟨instructions, hinstructions, h⟩ := bind_eq_ok.mp h
    obtain ⟨_, hnonempty, h⟩ := bind_eq_ok.mp h
    obtain ⟨object, hcriteria, h⟩ := bind_eq_ok.mp h
    obtain ⟨_, hcriteriaObject, h⟩ := bind_eq_ok.mp h
    obtain ⟨criteria, rfl⟩ := requireObject_iff.mp hcriteriaObject
    rw [Json.Value.asObject, ok_bind] at h
    obtain ⟨_, hcount, h⟩ := bind_eq_ok.mp h
    obtain ⟨options, hoptions, h⟩ := bind_eq_ok.mp h
    cases h
    obtain ⟨members, rfl⟩ := requireObject_iff.mp hobject
    obtain rfl := not_not.mp (rejectIf_iff.mp hchoice)
    have hcount := rejectIf_iff.mp hcount
    rw [not_or, Nat.not_lt, Nat.not_lt] at hcount
    obtain ⟨forms, hkeys, rfl, rfl⟩ := (exists_forms fun _ _ _ => parseCriterion_iff).mp hoptions
    rw [List.length_map] at hcount
    have hfind := required_iff.mp hcriteria
    have hsorted : SortedMap.Sorted forms := by
      cases find_regular hregular hfind with
      | object hsorted _ =>
        have hkeys := List.pairwise_map.mp hsorted
        exact hkeys
    refine ⟨⟨id, instructions, forms⟩, ⟨rejectIf_iff.mp hid, rejectIf_iff.mp hnonempty, hcount, hkeys,
      hsorted⟩, ?_, rfl⟩
    refine congrArg (Prod.mk id) ?_
    cases hregular with
    | object hmembers _ =>
      refine (eq_fieldObject (QuestionForm.fieldNames_nodup _) hmembers).mpr
        ⟨rejectUnknownFields_iff.mp hknown, ?_⟩
      simp only [QuestionForm.fields, List.forall_mem_cons]
      exact ⟨requiredString_iff.mp htype, requiredString_iff.mp hinstructions, hfind,
        List.forall_mem_nil _⟩
  · rintro ⟨form, hform, rfl, rfl⟩
    obtain ⟨hknown, hlookup⟩ := (eq_fieldObject form.fieldNames_nodup
      (SortedMap.build_sorted _)).mp (Eq.refl (fieldObject form.fields))
    simp only [QuestionForm.fields, List.forall_mem_cons] at hlookup
    have hcount : ¬(form.criteriaObject (D := D).length < minDecisionOptions ∨
        maxDecisionOptions < form.criteriaObject (D := D).length) := by
      rw [QuestionForm.criteriaObject, List.length_map, not_or, Nat.not_lt, Nat.not_lt]
      exact hform.count
    refine bind_eq_ok.mpr ⟨(), rejectIf_iff.mpr hform.id, ?_⟩
    refine bind_eq_ok.mpr ⟨(), requireObject_iff.mpr ⟨_, rfl⟩, ?_⟩
    refine bind_eq_ok.mpr ⟨(), rejectUnknownFields_iff.mpr hknown, ?_⟩
    refine bind_eq_ok.mpr ⟨_, requiredString_iff.mpr hlookup.1, ?_⟩
    refine bind_eq_ok.mpr ⟨(), rejectIf_iff.mpr (not_not.mpr rfl), ?_⟩
    refine bind_eq_ok.mpr ⟨_, requiredString_iff.mpr hlookup.2.1, ?_⟩
    refine bind_eq_ok.mpr ⟨(), rejectIf_iff.mpr hform.instructions, ?_⟩
    refine bind_eq_ok.mpr ⟨_, required_iff.mpr hlookup.2.2.1, ?_⟩
    refine bind_eq_ok.mpr ⟨(), requireObject_iff.mpr ⟨_, rfl⟩, ?_⟩
    rw [Json.Value.asObject, ok_bind]
    refine bind_eq_ok.mpr ⟨(), rejectIf_iff.mpr hcount, ?_⟩
    refine bind_eq_ok.mpr ⟨_, (exists_forms fun _ _ _ => parseCriterion_iff).mpr
      ⟨form.criteria, hform.keys, rfl, rfl⟩, ?_⟩
    rfl

/-! ## A request -/

structure Form (D : Type) where
  state : Json.Value D
  model : Bytes
  requestId : Option Bytes
  image : Option ImageForm
  questions : List QuestionForm

namespace Form

def questionsObject (form : Form D) : List (Bytes × Json.Value D) :=
  form.questions.map QuestionForm.member

def fields (form : Form D) : List (String × Option (Json.Value D)) :=
  [("state", some form.state), ("model", some (.string form.model)),
    ("questions", some (.object form.questionsObject)),
    ("request_id", form.requestId.map .string),
    ("image", form.image.map fun image => fieldObject image.fields)]

def envelope (form : Form D) : Json.Value D := fieldObject form.fields

/-- The request that a server of this model may decide, with this text for its state. -/
structure Acceptable (lib : Json.NumberLibrary D) (stb : StbImage) (advertisedModelId : Bytes)
    (form : Form D) (text : Bytes) : Prop where
  model : form.model = advertisedModelId
  advertised : advertisedModelId ≠ []
  state : StateText lib form.state text
  image : ∀ image, form.image = some image → image.Readable stb
  questions : ∀ question ∈ form.questions, question.Acceptable
  count : form.questions ≠ [] ∧ form.questions.length ≤ maxQuestionsPerRequest
  sorted : (form.questions.map QuestionForm.id).Pairwise (· < ·)

def request (form : Form D) (text : Bytes) : Request where
  modelId := form.model
  requestId := form.requestId
  imageBytes := form.image.map ImageForm.content
  questions := form.questions.map (QuestionForm.read text (form.image.map ImageForm.content))

theorem fieldNames_nodup (form : Form D) : (fieldNames form.fields).Nodup := by
  change (["state", "model", "questions", "request_id", "image"].map bytes).Nodup
  decide

end Form

theorem parseRequestId_iff {envelope : Json.Value D} {requestId : Option Bytes} :
    parseRequestId envelope = .ok requestId ↔
      envelope.find (bytes "request_id") = requestId.map .string := by
  unfold parseRequestId requestError
  cases envelope.find (bytes "request_id") with
  | none => cases requestId <;> simp
  | some value => cases value <;> cases requestId <;> simp

theorem parseRequestImage_iff {finite : D → Prop} {stb : StbImage} {envelope : Json.Value D}
    (hregular : envelope.Regular finite) {imageBytes : Option Bytes} :
    parseRequestImage stb envelope = .ok imageBytes ↔ ∃ image : Option ImageForm,
      (∀ form, image = some form → form.Readable stb) ∧
      envelope.find (bytes "image") = image.map (fun image => fieldObject image.fields) ∧
      imageBytes = image.map ImageForm.content := by
  unfold parseRequestImage
  cases hfind : envelope.find (bytes "image") with
  | none =>
    constructor
    · intro h
      cases h
      exact ⟨none, nofun, rfl, rfl⟩
    · rintro ⟨image, _, himage, rfl⟩
      cases image with
      | none => rfl
      | some form => cases himage
  | some value =>
    have hvalue := find_regular hregular hfind
    dsimp only
    rw [map_eq_ok]
    constructor
    · rintro ⟨content, hcontent, rfl⟩
      obtain ⟨image, hreadable, rfl, rfl⟩ := (parseImage_iff hvalue).mp hcontent
      refine ⟨some image, fun form hform => ?_, rfl, rfl⟩
      rw [← Option.some.inj hform]
      exact hreadable
    · rintro ⟨image, hreadable, himage, rfl⟩
      cases image with
      | none => cases himage
      | some form =>
        refine ⟨form.content, (parseImage_iff hvalue).mpr ⟨form, hreadable form rfl, ?_, rfl⟩, rfl⟩
        exact Option.some.inj himage

/-- An envelope is accepted exactly if it is spelled as an acceptable request. -/
theorem parseRequest_iff {finite : D → Prop} {lib : Json.NumberLibrary D} {stb : StbImage}
    {envelope : Json.Value D} (hregular : envelope.Regular finite) {advertisedModelId : Bytes}
    {request : Request} :
    parseRequest lib stb envelope advertisedModelId = .ok request ↔ ∃ (form : Form D) (text : Bytes),
      form.Acceptable lib stb advertisedModelId text ∧ envelope = form.envelope ∧
      request = form.request text := by
  constructor
  · intro h
    obtain ⟨_, hobject, h⟩ := bind_eq_ok.mp h
    obtain ⟨_, hknown, h⟩ := bind_eq_ok.mp h
    by_cases hadvertised : advertisedModelId = []
    · rw [if_pos hadvertised] at h
      cases h
    rw [if_neg hadvertised] at h
    obtain ⟨state, hstate, h⟩ := bind_eq_ok.mp h
    obtain ⟨text, htext, h⟩ := bind_eq_ok.mp h
    obtain ⟨model, hmodel, h⟩ := bind_eq_ok.mp h
    obtain ⟨_, hserved, h⟩ := bind_eq_ok.mp h
    obtain ⟨requestId, hid, h⟩ := bind_eq_ok.mp h
    obtain ⟨imageBytes, himage, h⟩ := bind_eq_ok.mp h
    obtain ⟨object, hquestions, h⟩ := bind_eq_ok.mp h
    obtain ⟨_, hquestionsObject, h⟩ := bind_eq_ok.mp h
    obtain ⟨entries, rfl⟩ := requireObject_iff.mp hquestionsObject
    rw [Json.Value.asObject, ok_bind] at h
    obtain ⟨_, hnonempty, h⟩ := bind_eq_ok.mp h
    obtain ⟨_, hcount, h⟩ := bind_eq_ok.mp h
    obtain ⟨questions, hread, h⟩ := bind_eq_ok.mp h
    cases h
    obtain ⟨members, rfl⟩ := requireObject_iff.mp hobject
    obtain ⟨image, hreadable, hfindImage, rfl⟩ := (parseRequestImage_iff hregular).mp himage
    have hfind := required_iff.mp hquestions
    cases find_regular hregular hfind with
    | object hsorted hall =>
      obtain ⟨forms, hforms, rfl, rfl⟩ :=
        (exists_forms fun member hmember _ => parseQuestion_iff (hall member hmember)).mp hread
      have hnonempty := rejectIf_iff.mp hnonempty
      have hcount := rejectIf_iff.mp hcount
      rw [List.map_eq_nil_iff] at hnonempty
      rw [List.length_map, Nat.not_lt] at hcount
      have hids := hsorted.keys
      rw [List.map_map] at hids
      refine ⟨⟨state, model, requestId, image, forms⟩, text, ⟨not_not.mp (rejectIf_iff.mp hserved),
        hadvertised, serializeState_iff.mp htext, hreadable, hforms, ⟨hnonempty, hcount⟩, hids⟩, ?_,
        rfl⟩
      cases hregular with
      | object hmembers _ =>
        refine (eq_fieldObject (Form.fieldNames_nodup _) hmembers).mpr
          ⟨rejectUnknownFields_iff.mp hknown, ?_⟩
        simp only [Form.fields, List.forall_mem_cons]
        exact ⟨required_iff.mp hstate, requiredString_iff.mp hmodel, hfind,
          parseRequestId_iff.mp hid, hfindImage, List.forall_mem_nil _⟩
  · rintro ⟨form, text, hform, rfl, rfl⟩
    obtain ⟨hknown, hlookup⟩ := (eq_fieldObject form.fieldNames_nodup
      (SortedMap.build_sorted _)).mp (Eq.refl (fieldObject form.fields))
    simp only [Form.fields, List.forall_mem_cons] at hlookup
    obtain ⟨hstate, hmodel, hquestions, hid, himage, _⟩ := hlookup
    have hnonempty : form.questionsObject ≠ [] := fun hnil =>
      hform.count.1 (List.map_eq_nil_iff.mp hnil)
    have hcount : ¬maxQuestionsPerRequest < form.questionsObject.length := by
      rw [Form.questionsObject, List.length_map, Nat.not_lt]
      exact hform.count.2
    refine bind_eq_ok.mpr ⟨(), requireObject_iff.mpr ⟨_, rfl⟩, ?_⟩
    refine bind_eq_ok.mpr ⟨(), rejectUnknownFields_iff.mpr hknown, ?_⟩
    rw [if_neg hform.advertised]
    refine bind_eq_ok.mpr ⟨_, required_iff.mpr hstate, ?_⟩
    refine bind_eq_ok.mpr ⟨_, serializeState_iff.mpr hform.state, ?_⟩
    refine bind_eq_ok.mpr ⟨_, requiredString_iff.mpr hmodel, ?_⟩
    refine bind_eq_ok.mpr ⟨(), rejectIf_iff.mpr (not_not.mpr hform.model), ?_⟩
    refine bind_eq_ok.mpr ⟨_, parseRequestId_iff.mpr hid, ?_⟩
    refine bind_eq_ok.mpr ⟨_, (parseRequestImage_iff hregular).mpr
      ⟨form.image, hform.image, himage, rfl⟩, ?_⟩
    refine bind_eq_ok.mpr ⟨_, required_iff.mpr hquestions, ?_⟩
    refine bind_eq_ok.mpr ⟨(), requireObject_iff.mpr ⟨_, rfl⟩, ?_⟩
    rw [Json.Value.asObject, ok_bind]
    refine bind_eq_ok.mpr ⟨(), rejectIf_iff.mpr hnonempty, ?_⟩
    refine bind_eq_ok.mpr ⟨(), rejectIf_iff.mpr hcount, ?_⟩
    cases find_regular hregular hquestions with
    | object _ hall =>
      refine bind_eq_ok.mpr ⟨_, (exists_forms fun member hmember _ =>
        parseQuestion_iff (hall member hmember)).mpr ⟨form.questions, hform.questions, rfl, rfl⟩, ?_⟩
      rfl

/-! ## Nothing is spelled twice -/

theorem description_injective : Function.Injective (description (D := D)) := by
  intro text text' h
  cases text <;> cases text' <;> cases h <;> rfl

theorem QuestionForm.member_injective : Function.Injective (QuestionForm.member (D := D)) := by
  rintro ⟨id, instructions, criteria⟩ ⟨id', instructions', criteria'⟩ h
  obtain ⟨hid, hobject⟩ := Prod.mk.inj h
  have hfields := fieldObject_inj (QuestionForm.fieldNames_nodup _) hobject rfl
  simp only [QuestionForm.fields, List.cons.injEq, Prod.mk.injEq, Option.some.injEq, true_and,
    and_true, Json.Value.string.injEq, Json.Value.object.injEq] at hfields
  have hentry : Function.Injective fun criterion : Bytes × Option Bytes =>
      (criterion.1, description (D := D) criterion.2) := by
    intro criterion criterion' h
    obtain ⟨hkey, htext⟩ := Prod.mk.inj h
    exact Prod.ext hkey (description_injective htext)
  rw [QuestionForm.mk.injEq]
  exact ⟨hid, hfields.1, List.map_injective_iff.mpr hentry hfields.2⟩

theorem MediaType.text_injective : Function.Injective MediaType.text := by
  intro mediaType mediaType' h
  cases mediaType <;> cases mediaType'
  · rfl
  · exact absurd h (by decide)
  · exact absurd h (by decide)
  · rfl

theorem ImageForm.ext_fields {stb : StbImage} {image image' : ImageForm}
    (himage : image.Readable stb) (himage' : image'.Readable stb)
    (h : fieldObject (image.fields (D := D)) = fieldObject image'.fields) : image = image' := by
  obtain ⟨mediaType, content⟩ := image
  obtain ⟨mediaType', content'⟩ := image'
  have hfields := fieldObject_inj (ImageForm.fieldNames_nodup _) h rfl
  simp only [ImageForm.fields, List.cons.injEq, Prod.mk.injEq, Option.some.injEq, true_and,
    and_true, Json.Value.string.injEq] at hfields
  have hdecoded := decodeBase64_eq_ok.mpr ⟨himage.ne_nil, rfl⟩
  have hdecoded' := decodeBase64_eq_ok.mpr ⟨himage'.ne_nil, rfl⟩
  rw [hfields.2] at hdecoded
  rw [ImageForm.mk.injEq]
  exact ⟨MediaType.text_injective hfields.1, Except.ok.inj (hdecoded.symm.trans hdecoded')⟩

/-- An envelope spells one acceptable request. -/
theorem Form.ext_envelope {lib : Json.NumberLibrary D} {stb : StbImage} {advertisedModelId : Bytes}
    {form form' : Form D} {text text' : Bytes}
    (hform : form.Acceptable lib stb advertisedModelId text)
    (hform' : form'.Acceptable lib stb advertisedModelId text')
    (h : form.envelope = form'.envelope) : form = form' := by
  have hfields := fieldObject_inj form.fieldNames_nodup h rfl
  simp only [Form.fields, List.cons.injEq, Prod.mk.injEq, Option.some.injEq, true_and, and_true,
    Json.Value.string.injEq, Json.Value.object.injEq] at hfields
  obtain ⟨hstate, hmodel, hquestions, hid, himage⟩ := hfields
  obtain ⟨state, model, requestId, image, questions⟩ := form
  obtain ⟨state', model', requestId', image', questions'⟩ := form'
  rw [Form.mk.injEq]
  refine ⟨hstate, hmodel, Option.map_injective (fun _ _ => Json.Value.string.inj) hid, ?_,
    List.map_injective_iff.mpr QuestionForm.member_injective hquestions⟩
  cases image with
  | none =>
    cases image' with
    | none => rfl
    | some image' => cases himage
  | some image =>
    cases image' with
    | none => cases himage
    | some image' =>
      rw [ImageForm.ext_fields (hform.image image rfl) (hform'.image image' rfl)
        (Option.some.inj himage)]

/-! ## Bodies -/

theorem Form.envelope_regular {finite : D → Prop} {form : Form D} (hstate : form.state.Regular finite)
    (hquestions : ∀ question ∈ form.questions, question.Acceptable)
    (hsorted : (form.questions.map QuestionForm.id).Pairwise (· < ·)) :
    form.envelope.Regular finite := by
  have hcriteria : ∀ question ∈ form.questions,
      (Json.Value.object (question.criteriaObject (D := D))).Regular finite := by
    intro question hquestion
    refine .object (List.pairwise_map.mpr (hquestions question hquestion).sorted) ?_
    intro member hmember
    obtain ⟨⟨key, text⟩, _, rfl⟩ := List.mem_map.mp hmember
    cases text with
    | none => exact .null
    | some text => exact .string text
  have hmembers : (Json.Value.object (form.questionsObject (D := D))).Regular finite := by
    refine .object (List.pairwise_map.mpr (List.pairwise_map.mp hsorted)) ?_
    intro member hmember
    obtain ⟨question, hquestion, rfl⟩ := List.mem_map.mp hmember
    apply fieldObject_regular
    simp only [QuestionForm.fields, List.forall_mem_cons, Option.some.injEq, forall_eq']
    exact ⟨.string _, .string _, hcriteria question hquestion, List.forall_mem_nil _⟩
  have himage : ∀ value, form.image.map (fun image => fieldObject image.fields) = some value →
      value.Regular finite := by
    intro value hvalue
    obtain ⟨image, _, rfl⟩ := Option.map_eq_some_iff.mp hvalue
    apply fieldObject_regular
    simp only [ImageForm.fields, List.forall_mem_cons, Option.some.injEq, forall_eq']
    exact ⟨.string _, .string _, List.forall_mem_nil _⟩
  have hid : ∀ value, form.requestId.map Json.Value.string = some value → value.Regular finite := by
    intro value hvalue
    obtain ⟨requestId, _, rfl⟩ := Option.map_eq_some_iff.mp hvalue
    exact .string requestId
  apply fieldObject_regular
  simp only [Form.fields, List.forall_mem_cons, Option.some.injEq, forall_eq']
  exact ⟨hstate, .string _, hmembers, hid, himage, List.forall_mem_nil _⟩

/-- The bodies that are accepted are the texts of the acceptable forms, each is read as the one
form that it spells, and every acceptable form has a text. -/
theorem body_iff_form {lib : Json.NumberLibrary D} (hprint : Json.PrintsNumbers lib) (stb : StbImage)
    (advertisedModelId : Bytes) :
    (∀ body request, (Json.parse lib body >>= fun envelope =>
        parseRequest lib stb envelope advertisedModelId) = .ok request ↔
      ∃ (form : Form D) (text : Bytes), form.Acceptable lib stb advertisedModelId text ∧
        Json.parse lib body = .ok form.envelope ∧ request = form.request text) ∧
    (∀ (form form' : Form D) text text', form.Acceptable lib stb advertisedModelId text →
      form'.Acceptable lib stb advertisedModelId text' → form.envelope = form'.envelope →
      form = form') ∧
    ∀ (form : Form D) text, form.Acceptable lib stb advertisedModelId text →
      form.state.Regular (fun d => lib.isfinite d = true) →
      ∃ body, Json.stringify lib form.envelope = .ok body ∧
        Json.parse lib body = .ok form.envelope := by
  refine ⟨fun body request => ?_, fun _ _ _ _ => Form.ext_envelope, fun form text hform hstate => ?_⟩
  · constructor
    · intro h
      obtain ⟨envelope, hparse, hrequest⟩ := bind_eq_ok.mp h
      obtain ⟨form, text, hform, rfl, rfl⟩ :=
        (parseRequest_iff (Json.parse_regular hparse)).mp hrequest
      exact ⟨form, text, hform, hparse, rfl⟩
    · rintro ⟨form, text, hform, hparse, rfl⟩
      exact bind_eq_ok.mpr ⟨_, hparse, (parseRequest_iff (Json.parse_regular hparse)).mpr
        ⟨form, text, hform, rfl, rfl⟩⟩
  · exact Json.stringify_reads_back (fun d hd => ⟨(hprint d hd).1, hd, (hprint d hd).2⟩)
      (Form.envelope_regular hstate hform.questions hform.sorted)

def sampleForm : Form (Fin 10) where
  state := .array [.number 7]
  model := bytes "m"
  requestId := none
  image := none
  questions := [⟨bytes "q", bytes "i", [(bytes "no", none), (bytes "yes", some (bytes "y"))]⟩]

theorem sampleForm_acceptable :
    sampleForm.Acceptable Json.digitNumbers noImages (bytes "m") (bytes "[7]") := by
  have hkeys : [bytes "no", bytes "yes"].Pairwise (· < ·) := by decide
  refine ⟨rfl, by decide, .array rfl, nofun, ?_, ⟨List.cons_ne_nil _ _, by decide⟩,
    List.pairwise_singleton _ _⟩
  exact List.forall_mem_singleton.mpr
    ⟨by decide, by decide, by decide, by decide, List.pairwise_map.mp hkeys⟩

theorem body_iff_form_sample :
    (∃ (form : Form (Fin 10)) (text : Bytes),
      form.Acceptable Json.digitNumbers noImages (bytes "m") text ∧
      Json.parse Json.digitNumbers sampleBody = .ok form.envelope) ∧
    ∃ body, Json.stringify Json.digitNumbers sampleForm.envelope = .ok body ∧
      Json.parse Json.digitNumbers body = .ok sampleForm.envelope := by
  have haccepted : (Json.parse Json.digitNumbers sampleBody >>= fun envelope =>
      parseRequest Json.digitNumbers noImages envelope (bytes "m")).isOk = true := by
    decide +kernel
  obtain ⟨request, hrequest⟩ := exists_of_isOk haccepted
  obtain ⟨hread, _, hspelled⟩ := body_iff_form Json.digitNumbers_prints noImages (bytes "m")
  obtain ⟨form, text, hform, hparse, _⟩ := (hread sampleBody request).mp hrequest
  refine ⟨⟨form, text, hform, hparse⟩, hspelled sampleForm _ sampleForm_acceptable ?_⟩
  exact .array (List.forall_mem_singleton.mpr (.number rfl))

end Branchscore.Systemone
