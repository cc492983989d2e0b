import Branchscore.Server.Steps

/-!
# The messages of the parser

The parser reports a request line, a header section, its end, a body and, behind a chunked
body, trailer fields through the callbacks of the header section. What the context stores is
a function of the fields received so far.
-/

namespace Branchscore.Server

open Foundation Foundation.Fragmentation Outcome
set_option autoImplicit false

/-- A header field, with its name and its value in the pieces they arrive in. -/
structure HeaderField where
  name : List Bytes
  value : List Bytes
  deriving DecidableEq, Repr

namespace HeaderField

def events (field : HeaderField) : List ParserEvent :=
  field.name.map (.span .headerField) ++ .signal .headerFieldComplete ::
    (field.value.map (.span .headerValue) ++ [.signal .headerValueComplete])

/-- Names are compared without regard to case. -/
def key (field : HeaderField) : Bytes := lowercase field.name.flatten

def text (field : HeaderField) : Bytes := trim field.value.flatten

end HeaderField

/-- What the parser reports of one request. -/
structure Message where
  method : List Bytes
  url : List Bytes
  version : List Bytes
  headers : List HeaderField
  contentLength : Nat
  body : List Bytes
  trailers : List HeaderField
  deriving DecidableEq, Repr

namespace Message

def requestLine (m : Message) : List ParserEvent :=
  m.method.map (.span .method) ++ (m.url.map (.span .url) ++ m.version.map (.span .version))

/-- The events up to the end of the header section. -/
def head (m : Message) : List ParserEvent :=
  m.requestLine ++ (m.headers.flatMap HeaderField.events ++
    [.signal (.headersComplete m.contentLength)])

def rest (m : Message) : List ParserEvent :=
  m.body.map (.span .body) ++ (m.trailers.flatMap HeaderField.events ++ [.signal .messageComplete])

def events (m : Message) : List ParserEvent := m.head ++ m.rest

end Message

/-! ## What is stored -/

def named (key : Bytes) (fields : List HeaderField) : List HeaderField :=
  fields.filter fun field => field.key = key

/-- The value of the last field of a name. -/
def lastText (key : Bytes) (fields : List HeaderField) : Option Bytes :=
  (named key fields).getLast?.map HeaderField.text

/-- What the context has stored of the fields. -/
structure Stores (fields : List HeaderField) (context : ParseContext) : Prop where
  contentTypeCount : context.contentTypeCount = (named (bytes "content-type") fields).length
  authorizationCount : context.authorizationCount = (named (bytes "authorization") fields).length
  contentType : context.request.contentType = (lastText (bytes "content-type") fields).getD []
  authorization : context.request.authorization =
    (lastText (bytes "authorization") fields).getD []
  contentEncoding : context.request.contentEncoding =
    lowercase ((lastText (bytes "content-encoding") fields).getD [])
  expect : context.request.expect = lowercase ((lastText (bytes "expect") fields).getD [])

theorem named_append (key : Bytes) (fields fields' : List HeaderField) :
    named key (fields ++ fields') = named key fields ++ named key fields' :=
  List.filter_append _ _

theorem named_concat_of_eq {key : Bytes} {field : HeaderField} (h : field.key = key)
    (fields : List HeaderField) : named key (fields ++ [field]) = named key fields ++ [field] := by
  rw [named_append]
  simp [named, h]

theorem named_concat_of_ne {key : Bytes} {field : HeaderField} (h : field.key ≠ key)
    (fields : List HeaderField) : named key (fields ++ [field]) = named key fields := by
  rw [named_append]
  simp [named, h]

theorem lastText_concat_of_eq {key : Bytes} {field : HeaderField} (h : field.key = key)
    (fields : List HeaderField) : lastText key (fields ++ [field]) = some field.text := by
  rw [lastText, named_concat_of_eq h, List.getLast?_append]
  rfl

theorem lastText_concat_of_ne {key : Bytes} {field : HeaderField} (h : field.key ≠ key)
    (fields : List HeaderField) : lastText key (fields ++ [field]) = lastText key fields := by
  rw [lastText, named_concat_of_ne h, lastText]

/-! ## Steps -/

section Steps
variable {context context' : ParseContext} {fields : List HeaderField}

/-- Accepted pieces of a span leave the context of the whole span. -/
theorem take_pieces (hincomplete : context.complete = false) {kind : Span} {pieces : List Bytes}
    (h : (pieces.map (Event.span kind)).foldlM step context = .ok context') :
    context' = context.take kind pieces.flatten := by
  induction pieces generalizing context with
  | nil =>
    cases h
    rw [List.flatten_nil, take_nil]
  | cons piece pieces ih =>
    rw [List.map_cons, List.foldlM_cons] at h
    obtain ⟨context₁, hstep, hrest⟩ := bind_eq_ok.mp h
    obtain ⟨rfl, _, _⟩ := take_of_step hincomplete hstep
    rw [ih ((take_complete _ _ _).trans hincomplete) hrest, ← take_append, List.flatten_cons]

theorem foldlM_append_eq_ok {events events' : List ParserEvent} :
    (events ++ events').foldlM step context = .ok context' ↔
      ∃ between, events.foldlM step context = .ok between ∧
        events'.foldlM step between = .ok context' := by
  rw [List.foldlM_append, bind_eq_ok]

theorem field_eq_ok (hincomplete : context.complete = false) {field : HeaderField}
    (h : field.events.foldlM step context = .ok context') :
    context' = ({ (context.take .headerField field.name.flatten) with
      headerName := lowercase (context.headerName ++ field.name.flatten) }.take
        .headerValue field.value.flatten).closeField := by
  obtain ⟨named, hname, h⟩ := foldlM_append_eq_ok.mp h
  rw [List.foldlM_cons, step_headerFieldComplete, ok_bind] at h
  obtain ⟨valued, hvalue, h⟩ := foldlM_append_eq_ok.mp h
  have hnamed := take_pieces hincomplete hname
  subst hnamed
  have hvalued := take_pieces (by exact hincomplete) hvalue
  subst hvalued
  rw [List.foldlM_cons, step_headerValueComplete (by exact hincomplete)] at h
  split_ifs at h
  · cases h
  · cases h
    rfl

/-- What no callback behind the request line changes. -/
structure Keeps (context context' : ParseContext) : Prop where
  complete : context'.complete = context.complete
  requireBearer : context'.requireBearer = context.requireBearer
  bearerToken : context'.bearerToken = context.bearerToken
  url : context'.request.url = context.request.url

theorem Keeps.trans {context'' : ParseContext} (h : Keeps context context')
    (h' : Keeps context' context'') : Keeps context context'' where
  complete := h'.complete.trans h.complete
  requireBearer := h'.requireBearer.trans h.requireBearer
  bearerToken := h'.bearerToken.trans h.bearerToken
  url := h'.url.trans h.url

theorem storeHeader_keeps (name value : Bytes) : Keeps context (storeHeader context name value) := by
  unfold storeHeader
  split_ifs <;> exact ⟨rfl, rfl, rfl, rfl⟩

theorem closeField_keeps : Keeps context context.closeField := by
  obtain ⟨hcomplete, hrequire, htoken, hurl⟩ := @storeHeader_keeps { context with
    headerCount := context.headerCount + 1
    headerBytes := context.headerBytes + 4 } context.headerName (trim context.headerValue)
  exact ⟨hcomplete, hrequire, htoken, hurl⟩

theorem closeField_stores (h : Stores fields context) {field : HeaderField}
    (hkey : context.headerName = field.key) (htext : trim context.headerValue = field.text) :
    Stores (fields ++ [field]) context.closeField := by
  obtain ⟨hct, ha, hcontent, hauth, hencoding, hexpect⟩ := h
  have hnamed {key : Bytes} (hne : field.key ≠ key) := named_concat_of_ne hne fields
  have hlast {key : Bytes} (hne : field.key ≠ key) := lastText_concat_of_ne hne fields
  unfold ParseContext.closeField storeHeader
  dsimp only
  rw [hkey, htext]
  split_ifs with h₁ h₂ h₃ h₄
  · have h₂ : field.key ≠ bytes "authorization" := h₁ ▸ by decide
    have h₃ : field.key ≠ bytes "content-encoding" := h₁ ▸ by decide
    have h₄ : field.key ≠ bytes "expect" := h₁ ▸ by decide
    constructor <;> dsimp only
    · rw [named_concat_of_eq h₁, List.length_append, hct, List.length_singleton]
    · rw [hnamed h₂, ha]
    · rw [lastText_concat_of_eq h₁, Option.getD_some]
    · rw [hlast h₂, hauth]
    · rw [hlast h₃, hencoding]
    · rw [hlast h₄, hexpect]
  · have h₃ : field.key ≠ bytes "content-encoding" := h₂ ▸ by decide
    have h₄ : field.key ≠ bytes "expect" := h₂ ▸ by decide
    constructor <;> dsimp only
    · rw [hnamed h₁, hct]
    · rw [named_concat_of_eq h₂, List.length_append, ha, List.length_singleton]
    · rw [hlast h₁, hcontent]
    · rw [lastText_concat_of_eq h₂, Option.getD_some]
    · rw [hlast h₃, hencoding]
    · rw [hlast h₄, hexpect]
  · have h₄ : field.key ≠ bytes "expect" := h₃ ▸ by decide
    constructor <;> dsimp only
    · rw [hnamed h₁, hct]
    · rw [hnamed h₂, ha]
    · rw [hlast h₁, hcontent]
    · rw [hlast h₂, hauth]
    · rw [lastText_concat_of_eq h₃, Option.getD_some]
    · rw [hlast h₄, hexpect]
  · constructor <;> dsimp only
    · rw [hnamed h₁, hct]
    · rw [hnamed h₂, ha]
    · rw [hlast h₁, hcontent]
    · rw [hlast h₂, hauth]
    · rw [hlast h₃, hencoding]
    · rw [lastText_concat_of_eq h₄, Option.getD_some]
  · constructor <;> dsimp only
    · rw [hnamed h₁, hct]
    · rw [hnamed h₂, ha]
    · rw [hlast h₁, hcontent]
    · rw [hlast h₂, hauth]
    · rw [hlast h₃, hencoding]
    · rw [hlast h₄, hexpect]

theorem Stores.take (h : Stores fields context) (kind : Span) (data : Bytes) :
    Stores fields (context.take kind data) := by
  obtain ⟨hct, ha, hcontent, hauth, hencoding, hexpect⟩ := h
  cases kind <;> exact ⟨hct, ha, hcontent, hauth, hencoding, hexpect⟩

theorem take_keeps {kind : Span} (hkind : kind ≠ .url) (data : Bytes) :
    Keeps context (context.take kind data) := by
  cases kind with
  | url => exact absurd rfl hkind
  | _ => exact ⟨rfl, rfl, rfl, rfl⟩

/-- The context between two fields, and what it has stored. -/
structure Between (fields : List HeaderField) (context : ParseContext) : Prop where
  incomplete : context.complete = false
  headerName : context.headerName = []
  headerValue : context.headerValue = []
  stores : Stores fields context

theorem field_between (h : Between fields context) {field : HeaderField}
    (hrun : field.events.foldlM step context = .ok context') :
    Between (fields ++ [field]) context' ∧ Keeps context context' := by
  obtain ⟨hincomplete, hname, hvalue, hstores⟩ := h
  have hcontext := field_eq_ok hincomplete hrun
  rw [hname, List.nil_append] at hcontext
  generalize hnamed : ({ (context.take .headerField field.name.flatten) with
    headerName := lowercase field.name.flatten } : ParseContext) = named at hcontext
  have hkeeps : Keeps context named := by
    subst hnamed
    exact ⟨rfl, rfl, rfl, rfl⟩
  have hstores' : Stores fields named := by
    obtain ⟨hct, ha, hcontent, hauth, hencoding, hexpect⟩ := hstores
    subst hnamed
    exact ⟨hct, ha, hcontent, hauth, hencoding, hexpect⟩
  have hvalued : (named.take .headerValue field.value.flatten).headerValue =
      field.value.flatten := by
    subst hnamed
    exact congrArg (· ++ field.value.flatten) hvalue
  have hnameOf : (named.take .headerValue field.value.flatten).headerName = field.key := by
    subst hnamed
    rfl
  have hall := (hkeeps.trans (@take_keeps _ .headerValue nofun field.value.flatten)).trans
    closeField_keeps
  subst hcontext
  refine ⟨⟨hall.complete.trans hincomplete, rfl, rfl, ?_⟩, hall⟩
  exact closeField_stores (hstores'.take _ _) hnameOf (congrArg trim hvalued)

theorem fields_between (h : Between fields context) {received : List HeaderField}
    (hrun : (received.flatMap HeaderField.events).foldlM step context = .ok context') :
    Between (fields ++ received) context' ∧ Keeps context context' := by
  induction received generalizing fields context with
  | nil =>
    cases hrun
    rw [List.append_nil]
    exact ⟨h, rfl, rfl, rfl, rfl⟩
  | cons field received ih =>
    rw [List.flatMap_cons] at hrun
    obtain ⟨between, hfield, hrest⟩ := foldlM_append_eq_ok.mp hrun
    obtain ⟨hbetween, hkeeps⟩ := field_between h hfield
    obtain ⟨hfinal, hkeeps'⟩ := ih hbetween hrest
    rw [List.append_assoc, List.singleton_append] at hfinal
    exact ⟨hfinal, hkeeps.trans hkeeps'⟩

end Steps

/-! ## A completed message -/

section Completed
variable {requireBearer : Bool} {bearerToken : Bytes} {m : Message} {context : ParseContext}
  {request : HttpRequest}

/-- What has been checked at the end of the header section. -/
structure Checked (requireBearer : Bool) (bearerToken : Bytes) (m : Message)
    (context : ParseContext) : Prop where
  between : Between m.headers context
  passes : Passes context m.contentLength
  requireBearer : context.requireBearer = requireBearer
  bearerToken : context.bearerToken = some bearerToken
  url : context.request.url = m.url.flatten

theorem head_eq_ok
    (h : m.head.foldlM step (initialContext requireBearer bearerToken) = .ok context) :
    Checked requireBearer bearerToken m context := by
  obtain ⟨line, hline, hsection⟩ := foldlM_append_eq_ok.mp h
  obtain ⟨checked, hheaders, hend⟩ := foldlM_append_eq_ok.mp hsection
  obtain ⟨methodRead, hmethod, htarget⟩ := foldlM_append_eq_ok.mp hline
  obtain ⟨urlRead, hurl, hversion⟩ := foldlM_append_eq_ok.mp htarget
  have hmethod := take_pieces rfl hmethod
  subst hmethod
  have hurl := take_pieces rfl hurl
  subst hurl
  have hversion := take_pieces rfl hversion
  subst hversion
  have hstart : Between [] ((((initialContext requireBearer bearerToken).take .method
      m.method.flatten).take .url m.url.flatten).take .version m.version.flatten) :=
    ⟨rfl, rfl, rfl, ⟨rfl, rfl, rfl, rfl, rfl, rfl⟩⟩
  obtain ⟨hbetween, hkeeps⟩ := fields_between hstart hheaders
  rw [List.foldlM_cons] at hend
  obtain ⟨_, hstep, hend⟩ := bind_eq_ok.mp hend
  cases hend
  obtain ⟨rfl, hpasses⟩ := step_headersComplete.mp hstep
  exact ⟨hbetween, hpasses, hkeeps.requireBearer, hkeeps.bearerToken, hkeeps.url⟩

/-- The events in front of the end of the message. -/
def Message.before (m : Message) : List ParserEvent :=
  m.head ++ (m.body.map (.span .body) ++ m.trailers.flatMap HeaderField.events)

theorem events_eq_before : m.events = m.before ++ [.signal .messageComplete] := by
  simp only [Message.events, Message.rest, Message.before, List.append_assoc]

theorem messageComplete_notMem_field (field : HeaderField) :
    Event.signal Signal.messageComplete ∉ field.events := by
  simp [HeaderField.events]

theorem messageComplete_notMem_before : Event.signal Signal.messageComplete ∉ m.before := by
  simp [Message.before, Message.head, Message.requestLine, messageComplete_notMem_field]

/-- A request that is handed on has passed the checks, and it holds what has been stored of
the header section and of the trailer. -/
theorem events_completed (h : m.events.foldlM step (initialContext requireBearer bearerToken) =
    .error (.completed request)) :
    ∃ checked final, m.head.foldlM step (initialContext requireBearer bearerToken) = .ok checked ∧
      Checked requireBearer bearerToken m checked ∧ request = final.request ∧
      Between (m.headers ++ m.trailers) final ∧ Keeps checked final := by
  rw [events_eq_before] at h
  obtain ⟨final, hfinal, rfl⟩ := foldlM_completed rfl messageComplete_notMem_before h
  obtain ⟨checked, hhead, hrest⟩ := foldlM_append_eq_ok.mp hfinal
  obtain ⟨bodied, hbody, htrailers⟩ := foldlM_append_eq_ok.mp hrest
  have hchecked := head_eq_ok hhead
  obtain ⟨⟨hincomplete, hname, hvalue, hstores⟩, _⟩ := hchecked
  have hbody := take_pieces hincomplete hbody
  subst hbody
  have hbetween : Between m.headers (checked.take .body m.body.flatten) :=
    ⟨hincomplete, hname, hvalue, hstores.take _ _⟩
  obtain ⟨hfinal, hkeeps⟩ := fields_between hbetween htrailers
  exact ⟨checked, final, hhead, head_eq_ok hhead, rfl, hfinal,
    (@take_keeps checked .body nofun m.body.flatten).trans hkeeps⟩

end Completed

end Branchscore.Server
