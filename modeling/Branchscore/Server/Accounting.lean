import Branchscore.Server.Steps

/-!
# The limits of a request

What the callbacks count stays within its limit in every context, whatever the order of the
events, so no difference between a limit and what is used of it wraps.
-/

namespace Branchscore.Server

open Foundation Foundation.Fragmentation
set_option autoImplicit false

/-! ## Calls and charges -/

/-- The calls up to the first nonzero result, each with the context it finds. -/
def calls (context : ParseContext) : List ParserEvent → List (ParseContext × ParserEvent)
  | [] => []
  | event :: events =>
    (context, event) ::
      if (callback context event).1 ≠ hpeOk then [] else calls (callback context event).2 events

/-- What a call adds to the header bytes: the length of an accepted span in front of the body,
and four for the end of a field if these are accepted. -/
def charge (context : ParseContext) : ParserEvent → Nat
  | .span .body _ => 0
  | .span kind data => if (callback context (.span kind data)).1 = hpeOk then data.length else 0
  | .signal .headerValueComplete => if (addHeaderBytes context 4).1 then 4 else 0
  | .signal _ => 0

/-- The unsigned subtractions of a call: the limit, and what is used of it. -/
def subtractions (context : ParseContext) : ParserEvent → List (Nat × Nat)
  | .span .method _ => [(32, min 32 context.request.method.length),
      (maxRequestHeaderBytes, context.headerBytes)]
  | .span .url _ => [(4096, min 4096 context.request.url.length),
      (maxRequestHeaderBytes, context.headerBytes)]
  | .span .version _ => [(maxRequestHeaderBytes, context.headerBytes)]
  | .span .headerField _ =>
    [(maxRequestHeaderBytes, min maxRequestHeaderBytes context.headerName.length),
      (maxRequestHeaderBytes, context.headerBytes)]
  | .span .headerValue _ =>
    [(maxRequestHeaderBytes, min maxRequestHeaderBytes context.headerValue.length),
      (maxRequestHeaderBytes, context.headerBytes)]
  | .span .body _ => [(maxRequestBodyBytes, context.request.body.length)]
  | .signal .headerValueComplete => [(maxRequestHeaderBytes, context.headerBytes)]
  | .signal _ => []

/-- The ends of header and trailer fields among the calls. -/
def fieldCount (made : List (ParseContext × ParserEvent)) : Nat :=
  made.countP fun call => call.2 = .signal .headerValueComplete

/-! ## One callback -/

section Callback
variable {context : ParseContext}

theorem addHeaderBytes_iff (count : Nat) :
    (addHeaderBytes context count).1 = true ↔
      ¬maxRequestHeaderBytes - context.headerBytes < count := by
  rcases addHeaderBytes_cases context count with ⟨hover, he⟩ | ⟨hover, he⟩
  · simp [he, hover]
  · simp [he, hover]

/-- The end of a field is refused for its bytes or for the count, or the field is stored. -/
inductive FieldEnds (context : ParseContext) : Int × ParseContext → Prop where
  | refused : ¬(addHeaderBytes context 4).1 = true → FieldEnds context
      (hpeUser, headersTooLarge { context with headerCount := context.headerCount + 1 })
  | tooMany : (addHeaderBytes context 4).1 = true →
      maxRequestHeaderCount < context.headerCount + 1 → FieldEnds context
        (hpeUser, headersTooLarge { context with
          headerCount := context.headerCount + 1
          headerBytes := context.headerBytes + 4 })
  | stored : (addHeaderBytes context 4).1 = true →
      context.headerCount + 1 ≤ maxRequestHeaderCount →
      FieldEnds context (hpeOk, context.closeField)

theorem callback_headerValueComplete (context : ParseContext) :
    FieldEnds context (callback context (.signal .headerValueComplete)) := by
  simp only [callback, onHeaderValueComplete]
  rcases addHeaderBytes_cases { context with headerCount := context.headerCount + 1 } 4 with
    ⟨hover, he⟩ | ⟨hover, he⟩
  · rw [he]
    exact .refused ((addHeaderBytes_iff 4).not.mpr (not_not.mpr hover))
  · rw [he]
    have hcharged : (addHeaderBytes context 4).1 = true := (addHeaderBytes_iff 4).mpr hover
    dsimp only
    by_cases hcount : maxRequestHeaderCount < context.headerCount + 1
    · rw [if_pos hcount]
      exact .tooMany hcharged hcount
    · rw [if_neg hcount]
      exact .stored hcharged (Nat.le_of_not_lt hcount)

theorem callback_headersComplete (context : ParseContext) (contentLength : Nat) :
    callback context (.signal (.headersComplete contentLength)) = (hpeOk, context) ∨
    ∃ status code, callback context (.signal (.headersComplete contentLength)) =
      (-1, context.fail status code) := by
  simp only [callback, onHeadersComplete]
  split_ifs
  · exact Or.inr ⟨_, _, rfl⟩
  · exact Or.inr ⟨_, _, rfl⟩
  · exact Or.inr ⟨_, _, rfl⟩
  · exact Or.inr ⟨_, _, rfl⟩
  · exact Or.inr ⟨_, _, rfl⟩
  · exact Or.inl rfl

/-- What storing a field leaves as it is. -/
theorem storeHeader_counts (name value : Bytes) :
    (storeHeader context name value).headerBytes = context.headerBytes ∧
    (storeHeader context name value).headerCount = context.headerCount ∧
    (storeHeader context name value).request.method = context.request.method ∧
    (storeHeader context name value).request.url = context.request.url ∧
    (storeHeader context name value).request.body = context.request.body := by
  unfold storeHeader
  split_ifs <;> exact ⟨rfl, rfl, rfl, rfl, rfl⟩

theorem closeField_counts :
    context.closeField.headerBytes = context.headerBytes + 4 ∧
    context.closeField.headerCount = context.headerCount + 1 ∧
    context.closeField.request.method = context.request.method ∧
    context.closeField.request.url = context.request.url ∧
    context.closeField.request.body = context.request.body :=
  storeHeader_counts context.headerName (trim context.headerValue)

theorem closeField_complete : context.closeField.complete = context.complete :=
  @storeHeader_complete { context with
    headerCount := context.headerCount + 1
    headerBytes := context.headerBytes + 4 } context.headerName (trim context.headerValue)

end Callback

/-! ## One step -/

/-- What a callback may leave behind. -/
structure WithinLimits (context : ParseContext) : Prop where
  headerBytes : context.headerBytes ≤ maxRequestHeaderBytes
  method : context.request.method.length ≤ 32
  url : context.request.url.length ≤ 4096
  body : context.request.body.length ≤ maxRequestBodyBytes

/-- What a call does to the counts. -/
structure Accounts (context : ParseContext) (event : ParserEvent) (result : Int × ParseContext) :
    Prop where
  limits : WithinLimits result.2
  headerBytes : result.2.headerBytes = context.headerBytes + charge context event
  headerCount : result.2.headerCount =
    context.headerCount + if event = .signal .headerValueComplete then 1 else 0
  countLimit : context.headerCount ≤ maxRequestHeaderCount → result.1 = hpeOk →
    result.2.headerCount ≤ maxRequestHeaderCount
  complete : result.2.complete = true → context.complete = true ∨ event = .signal .messageComplete

section Step
variable {context : ParseContext}

/-- Spans of the body are not header bytes, and others are charged when they are accepted. -/
theorem charge_span {kind : Span} {data : Bytes} {result : Int} {context' : ParseContext}
    (h : callback context (.span kind data) = (result, context')) :
    charge context (.span kind data) =
      if kind ≠ .body ∧ result = hpeOk then data.length else 0 := by
  have hresult : (callback context (.span kind data)).1 = result := by rw [h]
  cases kind with
  | body => rfl
  | _ => simp [charge, hresult]

/-- A refused call changes no count. -/
theorem accounts_fail (h : WithinLimits context) {event : ParserEvent}
    (hcharge : charge context event = 0) (hevent : event ≠ .signal .headerValueComplete)
    {result : Int} (hresult : result ≠ hpeOk) (status : Nat) (code : String) :
    Accounts context event (result, context.fail status code) where
  limits := ⟨h.headerBytes, h.method, h.url, h.body⟩
  headerBytes := by rw [hcharge]; rfl
  headerCount := by rw [if_neg hevent]; rfl
  countLimit := fun _ hok => absurd hok hresult
  complete := Or.inl

theorem take_withinLimits (h : WithinLimits context) {kind : Span} {data : Bytes}
    (hown : ¬context.OverOwn kind data.length) (hheader : ¬context.OverHeader kind data.length) :
    WithinLimits (context.take kind data) := by
  obtain ⟨hbytes, hmethod, hurl, hbody⟩ := h
  cases kind <;> simp only [ParseContext.OverOwn, ParseContext.OverHeader] at hown hheader <;>
    constructor <;> simp only [ParseContext.take, List.length_append] <;> omega

theorem take_counts (kind : Span) (data : Bytes) :
    (context.take kind data).headerBytes =
        context.headerBytes + (if kind ≠ .body then data.length else 0) ∧
      (context.take kind data).headerCount = context.headerCount := by
  cases kind <;> exact ⟨rfl, rfl⟩

theorem span_accounts (h : WithinLimits context) (kind : Span) (data : Bytes) :
    Accounts context (.span kind data) (callback context (.span kind data)) := by
  have hcalled := callback_span context kind data
  generalize hresult : callback context (.span kind data) = result at hcalled ⊢
  cases hcalled with
  | overOwn hown hstop =>
    refine accounts_fail h ?_ (by simp) hpeUser_ne_ok _ _
    rw [charge_span hresult, if_neg fun hok => hpeUser_ne_ok hok.2]
  | overHeader hown hheader =>
    refine accounts_fail h ?_ (by simp) hpeUser_ne_ok _ _
    rw [charge_span hresult, if_neg fun hok => hpeUser_ne_ok hok.2]
  | taken hown hheader =>
    obtain ⟨hbytes, hcount⟩ := @take_counts context kind data
    constructor
    · exact take_withinLimits h hown hheader
    · rw [hbytes, charge_span hresult]
      simp only [and_true]
    · rw [hcount, if_neg (by simp), Nat.add_zero]
    · intro hle _
      rwa [hcount]
    · intro hcomplete
      rw [take_complete] at hcomplete
      exact Or.inl hcomplete

theorem fieldEnds_accounts (h : WithinLimits context) :
    Accounts context (.signal .headerValueComplete)
      (callback context (.signal .headerValueComplete)) := by
  have hends := callback_headerValueComplete context
  generalize callback context (.signal .headerValueComplete) = result at hends ⊢
  cases hends with
  | refused hcharged =>
    constructor
    · exact ⟨h.headerBytes, h.method, h.url, h.body⟩
    · rw [charge, if_neg hcharged]
      rfl
    · rfl
    · exact fun _ hok => absurd hok hpeUser_ne_ok
    · exact Or.inl
  | tooMany hcharged hcount =>
    have hroom := (addHeaderBytes_iff 4).mp hcharged
    constructor
    · refine ⟨?_, h.method, h.url, h.body⟩
      have hbytes := h.headerBytes
      simp only [headersTooLarge, ParseContext.fail]
      omega
    · rw [charge, if_pos hcharged]
      rfl
    · rfl
    · exact fun _ hok => absurd hok hpeUser_ne_ok
    · exact Or.inl
  | stored hcharged hcount =>
    have hroom := (addHeaderBytes_iff 4).mp hcharged
    obtain ⟨hbytes, hheaders, hmethod, hurl, hbody⟩ := @closeField_counts context
    constructor
    · have hlimit := h.headerBytes
      refine ⟨?_, ?_, ?_, ?_⟩
      · rw [hbytes]
        omega
      · rw [hmethod]
        exact h.method
      · rw [hurl]
        exact h.url
      · rw [hbody]
        exact h.body
    · rw [charge, if_pos hcharged, hbytes]
    · rw [hheaders, if_pos rfl]
    · intro _ _
      rwa [hheaders]
    · intro hcomplete
      rw [closeField_complete] at hcomplete
      exact Or.inl hcomplete

theorem callback_accounts (h : WithinLimits context) (event : ParserEvent) :
    Accounts context event (callback context event) := by
  cases event with
  | span kind data => exact span_accounts h kind data
  | signal signal =>
    cases signal with
    | headerFieldComplete =>
      exact ⟨⟨h.headerBytes, h.method, h.url, h.body⟩, rfl, rfl, fun hle _ => hle, Or.inl⟩
    | headerValueComplete => exact fieldEnds_accounts h
    | headersComplete contentLength =>
      rcases callback_headersComplete context contentLength with he | ⟨status, code, he⟩
      · rw [he]
        exact ⟨h, rfl, rfl, fun hle _ => hle, Or.inl⟩
      · rw [he]
        exact accounts_fail h rfl (by simp) (by decide) status code
    | messageComplete =>
      exact ⟨⟨h.headerBytes, h.method, h.url, h.body⟩, rfl, rfl, fun hle _ => hle,
        fun _ => Or.inr rfl⟩

theorem WithinLimits.subtractions_le (h : WithinLimits context) (event : ParserEvent) :
    ∀ difference ∈ subtractions context event, difference.2 ≤ difference.1 := by
  obtain ⟨hbytes, hmethod, hurl, hbody⟩ := h
  cases event with
  | span kind data => cases kind <;> simp [subtractions, hbytes, hbody]
  | signal signal => cases signal <;> simp [subtractions, hbytes]

end Step

/-! ## A run -/

/-- What all calls of a run together do to the counts. -/
structure RunAccounts (context : ParseContext) (made : List (ParseContext × ParserEvent))
    (final : ParseContext) : Prop where
  limits : WithinLimits final
  headerBytes : final.headerBytes =
    context.headerBytes + (made.map fun call => charge call.1 call.2).sum
  headerCount : final.headerCount = context.headerCount + fieldCount made
  differences : ∀ call ∈ made, ∀ difference ∈ subtractions call.1 call.2,
    difference.2 ≤ difference.1
  countLimit : context.headerCount ≤ maxRequestHeaderCount → final.complete = true →
    final.headerCount ≤ maxRequestHeaderCount

theorem runCallbacks_accounts_from {context : ParseContext} (h : WithinLimits context)
    (hincomplete : context.complete = false) (events : List ParserEvent) :
    RunAccounts context (calls context events) (runCallbacks context events).2 := by
  induction events generalizing context with
  | nil =>
    refine ⟨h, rfl, rfl, nofun, fun _ hcomplete => ?_⟩
    rw [runCallbacks, hincomplete] at hcomplete
    cases hcomplete
  | cons event events ih =>
    obtain ⟨hlimits, hbytes, hcount, hcountLimit, hcomplete⟩ := callback_accounts h event
    have hends : (callback context event).2.complete = true →
        event = .signal .messageComplete := by
      intro htrue
      refine (hcomplete htrue).resolve_left ?_
      simp [hincomplete]
    have hfirst : fieldCount [(context, event)] =
        if event = .signal .headerValueComplete then 1 else 0 := by
      simp [fieldCount, List.countP_cons]
    rw [calls, runCallbacks]
    by_cases hok : (callback context event).1 = hpeOk
    · have hgoes : (callback context event).2.complete = false := by
        by_contra htrue
        rw [hends (by simpa using htrue)] at hok
        exact absurd (show hpePaused = hpeOk from hok) (by decide)
      obtain ⟨hlimits', hbytes', hcount', hdifferences', hcountLimit'⟩ := ih hlimits hgoes
      rw [if_neg (not_not.mpr hok)]
      dsimp only
      rw [if_neg (not_not.mpr hok)]
      constructor
      · exact hlimits'
      · rw [hbytes', hbytes, List.map_cons, List.sum_cons, Nat.add_assoc]
      · rw [hcount', hcount, ← hfirst, Nat.add_assoc]
        simp only [fieldCount, ← List.countP_append, List.singleton_append]
      · rw [List.forall_mem_cons]
        exact ⟨h.subtractions_le event, hdifferences'⟩
      · intro hle
        exact hcountLimit' (hcountLimit hle hok)
    · rw [if_pos hok]
      dsimp only
      rw [if_pos hok]
      constructor
      · exact hlimits
      · simpa using hbytes
      · rw [hcount, hfirst]
      · simpa using h.subtractions_le event
      · intro hle htrue
        rw [hcount, hends htrue, if_neg (by simp)]
        exact hle

/-- In every context that events in any order lead to, up to and with the first nonzero
result, the counts are within their limits, the header bytes are the charges accepted so far,
no subtraction has wrapped, and a complete request has no more fields than allowed. -/
theorem runCallbacks_accounts (requireBearer : Bool) (bearerToken : Bytes)
    (events : List ParserEvent) :
    let start := initialContext requireBearer bearerToken
    let made := calls start events
    let final := (runCallbacks start events).2
    final.headerBytes ≤ 16384 ∧
    final.headerBytes = (made.map fun call => charge call.1 call.2).sum ∧
    final.request.method.length ≤ 32 ∧ final.request.url.length ≤ 4096 ∧
    final.request.body.length ≤ 16 * 1024 * 1024 ∧
    (∀ call ∈ made, ∀ difference ∈ subtractions call.1 call.2, difference.2 ≤ difference.1) ∧
    (final.complete = true → fieldCount made ≤ 64) := by
  intro start made final
  have hstart : WithinLimits start := ⟨Nat.zero_le _, Nat.zero_le _, Nat.zero_le _, Nat.zero_le _⟩
  obtain ⟨hlimits, hbytes, hcount, hdifferences, hcountLimit⟩ :=
    runCallbacks_accounts_from hstart rfl events
  obtain ⟨hheader, hmethod, hurl, hbody⟩ := hlimits
  refine ⟨hheader, ?_, hmethod, hurl, hbody, hdifferences, ?_⟩
  · exact hbytes.trans (Nat.zero_add _)
  · intro hcomplete
    have hle := hcountLimit (Nat.zero_le _) hcomplete
    rw [hcount] at hle
    exact (Nat.le_add_left _ _).trans hle

/-- A request with one header field and one trailer field. -/
def twoFields : List ParserEvent :=
  [.span .method (bytes "POST"), .span .url (bytes "/"), .span .headerField (bytes "Te"),
    .signal .headerFieldComplete, .span .headerValue (bytes "x"), .signal .headerValueComplete,
    .signal (.headersComplete 0), .span .body (bytes "\x7b\x7d"), .span .headerField (bytes "X"),
    .signal .headerFieldComplete, .signal .headerValueComplete, .signal .messageComplete]

theorem runCallbacks_accounts_twoFields :
    (runCallbacks (initialContext false []) twoFields).2.headerBytes = 17 ∧
      fieldCount (calls (initialContext false []) twoFields) ≤ 64 :=
  ⟨rfl, (runCallbacks_accounts false [] twoFields).2.2.2.2.2.2 rfl⟩

end Branchscore.Server
