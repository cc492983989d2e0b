import Branchscore.Server.Steps

/-!
# How the input is split does not matter

The limits are checked against what has arrived before, and each check of a span gives for
its pieces what it gives for the whole. Only the length of the request line and the size of
the header section are limits of the same span with different answers, so which one answers
is fixed where the request line comes first.
-/

namespace Branchscore.Server

open Foundation Foundation.Fragmentation Outcome
set_option autoImplicit false

open ParseContext

/-! ## Two pieces -/

/-- The two limits may only answer for each other where `R` relates their answers. -/
theorem step_seamless {R : Stop → Stop → Prop} (hR : Equivalence R) {context : ParseContext}
    (hincomplete : context.complete = false) {kind : Span}
    (hlimits : ∀ count count', context.OverOwn kind count → ¬context.OverOwn kind count' →
      context.OverHeader kind count' → R kind.stop headersStop) :
    Seamless R step context kind := by
  refine ⟨?_, fun data rest => ?_⟩
  · rw [step_taken hincomplete overOwn_zero overHeader_zero, take_nil]
  by_cases hown : context.OverOwn kind data.length
  · rw [step_overOwn hincomplete hown, step_overOwn hincomplete (overOwn_mono hown)]
    exact .refl hR _
  by_cases hheader : context.OverHeader kind data.length
  · rw [step_overHeader hincomplete hown hheader]
    by_cases hwhole : context.OverOwn kind (data ++ rest).length
    · rw [step_overOwn hincomplete hwhole]
      exact hlimits _ _ hwhole hown hheader
    · rw [step_overHeader hincomplete hwhole (overHeader_mono hheader)]
      exact .refl hR _
  have hincomplete' := (take_complete context kind data).trans hincomplete
  rw [step_taken hincomplete hown hheader, ok_bind]
  by_cases hwhole : context.OverOwn kind (data ++ rest).length
  · rw [step_overOwn hincomplete hwhole,
      step_overOwn hincomplete' ((overOwn_append hown).mpr hwhole)]
    exact .refl hR _
  have hrest := (overOwn_append hown).not.mpr hwhole
  by_cases hwhole' : context.OverHeader kind (data ++ rest).length
  · rw [step_overHeader hincomplete hwhole hwhole',
      step_overHeader hincomplete' hrest ((overHeader_append hheader).mpr hwhole')]
    exact .refl hR _
  · rw [step_taken hincomplete hwhole hwhole', take_append,
      step_taken hincomplete' hrest ((overHeader_append hheader).not.mpr hwhole')]
    exact .refl hR _

/-! ## Streams -/

def isRequestLine : ParserEvent → Bool
  | .span .method _ | .span .url _ => true
  | _ => false

/-- No part of the method or of the target behind anything else. -/
def RequestLineFirst (events : List ParserEvent) : Prop :=
  events.Pairwise fun event event' => isRequestLine event' = true → isRequestLine event = true

instance (events : List ParserEvent) : Decidable (RequestLineFirst events) :=
  inferInstanceAs (Decidable (List.Pairwise _ _))

/-- Nothing but method and target has been received. -/
structure LineOnly (context : ParseContext) : Prop where
  headerBytes : context.headerBytes =
    context.request.method.length + context.request.url.length
  method : context.request.method.length ≤ 32
  url : context.request.url.length ≤ 4096

/-- Room for a whole request line, if more of it is to come. -/
structure Room (context : ParseContext) (events : List ParserEvent) : Prop where
  incomplete : context.complete = false
  first : RequestLineFirst events
  line : (∃ event ∈ events, isRequestLine event = true) → LineOnly context

theorem LineOnly.take {context : ParseContext} (h : LineOnly context) {kind : Span} {data : Bytes}
    (hown : ¬context.OverOwn kind data.length) (hkind : isRequestLine (.span kind data) = true) :
    LineOnly (context.take kind data) := by
  obtain ⟨hbytes, hmethod, hurl⟩ := h
  cases kind with
  | method =>
    simp only [OverOwn] at hown
    constructor <;> simp only [ParseContext.take, List.length_append] <;> omega
  | url =>
    simp only [OverOwn] at hown
    constructor <;> simp only [ParseContext.take, List.length_append] <;> omega
  | _ => cases hkind

/-- Where only the request line has been received, its own limits answer first. -/
theorem LineOnly.overOwn {context : ParseContext} (h : LineOnly context) {kind : Span} {count : Nat}
    (hkind : isRequestLine (.span kind []) = true) (hheader : context.OverHeader kind count) :
    context.OverOwn kind count := by
  obtain ⟨hbytes, hmethod, hurl⟩ := h
  cases kind with
  | method =>
    simp only [OverOwn, OverHeader, maxRequestHeaderBytes] at hheader ⊢
    omega
  | url =>
    simp only [OverOwn, OverHeader, maxRequestHeaderBytes] at hheader ⊢
    omega
  | _ => cases hkind

theorem RequestLineFirst.head {event event' : ParserEvent} {events : List ParserEvent}
    (h : RequestLineFirst (event :: events)) (hmem : event' ∈ events)
    (hline : isRequestLine event' = true) : isRequestLine event = true :=
  (List.pairwise_cons.mp h).1 event' hmem hline

theorem room_invariant : Invariant step Room := by
  constructor
  · intro context context' event events hroom hstep
    obtain ⟨hincomplete, hfirst, hline⟩ := hroom
    refine ⟨step_incomplete hstep hincomplete, (List.pairwise_cons.mp hfirst).2, ?_⟩
    intro ⟨event', hmem, hevent'⟩
    have hevent := hfirst.head hmem hevent'
    have hlineOnly := hline ⟨event, List.mem_cons_self, hevent⟩
    cases event with
    | signal => cases hevent
    | span kind data =>
      obtain ⟨rfl, hown, _⟩ := take_of_step hincomplete hstep
      exact hlineOnly.take hown hevent
  · intro context context' kind data rest events hroom hstep
    obtain ⟨hincomplete, hfirst, hline⟩ := hroom
    have hkind (data' : Bytes) : isRequestLine (.span kind data') =
        isRequestLine (.span kind (data ++ rest)) := by
      cases kind <;> rfl
    refine ⟨step_incomplete hstep hincomplete, ?_, ?_⟩
    · obtain ⟨hhead, htail⟩ := List.pairwise_cons.mp hfirst
      refine List.pairwise_cons.mpr ⟨fun event' hmem hevent' => ?_, htail⟩
      exact (hkind rest).trans (hhead event' hmem hevent')
    · intro ⟨event', hmem, hevent'⟩
      have hwhole : isRequestLine (.span kind (data ++ rest)) = true := by
        rcases List.mem_cons.mp hmem with rfl | hmem
        · exact (hkind rest).symm.trans hevent'
        · exact hfirst.head hmem hevent'
      have hlineOnly := hline ⟨_, List.mem_cons_self, hwhole⟩
      obtain ⟨rfl, hown, _⟩ := take_of_step hincomplete hstep
      exact hlineOnly.take hown ((hkind data).trans hwhole)

theorem incomplete_invariant :
    Invariant step fun context (_ : List ParserEvent) => context.complete = false := by
  constructor
  · intro context context' event events hincomplete hstep
    exact step_incomplete hstep hincomplete
  · intro context context' kind data rest events hincomplete hstep
    exact step_incomplete hstep hincomplete

/-! ## The two limits of the request line -/

/-- An answer to too many bytes in front of the body. -/
def Stop.TooLong (stop : Stop) : Prop :=
  stop = .failed 414 (bytes "request_target_too_large") ∨
    stop = .failed 431 (bytes "headers_too_large")

/-- Equal answers, or two answers to too many bytes. -/
def Stop.Close (stop stop' : Stop) : Prop := stop = stop' ∨ stop.TooLong ∧ stop'.TooLong

theorem Stop.close_equivalence : Equivalence Stop.Close := by
  constructor
  · intro stop
    exact Or.inl rfl
  · intro x y h
    rcases h with rfl | ⟨hx, hy⟩
    · exact Or.inl rfl
    · exact Or.inr ⟨hy, hx⟩
  · intro x y z hxy hyz
    rcases hxy with rfl | ⟨hx, hy⟩
    · exact hyz
    · rcases hyz with rfl | ⟨_, hz⟩
      · exact Or.inr ⟨hx, hy⟩
      · exact Or.inr ⟨hx, hz⟩

theorem close_limits {context : ParseContext} {kind : Span} {count : Nat}
    (hheader : context.OverHeader kind count) : kind.stop.Close headersStop := by
  cases kind with
  | method => exact Or.inr ⟨Or.inl rfl, Or.inr rfl⟩
  | url => exact Or.inr ⟨Or.inl rfl, Or.inr rfl⟩
  | body => exact absurd hheader not_false
  | _ => exact Or.inl rfl

theorem equal_limits {context : ParseContext} {kind : Span} {data : Bytes}
    {events : List ParserEvent} (hroom : Room context (.span kind data :: events)) {count : Nat}
    (hown : ¬context.OverOwn kind count) (hheader : context.OverHeader kind count) :
    kind.stop = headersStop := by
  by_cases hkind : isRequestLine (.span kind []) = true
  · have hline := hroom.line ⟨_, List.mem_cons_self, by cases kind <;> exact hkind⟩
    exact absurd (hline.overOwn hkind hheader) hown
  · cases kind with
    | method => exact absurd rfl hkind
    | url => exact absurd rfl hkind
    | body => exact absurd hheader not_false
    | _ => rfl

/-! ## Any cut -/

/-- The callbacks end alike however the spans are cut: with the same request, with the same
answer, or both short of an end in the same context. Only where a part of the request line
comes behind something else, one cut may run into the limit of the request line and another
into the limit of the header section. -/
theorem runCallbacks_fragmented (requireBearer : Bool) (bearerToken : Bytes)
    {events pieces : List ParserEvent} (hcuts : Cuts events pieces) :
    let start := initialContext requireBearer bearerToken
    Alike Stop.Close (outcome (runCallbacks start events)) (outcome (runCallbacks start pieces)) ∧
    (RequestLineFirst events →
      outcome (runCallbacks start events) = outcome (runCallbacks start pieces) ∧
      ∀ ending, receiveRequest requireBearer bearerToken events ending =
        receiveRequest requireBearer bearerToken pieces ending) := by
  intro start
  simp only [outcome_runCallbacks, receiveRequest_eq]
  constructor
  · apply run_cuts Stop.close_equivalence incomplete_invariant _ hcuts rfl
    intro context kind data rest hincomplete
    apply step_seamless Stop.close_equivalence hincomplete
    intro count count' _ _ hheader
    exact close_limits hheader
  · intro hfirst
    have hroom : Room start events := ⟨rfl, hfirst, fun _ => ⟨rfl, Nat.zero_le _, Nat.zero_le _⟩⟩
    have heq : events.foldlM step start = pieces.foldlM step start := by
      rw [← alike_eq]
      apply run_cuts eq_equivalence room_invariant _ hcuts hroom
      intro context kind data rest hroom
      apply step_seamless eq_equivalence hroom.incomplete
      intro count count' _ hown hheader
      exact equal_limits hroom hown hheader
    exact ⟨heq, fun ending => by rw [heq]⟩

/-- So many header bytes that a target may exceed both limits. -/
def longName : Bytes := List.replicate 12289 (byte 'n')

def longTarget : Bytes := List.replicate 4096 (byte '/')

theorem longName_length : longName.length = 12289 := List.length_replicate

theorem longTarget_length : longTarget.length = 4096 := List.length_replicate

/-- The context behind the header bytes. -/
def behindName : ParseContext := (initialContext false []).take .headerField longName

theorem step_longName :
    step (initialContext false []) (.span .headerField longName) = .ok behindName := by
  apply step_taken rfl
  · simp only [OverOwn, longName_length]
    decide
  · simp only [OverHeader, longName_length]
    decide

theorem runCallbacks_fragmented_fails :
    Cuts (κ := Span) (ς := Signal)
      [.span .headerField longName, .span .url (longTarget ++ [byte '/'])]
      [.span .headerField longName, .span .url longTarget, .span .url [byte '/']] ∧
    outcome (runCallbacks (initialContext false [])
      [.span .headerField longName, .span .url (longTarget ++ [byte '/'])]) =
        .error (.failed 414 (bytes "request_target_too_large")) ∧
    outcome (runCallbacks (initialContext false [])
      [.span .headerField longName, .span .url longTarget, .span .url [byte '/']]) =
        .error (.failed 431 (bytes "headers_too_large")) := by
  refine ⟨?_, ?_, ?_⟩
  · have hurl := Cuts.nil.span (ς := Signal) Span.url [longTarget, [byte '/']]
    have hname := hurl.span Span.headerField [longName]
    simpa only [List.flatten_cons, List.flatten_nil, List.append_nil, List.map_cons, List.map_nil,
      List.cons_append, List.nil_append] using hname
  · have hown : behindName.OverOwn .url (longTarget ++ [byte '/']).length := by
      rw [List.length_append, longTarget_length]
      exact (by decide : 4096 - min 4096 0 < 4097)
    rw [outcome_runCallbacks, List.foldlM_cons, step_longName, ok_bind, List.foldlM_cons,
      step_overOwn rfl hown]
    rfl
  · have hown : ¬behindName.OverOwn .url longTarget.length := by
      rw [longTarget_length]
      exact (by decide : ¬4096 - min 4096 0 < 4096)
    have hheader : behindName.OverHeader .url longTarget.length := by
      rw [longTarget_length, OverHeader, behindName, ParseContext.take, longName_length]
      · decide
      · exact Span.noConfusion
    rw [outcome_runCallbacks, List.foldlM_cons, step_longName, ok_bind, List.foldlM_cons,
      step_overHeader rfl hown hheader]
    rfl

theorem runCallbacks_fragmented_sample :
    outcome (runCallbacks (initialContext false [])
        [.span .method (bytes "GET"), .span .url (bytes "/ui")]) =
      outcome (runCallbacks (initialContext false [])
        [.span .method (bytes "GE"), .span .method (bytes "T"), .span .url (bytes "/u"),
          .span .url [], .span .url (bytes "i")]) := by
  have hcuts : Cuts (κ := Span) (β := Byte) (ς := Signal)
      [.span .method (bytes "GET"), .span .url (bytes "/ui")]
      [.span .method (bytes "GE"), .span .method (bytes "T"), .span .url (bytes "/u"),
        .span .url [], .span .url (bytes "i")] :=
    (Cuts.nil.span Span.url [bytes "/u", [], bytes "i"]).span Span.method [bytes "GE", bytes "T"]
  exact ((runCallbacks_fragmented false [] hcuts).2 (by decide)).1

end Branchscore.Server
