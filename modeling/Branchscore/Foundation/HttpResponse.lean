import Branchscore.Foundation.Decimal
import Branchscore.Foundation.Search

/-!
# HTTP responses with a counted body

A response is printed as a status line, fields and a body. The reader takes the lines up to
the empty one and then as many bytes as `Content-Length` says. From a printed response it
reads that response, and from one that was cut off it reads nothing.
-/

namespace Foundation

set_option autoImplicit false

/-! ## Lines -/

def cr : Byte := 0x0d

def lf : Byte := 0x0a

def crlf : Bytes := [cr, lf]

/-- The lines up to the empty one, and what follows it; `line` is read already. -/
def readLines (line : Bytes) : Bytes → Option (List Bytes × Bytes)
  | [] => none
  | [_] => none
  | c :: d :: rest =>
    if c = cr ∧ d = lf then
      if line = [] then some ([], rest)
      else (readLines [] rest).map fun (lines, body) => (line :: lines, body)
    else readLines (line ++ [c]) (d :: rest)

theorem readLines_line {line : Bytes} (hline : cr ∉ line) (front rest : Bytes) :
    readLines front (line ++ (crlf ++ rest)) =
      if front ++ line = [] then some ([], rest)
      else (readLines [] rest).map fun (lines, body) => ((front ++ line) :: lines, body) := by
  induction line generalizing front with
  | nil =>
    rw [List.nil_append, List.append_nil, crlf, List.cons_append, List.singleton_append, readLines,
      if_pos ⟨rfl, rfl⟩]
  | cons c line ih =>
    have hc : c ≠ cr := fun h => hline (h ▸ List.mem_cons_self)
    obtain ⟨d, tail, htail⟩ : ∃ d tail, line ++ (crlf ++ rest) = d :: tail := by
      apply List.exists_cons_of_ne_nil
      simp [crlf]
    rw [List.cons_append, htail, readLines, if_neg (fun h => hc h.1), ← htail,
      ih (fun h => hline (List.mem_cons_of_mem c h)), List.append_assoc, List.singleton_append]

theorem readLines_lines {lines : List Bytes} (h : ∀ line ∈ lines, line ≠ [] ∧ cr ∉ line)
    (body : Bytes) :
    readLines [] (lines.flatMap (· ++ crlf) ++ (crlf ++ body)) = some (lines, body) := by
  induction lines with
  | nil => rfl
  | cons line lines ih =>
    obtain ⟨⟨hne, hcr⟩, hlines⟩ := List.forall_mem_cons.mp h
    rw [List.flatMap_cons, List.append_assoc, List.append_assoc, readLines_line hcr, List.nil_append,
      if_neg hne, ih hlines]
    rfl

/-- More bytes behind the empty line are left to the body. -/
theorem readLines_append {front text : Bytes} {lines : List Bytes} {body : Bytes}
    (h : readLines front text = some (lines, body)) (rest : Bytes) :
    readLines front (text ++ rest) = some (lines, body ++ rest) := by
  induction front, text using readLines.induct generalizing lines with
  | case1 => cases h
  | case2 => cases h
  | case3 c d text hend =>
    rw [readLines, if_pos hend, if_pos rfl] at h
    cases h
    rw [List.cons_append, List.cons_append, readLines, if_pos hend, if_pos rfl]
  | case4 front c d text hend hne ih =>
    rw [readLines, if_pos hend, if_neg hne] at h
    obtain ⟨⟨lines', body'⟩, hread, heq⟩ := Option.map_eq_some_iff.mp h
    cases heq
    rw [List.cons_append, List.cons_append, readLines, if_pos hend, if_neg hne, ih hread]
    rfl
  | case5 front c d text hnot ih =>
    rw [readLines, if_neg hnot] at h
    rw [List.cons_append, List.cons_append, readLines, if_neg hnot, ← List.cons_append]
    exact ih h

/-! ## Responses -/

/-- The text before and behind the first occurrence of the separator. -/
def splitFirst (separator text : Bytes) : Option (Bytes × Bytes) :=
  (Search.find? separator text).map fun i => (text.take i, text.drop (i + separator.length))

theorem splitFirst_append {c : Byte} {a : Bytes} (h : c ∉ a) (separator b : Bytes) :
    splitFirst (c :: separator) (a ++ (c :: separator ++ b)) = some (a, b) := by
  have hfind : Search.find? (c :: separator) (a ++ (c :: separator ++ b)) = some a.length := by
    rw [Search.find?_eq_some]
    refine ⟨by simp, ?_, ?_⟩
    · rw [Search.OccursAt, List.drop_left]
      exact List.prefix_append _ _
    · intro j hj hoccurs
      rw [Search.OccursAt, List.drop_append_of_le_length hj.le,
        List.drop_eq_getElem_cons hj, List.cons_append, List.cons_prefix_cons] at hoccurs
      exact h (hoccurs.1 ▸ List.getElem_mem hj)
  rw [splitFirst, hfind, Option.map_some, List.take_left, List.drop_append]
  simp

structure HttpResponse where
  status : Nat
  reason : Bytes
  fields : List (Bytes × Bytes)
  body : Bytes
  deriving DecidableEq, Repr

namespace HttpResponse

def statusLine (response : HttpResponse) : Bytes :=
  bytes "HTTP/1.1" ++ (bytes " " ++ (decimal response.status ++ (bytes " " ++ response.reason)))

def fieldLine (field : Bytes × Bytes) : Bytes := field.1 ++ (bytes ": " ++ field.2)

def lines (response : HttpResponse) : List Bytes :=
  response.statusLine :: response.fields.map fieldLine

def print (response : HttpResponse) : Bytes :=
  response.lines.flatMap (· ++ crlf) ++ (crlf ++ response.body)

def readStatusLine (line : Bytes) : Option (Nat × Bytes) :=
  (splitFirst (bytes " ") line).bind fun (version, rest) =>
    (splitFirst (bytes " ") rest).bind fun (status, reason) =>
      if version = bytes "HTTP/1.1" then (readDecimal status).map fun status => (status, reason)
      else none

/-- The body is complete. -/
def counted (response : HttpResponse) : Bool :=
  (response.fields.lookup (bytes "Content-Length")).bind readDecimal = some response.body.length

def readHead (lines : List Bytes) (body : Bytes) : Option HttpResponse :=
  match lines with
  | [] => none
  | statusLine :: fieldLines =>
    (readStatusLine statusLine).bind fun (status, reason) =>
      (fieldLines.mapM (splitFirst (bytes ": "))).map fun fields => { status, reason, fields, body }

def read (text : Bytes) : Option HttpResponse :=
  (readLines [] text).bind fun (lines, body) => (readHead lines body).filter counted

/-- What the printed head needs in order to be read back. -/
structure Framed (response : HttpResponse) : Prop where
  reason : cr ∉ response.reason
  names : ∀ field ∈ response.fields, cr ∉ field.1 ∧ byte ':' ∉ field.1
  values : ∀ field ∈ response.fields, cr ∉ field.2
  length : response.fields.lookup (bytes "Content-Length") = some (decimal response.body.length)

variable {response : HttpResponse}

theorem cr_notMem_decimal (n : Nat) : cr ∉ decimal n := by
  intro h
  exact absurd (mem_decimal h).1 (by decide)

theorem space_notMem_decimal (n : Nat) : byte ' ' ∉ decimal n := by
  intro h
  exact absurd (mem_decimal h).1 (by decide)

theorem Framed.lines (h : Framed response) : ∀ line ∈ response.lines, line ≠ [] ∧ cr ∉ line := by
  intro line hline
  rcases List.mem_cons.mp hline with rfl | hfield
  · refine ⟨by simp [statusLine, bytes], ?_⟩
    simp only [statusLine, List.mem_append, not_or]
    exact ⟨by decide, by decide, cr_notMem_decimal _, by decide, h.reason⟩
  · obtain ⟨field, hmem, rfl⟩ := List.mem_map.mp hfield
    refine ⟨by simp [fieldLine, bytes], ?_⟩
    simp only [fieldLine, List.mem_append, not_or]
    exact ⟨(h.names field hmem).1, by decide, h.values field hmem⟩

theorem readStatusLine_statusLine (response : HttpResponse) :
    readStatusLine response.statusLine = some (response.status, response.reason) := by
  have hversion : splitFirst (bytes " ") response.statusLine =
      some (bytes "HTTP/1.1", decimal response.status ++ (bytes " " ++ response.reason)) :=
    splitFirst_append (by decide) [] _
  have hstatus : splitFirst (bytes " ") (decimal response.status ++ (bytes " " ++ response.reason)) =
      some (decimal response.status, response.reason) :=
    splitFirst_append (space_notMem_decimal _) [] _
  rw [readStatusLine, hversion, Option.bind_some]
  dsimp only
  rw [hstatus, Option.bind_some]
  dsimp only
  rw [if_pos rfl, readDecimal_decimal, Option.map_some]

theorem Framed.readHead_lines (h : Framed response) (body : Bytes) :
    readHead response.lines body = some { response with body } := by
  have hfields : (response.fields.map fieldLine).mapM (splitFirst (bytes ": ")) =
      some response.fields := by
    have hnames := h.names
    generalize response.fields = fields at hnames
    induction fields with
    | nil => rfl
    | cons field fields ih =>
      obtain ⟨⟨_, hcolon⟩, hrest⟩ := List.forall_mem_cons.mp hnames
      have hsplit : splitFirst (bytes ": ") (fieldLine field) = some field :=
        splitFirst_append hcolon (bytes " ") field.2
      rw [List.map_cons, List.mapM_cons, hsplit, ih hrest]
      rfl
  unfold readHead HttpResponse.lines
  dsimp only
  rw [readStatusLine_statusLine, Option.bind_some, hfields]
  rfl

theorem Framed.readLines (h : Framed response) :
    readLines [] response.print = some (response.lines, response.body) :=
  readLines_lines h.lines response.body

theorem Framed.counted_iff (h : Framed response) (body : Bytes) :
    counted { response with body } = true ↔ response.body.length = body.length := by
  rw [counted, decide_eq_true_iff]
  dsimp only
  rw [h.length, Option.bind_some, readDecimal_decimal, Option.some.injEq]

/-- A printed response is read as itself. -/
theorem Framed.read_print (h : Framed response) : read response.print = some response := by
  rw [read, h.readLines, Option.bind_some]
  dsimp only
  rw [h.readHead_lines, Option.filter_some, if_pos ((h.counted_iff _).mpr rfl)]

/-- A response that was cut off is not read at all. -/
theorem Framed.read_cut (h : Framed response) {text rest : Bytes} (hne : rest ≠ [])
    (hcut : text ++ rest = response.print) : read text = none := by
  cases hlines : Foundation.readLines [] text with
  | none => rw [read, hlines, Option.bind_none]
  | some split =>
    obtain ⟨lines, body⟩ := split
    have hwhole := readLines_append hlines rest
    rw [hcut, h.readLines] at hwhole
    obtain ⟨rfl, hbody⟩ := Prod.mk.inj (Option.some.inj hwhole)
    have hlength : ¬response.body.length = body.length := by
      have hpos := List.length_pos_iff.mpr hne
      rw [hbody, List.length_append]
      omega
    rw [read, hlines, Option.bind_some]
    dsimp only
    rw [h.readHead_lines, Option.filter_some, if_neg (fun hc => hlength ((h.counted_iff _).mp hc))]

/-! ## Responses that count their body -/

/-- The response whose last field is the length of its body. -/
def counting (status : Nat) (reason : Bytes) (front : List (Bytes × Bytes)) (body : Bytes) :
    HttpResponse where
  status := status
  reason := reason
  fields := front ++ [(bytes "Content-Length", decimal body.length)]
  body := body

section Counting
variable {status : Nat} {reason body : Bytes} {front : List (Bytes × Bytes)}

theorem counting_framed (hreason : cr ∉ reason)
    (hfront : ∀ field ∈ front, cr ∉ field.1 ∧ byte ':' ∉ field.1 ∧ cr ∉ field.2)
    (hlength : front.lookup (bytes "Content-Length") = none) :
    Framed (counting status reason front body) := by
  have hfields : ∀ field ∈ (counting status reason front body).fields,
      cr ∉ field.1 ∧ byte ':' ∉ field.1 ∧ cr ∉ field.2 := by
    intro field hfield
    rcases List.mem_append.mp hfield with h | h
    · exact hfront field h
    · rw [List.mem_singleton.mp h]
      have hname : cr ∉ bytes "Content-Length" ∧ byte ':' ∉ bytes "Content-Length" := by decide
      exact ⟨hname.1, hname.2, cr_notMem_decimal _⟩
  refine ⟨hreason, ?_, ?_, ?_⟩
  · exact fun field hfield => ⟨(hfields field hfield).1, (hfields field hfield).2.1⟩
  · exact fun field hfield => (hfields field hfield).2.2
  · rw [counting, List.lookup_append, hlength, Option.none_or, List.lookup_cons_self]

theorem print_counting : (counting status reason front body).print =
    bytes "HTTP/1.1 " ++ (decimal status ++ (bytes " " ++ (reason ++
      (crlf ++ ((front.map fieldLine).flatMap (· ++ crlf) ++ (bytes "Content-Length: " ++
        (decimal body.length ++ (crlf ++ (crlf ++ body))))))))) := by
  have hversion : bytes "HTTP/1.1 " = bytes "HTTP/1.1" ++ bytes " " := by decide
  have hlength : bytes "Content-Length: " = bytes "Content-Length" ++ bytes ": " := by decide
  simp only [print, lines, statusLine, counting, fieldLine, hversion, hlength, List.map_append,
    List.map_cons, List.map_nil, List.flatMap_cons, List.flatMap_append, List.flatMap_nil,
    List.append_assoc, List.append_nil]

end Counting

end HttpResponse

end Foundation
