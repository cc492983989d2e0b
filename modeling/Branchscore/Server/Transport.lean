import Branchscore.Foundation.HttpResponse
import Branchscore.Server.ErrorAnswers

/-!
# Sending an answer

The bytes of an answer go to the socket in pieces. What a client reads of them is the answer,
or nothing where the answer was cut off.
-/

namespace Branchscore.Server

open Foundation Logged
set_option autoImplicit false

/-! ## The loop of `send_all` -/

/-- What `wait_for` and `send` do in one turn. -/
inductive SendTurn where
  | timeout
  | interrupted
  | failed
  | accepts (room : Nat)
  deriving DecidableEq, Repr

/-- The pieces that go to the socket behind the first `sent` bytes, and what `send_all` returns.
The deadline has passed behind the last of the turns. -/
def sendFrom (text : Bytes) (sent : Nat) : List SendTurn → List Bytes × Bool
  | [] => ([], text.length ≤ sent)
  | turn :: turns =>
    if text.length ≤ sent then ([], true)
    else
      match turn with
      | .timeout | .failed => ([], false)
      | .interrupted => sendFrom text sent turns
      | .accepts room =>
        let count := min room (text.length - sent)
        if count = 0 then ([], false)
        else
          let (pieces, done) := sendFrom text (sent + count) turns
          ((text.drop sent).take count :: pieces, done)

def sendAll (text : Bytes) (turns : List SendTurn) : List Bytes × Bool := sendFrom text 0 turns

/-- What is left behind the pieces, and nothing is left if all are reported as sent. -/
structure Leaves (text : Bytes) (sending : List Bytes × Bool) (rest : Bytes) : Prop where
  pieces : sending.1.flatten ++ rest = text
  done : sending.2 = true ↔ rest = []

theorem sendFrom_leaves (text : Bytes) (sent : Nat) (turns : List SendTurn) :
    ∃ rest, Leaves (text.drop sent) (sendFrom text sent turns) rest := by
  induction turns generalizing sent with
  | nil =>
    refine ⟨text.drop sent, rfl, ?_⟩
    rw [sendFrom, decide_eq_true_iff, List.drop_eq_nil_iff]
  | cons turn turns ih =>
    unfold sendFrom
    by_cases hend : text.length ≤ sent
    · rw [if_pos hend]
      exact ⟨text.drop sent, rfl, iff_of_true rfl (List.drop_eq_nil_of_le hend)⟩
    · have hstopped : Leaves (text.drop sent) ([], false) (text.drop sent) := by
        refine ⟨rfl, iff_of_false Bool.false_ne_true ?_⟩
        exact fun h => hend (List.drop_eq_nil_iff.mp h)
      rw [if_neg hend]
      cases turn with
      | timeout => exact ⟨_, hstopped⟩
      | failed => exact ⟨_, hstopped⟩
      | interrupted => exact ih sent
      | accepts room =>
        dsimp only
        by_cases hnone : min room (text.length - sent) = 0
        · rw [if_pos hnone]
          exact ⟨_, hstopped⟩
        · rw [if_neg hnone]
          obtain ⟨rest, hpieces, hdone⟩ := ih (sent + min room (text.length - sent))
          refine ⟨rest, ?_, hdone⟩
          rw [List.flatten_cons, List.append_assoc, hpieces, ← List.drop_drop, List.take_append_drop]

theorem sendAll_leaves (text : Bytes) (turns : List SendTurn) :
    ∃ rest, Leaves text (sendAll text turns) rest :=
  sendFrom_leaves text 0 turns

/-- A client reads what was sent in full, and nothing else. -/
theorem read_sendAll {message : HttpResponse} (h : message.Framed) (turns : List SendTurn) :
    HttpResponse.read (sendAll message.print turns).1.flatten =
      if (sendAll message.print turns).2 then some message else none := by
  obtain ⟨rest, hpieces, hdone⟩ := sendAll_leaves message.print turns
  by_cases hall : (sendAll message.print turns).2 = true
  · rw [hdone.mp hall, List.append_nil] at hpieces
    rw [if_pos hall, hpieces]
    exact h.read_print
  · rw [if_neg hall]
    exact h.read_cut (fun hnil => hall (hdone.mpr hnil)) hpieces

/-! ## The messages -/

/-- The fields of a JSON answer. A missing token is answered with a challenge. -/
def jsonFields (status : Nat) : List (Bytes × Bytes) :=
  [(bytes "Content-Type", bytes "application/json; charset=utf-8"),
    (bytes "Cache-Control", bytes "no-store"), (bytes "Connection", bytes "close")] ++
  if status = 401 then [(bytes "WWW-Authenticate", bytes "Bearer realm=\"branchscore\"")] else []

def uiFields : List (Bytes × Bytes) :=
  [(bytes "Content-Type", bytes "text/html; charset=utf-8"),
    (bytes "Cache-Control", bytes "no-store"), (bytes "X-Content-Type-Options", bytes "nosniff"),
    (bytes "Referrer-Policy", bytes "no-referrer"),
    (bytes "Content-Security-Policy", bytes "default-src 'none'; connect-src 'self'; " ++
      bytes "style-src 'unsafe-inline'; script-src 'unsafe-inline'; img-src 'self' data:; " ++
      bytes "form-action 'self'; frame-ancestors 'none'; base-uri 'none'"),
    (bytes "X-Frame-Options", bytes "DENY"), (bytes "Connection", bytes "close")]

def jsonMessage (status : Nat) (encoded : Bytes) : HttpResponse :=
  .counting status (reasonPhrase status) (jsonFields status) encoded

def uiMessage (body : Bytes) : HttpResponse := .counting 200 (reasonPhrase 200) uiFields body

theorem reasonPhrase_line (status : Nat) : cr ∉ reasonPhrase status := by
  have hphrases : ∀ entry ∈ reasonPhrases, cr ∉ bytes entry.2 := by decide +kernel
  unfold reasonPhrase
  cases hlookup : reasonPhrases.lookup status with
  | none => decide
  | some phrase =>
    obtain ⟨front, rest, hentries, _⟩ := List.lookup_eq_some_iff.mp hlookup
    exact hphrases (status, phrase) (hentries ▸ List.mem_append_right _ List.mem_cons_self)

theorem jsonMessage_framed (status : Nat) (encoded : Bytes) :
    (jsonMessage status encoded).Framed := by
  apply HttpResponse.counting_framed (reasonPhrase_line status)
  · unfold jsonFields
    split_ifs <;> decide +kernel
  · unfold jsonFields
    split_ifs <;> decide +kernel

theorem uiMessage_framed (body : Bytes) : (uiMessage body).Framed := by
  apply HttpResponse.counting_framed (reasonPhrase_line 200)
  · decide +kernel
  · decide +kernel

theorem jsonResponse_eq (status : Nat) (encoded : Bytes) :
    jsonResponse status encoded = (jsonMessage status encoded).print := by
  have hfields : crlf ++ ((jsonFields status).map HttpResponse.fieldLine).flatMap (· ++ crlf) =
      bytes "\r\nContent-Type: application/json; charset=utf-8\r\n" ++
        (bytes "Cache-Control: no-store\r\nConnection: close\r\n" ++
          if status = 401 then bytes "WWW-Authenticate: Bearer realm=\"branchscore\"\r\n"
          else []) := by
    unfold jsonFields
    split_ifs <;> decide +kernel
  have hend : bytes "\r\n\r\n" = crlf ++ crlf := by decide +kernel
  rw [jsonMessage, HttpResponse.print_counting, ← List.append_assoc crlf, hfields, jsonResponse,
    hend]
  simp only [List.append_assoc]

/-- What the page is sent behind. -/
def uiHead : Bytes :=
  bytes "HTTP/1.1 200 OK\r\n" ++
    bytes "Content-Type: text/html; charset=utf-8\r\n" ++
    bytes "Cache-Control: no-store\r\n" ++
    bytes "X-Content-Type-Options: nosniff\r\n" ++
    bytes "Referrer-Policy: no-referrer\r\n" ++
    bytes "Content-Security-Policy: default-src 'none'; connect-src 'self'; " ++
    bytes "style-src 'unsafe-inline'; script-src 'unsafe-inline'; img-src 'self' data:; " ++
    bytes "form-action 'self'; frame-ancestors 'none'; base-uri 'none'\r\n" ++
    bytes "X-Frame-Options: DENY\r\n" ++
    bytes "Connection: close\r\n" ++
    bytes "Content-Length: "

theorem uiResponse_eq (body : Bytes) : uiResponse body = (uiMessage body).print := by
  have hhead : uiHead = bytes "HTTP/1.1 " ++ (decimal 200 ++ (bytes " " ++ (reasonPhrase 200 ++
      (crlf ++ ((uiFields.map HttpResponse.fieldLine).flatMap (· ++ crlf) ++
        bytes "Content-Length: "))))) := by
    decide +kernel
  have hend : bytes "\r\n\r\n" = crlf ++ crlf := by decide +kernel
  calc uiResponse body
      = uiHead ++ (decimal body.length ++ (crlf ++ (crlf ++ body))) := by
        simp only [uiResponse, uiHead, hend, List.append_assoc]
    _ = (uiMessage body).print := by
        rw [hhead, uiMessage, HttpResponse.print_counting]
        simp only [List.append_assoc]

/-! ## What a client reads -/

section Client
variable {D : Type} (service : Service D)

/-- What a client that has sent this body may be told. -/
inductive Says (body : Bytes) : HttpResponse → Prop where
  | success {response : Json.Value D} {encoded : Bytes} :
      Json.stringify service.numbers response = .ok encoded →
      Says body (jsonMessage 200 encoded)
  | error {status : Nat} {code encoded : Bytes} {requestId : Option Bytes} :
      status = statusForCode code ∨ status = 500 ∧ code = bytes "internal_error" →
      (∀ id, requestId = some id → Supplied service body id) →
      Json.parse service.numbers encoded = .ok (errorJson code requestId) →
      Says body (jsonMessage status encoded)
  | page {page : Bytes} : uiBody service.uiHtml = .ok page → Says body (uiMessage page)

/-- The bytes of an answer. -/
def Action.response : Action D → Option Bytes
  | .send _ response | .sendUi response => some response
  | .parse _ | .estimate _ _ | .evaluate _ _ => none

/-- However the socket takes the bytes of the answer, it gets no others, and a client reads the
message from them if `send_all` has sent all of them, and nothing otherwise. -/
def Delivers (response : Bytes) (message : HttpResponse) : Prop :=
  ∀ turns, (sendAll response turns).1.flatten <+: response ∧
    HttpResponse.read (sendAll response turns).1.flatten =
      if (sendAll response turns).2 then some message else none

theorem delivers_print {message : HttpResponse} (h : message.Framed) :
    Delivers message.print message := by
  intro turns
  obtain ⟨rest, hpieces, _⟩ := sendAll_leaves message.print turns
  exact ⟨⟨rest, hpieces⟩, read_sendAll h turns⟩

variable {service} {body : Bytes}

theorem Answer.delivers {action : Action D} (h : Answer service body action) {response : Bytes}
    (hresponse : action.response = some response) :
    ∃ message, Says service body message ∧ Delivers response message := by
  cases h with
  | success hencoded =>
    cases hresponse
    rw [jsonResponse_eq]
    exact ⟨_, .success hencoded, delivers_print (jsonMessage_framed _ _)⟩
  | error herror =>
    obtain ⟨hcoded, requestId, encoded, hid, hparse, rfl⟩ := herror
    cases hresponse
    rw [jsonResponse_eq]
    exact ⟨_, .error hcoded hid hparse, delivers_print (jsonMessage_framed _ _)⟩
  | page hpage =>
    cases hresponse
    rw [uiResponse_eq]
    exact ⟨_, .page hpage, delivers_print (uiMessage_framed _)⟩
  | other hnot => cases action <;> cases hnot <;> cases hresponse

/-- Whatever a connection receives and however the socket takes its answer, the client reads
one well-formed response, or nothing where the answer was cut off: a success, the page, or an
error that belongs to its status. -/
theorem handleConnection_delivers (service : Service D) (events : List ParserEvent)
    (ending : Ending) :
    Every (fun action => ∀ response, action.response = some response → ∃ message,
      Says service (receiveRequest service.requireBearer service.bearerToken events
        ending).request.body message ∧ Delivers response message)
      (handleConnection service events ending) :=
  fun action haction _ hresponse =>
    (handleConnection_answers service events ending action haction).delivers hresponse

end Client

end Branchscore.Server
