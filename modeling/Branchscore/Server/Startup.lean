import Branchscore.Foundation.Decimal
import Branchscore.Server.Bearer
import Branchscore.Server.Replies

/-!
# Starting and running the server

The command line and the environment decide how the server is started: it refuses, it listens
on a loopback address, or it requires a token. Then it handles one connection after the other.
-/

namespace Branchscore.Server

open Foundation Foundation.Fragmentation Outcome Logged
set_option autoImplicit false

/-! ## The port -/

/-- `std::from_chars` for an `unsigned int`: the value and how many bytes it takes. -/
def fromChars (text : Bytes) : Option (Nat × Nat) := do
  let digits := text.takeWhile fun c => (readDigit c).isSome
  let value ← readDecimal digits
  if value < 2 ^ 32 then some (value, digits.length) else none

def parsePort (text : Bytes) : Except Exception Nat :=
  match fromChars text with
  | some (value, length) =>
    if text = [] ∨ length ≠ text.length ∨ value = 0 ∨ 65535 < value then
      runtimeError "--port must be an integer from 1 to 65535"
    else .ok value
  | none => runtimeError "--port must be an integer from 1 to 65535"

theorem digits_of_readDigits {n value : Nat} {text : Bytes} (h : readDigits n text = some value) :
    ∀ c ∈ text, (readDigit c).isSome = true := by
  induction text generalizing n with
  | nil => exact nofun
  | cons c text ih =>
    rw [readDigits] at h
    obtain ⟨digit, hdigit, hrest⟩ := Option.bind_eq_some_iff.mp h
    refine List.forall_mem_cons.mpr ⟨?_, ih hrest⟩
    rw [hdigit]
    rfl

theorem readDecimal_ne_nil {text : Bytes} {value : Nat} (h : readDecimal text = some value) :
    text ≠ [] := by
  intro hnil
  rw [hnil] at h
  cases h

theorem fromChars_whole {text : Bytes} {value : Nat} :
    fromChars text = some (value, text.length) ↔ readDecimal text = some value ∧ value < 2 ^ 32 := by
  constructor
  · intro h
    obtain ⟨read, hread, h⟩ := Option.bind_eq_some_iff.mp h
    by_cases hsmall : read < 2 ^ 32
    · rw [if_pos hsmall] at h
      obtain ⟨rfl, hlength⟩ := Prod.mk.inj (Option.some.inj h)
      have hwhole := (List.takeWhile_prefix fun c => (readDigit c).isSome).eq_of_length hlength
      exact ⟨hwhole ▸ hread, hsmall⟩
    · rw [if_neg hsmall] at h
      cases h
  · intro ⟨hread, hsmall⟩
    have hdigits : text.takeWhile (fun c => (readDigit c).isSome) = text := by
      rw [readDecimal, if_neg (readDecimal_ne_nil hread)] at hread
      exact List.takeWhile_eq_self_iff.mpr (digits_of_readDigits hread)
    unfold fromChars
    dsimp only
    rw [hdigits, hread]
    exact if_pos hsmall

/-- A port is a decimal number from 1 to 65535, and nothing else. -/
theorem parsePort_eq_ok {text : Bytes} {port : Nat} :
    parsePort text = .ok port ↔ readDecimal text = some port ∧ 1 ≤ port ∧ port ≤ 65535 := by
  unfold parsePort
  constructor
  · intro h
    cases hread : fromChars text with
    | none =>
      rw [hread] at h
      cases h
    | some read =>
      obtain ⟨value, length⟩ := read
      rw [hread] at h
      dsimp only at h
      split_ifs at h with hbad
      · cases h
      · cases h
        simp only [not_or, not_not, Nat.not_lt] at hbad
        obtain ⟨_, rfl, hzero, hmax⟩ := hbad
        exact ⟨(fromChars_whole.mp hread).1, Nat.pos_of_ne_zero hzero, hmax⟩
  · intro ⟨hread, hmin, hmax⟩
    rw [fromChars_whole.mpr ⟨hread, by omega⟩]
    dsimp only
    rw [if_neg]
    simp only [not_or, not_not, Nat.not_lt]
    exact ⟨readDecimal_ne_nil hread, trivial, Nat.ne_of_gt hmin, hmax⟩

/-! ## The command line -/

structure Config where
  modelPath : Bytes := []
  mmprojPath : Bytes := []
  backend : Bytes := bytes "auto"
  host : Bytes := bytes "127.0.0.1"
  port : Nat := 8080
  deriving DecidableEq, Repr

/-- The options that take a value. -/
def valueOptions : List Bytes := ["--model", "--mmproj", "--backend", "--host", "--port"].map bytes

def setOption (config : Config) (argument value : Bytes) : Except Exception Config :=
  if argument = bytes "--model" then .ok { config with modelPath := value }
  else if argument = bytes "--mmproj" then .ok { config with mmprojPath := value }
  else if argument = bytes "--backend" then .ok { config with backend := value }
  else if argument = bytes "--host" then .ok { config with host := value }
  else do
    let port ← parsePort value
    return { config with port }

/-- `none` stands for the end of the program behind `--help`. -/
def parseArguments (config : Config) : List Bytes → Except Exception (Option Config)
  | [] =>
    if config.modelPath = [] ∨ config.mmprojPath = [] then
      runtimeError "--model and --mmproj are required"
    else .ok (some config)
  | argument :: arguments =>
    if argument ∈ valueOptions then
      match arguments with
      | [] => .error (.runtimeError (bytes "missing value for " ++ argument))
      | value :: arguments => do
        let config ← setOption config argument value
        parseArguments config arguments
    else if argument = bytes "--help" then .ok none
    else .error (.runtimeError (bytes "unknown argument: " ++ argument))

theorem setOption_throws (config : Config) (argument value : Bytes) :
    Throws (setOption config argument value) := by
  unfold setOption
  split_ifs
  iterate 4 exact .ok _
  refine Throws.bind ?_ fun port => .ok _
  unfold parsePort
  split
  · split_ifs
    · exact .runtimeError _
    · exact .ok _
  · exact .runtimeError _

theorem parseArguments_throws (config : Config) (arguments : List Bytes) :
    Throws (parseArguments config arguments) := by
  induction config, arguments using parseArguments.induct with
  | case1 config hmissing =>
    rw [parseArguments, if_pos hmissing]
    exact .runtimeError _
  | case2 config hpaths =>
    rw [parseArguments, if_neg hpaths]
    exact .ok _
  | case3 config argument hvalue =>
    rw [parseArguments, if_pos hvalue]
    exact .runtimeError _
  | case4 config argument hvalue value arguments ih =>
    rw [parseArguments, if_pos hvalue]
    exact (setOption_throws config argument value).bind ih
  | case5 config arguments hvalue =>
    unfold parseArguments
    rw [if_neg hvalue, if_pos rfl]
    exact .ok none
  | case6 config argument arguments hvalue hhelp =>
    unfold parseArguments
    rw [if_neg hvalue, if_neg hhelp]
    exact .runtimeError _

def Config.PortStands (config : Config) : Prop := 1 ≤ config.port ∧ config.port ≤ 65535

theorem setOption_port {config final : Config} {argument value : Bytes} (h : config.PortStands)
    (hset : setOption config argument value = .ok final) : final.PortStands := by
  unfold setOption at hset
  split_ifs at hset
  iterate 4
    cases hset
    exact h
  obtain ⟨port, hport, hset⟩ := bind_eq_ok.mp hset
  cases hset
  exact (parsePort_eq_ok.mp hport).2

/-- What a configuration that the program goes on with satisfies. -/
structure Config.Complete (config : Config) : Prop where
  modelPath : config.modelPath ≠ []
  mmprojPath : config.mmprojPath ≠ []
  port : config.PortStands

theorem parseArguments_complete {config final : Config} {arguments : List Bytes}
    (hport : config.PortStands) (h : parseArguments config arguments = .ok (some final)) :
    final.Complete := by
  induction config, arguments using parseArguments.induct with
  | case1 config hmissing =>
    rw [parseArguments, if_pos hmissing] at h
    cases h
  | case2 config hpaths =>
    rw [parseArguments, if_neg hpaths] at h
    cases h
    rw [not_or] at hpaths
    exact ⟨hpaths.1, hpaths.2, hport⟩
  | case3 config argument hvalue =>
    rw [parseArguments, if_pos hvalue] at h
    cases h
  | case4 config argument hvalue value arguments ih =>
    rw [parseArguments, if_pos hvalue] at h
    obtain ⟨next, hset, h⟩ := bind_eq_ok.mp h
    exact ih next (setOption_port hport hset) h
  | case5 config arguments hvalue =>
    unfold parseArguments at h
    rw [if_neg hvalue, if_pos rfl] at h
    cases h
  | case6 config argument arguments hvalue hhelp =>
    unfold parseArguments at h
    rw [if_neg hvalue, if_neg hhelp] at h
    cases h

/-! ## Who may connect -/

/-- `inet_pton` for both families, with the first address in host order. -/
structure AddressLibrary where
  inetPton4 : Bytes → Option (BitVec 32)
  inetPton6 : Bytes → Option (BitVec 128)

section Start
variable (library : AddressLibrary)

def isLoopbackHost (host : Bytes) : Bool :=
  if lowercase host = bytes "localhost" then true
  else
    match library.inetPton4 host with
    | some address => address >>> 24 = 127#32
    | none => library.inetPton6 host = some 1#128

/-- What `main` goes on with behind its checks. -/
structure Start where
  config : Config
  requireBearer : Bool
  bearerToken : Bytes
  deriving DecidableEq, Repr

/-- `configured` is the token of the environment. -/
def requireToken (config : Config) (configured : Option Bytes) : Except Exception Start :=
  if isLoopbackHost library config.host then .ok ⟨config, false, []⟩
  else
    match configured with
    | none | some [] =>
      runtimeError "non-loopback bind requires BRANCHSCORE_BEARER_TOKEN before model load"
    | some token =>
      if token.any (fun c => c < 0x21 || 0x7e < c) then
        runtimeError "bearer token must use visible non-space ASCII"
      else .ok ⟨config, true, token⟩

/-- `none` stands for `--help` again. -/
def start (arguments : List Bytes) (configured : Option Bytes) :
    Except Exception (Option Start) := do
  match ← parseArguments {} arguments with
  | none => return none
  | some config =>
    let started ← requireToken library config configured
    return some started

theorem requireToken_throws (config : Config) (configured : Option Bytes) :
    Throws (requireToken library config configured) := by
  unfold requireToken
  split
  · exact .ok _
  · split
    · exact .runtimeError _
    · exact .runtimeError _
    · split
      · exact .runtimeError _
      · exact .ok _

theorem start_throws (arguments : List Bytes) (configured : Option Bytes) :
    Throws (start library arguments configured) := by
  refine (parseArguments_throws {} arguments).bind fun parsed => ?_
  cases parsed with
  | none => exact .ok none
  | some config => exact (requireToken_throws library config configured).bind fun _ => .ok _

/-- Whoever can reach the server from another host must have its token. -/
structure Start.Protected (started : Start) : Prop where
  complete : started.config.Complete
  required : started.requireBearer = !isLoopbackHost library started.config.host
  nonempty : started.requireBearer = true → started.bearerToken ≠ []
  visible : ∀ c ∈ started.bearerToken, 0x21 ≤ c ∧ c ≤ 0x7e

variable {library}

theorem requireToken_protected {config : Config} {configured : Option Bytes} {started : Start}
    (hcomplete : config.Complete) (h : requireToken library config configured = .ok started) :
    started.Protected library := by
  unfold requireToken at h
  cases hloopback : isLoopbackHost library config.host with
  | true =>
    rw [hloopback, if_pos rfl] at h
    cases h
    refine ⟨hcomplete, ?_, Bool.noConfusion, nofun⟩
    rw [hloopback]
    rfl
  | false =>
    rw [hloopback, if_neg Bool.false_ne_true] at h
    rcases configured with _ | _ | ⟨c, token⟩
    · cases h
    · cases h
    · dsimp only at h
      split_ifs at h with hvisible
      · cases h
      · cases h
        refine ⟨hcomplete, ?_, fun _ => List.cons_ne_nil _ _, fun b hb => ?_⟩
        · rw [hloopback]
          rfl
        · have hnot := fun h => hvisible (List.any_eq_true.mpr ⟨b, hb, h⟩)
          rwa [Bool.or_eq_true, decide_eq_true_iff, decide_eq_true_iff, imp_false, not_or, not_lt,
            not_lt] at hnot

theorem start_protected {arguments : List Bytes} {configured : Option Bytes} {started : Start}
    (h : start library arguments configured = .ok (some started)) : started.Protected library := by
  obtain ⟨parsed, hparsed, h⟩ := bind_eq_ok.mp h
  cases parsed with
  | none => cases h
  | some config =>
    obtain ⟨read, hread, h⟩ := bind_eq_ok.mp h
    cases h
    exact requireToken_protected (parseArguments_complete ⟨by decide, by decide⟩ hparsed) hread

end Start

/-! ## The run -/

variable {D : Type}

/-- What `main` loads behind its checks, and the libraries of a service. -/
structure Machine (D : Type) where
  addresses : AddressLibrary
  prepare : Config → Except Exception (Engine D)
  uiHtml : Bytes
  numbers : Json.NumberLibrary D
  ofSize : Nat → D
  stb : StbImage

/-- What `poll` and `accept` do in one turn, and what comes in over the connection. -/
inductive Turn (D : Type) where
  | idle
  | interrupted
  | pollFailed
  | acceptFailed (stopping : Bool)
  | connection (events : List ParserEvent) (ending : Ending) (handlingMs : D)

/-- A connection of the run: what came in, and what was done with it. -/
structure Visit (D : Type) where
  events : List ParserEvent
  ending : Ending
  handled : Connection D Unit

def visit (service : Service D) (events : List ParserEvent) (ending : Ending) : Visit D :=
  ⟨events, ending, handleConnection service events ending⟩

/-- The loop of `run_server`. The server is stopped behind the last of the turns. -/
def serve (service : D → Service D) : List (Turn D) → Logged (Visit D) Exception Unit
  | [] => pure ()
  | .idle :: turns | .interrupted :: turns => serve service turns
  | .pollFailed :: _ => .lift (runtimeError "listener poll failed")
  | .acceptFailed stopping :: _ =>
    if stopping then pure () else .lift (runtimeError "failed to accept HTTP connection")
  | .connection events ending handlingMs :: turns => do
    let visited := visit (service handlingMs) events ending
    .call visited visited.handled.result
    serve service turns

def Machine.service (machine : Machine D) (started : Start) (engine : Engine D) (handlingMs : D) :
    Service D where
  requireBearer := started.requireBearer
  bearerToken := started.bearerToken
  modelId := bytes "branchscore-local"
  uiHtml := machine.uiHtml
  engine := engine
  numbers := machine.numbers
  ofSize := machine.ofSize
  stb := machine.stb
  handlingMs := handlingMs

def run (machine : Machine D) (arguments : List Bytes) (configured : Option Bytes)
    (turns : List (Turn D)) : Logged (Visit D) Exception Nat := do
  match ← .lift (start machine.addresses arguments configured) with
  | none => return 0
  | some started =>
    let engine ← .lift (machine.prepare started.config)
    serve (machine.service started engine) turns
    return 0

/-- The exit code of the program. -/
def main (machine : Machine D) (arguments : List Bytes) (configured : Option Bytes)
    (turns : List (Turn D)) : Logged (Visit D) Exception Nat :=
  (run machine arguments configured turns).handle fun
    | .undefinedBehavior => .lift (.error .undefinedBehavior)
    | .diverges => .lift (.error .diverges)
    | _ => pure 1

section Run
variable {service : D → Service D} {turns : List (Turn D)}

/-- What holds of every connection that is handled alone holds along the run. -/
theorem serve_every {P : Visit D → Prop}
    (h : ∀ handlingMs events ending, P (visit (service handlingMs) events ending)) :
    Every P (serve service turns) := by
  induction turns with
  | nil => exact .lift _
  | cons turn turns ih =>
    cases turn with
    | idle => exact ih
    | interrupted => exact ih
    | pollFailed => exact .lift _
    | acceptFailed stopping =>
      unfold serve
      split_ifs
      · exact .lift _
      · exact .lift _
    | connection events ending handlingMs =>
      exact Every.bind (.call (h handlingMs events ending) _) fun _ _ => ih

/-- What comes in over the connection of a turn. -/
def Turn.received : Turn D → Option (List ParserEvent × Ending)
  | .connection events ending _ => some (events, ending)
  | .idle | .interrupted | .pollFailed | .acceptFailed _ => none

def Visit.received (visit : Visit D) : List ParserEvent × Ending := (visit.events, visit.ending)

/-- Connections are handled in the order they are accepted in, each once and none is left out. -/
theorem serve_order (service : D → Service D) (turns : List (Turn D)) :
    (serve service turns).log.map Visit.received <+: turns.filterMap Turn.received := by
  induction turns with
  | nil => exact List.nil_prefix
  | cons turn turns ih =>
    cases turn with
    | idle => exact ih
    | interrupted => exact ih
    | pollFailed => exact List.nil_prefix
    | acceptFailed stopping =>
      unfold serve
      split_ifs
      · exact List.nil_prefix
      · exact List.nil_prefix
    | connection events ending handlingMs =>
      rw [List.filterMap_cons_some (show Turn.received _ = some (events, ending) from rfl)]
      unfold serve
      cases hresult : (visit (service handlingMs) events ending).handled.result with
      | error e =>
        rw [bind_of_error (by rw [result_call, hresult])]
        exact (List.prefix_cons_inj _).mpr List.nil_prefix
      | ok u =>
        rw [bind_of_ok (by rw [result_call, hresult]), log_call, List.singleton_append,
          List.map_cons]
        exact (List.prefix_cons_inj _).mpr ih

/-- A connection that ends as no exception does ends the run. -/
theorem serve_error {visited : Visit D} {e : Exception}
    (hvisited : visited ∈ (serve service turns).log) (he : visited.handled.result = .error e) :
    (serve service turns).result = .error e := by
  induction turns with
  | nil => cases hvisited
  | cons turn turns ih =>
    cases turn with
    | idle => exact ih hvisited
    | interrupted => exact ih hvisited
    | pollFailed => cases hvisited
    | acceptFailed stopping =>
      unfold serve at hvisited
      split_ifs at hvisited
      · cases hvisited
      · cases hvisited
    | connection events ending handlingMs =>
      unfold serve at hvisited ⊢
      dsimp only at hvisited ⊢
      rw [result_bind, result_call]
      rcases mem_log_bind.mp hvisited with hnow | ⟨u, hu, hlater⟩
      · rw [List.mem_singleton.mp hnow] at he
        rw [he]
        rfl
      · rw [result_call] at hu
        rw [hu]
        exact ih hlater

def Visit.Fails (visit : Visit D) (e : Exception) : Prop := visit.handled.result = .error e

theorem serve_traced (service : D → Service D) (turns : List (Turn D)) :
    Traced Stuck Visit.Fails (serve service turns) := by
  induction turns with
  | nil => exact .lift (Throws.ok ())
  | cons turn turns ih =>
    cases turn with
    | idle => exact ih
    | interrupted => exact ih
    | pollFailed => exact .lift (Throws.runtimeError _)
    | acceptFailed stopping =>
      unfold serve
      split_ifs
      · exact .lift (Throws.ok ())
      · exact .lift (Throws.runtimeError _)
    | connection events ending handlingMs =>
      exact Traced.bind (.call fun e he _ => he) fun _ _ => ih

end Run

/-! ## The whole program -/

/-- A request that comes with the whole of its message or less is served behind its token. -/
theorem privileged_bearerHeader {service : Service D} {m : Message} {events : List ParserEvent}
    {ending : Ending} (hrequire : service.requireBearer = true)
    (hvisible : ∀ c ∈ service.bearerToken, 0x21 ≤ c ∧ c ≤ 0x7e) (hevents : events <+: m.events) :
    Every (fun action => action.Privileged → BearerHeader service.bearerToken m.headers)
      (handleConnection service events ending) := by
  intro action haction hprivileged
  obtain ⟨hstatus, hurl⟩ := privileged_received haction hprivileged
  rw [hrequire] at hstatus hurl
  obtain ⟨request, hcompleted, hrequest⟩ := receiveRequest_completed hstatus
  rw [prefix_completed rfl hevents hcompleted] at hcompleted
  obtain ⟨checked, final, hhead, hchecked, rfl, _, hkeeps⟩ := events_completed hcompleted
  have hzero : 0 ∉ service.bearerToken := fun hmem => absurd (hvisible 0 hmem).1 (by decide)
  have hfits := @foldlM_fits (initialContext true service.bearerToken) checked m.head
    ⟨Nat.zero_le _, Nat.zero_le _⟩ rfl hhead
  apply bearerHeader_of_checked hzero hchecked hfits
  rw [← hchecked.url, ← hkeeps.url, ← hrequest]
  exact hurl

/-- The connection is answered once, and nothing but the page is handed out on it without the token
that the server was started with. -/
structure Visit.Served (started : Start) (visit : Visit D) : Prop where
  answered : AnswersOnce visit.handled
  guarded : started.requireBearer = true → ∀ m : Message, visit.events <+: m.events →
    Every (fun action => action.Privileged → BearerHeader started.bearerToken m.headers)
      visit.handled

theorem visit_served {machine : Machine D} {started : Start}
    (h : started.Protected machine.addresses) (engine : Engine D) (handlingMs : D)
    (events : List ParserEvent) (ending : Ending) :
    (visit (machine.service started engine handlingMs) events ending).Served started :=
  ⟨handleConnection_once _ events ending,
    fun hrequire _ hevents => privileged_bearerHeader hrequire h.visible hevents⟩

section Main
variable {machine : Machine D} {arguments : List Bytes} {configured : Option Bytes}
  {turns : List (Turn D)}

/-- What the log of a run is of. -/
inductive Runs (machine : Machine D) (arguments : List Bytes) (configured : Option Bytes)
    (turns : List (Turn D)) : Prop where
  | refused : (run machine arguments configured turns).log = [] →
      (∀ e, (run machine arguments configured turns).result = .error e → Stuck e →
        ∃ config, machine.prepare config = .error e) → Runs machine arguments configured turns
  | served {started : Start} {engine : Engine D} :
      start machine.addresses arguments configured = .ok (some started) →
      run machine arguments configured turns =
        serve (machine.service started engine) turns >>= (fun _ => pure 0) →
      Runs machine arguments configured turns

theorem run_spec (machine : Machine D) (arguments : List Bytes) (configured : Option Bytes)
    (turns : List (Turn D)) : Runs machine arguments configured turns := by
  cases hstart : start machine.addresses arguments configured with
  | error e =>
    have hrun : run machine arguments configured turns = .lift (.error e) := by
      rw [run, hstart]
      exact lift_bind_error e _
    refine .refused (by rw [hrun]; rfl) fun e' he' hstuck => ?_
    rw [hrun] at he'
    cases he'
    exact absurd hstuck ((start_throws _ _ _).of_eq_error hstart)
  | ok started =>
    cases started with
    | none =>
      have hrun : run machine arguments configured turns = pure 0 := by
        rw [run, hstart]
        exact lift_bind_ok none _
      refine .refused (by rw [hrun]; rfl) fun e he _ => ?_
      rw [hrun] at he
      cases he
    | some started =>
      cases hprepare : machine.prepare started.config with
      | error e =>
        have hrun : run machine arguments configured turns = .lift (.error e) := by
          rw [run, hstart, lift_bind_ok]
          dsimp only
          rw [hprepare]
          exact lift_bind_error e _
        refine .refused (by rw [hrun]; rfl) fun e' he' _ => ?_
        rw [hrun] at he'
        cases he'
        exact ⟨_, hprepare⟩
      | ok engine =>
        refine @Runs.served _ _ _ _ _ started engine hstart ?_
        rw [run, hstart, lift_bind_ok]
        dsimp only
        rw [hprepare, lift_bind_ok]

theorem run_log_of_served {service : D → Service D}
    (h : run machine arguments configured turns = serve service turns >>= fun _ => pure 0) :
    (run machine arguments configured turns).log = (serve service turns).log ∧
      ∀ e, (run machine arguments configured turns).result = .error e ↔
        (serve service turns).result = .error e := by
  rw [h]
  cases hresult : (serve service turns).result with
  | ok u =>
    rw [bind_of_ok hresult]
    exact ⟨List.append_nil _, fun e => ⟨nofun, nofun⟩⟩
  | error e =>
    rw [bind_of_error hresult]
    refine ⟨rfl, fun e' => ⟨fun h => ?_, fun h => ?_⟩⟩
    · cases h
      rfl
    · cases h
      rfl

theorem main_log : (main machine arguments configured turns).log =
    (run machine arguments configured turns).log := by
  unfold main
  cases hrun : (run machine arguments configured turns).result with
  | ok code => rw [handle_of_ok hrun]
  | error e =>
    rw [handle_of_error hrun]
    cases e <;> exact List.append_nil _

theorem main_error {e : Exception} :
    (main machine arguments configured turns).result = .error e ↔
      Stuck e ∧ (run machine arguments configured turns).result = .error e := by
  unfold main
  cases hrun : (run machine arguments configured turns).result with
  | ok code =>
    rw [handle_of_ok hrun, hrun]
    exact ⟨nofun, fun h => nomatch h.2⟩
  | error e' =>
    rw [handle_of_error hrun]
    constructor
    · intro h
      cases e' with
      | undefinedBehavior => exact ⟨Or.inl (Except.error.inj h).symm, h⟩
      | diverges => exact ⟨Or.inr (Except.error.inj h).symm, h⟩
      | _ => cases h
    · rintro ⟨rfl | rfl, h⟩
      · cases h
        rfl
      · cases h
        rfl

end Main

/-- However the program is started and whatever reaches it: it handles the connections in the
order they come in, each is answered once, and where other hosts can reach it, nothing is parsed,
decided or answered with a JSON success without its token (the page needs none). Only the loading
or a call to the engine that does not end as a C++ exception ends a run without an exit code. -/
theorem main_serves (machine : Machine D) (arguments : List Bytes) (configured : Option Bytes)
    (turns : List (Turn D)) :
    let program := main machine arguments configured turns
    program.log.map Visit.received <+: turns.filterMap Turn.received ∧
    (∀ visit ∈ program.log, ∃ started,
      start machine.addresses arguments configured = .ok (some started) ∧
      started.Protected machine.addresses ∧ visit.Served started ∧
      ∀ e, visit.handled.result = .error e → program.result = .error e) ∧
    ∀ e, program.result = .error e → Stuck e ∧
      ((∃ config, machine.prepare config = .error e) ∨
        ∃ visit ∈ program.log, ∃ action ∈ visit.handled.log, action.Fails e) := by
  intro program
  have hlog : program.log = (run machine arguments configured turns).log := main_log
  have herror : ∀ e, program.result = .error e ↔
      Stuck e ∧ (run machine arguments configured turns).result = .error e := fun e => main_error
  rw [hlog]
  cases run_spec machine arguments configured turns with
  | refused hempty hfails =>
    rw [hempty]
    refine ⟨List.nil_prefix, nofun, fun e he => ?_⟩
    obtain ⟨hstuck, hresult⟩ := (herror e).mp he
    exact ⟨hstuck, Or.inl (hfails e hresult hstuck)⟩
  | @served started engine hstart hrun =>
    obtain ⟨hserved, hresults⟩ := run_log_of_served hrun
    have hprotected := start_protected hstart
    have hends : Every (fun visit => ∀ e, visit.handled.result = .error e →
        Stuck e ∧ ∃ action ∈ visit.handled.log, action.Fails e)
        (serve (machine.service started engine) turns) :=
      serve_every fun handlingMs events ending =>
        handleConnection_stuck (machine.service started engine handlingMs) events ending
    rw [hserved]
    refine ⟨serve_order _ _, fun visit hvisit => ⟨started, hstart, hprotected, ?_, ?_⟩, ?_⟩
    · exact serve_every (visit_served hprotected engine) visit hvisit
    · intro e he
      have hstuck := (hends visit hvisit e he).1
      exact (herror e).mpr ⟨hstuck, (hresults e).mpr (serve_error hvisit he)⟩
    · intro e he
      obtain ⟨hstuck, hresult⟩ := (herror e).mp he
      obtain ⟨visit, hvisit, hfails⟩ := serve_traced _ _ e ((hresults e).mp hresult) hstuck
      exact ⟨hstuck, Or.inr ⟨visit, hvisit, (hends visit hvisit e hfails).2⟩⟩

end Branchscore.Server
