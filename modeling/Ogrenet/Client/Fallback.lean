import Ogrenet.Client.Classify

/-!
# Ordered protocol fallback

`HTTPClientTransport.roundTrip` of `client/facade_fallback.go`. What the protocol transports, the
caller's `GetBody` and the request context do is a parameter: an `Outcome` and a body for each
index, which stands for any behaviour, also one that depends on the attempts before. The model
returns the attempts that were made together with the result.
-/

namespace Ogrenet.Client

/-- `HTTPProtocol` is a `uint8`; `other` are the values that are none of its constants. -/
inductive HTTPProtocol where
  | http1
  | http2
  | http3
  | other (v : UInt8)
  deriving DecidableEq, Repr

/-- `HTTPProtocol.String()`. -/
def HTTPProtocol.string : HTTPProtocol → String
  | .http1 => "http/1.1"
  | .http2 => "h2"
  | .http3 => "h3"
  | .other _ => "unknown"

/-- `HTTPFallbackPolicy` is a `uint8`; `other` are the values that are none of its constants. -/
inductive FallbackPolicy where
  | disabled
  | safeReplay
  | other (v : UInt8)
  deriving DecidableEq, Repr

/-- The field `Body` of a request. -/
inductive Body (β : Type) where
  | nil
  | noBody
  | stream (b : β)
  deriving DecidableEq, Repr

def Body.absent {β : Type} : Body β → Bool
  | .nil | .noBody => true
  | .stream _ => false

/-- What `roundTrip` reads of a request: `scheme` is that of its URL, `none` for a nil URL, and
`getBody` whether `GetBody` is set. -/
structure Request (β : Type) where
  method : String
  scheme : Option String
  body : Body β
  getBody : Bool
  deriving DecidableEq, Repr

/-- An `HTTPClientTransport`; a nil one is as good as a closed one. -/
structure HTTPClientTransport where
  attempts : List HTTPProtocol
  fallback : FallbackPolicy
  closed : Bool := false
  deriving DecidableEq, Repr

/-- What an attempt returned, and the cause of the request context after it. -/
structure Outcome (ρ : Type) where
  resp : Option ρ := none
  err : Option GoError := none
  cause : Option GoError := none

/-- How the attempt at an index goes, and what `GetBody` returns before it. -/
structure Behaviour (ρ β : Type) where
  outcome : ℕ → Outcome ρ
  body : ℕ → Except GoError β

structure Attempt (β : Type) where
  protocol : HTTPProtocol
  index : ℕ
  body : Body β
  deriving DecidableEq, Repr

abbrev HTTPAttemptError := HTTPProtocol × GoError

/-- The response with the error beside it, an error, or an `*HTTPFallbackError`. -/
inductive Result (ρ : Type) where
  | response (resp : ρ) (err : Option GoError)
  | failed (err : GoError)
  | fallback (attempts : List HTTPAttemptError)

/-- An `*HTTPFallbackError` as an error, with its `Unwrap`. -/
def fallbackError (attempts : List HTTPAttemptError) : GoError :=
  .mk { text := "client: HTTP protocol fallback failed" } (attempts.map Prod.snd)

def errHTTPClientTransportClosed : GoError :=
  .mk { text := "client: HTTP client transport is closed", accepts := [.httpClientTransportClosed] }
    []

def errInvalidHTTPClientConfig : GoError := .new "client: invalid HTTP client configuration"

def errNilRequest : GoError := .wrap "nil request" errInvalidHTTPClientConfig

def errNoApplicableHTTPProtocol : GoError :=
  .new "client: no configured HTTP protocol applies to request"

def errNoResponse : GoError :=
  .new "client: protocol transport returned nil response and nil error"

variable {ρ β : Type}

def protocolApplies (protocol : HTTPProtocol) (req : Request β) : Bool :=
  match req.scheme with
  | none => false
  | some scheme =>
    match protocol with
    | .http1 => scheme.toLower == "http" || scheme.toLower == "https"
    | .http2 | .http3 => scheme.toLower == "https"
    | .other _ => false

def isSafeReplayMethod (method : String) : Bool :=
  let method := if method = "" then "GET" else method
  method == "GET" || method == "HEAD" || method == "OPTIONS" || method == "TRACE"

def requestCanReplay (req : Request β) : Bool :=
  isSafeReplayMethod req.method && (req.body.absent || req.getBody)

/-- The body of the clone for an attempt, given what `GetBody` returns. -/
def cloneAttemptRequest (original : Request β) (index : ℕ) (body : Except GoError β) :
    Except GoError (Body β) :=
  if index = 0 ∨ original.body.absent then .ok original.body
  else if !original.getBody then .error (.new "request body is not replayable")
  else body.map .stream

/-- The error of an attempt without a response. -/
def Outcome.failure (o : Outcome ρ) : GoError := o.err.getD errNoResponse

def prepareError (protocol : HTTPProtocol) (err : GoError) : GoError :=
  .wrap s!"client: prepare {protocol.string} attempt" err

/-- The loop of `roundTrip` over the protocols that apply. -/
def attemptsFrom (t : HTTPClientTransport) (req : Request β) (w : Behaviour ρ β) (index : ℕ) :
    List HTTPProtocol → List HTTPAttemptError → List (Attempt β) × Result ρ
  | [], failures => ([], .fallback failures)
  | protocol :: rest, failures =>
    match cloneAttemptRequest req index (w.body index) with
    | .error err =>
      let prepErr := prepareError protocol err
      if failures = [] then ([], .failed prepErr)
      else ([], .fallback (failures ++ [(protocol, prepErr)]))
    | .ok body =>
      let attempt : Attempt β := ⟨protocol, index, body⟩
      match (w.outcome index).resp with
      | some resp => ([attempt], .response resp (w.outcome index).err)
      | none =>
        match (w.outcome index).cause with
        | some cause => ([attempt], .failed cause)
        | none =>
          let err := (w.outcome index).failure
          let failures := failures ++ [(protocol, err)]
          if rest = [] ∨ t.fallback ≠ .safeReplay ∨ requestCanReplay req = false ∨
              classifyFallback err = .never then
            if failures.length = 1 then ([attempt], .failed err)
            else ([attempt], .fallback failures)
          else
            let later := attemptsFrom t req w (index + 1) rest failures
            (attempt :: later.1, later.2)

/-- The protocols that apply to a request, in the configured order. -/
def applicable (t : HTTPClientTransport) (req : Request β) : List HTTPProtocol :=
  t.attempts.filter fun protocol => protocolApplies protocol req

/-- `roundTrip`; `none` is a nil request. -/
def roundTrip (t : HTTPClientTransport) (req : Option (Request β)) (w : Behaviour ρ β) :
    List (Attempt β) × Result ρ :=
  if t.closed then ([], .failed errHTTPClientTransportClosed)
  else
    match req with
    | none => ([], .failed errNilRequest)
    | some req =>
      if applicable t req = [] then ([], .failed errNoApplicableHTTPProtocol)
      else attemptsFrom t req w 0 (applicable t req) []

end Ogrenet.Client
