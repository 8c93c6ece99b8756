import Ogrenet.Admission.Basic

/-!
# Errors

Go error values as trees, with `errors.Is` and `errors.As` on them, and the typed envelope of
`transport/error_model.go` and `transport/error_classify.go`.
-/

namespace Ogrenet

inductive Scheme where
  | tcp
  | udp
  | tls
  | ws
  | wss
  deriving DecidableEq, Repr

/-- `Scheme.String`. -/
def Scheme.name : Scheme → String
  | .tcp => "tcp"
  | .udp => "udp"
  | .tls => "tls"
  | .ws => "ws"
  | .wss => "wss"

inductive Op where
  | dial
  | listen
  | accept
  | handshake
  | upgrade
  | read
  | write
  | send
  | receive
  | close
  | shutdown
  deriving DecidableEq, Repr

inductive ErrorKind where
  | unknown
  | closed
  | peerClosed
  | timeout
  | refused
  | reset
  | dns
  | tls
  | protocol
  | resourceExhausted
  | backpressure
  | tooLarge
  deriving DecidableEq, Repr

inductive TimeoutKind where
  | connect
  | handshake
  | write
  | readIdle
  | connectionIdle
  | maxLifetime
  | close
  deriving DecidableEq, Repr

inductive ClassifyHint where
  | none
  | tlsHandshake
  | wsUpgrade
  | wireDecode
  | messageDecode
  deriving DecidableEq, Repr

/-- The sentinel errors the code compares with: its own, those of package `wire` and of the
message, and those of the Go library and the platform. -/
inductive Sentinel where
  | closed
  | wouldBlock
  | frameExceedsQueueBudget
  | nilContext
  | invalidFramer
  | framerNotSupported
  | invalidWebSocketConfig
  | protocolMismatch
  | readBufferFull
  | messageTooLarge
  | datagramTooLarge
  | notConnected
  | peerRequired
  | peerMismatch
  | peerClosed
  | connectionRefused
  | connectionReset
  | dns
  | tls
  | protocolViolation
  | timeout
  | resourceExhausted
  | needMore
  | badMagic
  | unsupportedVersion
  | unsupportedFlags
  | frameTooLarge
  | missingCipher
  | algorithmMismatch
  | trailingData
  | invalidPayloadType
  | invalidUTF8
  | eof
  | netClosed
  | serverClosed
  | noProgress
  | canceled
  | deadlineExceeded
  | econnrefused
  | econnreset
  | epipe
  | enotconn
  deriving DecidableEq, Repr

/-- An error made outside the repository, with what the code asks of it: `netError` is what
`Timeout()` says when it implements `net.Error`, `dns` and `tls` whether it is a `*net.DNSError` or
one of the certificate errors, `status` the code of a WebSocket close error, and `accepts` the
sentinels that its own `Is` method accepts. -/
structure ForeignError where
  id : ℕ
  netError : Option Bool := none
  dns : Bool := false
  tls : Bool := false
  status : Option ℕ := none
  accepts : List Sentinel := []
  deriving DecidableEq, Repr

/-- The fields of `*transport.Error` other than its cause. -/
structure Envelope where
  op : Op
  protocol : Scheme
  kind : ErrorKind
  localAddr : Option String
  remoteAddr : Option String
  deriving DecidableEq, Repr

inductive Err where
  | sentinel (s : Sentinel)
  /-- `fmt.Errorf("text")`. -/
  | plain (text : String)
  /-- `fmt.Errorf("text: %w", e)`. -/
  | wrap (text : String) (e : Err)
  /-- `errors.Join`. -/
  | join (a b : Err)
  /-- `*TimeoutError` without and with a cause. -/
  | timeoutError (kind : TimeoutKind)
  | timeoutCause (kind : TimeoutKind) (e : Err)
  | limitError (e : LimitError)
  | categorizedCause (category : Sentinel) (e : Err)
  | operational (envelope : Envelope) (e : Err)
  | foreign (f : ForeignError)
  | foreignWrap (f : ForeignError) (e : Err)
  deriving DecidableEq, Repr

namespace Err

/-- `errors.Is` for a sentinel target. -/
def is (t : Sentinel) : Err → Bool
  | sentinel s => s == t
  | wrap _ e => e.is t
  | join a b => a.is t || b.is t
  | timeoutError _ => t == .timeout
  | timeoutCause _ e => t == .timeout || e.is t
  | limitError _ => t == .resourceExhausted
  | categorizedCause category e => t == category || e.is t
  | operational _ e => e.is t
  | plain _ => false
  | foreign f => f.accepts.contains t
  | foreignWrap f e => f.accepts.contains t || e.is t

/-- The first value that `get` finds in the order of `errors.As`, looking at a node before its
causes. -/
def findAs {β : Type} (get : Err → Option β) : Err → Option β
  | e@(wrap _ c) | e@(timeoutCause _ c) | e@(categorizedCause _ c) | e@(operational _ c)
  | e@(foreignWrap _ c) => (get e).orElse fun _ => c.findAs get
  | e@(join a b) => (get e).orElse fun _ => (a.findAs get).orElse fun _ => b.findAs get
  | e => get e

/-- `errors.As` finds a `*transport.Error`. -/
def hasOperational (e : Err) : Bool :=
  (e.findAs fun | operational _ _ => some () | _ => none).isSome

def hasTimeoutError (e : Err) : Bool :=
  (e.findAs fun | timeoutError _ | timeoutCause _ _ => some () | _ => none).isSome

def hasLimitError (e : Err) : Bool :=
  (e.findAs fun | limitError _ => some () | _ => none).isSome

def hasDNSError (e : Err) : Bool :=
  (e.findAs fun
    | foreign f | foreignWrap f _ => if f.dns then some () else none
    | _ => none).isSome

def isTLSCause (e : Err) : Bool :=
  (e.findAs fun
    | foreign f | foreignWrap f _ => if f.tls then some () else none
    | _ => none).isSome

/-- `websocket.CloseStatus`; `none` stands for -1. -/
def closeStatus (e : Err) : Option ℕ :=
  e.findAs fun
    | foreign f | foreignWrap f _ => f.status
    | _ => none

/-- `errors.As` with a `net.Error` target, and its `Timeout()`. The Go values that implement it are
`*TimeoutError`, `context.DeadlineExceeded`, `net.ErrClosed`, the platform's error numbers and
foreign errors. -/
def isTimeoutFailure (e : Err) : Bool :=
  (e.findAs fun
    | timeoutError _ | timeoutCause _ _ | sentinel .deadlineExceeded => some true
    | sentinel .netClosed | sentinel .econnrefused | sentinel .econnreset | sentinel .epipe
    | sentinel .enotconn => some false
    | foreign f | foreignWrap f _ => f.netError
    | _ => none) == some true

end Err

def categorized (category : Sentinel) (cause : Err) : Err :=
  if cause.is category then cause else .categorizedCause category cause

/-- Where an operation runs: what its errors say of it. -/
structure Site where
  protocol : Scheme
  localAddr : Option String := none
  remoteAddr : Option String := none
  deriving DecidableEq, Repr

def envelopeOperational (op : Op) (site : Site) (kind : ErrorKind) (cause : Err) : Err :=
  if cause.hasOperational then cause
  else .operational ⟨op, site.protocol, kind, site.localAddr, site.remoteAddr⟩ cause

def establishedIOOp : Op → Bool
  | .read | .write | .send | .receive | .close => true
  | _ => false

/-- `classifyPlatformCause` on Unix. -/
def classifyPlatformCause (op : Op) (e : Err) : Option (ErrorKind × Sentinel) :=
  if e.is .econnrefused then some (.refused, .connectionRefused)
  else if e.is .econnreset then some (.reset, .connectionReset)
  else if e.is .epipe then some (.peerClosed, .peerClosed)
  else if e.is .enotconn && establishedIOOp op then some (.peerClosed, .peerClosed)
  else none

/-- `classifyWSStatus`: the kind and the category of a close status that decides them. -/
def classifyWSStatus (status : ℕ) : Option (ErrorKind × Option Sentinel) :=
  if status = 1002 ∨ status = 1003 ∨ status = 1007 ∨ status = 1008 then
    some (.protocol, some .protocolViolation)
  else if status = 1009 then some (.tooLarge, some .messageTooLarge)
  else if status = 1011 then some (.unknown, none)
  else none

/-- The last part of `classifyOperational`, after the sentinels of the package. -/
def classifyForeign (op : Op) (site : Site) (cause : Err) (hint : ClassifyHint) : Err :=
  if cause.hasDNSError then envelopeOperational op site .dns (categorized .dns cause)
  else match classifyPlatformCause op cause with
  | some (kind, category) => envelopeOperational op site kind (categorized category cause)
  | none =>
    if cause.isTLSCause || hint == .tlsHandshake then
      envelopeOperational op site .tls (categorized .tls cause)
    else match cause.closeStatus.bind classifyWSStatus with
    | some (kind, some category) => envelopeOperational op site kind (categorized category cause)
    | some (kind, none) => envelopeOperational op site kind cause
    | none =>
      if hint == .wireDecode || hint == .messageDecode || hint == .wsUpgrade then
        envelopeOperational op site .protocol (categorized .protocolViolation cause)
      else envelopeOperational op site .unknown cause

def classifyOperational (op : Op) (site : Site) (cause : Err) (hint : ClassifyHint) : Err :=
  if cause.hasOperational then cause
  else if cause.hasTimeoutError then envelopeOperational op site .timeout cause
  else if cause.is .timeout then envelopeOperational op site .timeout cause
  else if cause.isTimeoutFailure then
    envelopeOperational op site .timeout (categorized .timeout cause)
  else if cause.hasLimitError || cause.is .resourceExhausted then
    envelopeOperational op site .resourceExhausted cause
  else if cause.is .closed then envelopeOperational op site .closed cause
  else if cause.is .wouldBlock then envelopeOperational op site .backpressure cause
  else if cause.is .messageTooLarge || cause.is .datagramTooLarge then
    envelopeOperational op site .tooLarge cause
  else if cause.is .frameTooLarge then
    envelopeOperational op site .tooLarge (categorized .messageTooLarge cause)
  else if cause.is .frameExceedsQueueBudget || cause.is .readBufferFull then
    envelopeOperational op site .resourceExhausted (categorized .resourceExhausted cause)
  else if cause.is .invalidFramer then envelopeOperational op site .unknown cause
  else if cause.is .peerClosed then envelopeOperational op site .peerClosed cause
  else if cause.is .connectionRefused then envelopeOperational op site .refused cause
  else if cause.is .connectionReset then envelopeOperational op site .reset cause
  else if cause.is .dns then envelopeOperational op site .dns cause
  else if cause.is .tls then envelopeOperational op site .tls cause
  else if cause.is .protocolViolation then envelopeOperational op site .protocol cause
  else classifyForeign op site cause hint

/-- `normalizeConnError`: the end of the stream and a closed socket are no error. -/
def normalizeConnError (e : Err) : Option Err :=
  if e.is .eof || e.is .netClosed then none else some e

/-- `normalizeWSError`, where a normal or going-away close status is no error either. -/
def normalizeWSError (e : Err) : Option Err :=
  if e.is .eof || e.is .netClosed then none
  else if e.closeStatus = some 1000 ∨ e.closeStatus = some 1001 then none
  else some e

def normalizePacketError (e : Err) : Option Err := if e.is .netClosed then none else some e

/-! ### What a classification gives -/

/-- What `classifyOperational` makes of a cause: the cause itself when it is classified already, or
an envelope around it, with or without a category. -/
def Err.Classified (cause : Err) (e : Err) : Prop :=
  (cause.hasOperational = true ∧ e = cause) ∨
    ∃ envelope, e = .operational envelope cause ∨
      ∃ category, e = .operational envelope (.categorizedCause category cause)

section Classified

variable {op : Op} {site : Site} {kind : ErrorKind} {cause : Err} {hint : ClassifyHint}

lemma Err.Classified.ite {p : Prop} [Decidable p] {a b : Err} (ha : cause.Classified a)
    (hb : cause.Classified b) : cause.Classified (if p then a else b) := by
  split
  · exact ha
  · exact hb

lemma envelopeOperational_classified (h : cause.hasOperational = false) :
    cause.Classified (envelopeOperational op site kind cause) := by
  rw [envelopeOperational, h]
  exact Or.inr ⟨_, Or.inl rfl⟩

lemma envelopeOperational_categorized (h : cause.hasOperational = false) {category : Sentinel} :
    cause.Classified (envelopeOperational op site kind (categorized category cause)) := by
  rw [categorized]
  split
  · exact envelopeOperational_classified h
  · have hcat : (Err.categorizedCause category cause).hasOperational = false := h
    rw [envelopeOperational, hcat]
    exact Or.inr ⟨_, Or.inr ⟨category, rfl⟩⟩

lemma classifyForeign_classified (h : cause.hasOperational = false) :
    cause.Classified (classifyForeign op site cause hint) := by
  simp only [classifyForeign]
  repeat' split
  all_goals first
    | exact envelopeOperational_classified h
    | exact envelopeOperational_categorized h

lemma classifyOperational_classified :
    cause.Classified (classifyOperational op site cause hint) := by
  cases h : cause.hasOperational with
  | true => exact Or.inl ⟨h, by rw [classifyOperational, if_pos h]⟩
  | false =>
    have plain := fun kind => @envelopeOperational_classified op site kind cause h
    have under := fun kind category =>
      @envelopeOperational_categorized op site kind cause h category
    rw [classifyOperational, if_neg (by rw [h]; decide)]
    refine .ite (plain _) <| .ite (plain _) <| .ite (under _ _) <| .ite (plain _) <|
      .ite (plain _) <| .ite (plain _) <| .ite (plain _) <| .ite (under _ _) <|
      .ite (under _ _) <| .ite (plain _) <| .ite (plain _) <| .ite (plain _) <|
      .ite (plain _) <| .ite (plain _) <| .ite (plain _) <| .ite (plain _) ?_
    exact classifyForeign_classified h

lemma Err.Classified.hasOperational {e : Err} (h : cause.Classified e) :
    e.hasOperational = true := by
  rcases h with ⟨h, rfl⟩ | ⟨envelope, rfl | ⟨category, rfl⟩⟩
  · exact h
  · rfl
  · rfl

end Classified

/-! ### Errors in the typed envelope -/

/-- The error, if there is one, carries no `*transport.Error`. -/
def Bare (o : Option Err) : Prop := ∀ e, o = some e → e.hasOperational = false

/-- The error is what `classifyOperational` makes of a cause without a `*transport.Error`. -/
def Err.Enveloped (e : Err) : Prop :=
  ∃ op site cause hint, e = classifyOperational op site cause hint ∧ cause.hasOperational = false

/-- The error is in the typed envelope; when `clean` holds, it was put there by
`classifyOperational`. -/
def Err.Typed (clean : Prop) (e : Err) : Prop := e.hasOperational = true ∧ (clean → e.Enveloped)

/-- A `*TimeoutError` is the cause of an envelope of kind `ErrorTimeout`. -/
def Err.TimeoutShaped (e : Err) : Prop := e.hasTimeoutError = true →
  ∃ envelope cause, e = .operational envelope cause ∧ envelope.kind = .timeout ∧
    cause.hasTimeoutError = true

lemma Err.Enveloped.timeoutShaped {e : Err} (h : e.Enveloped) : e.TimeoutShaped := by
  obtain ⟨op, site, cause, hint, rfl, hbare⟩ := h
  intro ht
  have hcause : cause.hasTimeoutError = true := by
    rcases @classifyOperational_classified op site cause hint
      with ⟨hop, -⟩ | ⟨envelope, he | ⟨category, he⟩⟩
    · rw [hbare] at hop
      cases hop
    · rw [he] at ht
      exact ht
    · rw [he] at ht
      exact ht
  refine ⟨⟨op, site.protocol, .timeout, site.localAddr, site.remoteAddr⟩, cause, ?_, rfl, hcause⟩
  simp [classifyOperational, envelopeOperational, hbare, hcause]

end Ogrenet
