import Mathlib.Algebra.Order.Ring.Int
import Mathlib.Tactic.Common

/-!
# Errors of HTTP attempts

An error of a protocol transport as a tree, with what `classifyFallback` of
`client/facade_fallback.go` asks of its nodes: the sentinels a node accepts, by identity or by its
own `Is` method, and the types that `errors.As` finds it to be.
-/

namespace Ogrenet.Client

inductive Sentinel where
  | canceled
  | deadlineExceeded
  | httpClientTransportClosed
  | http3TransportClosed
  | httpProtocolUnavailable
  /-- `http3.ErrTransportClosed` of quic-go, and `quic.ErrTransportClosed`. -/
  | rawHTTP3TransportClosed
  | quicTransportClosed
  | eof
  | unexpectedEOF
  | netClosed
  deriving DecidableEq, Repr

/-- `HTTP3ErrorKind` is a `uint8`; `other` are the values that are none of its constants. -/
inductive HTTP3ErrorKind where
  | unknown
  | transport
  | protocol
  | closed
  | other (v : UInt8)
  deriving DecidableEq, Repr

/-- A type that `errors.As` looks for, with what is then read of the value. -/
inductive ErrorType where
  | unknownAuthority
  | hostname
  | certificateInvalid
  | alert (code : UInt8)
  | http3 (kind : HTTP3ErrorKind)
  /-- `*http3.Error` of quic-go. -/
  | rawHTTP3
  | quicApplication
  | quicVersionNegotiation
  | quicHandshakeTimeout
  | quicTransport
  | quicStatelessReset
  | quicIdleTimeout
  | quicStream
  | dns
  | op (op : String)
  deriving DecidableEq, Repr

structure ErrorNode where
  text : String
  accepts : List Sentinel := []
  types : List ErrorType := []
  deriving DecidableEq, Repr

/-- An error with the errors that its `Unwrap` returns. -/
inductive GoError where
  | mk (node : ErrorNode) (causes : List GoError)

namespace GoError

mutual

/-- The nodes in the order of `errors.Is` and `errors.As`. -/
def nodes : GoError → List ErrorNode
  | .mk node causes => node :: nodesOf causes

def nodesOf : List GoError → List ErrorNode
  | [] => []
  | e :: es => e.nodes ++ nodesOf es

end

/-- `errors.New`. -/
def new (text : String) : GoError := .mk { text } []

/-- `fmt.Errorf` with the text around `%w`. -/
def wrap (text : String) (e : GoError) : GoError := .mk { text } [e]

/-- `errors.Is`. -/
def is (e : GoError) (s : Sentinel) : Bool := e.nodes.any fun node => node.accepts.contains s

/-- The first value that `errors.As` finds. -/
def findAs {β : Type} (e : GoError) (get : ErrorType → Option β) : Option β :=
  e.nodes.findSome? fun node => node.types.findSome? get

def hasType (e : GoError) (t : ErrorType) : Bool :=
  (e.findAs fun t' => if t' = t then some () else none).isSome

lemma mem_nodesOf {node : ErrorNode} {e : GoError} {es : List GoError} (he : e ∈ es)
    (h : node ∈ e.nodes) : node ∈ nodesOf es := by
  induction es with
  | nil => cases he
  | cons e' es ih =>
    rw [nodesOf, List.mem_append]
    rcases List.mem_cons.mp he with rfl | he
    · exact .inl h
    · exact .inr (ih he)

end GoError

inductive FallbackClass where
  | never
  | preRequest
  | ambiguousAfterSend
  deriving DecidableEq, Repr

/-- The TLS alert no_application_protocol. -/
def tlsAlertNoApplicationProtocol : UInt8 := 120

/-- `classifyFallback` of an error in which there is a `*HTTP3Error` of the given kind. -/
def classifyHTTP3 (e : GoError) (kind : HTTP3ErrorKind) : FallbackClass :=
  if kind = .protocol ∨ kind = .closed then .never
  else if e.hasType .quicApplication then .never
  else if e.hasType .quicVersionNegotiation || e.hasType .quicHandshakeTimeout then .preRequest
  else if e.hasType .quicTransport then .never
  else if e.hasType .quicStatelessReset || e.hasType .quicIdleTimeout || e.hasType .quicStream then
    .ambiguousAfterSend
  else .never

/-- What is left of `classifyFallback` after the typed errors. -/
def classifyStream (e : GoError) : FallbackClass :=
  if e.is .eof || e.is .unexpectedEOF || e.is .netClosed then .ambiguousAfterSend else .never

/-- `classifyFallback` of an error that is not nil. A timeout of a `net.Error` is not looked at: the
source answers `fallbackNever` with it and without it. -/
def classifyFallback (e : GoError) : FallbackClass :=
  if e.is .canceled || e.is .deadlineExceeded then .never
  else if e.is .httpClientTransportClosed || e.is .http3TransportClosed then .never
  else if e.is .httpProtocolUnavailable then .preRequest
  else if e.hasType .unknownAuthority || e.hasType .hostname || e.hasType .certificateInvalid then
    .never
  else
    match e.findAs fun | .alert code => some code | _ => none with
    | some code => if code = tlsAlertNoApplicationProtocol then .preRequest else .never
    | none =>
      match e.findAs fun | .http3 kind => some kind | _ => none with
      | some kind => classifyHTTP3 e kind
      | none =>
        if e.hasType .dns then .preRequest
        else
          match e.findAs fun | .op op => some op | _ => none with
          | some "dial" => .preRequest
          | some "read" | some "write" => .ambiguousAfterSend
          | _ => classifyStream e

end Ogrenet.Client
