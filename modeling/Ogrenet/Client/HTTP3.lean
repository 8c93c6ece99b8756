import Ogrenet.Client.Classify

/-!
# The errors of the HTTP/3 transport

`mapHTTP3Error` of `client/http3.go`, which puts the errors of quic-go under an `*HTTP3Error`, and
what `classifyFallback` makes of the result. The two have lists of connection losses of their own:
the classifier looks for a `*quic.StreamError` only under an `*HTTP3Error`, and the mapper does not
put it there.
-/

namespace Ogrenet.Client

def errHTTP3TransportClosed : GoError :=
  .mk { text := "client: HTTP/3 transport is closed", accepts := [.http3TransportClosed] } []

def HTTP3ErrorKind.value : HTTP3ErrorKind → UInt8
  | .unknown => 0
  | .transport => 1
  | .protocol => 2
  | .closed => 3
  | .other v => v

/-- An `*HTTP3Error`. -/
def http3Error (kind : HTTP3ErrorKind) (cause : GoError) : GoError :=
  .mk { text := s!"client: HTTP/3 {kind.value}", types := [.http3 kind] } [cause]

/-- `errors.Join`, which has no text of its own. -/
def GoError.join (es : List GoError) : GoError := .mk { text := "" } es

/-- `mapHTTP3Error` of an error that is not nil. -/
def mapHTTP3Error (e : GoError) : GoError :=
  if e.is .canceled || e.is .deadlineExceeded then e
  else if e.is .rawHTTP3TransportClosed || e.is .quicTransportClosed ||
      e.is .http3TransportClosed then
    http3Error .closed (.join [errHTTP3TransportClosed, e])
  else if e.hasType .rawHTTP3 then http3Error .protocol e
  else if e.hasType .quicTransport || e.hasType .quicApplication || e.hasType .quicStatelessReset ||
      e.hasType .quicVersionNegotiation || e.hasType .quicIdleTimeout ||
      e.hasType .quicHandshakeTimeout then
    http3Error .transport e
  else e

/-! ### An error under an HTTP3Error -/

section

variable {e : GoError} {kind : HTTP3ErrorKind}

@[simp] lemma nodes_http3Error : (http3Error kind e).nodes =
    { text := s!"client: HTTP/3 {kind.value}", types := [.http3 kind] } :: e.nodes := by
  simp [http3Error, GoError.nodes, GoError.nodesOf]

@[simp] lemma is_http3Error (s : Sentinel) : (http3Error kind e).is s = e.is s := by
  simp [GoError.is]

lemma findAs_http3Error {γ : Type} {get : ErrorType → Option γ} (h : get (.http3 kind) = none) :
    (http3Error kind e).findAs get = e.findAs get := by
  simp [GoError.findAs, h]

lemma findAs_http3Error_self {γ : Type} {get : ErrorType → Option γ} {a : γ}
    (h : get (.http3 kind) = some a) : (http3Error kind e).findAs get = some a := by
  simp [GoError.findAs, h]

lemma hasType_http3Error {t : ErrorType} (h : ErrorType.http3 kind ≠ t) :
    (http3Error kind e).hasType t = e.hasType t := by
  rw [GoError.hasType, findAs_http3Error (if_neg h)]
  rfl

end

/-- What `errors.As` finds is in the tree. -/
lemma GoError.exists_of_findAs {γ : Type} {e : GoError} {get : ErrorType → Option γ} {a : γ}
    (h : e.findAs get = some a) : ∃ t, e.hasType t = true ∧ get t = some a := by
  obtain ⟨node, hnode, hnodeAs⟩ := List.exists_of_findSome?_eq_some h
  obtain ⟨t, ht, hget⟩ := List.exists_of_findSome?_eq_some hnodeAs
  refine ⟨t, ?_, hget⟩
  rw [hasType, findAs, Option.isSome_iff_ne_none]
  intro hnone
  have := List.findSome?_eq_none_iff.mp (List.findSome?_eq_none_iff.mp hnone node hnode) t ht
  rw [if_pos rfl] at this
  cases this

/-! ### Connection loss -/

/-- The error has a loss of the QUIC connection or stream in its tree, and nothing that either
function decides before. -/
structure ConnectionLoss (e : GoError) : Prop where
  loss : e.hasType .quicStatelessReset ∨ e.hasType .quicIdleTimeout ∨ e.hasType .quicStream
  context : e.is .canceled = false ∧ e.is .deadlineExceeded = false
  transports : e.is .httpClientTransportClosed = false ∧ e.is .http3TransportClosed = false ∧
    e.is .rawHTTP3TransportClosed = false ∧ e.is .quicTransportClosed = false
  available : e.is .httpProtocolUnavailable = false
  certificate : e.hasType .unknownAuthority = false ∧ e.hasType .hostname = false ∧
    e.hasType .certificateInvalid = false
  alert : ∀ code, e.hasType (.alert code) = false
  http3 : e.hasType .rawHTTP3 = false
  quic : e.hasType .quicApplication = false ∧ e.hasType .quicTransport = false ∧
    e.hasType .quicVersionNegotiation = false ∧ e.hasType .quicHandshakeTimeout = false

/-- What else in the tree of an error that is not put under an `*HTTP3Error` makes it ambiguous: an
`*HTTP3Error` that was there before, or a broken connection below. -/
def AmbiguousAnyway (e : GoError) : Prop :=
  match e.findAs fun | .http3 kind => some kind | _ => none with
  | some kind => kind ≠ .protocol ∧ kind ≠ .closed
  | none => e.hasType .dns = false ∧
    match e.findAs fun | .op op => some op | _ => none with
    | some "dial" => False
    | some "read" | some "write" => True
    | _ => e.is .eof ∨ e.is .unexpectedEOF ∨ e.is .netClosed

namespace ConnectionLoss

variable {e : GoError}

/-- Which losses are put under an `*HTTP3Error`. -/
lemma mapHTTP3Error_eq (h : ConnectionLoss e) : mapHTTP3Error e =
    if e.hasType .quicStatelessReset ∨ e.hasType .quicIdleTimeout then http3Error .transport e
    else e := by
  obtain ⟨hcanceled, hdeadline⟩ := h.context
  obtain ⟨-, hclosed, hraw, hquic⟩ := h.transports
  obtain ⟨happ, htransport, hversion, hhandshake⟩ := h.quic
  simp [mapHTTP3Error, hcanceled, hdeadline, hclosed, hraw, hquic, h.http3, happ, htransport,
    hversion, hhandshake]

/-- The classifier goes past its first checks. -/
lemma classifyFallback_eq {e' : GoError} (h : ConnectionLoss e) (his : ∀ s, e'.is s = e.is s)
    (htype : ∀ t, (∀ kind, t ≠ .http3 kind) → e'.hasType t = e.hasType t) :
    classifyFallback e' =
      match e'.findAs fun | .http3 kind => some kind | _ => none with
      | some kind => classifyHTTP3 e' kind
      | none =>
        if e'.hasType .dns then .preRequest
        else
          match e'.findAs fun | .op op => some op | _ => none with
          | some "dial" => .preRequest
          | some "read" | some "write" => .ambiguousAfterSend
          | _ => classifyStream e' := by
  obtain ⟨hcanceled, hdeadline⟩ := h.context
  obtain ⟨hclient, hclosed, -, -⟩ := h.transports
  obtain ⟨hauthority, hhostname, hinvalid⟩ := h.certificate
  have halert : ∀ code, e'.hasType (.alert code) = false := by
    intro code
    rw [htype (.alert code) (by simp)]
    exact h.alert code
  simp only [classifyFallback, his, hcanceled, hdeadline, hclient, hclosed, h.available,
    htype .unknownAuthority (by simp), htype .hostname (by simp),
    htype .certificateInvalid (by simp), hauthority, hhostname, hinvalid, Bool.or_self,
    Bool.false_eq_true, if_false]
  split
  · rename_i code hfind
    obtain ⟨t, ht, hget⟩ := GoError.exists_of_findAs hfind
    cases t with
    | alert code' => exact absurd ht (by simp [halert])
    | _ => cases hget
  · rfl

/-- Under an `*HTTP3Error` the loss is ambiguous. -/
lemma classify_http3Error (h : ConnectionLoss e) :
    classifyFallback (http3Error .transport e) = .ambiguousAfterSend := by
  have htype : ∀ t, (∀ kind, t ≠ .http3 kind) → (http3Error .transport e).hasType t = e.hasType t :=
    fun t ht => hasType_http3Error (ht .transport).symm
  obtain ⟨happ, htransport, hversion, hhandshake⟩ := h.quic
  rw [classifyFallback_eq h is_http3Error htype]
  split
  · rename_i kind hfind
    cases hfind.symm.trans (findAs_http3Error_self rfl)
    simp [classifyHTTP3, htype, happ, htransport, hversion, hhandshake, h.loss, or_assoc]
  · rename_i hfind
    cases hfind.symm.trans (findAs_http3Error_self rfl)

/-- By itself the loss is ambiguous only with something else. -/
lemma classify_bare (h : ConnectionLoss e) (hstream : e.hasType .quicStream = true) :
    classifyFallback e = .ambiguousAfterSend ↔ AmbiguousAnyway e := by
  obtain ⟨happ, htransport, hversion, hhandshake⟩ := h.quic
  rw [classifyFallback_eq h (fun _ => rfl) (fun _ _ => rfl), AmbiguousAnyway]
  split
  · rename_i kind _
    simp [classifyHTTP3, happ, htransport, hversion, hhandshake, hstream, not_or]
  · split
    · rename_i hdns
      simp [hdns]
    · rename_i hdns
      rw [Bool.not_eq_true] at hdns
      simp only [hdns, true_and]
      split
      · simp
      · simp
      · simp
      · simp only [classifyStream, Bool.or_eq_true, or_assoc, ite_eq_left_iff, reduceCtorEq,
          imp_false, not_not]

end ConnectionLoss

/-- A connection loss is classified as ambiguous after the mapping exactly when it is a stateless
reset or an idle timeout, or when something else in its tree makes it ambiguous. -/
theorem connectionLoss_ambiguous_iff (e : GoError) (h : ConnectionLoss e) :
    classifyFallback (mapHTTP3Error e) = .ambiguousAfterSend ↔
      e.hasType .quicStatelessReset ∨ e.hasType .quicIdleTimeout ∨ AmbiguousAnyway e := by
  rw [h.mapHTTP3Error_eq]
  split
  · rename_i hmapped
    rw [← or_assoc]
    simp [h.classify_http3Error, hmapped]
  · rename_i hbare
    obtain ⟨hreset, hidle⟩ := not_or.mp hbare
    have hstream : e.hasType .quicStream = true := by
      rcases h.loss with h | h | h
      · exact absurd h hreset
      · exact absurd h hidle
      · exact h
    rw [h.classify_bare hstream]
    simp [hreset, hidle]

/-- A `*quic.IdleTimeoutError`, which is also `net.ErrClosed`. -/
def idleTimeout : GoError :=
  .mk { text := "timeout: no recent network activity", accepts := [.netClosed],
        types := [.quicIdleTimeout] } []

theorem connectionLoss_ambiguous_iff_idleTimeout : ConnectionLoss idleTimeout ∧
    classifyFallback (mapHTTP3Error idleTimeout) = .ambiguousAfterSend := by
  have hloss : ConnectionLoss idleTimeout :=
    ⟨.inr (.inl rfl), ⟨rfl, rfl⟩, ⟨rfl, rfl, rfl, rfl⟩, rfl, ⟨rfl, rfl, rfl⟩, fun _ => rfl, rfl,
      ⟨rfl, rfl, rfl, rfl⟩⟩
  exact ⟨hloss, (connectionLoss_ambiguous_iff idleTimeout hloss).mpr (.inr (.inl rfl))⟩

/-- A `*quic.StreamError`. -/
def streamReset : GoError :=
  .mk { text := "stream 0 canceled by remote with error code 0", types := [.quicStream] } []

/-- The mapper leaves a stream error as it is, and the classifier does not look for it there. -/
theorem connectionLoss_never : ConnectionLoss streamReset ∧
    classifyFallback (mapHTTP3Error streamReset) = .never := by
  refine ⟨⟨.inr (.inr rfl), ⟨rfl, rfl⟩, ⟨rfl, rfl, rfl, rfl⟩, rfl, ⟨rfl, rfl, rfl⟩, fun _ => rfl,
    rfl, ⟨rfl, rfl, rfl, rfl⟩⟩, rfl⟩

end Ogrenet.Client
