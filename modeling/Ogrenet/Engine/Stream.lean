import Ogrenet.Engine.Calls

/-!
# Streams, listeners and packets of an Engine

The functions of `engine_stream_dial.go`, `engine_stream_listener.go`, `listener.go` and the two of
`packet.go` that make a `packetConn`, cut at the heads of their loops.
-/

namespace Ogrenet

open Interleaving Interleaving.Prog Eng

/-! ### Operations -/

/-- An exported method: its operation between `beginOp` and `endOp`. -/
def withOp (p : EProg (Except Err ℕ)) : EProg (Except Err ℕ) := do
  match ← beginOp with
  | some err => return .error err
  | none =>
    let r ← p
    endOp
    return r

/-- The checks of the exported methods before `beginOp`. -/
def checked (ctxNil mismatch : Bool) (p : EProg (Except Err ℕ)) : EProg ENext := do
  if ctxNil then return .ret (.made (.error (.sentinel .nilContext)))
  else
    match ← external .validate with
    | .error err => return .ret (.made (.error err))
    | .ok _ =>
      if mismatch then return .ret (.made (.error (.sentinel .protocolMismatch)))
      else
        let r ← withOp p
        return .ret (.made r)

/-! ### `engine_stream_dial.go` -/

def adoptStreamWithLease (raw : Remote) (lease : ℕ) : EProg (Except Err ℕ) := do
  match ← external .newFramer with
  | .error err => return .error err
  | .ok _ =>
    match ← addStreamWithLease raw.peer (some lease) with
    | .error err => return .error err
    | .ok k =>
      spawn (.finalizer k)
      return .ok k

/-- The adoption of a dialled stream. -/
def adoptDialled (scheme : Scheme) (raw : Remote) (lease : ℕ) : EProg (Except Err ℕ) := do
  match ← adoptStreamWithLease raw lease with
  | .ok k => return .ok k
  | .error err =>
    if err.is .closed || err.is .resourceExhausted then
      return .error (classifyOperational .dial (raw.site scheme) err .none)
    else return .error err

/-- The TLS handshake of `dialStream`: the error with which it returns. -/
def dialHandshake (scheme : Scheme) (raw : Remote) : EProg (Option Err) := do
  match ← external .clientTLSConfig with
  | .error err => return some err
  | .ok _ =>
    match ← acquireEngineActivity .handshake with
    | .error err => return some (classifyOperational .handshake (raw.site scheme) err .none)
    | .ok handshake =>
      let r ← external .handshakeClient
      releaseEngineActivity handshake
      match r with
      | .ok _ => return none
      | .error err =>
        match ← ctxCause with
        | some cause => return some cause
        | none =>
          return some (classifyOperational .handshake (raw.site scheme) err .tlsHandshake)

/-- `dialStream` with the lease in hand, before its deferred function. -/
def dialLeased (scheme : Scheme) (raw : Remote) (lease : ℕ) : EProg (Except Err ℕ) := do
  if scheme = .tls then
    match ← dialHandshake scheme raw with
    | some err => return .error err
    | none => adoptDialled scheme raw lease
  else adoptDialled scheme raw lease

/-- The deferred release of a lease that was not transferred. -/
def releaseUnless (lease : ℕ) (r : Except Err ℕ) : EProg (Except Err ℕ) :=
  match r with
  | .ok k => return .ok k
  | .error err => do
    adm (ConnectionLease.release lease)
    return .error err

def dialStream (scheme : Scheme) : EProg (Except Err ℕ) := do
  match ← external .dialTCP with
  | .error err => return .error err
  | .ok raw =>
    match ← adm (acquireOpening raw.peer) with
    | .error e =>
      return .error (classifyOperational .dial (raw.site scheme) (.limitError e) .none)
    | .ok lease =>
      let r ← dialLeased scheme raw lease
      releaseUnless lease r

/-! ### `listener.go` and `engine_stream_listener.go` -/

def normalizeListenerError (err : Err) : Option Err := if err.is .netClosed then none else some err

/-- `listener.initiateClose`; the answer is the error of closing the socket, for the call that does
it. -/
def initiateClose (j : ℕ) (cause : Option Err) : EProg (Option Err) := do
  match ← closeOnceEnter j with
  | false => return none
  | true =>
    let cause := cause.bind fun e => if e.hasOperational then some e else normalizeListenerError e
    if cause.isSome then setErr j cause
    closeClosing j
    let r ← external .closeSocket
    closeOnceExit j
    match r with
    | .ok _ => return none
    | .error err => return normalizeListenerError err

def watchContext (j : ℕ) : EProg ENext := do
  match ← watchListener j with
  | true =>
    let _ ← initiateClose j none
    return .ret .unit
  | false => return .ret .unit

/-- `listener.finalize`, which the accept loop runs once. -/
def finalizeListener (j : ℕ) : EProg ENext := do
  let _ ← initiateClose j none
  closeListenerDone j
  removeTracked j
  return .ret .unit

def acceptLoop (j : ℕ) (scheme : Scheme) : EProg ENext := do
  match ← external .accept with
  | .ok raw =>
    match ← external .configureTCP with
    | .error _ => return .goto (.acceptLoop j scheme)
    | .ok _ =>
      spawn (.handleAccepted j scheme raw)
      return .goto (.acceptLoop j scheme)
  | .error err =>
    match ← isClosing j with
    | true => finalizeListener j
    | false =>
      match ← temporary with
      | true =>
        match ← waitOrClosed j with
        | true => return .goto (.acceptLoop j scheme)
        | false => finalizeListener j
      | false =>
        let _ ← initiateClose j ((normalizeListenerError err).map fun e =>
          classifyOperational .accept { protocol := scheme } e .none)
        finalizeListener j

/-- The function `prepare` of a TLS listener: the error with which it returns. -/
def prepare : EProg (Option Err) := do
  match ← acquireEngineActivity .handshake with
  | .error err => return some err
  | .ok handshake =>
    let r ← external .handshakeServer
    releaseEngineActivity handshake
    match r with
    | .ok _ => return none
    | .error err => return some err

/-- `handleAccepted` with the lease in hand, before its deferred functions. -/
def handleLeased (j : ℕ) (raw : Remote) (lease : ℕ) : EProg (Except Err ℕ) := do
  match ← adoptStreamWithLease raw lease with
  | .ok k => return .ok k
  | .error err =>
    if err.is .closed || err.is .resourceExhausted then return .error err
    else
      let _ ← initiateClose j (some err)
      return .error err

/-- The part of `handleAccepted` that follows `acquireOpeningForListener`. -/
def handlePrepared (j : ℕ) (scheme : Scheme) (raw : Remote) (lease : ℕ) :
    EProg (Except Err ℕ) := do
  if scheme = .tls then
    match ← prepare with
    | some err => return .error err
    | none => handleLeased j raw lease
  else handleLeased j raw lease

def handleAccepted (j : ℕ) (scheme : Scheme) (raw : Remote) : EProg ENext := do
  match ← beginOp with
  | some _ => return .ret .unit
  | none =>
    match ← adm (acquireOpeningWithListener raw.peer (some j)) with
    | .error _ =>
      endOp
      return .ret .unit
    | .ok lease =>
      let r ← handlePrepared j scheme raw lease
      let _ ← releaseUnless lease r
      endOp
      return .ret .unit

/-- `listenStream` once the socket is open. -/
def startListener (scheme : Scheme) : EProg (Except Err ℕ) := do
  let j ← newListener scheme
  match ← addTracked j with
  | some err => return .error err
  | none =>
    spawn (.watchContext j)
    spawn (.acceptLoop j scheme)
    return .ok j

def listenStream (scheme : Scheme) : EProg (Except Err ℕ) := do
  match ← external .listenTCP with
  | .error err => return .error err
  | .ok _ =>
    if scheme = .tls then
      match ← external .serverTLSConfig with
      | .error err => return .error err
      | .ok _ => startListener scheme
    else startListener scheme

/-! ### `packet.go` -/

/-- `listenPacket` and `dialPacket`, which differ in the call that opens the socket and in the
operation their errors name. -/
def openPacket (what : External) (op : Op) : EProg (Except Err ℕ) := do
  match ← external what with
  | .error err =>
    match ← ctxCause with
    | some cause => return .error cause
    | none => return .error (classifyOperational op { protocol := .udp } err .none)
  | .ok raw =>
    match ← addPacket raw.peer with
    | .error err => return .error (classifyOperational op (raw.site .udp) err .none)
    | .ok k =>
      spawn (.finalizer k)
      return .ok k

def listenPacket : EProg (Except Err ℕ) := openPacket .listenUDP .listen

def dialPacket : EProg (Except Err ℕ) := openPacket .dialUDP .dial

/-! ### The end of a session -/

/-- The last statements of `finalize` of a session, and the removal they call. -/
def finalizer (k : ℕ) : EProg ENext := do
  closeSessionDone k
  removeSession k
  return .ret .unit

end Ogrenet
