import Ogrenet.Engine.Stream

/-!
# WebSocket listeners and dials of an Engine

The functions of `websocket_server.go`, `websocket_server_admission.go`, `websocket_tls.go`,
`websocket_client.go` and `websocket_dial_admission.go` that share the engine's state. What package
`net/http` does with them is not modelled: it may accept connections, run the handler, report the
end of a connection and call the dial callback whenever it likes.
-/

namespace Ogrenet

open Interleaving Interleaving.Prog Eng

/-! ### `websocket_server_admission.go` -/

/-- `httpConnLease.release`. -/
def releaseHolder (j h : ℕ) : EProg Unit := do
  let lease ← trk j (HTTPConnLease.release h)
  releaseLease lease

def releaseConn (j conn : ℕ) : EProg Unit := do
  let lease ← trk j (HTTPConnTracker.releaseConn conn)
  releaseLease lease

/-- The loop of `closeAll` over the holders. -/
def releaseHolders (j : ℕ) : List ℕ → EProg Unit
  | [] => return ()
  | h :: hs => do
    releaseHolder j h
    releaseHolders j hs

def closeAll (j : ℕ) : EProg Unit := do
  let all ← trk j Trk.all
  releaseHolders j all

/-- `admittedHTTPListener.Accept` once the connection is accepted: whether it is admitted. -/
def admitConn (j : ℕ) (raw : Remote) : EProg Bool := do
  match ← beginOp with
  | some _ => return false
  | none =>
    match ← adm (acquireOpeningWithListener raw.peer (some j)) with
    | .ok lease =>
      let _ ← trk j (Trk.register raw.conn lease)
      endOp
      return true
    | .error _ =>
      endOp
      return false

/-- A call of `admittedHTTPListener.Accept` by `Serve`, which then starts the connection. -/
def acceptHTTP (j : ℕ) : EProg ENext := do
  match ← external .accept with
  | .error _ => return .ret .unit
  | .ok raw =>
    match ← admitConn j raw with
    | false => return .goto (.accept j)
    | true =>
      spawn (.httpConn j raw.conn)
      return .ret .unit

/-! ### `websocket_tls.go` -/

/-- A round of `gatedTLSListener.acceptLoop`. -/
def tlsAcceptLoop (j : ℕ) : EProg ENext := do
  match ← external .accept with
  | .error _ => return .ret .unit
  | .ok raw =>
    match ← admitConn j raw with
    | false => return .goto (.tlsAcceptLoop j)
    | true =>
      spawn (.tlsHandshake j raw.conn)
      return .goto (.tlsAcceptLoop j)

/-- `gatedTLSListener.handshake` with its handshake lease, before the deferred release of it. -/
def handshakeLeased (j raw : ℕ) : EProg Unit := do
  match ← external .handshakeServer with
  | .error _ => releaseConn j raw
  | .ok tlsConn =>
    match ← trk j (Trk.rebind raw tlsConn.conn) with
    | false => return ()
    | true =>
      match ← offer with
      | true => spawn (.httpConn j tlsConn.conn)
      | false => releaseConn j tlsConn.conn

def tlsHandshake (j raw : ℕ) : EProg ENext := do
  match ← acquireEngineActivity .handshake with
  | .error _ =>
    releaseConn j raw
    return .ret .unit
  | .ok handshake =>
    handshakeLeased j raw
    releaseEngineActivity handshake
    return .ret .unit

/-! ### `websocket_server.go` -/

/-- The end of the server and of its socket are no error. -/
def normalizeServerError (err : Err) : Option Err :=
  if err.is .serverClosed || err.is .netClosed then none else some err

/-- `wsListener.Close`; the answer is the error of closing the server, for the call that does it. -/
def closeWSListener (j : ℕ) : EProg (Option Err) := do
  match ← closeOnceEnter j with
  | false => return none
  | true =>
    closeClosing j
    let r ← external .serverClose
    closeAll j
    closeOnceExit j
    match r with
    | .ok _ => return none
    | .error err => return normalizeServerError err

/-- The upgrade handler with the connection hijacked and its lease taken, before the deferred
release. -/
def upgradeLeased (raw : Remote) (lease : ℕ) : EProg (Except Err ℕ) := do
  match ← external .newCipher with
  | .error err => return .error err
  | .ok _ =>
    match ← addWebSocketWithLease raw.peer (some lease) with
    | .error err => return .error err
    | .ok k =>
      spawn (.finalizer k)
      return .ok k

/-- The upgrade handler between `beginOp` and the deferred `endOp`: whether it has hijacked the
connection. -/
def upgradeHandler (j : ℕ) : Option ℕ → EProg Bool
  | none => return false
  | some h => do
    match ← acquireEngineActivity .upgrade with
    | .error _ => return false
    | .ok upgrade =>
      let r ← external .wsAccept
      releaseEngineActivity upgrade
      match r with
      | .error _ => return false
      | .ok raw =>
        match ← trk j (HTTPConnLease.takeWithPhysical (some h)) with
        | none => return true
        | some (lease, _) =>
          let r ← upgradeLeased raw lease
          let _ ← releaseUnless lease r
          return true

def handleUpgrade (j : ℕ) (holder : Option ℕ) : EProg Bool := do
  match ← beginOp with
  | some _ => return false
  | none =>
    let hijacked ← upgradeHandler j holder
    endOp
    return hijacked

/-- The goroutine of an HTTP connection, which starts with `connContext`. -/
def httpConn (j conn : ℕ) : EProg ENext := do
  let holder ← trk j (Trk.lookup conn)
  return .goto (.httpRequests j conn holder)

/-- What the connection does next; a connection that is not hijacked ends with
`connState(StateClosed)`. -/
def httpRequests (j conn : ℕ) (holder : Option ℕ) : EProg ENext := do
  match ← httpEvent with
  | .closed =>
    releaseConn j conn
    return .ret .unit
  | .other => return .goto (.httpRequests j conn holder)
  | .upgrade =>
    match ← handleUpgrade j holder with
    | true => return .ret .unit
    | false => return .goto (.httpRequests j conn holder)

def watchWS (j : ℕ) : EProg ENext := do
  match ← watchListener j with
  | true =>
    let _ ← closeWSListener j
    return .ret .unit
  | false => return .ret .unit

/-- The goroutine that runs `Serve`. -/
def serve (j : ℕ) : EProg ENext := do
  match ← external .serve with
  | .ok _ => setErr j none
  | .error err => setErr j (normalizeServerError err)
  let _ ← closeWSListener j
  closeListenerDone j
  removeTracked j
  return .ret .unit

/-- `listenWebSocket` once the socket is open. The TLS listener starts to accept before the listener
is tracked. -/
def startWSListener (scheme : Scheme) : EProg (Except Err ℕ) := do
  let j ← newListener scheme
  if scheme = .wss then spawn (.tlsAcceptLoop j)
  match ← addTracked j with
  | some err =>
    closeAll j
    return .error err
  | none =>
    spawn (.watchWS j)
    spawn (.serve j)
    return .ok j

def listenWebSocket (cfg : EngineConfig) (scheme : Scheme) (query : Bool) :
    EProg (Except Err ℕ) := do
  if cfg.framerFactory then return .error (.sentinel .framerNotSupported)
  else if query then return .error (.sentinel .invalidWebSocketConfig)
  else
    match ← external .listenTCP with
    | .error err => return .error err
    | .ok _ =>
      if scheme = .wss then
        match ← external .serverTLSConfig with
        | .error err => return .error err
        | .ok _ => startWSListener scheme
      else startWSListener scheme

/-! ### `websocket_dial_admission.go` and `websocket_client.go` -/

/-- `dialRaw`: the connection with its opening lease. -/
def dialRaw : EProg (Option (Remote × ℕ)) := do
  match ← external .dialTCP with
  | .error _ => return none
  | .ok raw =>
    match ← external .configureTCP with
    | .error _ => return none
    | .ok _ =>
      match ← adm (acquireOpening raw.peer) with
      | .error _ => return none
      | .ok lease => return some (raw, lease)

/-- The end of the dial callbacks: the lease goes into the cell, or is released. -/
def setCell (d : ℕ) (raw : Remote) (lease : ℕ) : EProg ENext := do
  match ← cellSet d lease raw.conn with
  | true => return .ret .unit
  | false =>
    adm (ConnectionLease.release lease)
    return .ret .unit

/-- `DialTLSContext` after `dialRaw`. -/
def dialTLSLeased (d : ℕ) (raw : Remote) (lease : ℕ) : EProg ENext := do
  match ← acquireEngineActivity .handshake with
  | .error _ =>
    adm (ConnectionLease.release lease)
    return .ret .unit
  | .ok handshake =>
    let r ← external .handshakeClient
    releaseEngineActivity handshake
    match r with
    | .ok _ => setCell d raw lease
    | .error _ =>
      adm (ConnectionLease.release lease)
      return .ret .unit

/-- `DialContext` and `DialTLSContext`. -/
def dialCallback (d : ℕ) (tls : Bool) : EProg ENext := do
  match ← dialRaw with
  | none => return .ret .unit
  | some (raw, lease) => if tls then dialTLSLeased d raw lease else setCell d raw lease

/-- The error of a failed `websocket.Dial` when the context has no cause. -/
def dialUpgradeError (scheme : Scheme) (err : Err) : Err :=
  let err :=
    if err.isTimeoutFailure && !err.hasTimeoutError then .timeoutCause .handshake err else err
  let result := classifyOperational .upgrade { protocol := scheme } err .wsUpgrade
  match scheme, result.findAs fun | .operational env e => some (env, e) | _ => none with
  | .wss, some (env, e) =>
    if env.kind = .tls then .operational { env with op := .handshake } e else result
  | _, _ => result

/-- `dialWebSocket` once the connection is upgraded and the lease taken, before the deferred
release of it. -/
def dialTaken (scheme : Scheme) (lease : ℕ) : EProg (Except Err ℕ) := do
  match ← addWebSocketWithLease "" (some lease) with
  | .error err => return .error (classifyOperational .upgrade { protocol := scheme } err .none)
  | .ok k =>
    spawn (.finalizer k)
    return .ok k

/-- `dialWebSocket` with its cell, before the deferred `state.release()`. -/
def dialWithCell (scheme : Scheme) (d : ℕ) : EProg (Except Err ℕ) := do
  match ← external .wsDial with
  | .error err =>
    match ← ctxCause with
    | some cause => return .error cause
    | none => return .error (dialUpgradeError scheme err)
  | .ok _ =>
    match ← external .newCipher with
    | .error err => return .error (classifyOperational .upgrade { protocol := scheme } err .none)
    | .ok _ =>
      match ← cellTake d with
      | none =>
        return .error (classifyOperational .upgrade { protocol := scheme }
          (.plain "transport: websocket dial completed without connection admission") .none)
      | some lease =>
        let r ← dialTaken scheme lease
        releaseUnless lease r

/-- `wsDialAdmission.release`. -/
def releaseCell (d : ℕ) : EProg Unit := do
  let lease ← cellRelease d
  releaseLease lease

/-- `dialWebSocket` with a cell of its own. -/
def dialInCell (scheme : Scheme) : EProg (Except Err ℕ) := do
  let d ← newCell
  let r ← dialWithCell scheme d
  releaseCell d
  return r

/-- `dialWebSocket` with its upgrade lease, before the deferred release of it. -/
def dialUpgraded (scheme : Scheme) : EProg (Except Err ℕ) := do
  if scheme = .wss then
    match ← external .clientTLSConfig with
    | .error err => return .error err
    | .ok _ => dialInCell scheme
  else dialInCell scheme

def dialWebSocket (cfg : EngineConfig) (scheme : Scheme) : EProg (Except Err ℕ) := do
  if cfg.framerFactory then return .error (.sentinel .framerNotSupported)
  else
    match ← acquireEngineActivity .upgrade with
    | .error err => return .error (classifyOperational .upgrade { protocol := scheme } err .none)
    | .ok upgrade =>
      let r ← dialUpgraded scheme
      releaseEngineActivity upgrade
      return r

end Ogrenet
