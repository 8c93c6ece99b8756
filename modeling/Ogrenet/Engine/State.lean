import Ogrenet.Engine.Tracker
import Ogrenet.Session.State

/-!
# The shared state of an Engine

What the goroutines of an `Engine` share: the fields under `Engine.mu`, the admission controller,
the sessions and listeners it has made, the trackers of its HTTP listeners and the `wsDialAdmission`
of its WebSocket dials.

A step is a section of a mutex, one access to the fields under `Engine.mu` by a goroutine that has
it, one channel operation, or one call out of the repository, whose answer is chosen by the
scheduler. Closing a socket is no step: the sockets are not part of the state.
-/

namespace Ogrenet

open Interleaving Interleaving.Prog

inductive EngineState where
  | running
  | draining
  | aborting
  | done
  deriving DecidableEq, Repr

/-- The order of the engine states. -/
def EngineState.rank : EngineState → ℕ
  | .running => 0
  | .draining => 1
  | .aborting => 2
  | .done => 3

/-- What an Engine is made with. `framerFactory` is whether one is configured. -/
structure EngineConfig where
  limits : Limits := {}
  framerFactory : Bool := false
  deriving DecidableEq, Repr

/-- A `conn`, `wsSession` or `packetConn` that was tracked with the lease `admitted`. `tracked` is
its membership in `streams`, `websockets` or `packets`, and `lease` its entry in the map of leases
of the same kind. -/
structure SessionEntry where
  kind : SessionKind
  admitted : ℕ
  tracked : Bool := true
  lease : Option ℕ
  done : Bool := false
  deriving DecidableEq, Repr

/-- A `listener` or a `wsListener`; its capacity is the entry of the same number in
`Admission.listeners`. `tracked` is its membership in `streamListeners` or `wsListeners`. -/
structure ListenerEntry where
  scheme : Scheme
  tracked : Bool := false
  closeOnce : OnceState := .idle
  closing : Bool := false
  err : Option Err := none
  done : Bool := false
  tracker : HTTPConnTracker := {}

/-- The cell through which a dial callback hands its lease to `dialWebSocket`. `isOver` records
that the deferred `state.release()` has run. -/
structure WSDialAdmission where
  lease : Option ℕ := none
  physical : Option ℕ := none
  isOver : Bool := false
  deriving DecidableEq, Repr

/-- An accepted or dialled connection, with its addresses and `peerKey` of the remote one. -/
structure Remote where
  conn : ℕ := 0
  peer : String := ""
  localAddr : Option String := none
  remoteAddr : Option String := none
  deriving DecidableEq, Repr

def Remote.site (r : Remote) (scheme : Scheme) : Site := ⟨scheme, r.localAddr, r.remoteAddr⟩

/-- Where a goroutine of the engine starts or goes on. -/
inductive ELabel where
  /-- The exported methods, with whether the context is nil. -/
  | listen (ctxNil : Bool) (scheme : Scheme) (query : Bool)
  | dial (ctxNil : Bool) (scheme : Scheme)
  | listenPacket (ctxNil : Bool) (scheme : Scheme)
  | dialPacket (ctxNil : Bool) (scheme : Scheme)
  | shutdown (ctxNil : Bool)
  | close
  | closeListener (j : ℕ)
  | closeWSListener (j : ℕ)
  /-- The goroutines of a `listener`. -/
  | watchContext (j : ℕ)
  | acceptLoop (j : ℕ) (scheme : Scheme)
  | handleAccepted (j : ℕ) (scheme : Scheme) (raw : Remote)
  /-- The goroutines of a `wsListener` and of the HTTP server it runs. -/
  | watchWS (j : ℕ)
  | serve (j : ℕ)
  | accept (j : ℕ)
  | tlsAcceptLoop (j : ℕ)
  | tlsHandshake (j : ℕ) (raw : ℕ)
  | httpConn (j : ℕ) (conn : ℕ)
  | httpRequests (j : ℕ) (conn : ℕ) (holder : Option ℕ)
  /-- The dial callback of the HTTP transport of a WebSocket dial. -/
  | dialCallback (d : ℕ) (tls : Bool)
  /-- The goroutine that waits for the loops of a session and finalizes it. -/
  | finalizer (k : ℕ)
  deriving DecidableEq, Repr

/-- `engineShutdownSet`: listeners and sessions by their numbers. -/
structure EngineShutdownSet where
  streamListeners : List ℕ := []
  wsListeners : List ℕ := []
  streams : List ℕ := []
  websockets : List ℕ := []
  packets : List ℕ := []
  deriving DecidableEq, Repr

/-- `closes` counts how often the channel `done` was closed, and `pending` are the goroutines that a
`go` statement has asked for. -/
structure Engine where
  adm : Admission
  mu : Bool := false
  state : EngineState := .running
  shutdownReason : AbortReason := .none
  shutdownErr : Option Err := none
  activeOps : ℕ := 0
  sessions : List SessionEntry := []
  listeners : List ListenerEntry := []
  cells : List WSDialAdmission := []
  done : Bool := false
  closes : ℕ := 0
  pending : List ELabel := []

def ListenerEntry.isWS (l : ListenerEntry) : Bool := l.scheme == .ws || l.scheme == .wss

namespace Engine

/-- The numbers of the entries that satisfy `p`. -/
def keys {α : Type} (p : α → Bool) (xs : List α) : List ℕ :=
  (List.range xs.length).filter fun i => (xs[i]?).any p

def snapshotShutdownSetLocked (e : Engine) : EngineShutdownSet where
  streamListeners := keys (fun l => l.tracked && !l.isWS) e.listeners
  wsListeners := keys (fun l => l.tracked && l.isWS) e.listeners
  streams := keys (fun s => s.tracked && s.kind == .conn) e.sessions
  websockets := keys (fun s => s.tracked && s.kind == .webSocket) e.sessions
  packets := keys (fun s => s.tracked && s.kind == .packet) e.sessions

/-- The values of `streamLeases`, `wsLeases` and `packetLeases`. -/
def leases (e : Engine) : List ℕ := e.sessions.filterMap SessionEntry.lease

/-- The condition of `maybeDoneLocked`. -/
def idle (e : Engine) : Bool :=
  e.state != .running && e.activeOps == 0 && e.listeners.all (!·.tracked) &&
    e.sessions.all (!·.tracked) && e.adm.ctl.idle

def shutdownResult (e : Engine) : Option Err :=
  match e.shutdownErr, e.shutdownReason with
  | some err, _ => some err
  | none, .none => none
  | none, _ => some (.sentinel .closed)

def setSession (e : Engine) (k : ℕ) (s : SessionEntry) : Engine :=
  { e with sessions := e.sessions.set k s }

def setListener (e : Engine) (j : ℕ) (l : ListenerEntry) : Engine :=
  { e with listeners := e.listeners.set j l }

def setCell (e : Engine) (d : ℕ) (c : WSDialAdmission) : Engine :=
  { e with cells := e.cells.set d c }

end Engine

/-! ### The steps -/

/-- The calls out of the repository. -/
inductive External where
  | validate
  | dialTCP
  | listenTCP
  | dialUDP
  | listenUDP
  | clientTLSConfig
  | serverTLSConfig
  | handshakeClient
  | handshakeServer
  | newFramer
  | newCipher
  | accept
  | configureTCP
  | closeSocket
  /-- `http.Server.Close` and `Serve`. -/
  | serverClose
  | serve
  /-- `websocket.Accept` and `websocket.Dial`. -/
  | wsAccept
  | wsDial
  deriving DecidableEq, Repr

/-- What happens next on an HTTP connection: it ends, a request for the upgrade handler comes, or
any other request. -/
inductive HTTPEvent where
  | closed
  | upgrade
  | other
  deriving DecidableEq, Repr

inductive EInstr where
  | adm (i : AdmInstr)
  /-- A step on the tracker of listener `j`. -/
  | trk (j : ℕ) (i : TrkInstr)
  /-- `e.mu.Lock()` and `e.mu.Unlock()`; the steps up to `getResult` are made between the two. -/
  | lock
  | unlock
  | getState
  | incOps
  | decOps
  | trackListener (j : ℕ)
  | untrackListener (j : ℕ)
  | trackSession (kind : SessionKind) (lease : ℕ)
  | untrackSession (k : ℕ)
  /-- `e.state = engineDraining` with the snapshot and the leases that are then drained. -/
  | startDraining
  /-- `e.state = engineAborting` with the reason and the snapshot. -/
  | startAborting (reason : AbortReason)
  /-- The condition of `maybeDoneLocked`, then its two statements. -/
  | checkIdle
  | setDone
  | closeDone
  | joinErr (err : Err)
  | getResult
  /-- The listener is made, with its capacity. -/
  | newListener (scheme : Scheme)
  | closeOnceEnter (j : ℕ)
  | closeOnceExit (j : ℕ)
  | setErr (j : ℕ) (err : Option Err)
  | closeClosing (j : ℕ)
  | isClosing (j : ℕ)
  | closeListenerDone (j : ℕ)
  /-- Whether the error of `Accept` is temporary, and the wait that follows. -/
  | temporary
  | waitOrClosed (j : ℕ)
  /-- The `select` of a goroutine that watches the context of a listener. -/
  | watchListener (j : ℕ)
  | newCell
  | cellSet (d lease physical : ℕ)
  | cellTake (d : ℕ)
  /-- The `take` inside the deferred `state.release()`. -/
  | cellRelease (d : ℕ)
  /-- `Close`, `requestShutdown` or `requestDrain` of a session, which ends elsewhere. -/
  | closeSession (k : ℕ)
  | closeSessionDone (k : ℕ)
  | spawn (l : ELabel)
  | external (what : External)
  | ctxCause
  | httpEvent
  /-- `l.ready <- result` or the end of the listener's context. -/
  | offer
  /-- The `select` of `Shutdown`. -/
  | awaitDone

@[reducible] def EInstr.Resp : EInstr → Type
  | .adm i => i.Resp
  | .trk _ i => i.Resp
  | .getState => EngineState
  | .trackSession _ _ => ℕ
  | .untrackSession _ => Option ℕ
  | .startDraining => EngineShutdownSet × List ℕ
  | .startAborting _ => EngineShutdownSet
  | .checkIdle => Bool
  | .getResult => Option Err
  | .newListener _ => ℕ
  | .closeOnceEnter _ => Bool
  | .isClosing _ => Bool
  | .temporary => Bool
  | .waitOrClosed _ => Bool
  | .watchListener _ => Bool
  | .newCell => ℕ
  | .cellSet _ _ _ => Bool
  | .cellTake _ => Option ℕ
  | .cellRelease _ => Option ℕ
  | .external _ => Except Err Remote
  | .ctxCause => Option Err
  | .httpEvent => HTTPEvent
  | .offer => Bool
  | .awaitDone => Option Err
  | _ => Unit

abbrev EProg := Prog EInstr EInstr.Resp

/-- What the outside decides in a step. -/
structure EChoice where
  err : Option Err := none
  remote : Remote := {}
  flag : Bool := false
  event : HTTPEvent := .closed

/-- What a goroutine returns. -/
inductive EVal where
  | unit
  | made (r : Except Err ℕ)
  | result (err : Option Err)

abbrev ENext := Next ELabel EVal

namespace Engine

/-- The effect of one step; `none` when it has to wait, names something that does not exist or would
panic. -/
def exec (e : Engine) (x : EChoice) : (i : EInstr) → Option (Engine × i.Resp)
  | .adm i => (e.adm.exec i).map fun a => ({ e with adm := a.1 }, a.2)
  | .trk j i =>
    match e.listeners[j]? with
    | none => none
    | some l =>
      (l.tracker.exec i).map fun a => (e.setListener j { l with tracker := a.1 }, a.2)
  | .lock => if e.mu then none else some ({ e with mu := true }, ())
  | .unlock => some ({ e with mu := false }, ())
  | .getState => some (e, e.state)
  | .incOps => some ({ e with activeOps := e.activeOps + 1 }, ())
  | .decOps => some ({ e with activeOps := e.activeOps - 1 }, ())
  | .trackListener j =>
    match e.listeners[j]? with
    | none => none
    | some l => some (e.setListener j { l with tracked := true }, ())
  | .untrackListener j =>
    match e.listeners[j]? with
    | none => none
    | some l => some (e.setListener j { l with tracked := false }, ())
  | .trackSession kind lease =>
    some ({ e with sessions := e.sessions ++ [{ kind, admitted := lease, lease := some lease }] },
      e.sessions.length)
  | .untrackSession k =>
    match e.sessions[k]? with
    | none => none
    | some s => some (e.setSession k { s with tracked := false, lease := none }, s.lease)
  | .startDraining =>
    some ({ e with state := .draining }, (e.snapshotShutdownSetLocked, e.leases))
  | .startAborting reason =>
    some ({ e with
      state := .aborting
      shutdownReason := if e.shutdownReason = .none then reason else e.shutdownReason },
      e.snapshotShutdownSetLocked)
  | .checkIdle => some (e, e.idle)
  | .setDone => some ({ e with state := .done }, ())
  | .closeDone =>
    if e.done then some (e, ()) else some ({ e with done := true, closes := e.closes + 1 }, ())
  | .joinErr err =>
    some ({ e with shutdownErr := some (e.shutdownErr.elim err fun old => .join old err) }, ())
  | .getResult => some (e, e.shutdownResult)
  | .newListener scheme =>
    some ({ e with
      listeners := e.listeners ++ [{ scheme }]
      adm := { e.adm with listeners := e.adm.listeners ++
        [newListenerCapacity e.adm.ctl.limits.maxConnectionsPerListener] } }, e.listeners.length)
  | .closeOnceEnter j =>
    match e.listeners[j]? with
    | none => none
    | some l =>
      match l.closeOnce with
      | .idle => some (e.setListener j { l with closeOnce := .running }, true)
      | .running => none
      | .finished => some (e, false)
  | .closeOnceExit j =>
    match e.listeners[j]? with
    | none => none
    | some l => some (e.setListener j { l with closeOnce := .finished }, ())
  | .setErr j err =>
    match e.listeners[j]? with
    | none => none
    | some l => some (e.setListener j { l with err }, ())
  | .closeClosing j =>
    match e.listeners[j]? with
    | none => none
    | some l => some (e.setListener j { l with closing := true }, ())
  | .isClosing j =>
    match e.listeners[j]? with
    | none => none
    | some l => some (e, l.closing)
  | .closeListenerDone j =>
    match e.listeners[j]? with
    | none => none
    | some l => if l.done then none else some (e.setListener j { l with done := true }, ())
  | .temporary => some (e, x.flag)
  | .waitOrClosed j =>
    match e.listeners[j]? with
    | none => none
    | some l => if x.flag then some (e, true) else if l.closing then some (e, false) else none
  | .watchListener j =>
    match e.listeners[j]? with
    | none => none
    | some l => if x.flag then some (e, true) else if l.done then some (e, false) else none
  | .newCell => some ({ e with cells := e.cells ++ [{}] }, e.cells.length)
  | .cellSet d lease physical =>
    match e.cells[d]? with
    | none => none
    | some c =>
      if c.lease.isSome then some (e, false)
      else some (e.setCell d { c with lease := some lease, physical := some physical }, true)
  | .cellTake d =>
    match e.cells[d]? with
    | none => none
    | some c => some (e.setCell d { c with lease := none, physical := none }, c.lease)
  | .cellRelease d =>
    match e.cells[d]? with
    | none => none
    | some c =>
      some (e.setCell d { c with lease := none, physical := none, isOver := true }, c.lease)
  | .closeSession _ => some (e, ())
  | .closeSessionDone k =>
    match e.sessions[k]? with
    | none => none
    | some s => if s.done then none else some (e.setSession k { s with done := true }, ())
  | .spawn l => some ({ e with pending := l :: e.pending }, ())
  | .external _ => some (e, x.err.elim (.ok x.remote) .error)
  | .ctxCause => some (e, x.err)
  | .httpEvent => some (e, x.event)
  | .offer => some (e, x.flag)
  | .awaitDone =>
    match x.err with
    | some err => some (e, some err)
    | none => if e.done then some (e, none) else none

end Engine

end Ogrenet
