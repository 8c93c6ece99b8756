import Ogrenet.Engine.WebSocket

/-!
# The machine of an Engine

The exported methods of an `Engine`, its shutdown, and the machine in which any number of goroutines
run them together with the goroutines they start.
-/

namespace Ogrenet

open Interleaving Interleaving.Prog Eng

/-! ### `engine_shutdown.go` -/

/-- Closes listeners one after the other and joins their errors to those so far. -/
def closeEach (close : ℕ → EProg (Option Err)) : List ℕ → Option Err → EProg (Option Err)
  | [], errs => return errs
  | j :: js, errs => do
    match ← close j with
    | none => closeEach close js errs
    | some err => closeEach close js (some (errs.elim err fun old => .join old err))

/-- Asks sessions to close or to drain; none of the three kinds returns an error. -/
def closeSessions : List ℕ → EProg Unit
  | [] => return ()
  | k :: ks => do
    closeSession k
    closeSessions ks

/-- `requestGracefulShutdown` and `closeSet`, which differ in what they ask of the sessions. -/
def closeSet (set : EngineShutdownSet) : EProg (Option Err) := do
  let errs ← closeEach (fun j => initiateClose j none) set.streamListeners none
  let errs ← closeEach closeWSListener set.wsListeners errs
  closeSessions set.streams
  closeSessions set.websockets
  closeSessions set.packets
  return errs

def abortRemaining (reason : AbortReason) : EProg Unit := do
  match ← beginAbort reason with
  | none => return ()
  | some set =>
    match ← closeSet set with
    | none => return ()
    | some err => recordShutdownError err

/-- The owner's part of `Shutdown` before it waits. -/
def requestShutdown (set : EngineShutdownSet) : EProg Unit := do
  match ← closeSet set with
  | none => return ()
  | some err =>
    recordShutdownError err
    abortRemaining .failure

/-- The `select` of `Shutdown`. -/
def awaitShutdown (owner : Bool) : EProg ENext := do
  match ← awaitDone with
  | none => return .ret (.result (← shutdownResult))
  | some cause =>
    if owner then abortRemaining .caller
    return .ret (.result (some cause))

def shutdownEngine (ctxNil : Bool) : EProg ENext := do
  if ctxNil then return .ret (.result (some (.sentinel .nilContext)))
  else
    match ← ctxCause with
    | some cause => return .ret (.result (some cause))
    | none =>
      match ← beginGracefulShutdown with
      | none => awaitShutdown false
      | some set =>
        requestShutdown set
        awaitShutdown true

def closeEngine : EProg ENext := do
  match ← beginAbort .explicit with
  | none => return .ret (.result none)
  | some set =>
    let err ← closeSet set
    return .ret (.result err)

/-! ### The goroutines -/

def ELabel.body (cfg : EngineConfig) : ELabel → EProg ENext
  | .listen ctxNil scheme query =>
    checked ctxNil (scheme == .udp)
      (if scheme = .tcp ∨ scheme = .tls then listenStream scheme
        else listenWebSocket cfg scheme query)
  | .dial ctxNil scheme =>
    checked ctxNil (scheme == .udp)
      (if scheme = .tcp ∨ scheme = .tls then dialStream scheme else dialWebSocket cfg scheme)
  | .listenPacket ctxNil scheme => checked ctxNil (scheme != .udp) Ogrenet.listenPacket
  | .dialPacket ctxNil scheme => checked ctxNil (scheme != .udp) Ogrenet.dialPacket
  | .shutdown ctxNil => shutdownEngine ctxNil
  | .close => closeEngine
  | .closeListener j => do
    let err ← initiateClose j none
    return .ret (.result err)
  | .closeWSListener j => do
    let err ← Ogrenet.closeWSListener j
    return .ret (.result err)
  | .watchContext j => Ogrenet.watchContext j
  | .acceptLoop j scheme => Ogrenet.acceptLoop j scheme
  | .handleAccepted j scheme raw => Ogrenet.handleAccepted j scheme raw
  | .watchWS j => Ogrenet.watchWS j
  | .serve j => Ogrenet.serve j
  | .accept j => acceptHTTP j
  | .tlsAcceptLoop j => Ogrenet.tlsAcceptLoop j
  | .tlsHandshake j raw => Ogrenet.tlsHandshake j raw
  | .httpConn j conn => Ogrenet.httpConn j conn
  | .httpRequests j conn holder => Ogrenet.httpRequests j conn holder
  | .dialCallback d tls => Ogrenet.dialCallback d tls
  | .finalizer k => Ogrenet.finalizer k

/-- Starts a goroutine: a method that anyone may call, a call of package `net/http`, or a goroutine
that a `go` statement has asked for. -/
def Engine.spawn (e : Engine) : ELabel → Option Engine
  | .listen .. | .dial .. | .listenPacket .. | .dialPacket .. | .shutdown _ | .close => some e
  | .closeListener j => (e.listeners[j]?).bind fun l => if l.isWS then none else some e
  | .closeWSListener j => (e.listeners[j]?).bind fun l => if l.isWS then some e else none
  | .accept j => (e.listeners[j]?).bind fun l => if l.scheme = .ws then some e else none
  | .dialCallback d _ => if d < e.cells.length then some e else none
  | l => if l ∈ e.pending then some { e with pending := e.pending.erase l } else none

/-- Contexts and the network are choices of the steps, so the environment has none of its own. -/
def engineMachine (cfg : EngineConfig) :
    Machine EInstr EInstr.Resp ELabel EVal Engine EChoice Empty where
  body := ELabel.body cfg
  exec e i x := e.exec x i
  spawn := Engine.spawn
  env e _ := some e

abbrev EThread := Thread EInstr EInstr.Resp ELabel EVal

abbrev EProcess := Process EInstr EInstr.Resp ELabel EVal Engine

abbrev EEvent := Event ELabel EChoice Empty

/-- A new Engine. -/
def Engine.init (cfg : EngineConfig) : Engine :=
  { adm := { ctl := newAdmissionController cfg.limits } }

def EProcess.init (cfg : EngineConfig) : EProcess := ⟨.init cfg, []⟩

/-- A state of the Engine that some interleaving reaches. -/
def EngineReaches (cfg : EngineConfig) (p : EProcess) : Prop :=
  (engineMachine cfg).Reaches (EProcess.init cfg) p

end Ogrenet
