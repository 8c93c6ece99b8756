import Ogrenet.Engine.State

/-!
# Engine bookkeeping

The functions of `engine_tracking_add.go`, `engine_tracking_remove.go` and `engine_admission.go` as
programs, and those of `engine_shutdown.go` that work under `Engine.mu`.
-/

namespace Ogrenet

open Interleaving Interleaving.Prog

/-! ### The steps as programs -/

namespace Eng

/-- Runs a function of the admission code. -/
def adm {α : Type} (p : AdmProg α) : EProg α := p.lift EInstr.adm fun _ r => r

/-- Runs a function on the tracker of listener `j`. -/
def trk {α : Type} (j : ℕ) (p : TrkProg α) : EProg α := p.lift (EInstr.trk j) fun _ r => r

def lock : EProg Unit := perform EInstr.lock

def unlock : EProg Unit := perform EInstr.unlock

def getState : EProg EngineState := perform EInstr.getState

def incOps : EProg Unit := perform EInstr.incOps

def decOps : EProg Unit := perform EInstr.decOps

def trackListener (j : ℕ) : EProg Unit := perform (EInstr.trackListener j)

def untrackListener (j : ℕ) : EProg Unit := perform (EInstr.untrackListener j)

def trackSession (kind : SessionKind) (lease : ℕ) : EProg ℕ :=
  perform (EInstr.trackSession kind lease)

def untrackSession (k : ℕ) : EProg (Option ℕ) := perform (EInstr.untrackSession k)

def startDraining : EProg (EngineShutdownSet × List ℕ) := perform EInstr.startDraining

def startAborting (reason : AbortReason) : EProg EngineShutdownSet :=
  perform (EInstr.startAborting reason)

def checkIdle : EProg Bool := perform EInstr.checkIdle

def setDone : EProg Unit := perform EInstr.setDone

def closeDone : EProg Unit := perform EInstr.closeDone

def joinErr (err : Err) : EProg Unit := perform (EInstr.joinErr err)

def getResult : EProg (Option Err) := perform EInstr.getResult

def newListener (scheme : Scheme) : EProg ℕ := perform (EInstr.newListener scheme)

def closeOnceEnter (j : ℕ) : EProg Bool := perform (EInstr.closeOnceEnter j)

def closeOnceExit (j : ℕ) : EProg Unit := perform (EInstr.closeOnceExit j)

def setErr (j : ℕ) (err : Option Err) : EProg Unit := perform (EInstr.setErr j err)

def closeClosing (j : ℕ) : EProg Unit := perform (EInstr.closeClosing j)

def isClosing (j : ℕ) : EProg Bool := perform (EInstr.isClosing j)

def closeListenerDone (j : ℕ) : EProg Unit := perform (EInstr.closeListenerDone j)

def temporary : EProg Bool := perform EInstr.temporary

def waitOrClosed (j : ℕ) : EProg Bool := perform (EInstr.waitOrClosed j)

def watchListener (j : ℕ) : EProg Bool := perform (EInstr.watchListener j)

def newCell : EProg ℕ := perform EInstr.newCell

def cellSet (d lease physical : ℕ) : EProg Bool := perform (EInstr.cellSet d lease physical)

def cellTake (d : ℕ) : EProg (Option ℕ) := perform (EInstr.cellTake d)

def cellRelease (d : ℕ) : EProg (Option ℕ) := perform (EInstr.cellRelease d)

def closeSession (k : ℕ) : EProg Unit := perform (EInstr.closeSession k)

def closeSessionDone (k : ℕ) : EProg Unit := perform (EInstr.closeSessionDone k)

/-- `go l`. -/
def spawn (l : ELabel) : EProg Unit := perform (EInstr.spawn l)

def external (what : External) : EProg (Except Err Remote) := perform (EInstr.external what)

def ctxCause : EProg (Option Err) := perform EInstr.ctxCause

def httpEvent : EProg HTTPEvent := perform EInstr.httpEvent

def offer : EProg Bool := perform EInstr.offer

def awaitDone : EProg (Option Err) := perform EInstr.awaitDone

end Eng

open Eng

def errClosed : Err := .sentinel .closed

/-! ### `engine_tracking_remove.go` and `engine_tracking_add.go` -/

def maybeDoneLocked : EProg Unit := do
  match ← checkIdle with
  | false => return ()
  | true =>
    setDone
    closeDone

def maybeDone : EProg Unit := do
  lock
  maybeDoneLocked
  unlock

def beginOp : EProg (Option Err) := do
  lock
  match ← getState with
  | .running =>
    incOps
    unlock
    return none
  | _ =>
    unlock
    return some errClosed

def endOp : EProg Unit := do
  lock
  decOps
  maybeDoneLocked
  unlock

/-- `addTracked` for a listener of either kind. -/
def addTracked (j : ℕ) : EProg (Option Err) := do
  lock
  match ← getState with
  | .running =>
    trackListener j
    unlock
    return none
  | _ =>
    unlock
    return some errClosed

/-- The end of the functions that add a session. -/
def addLeased (kind : SessionKind) (lease : ℕ) : EProg (Except Err ℕ) := do
  let k ← trackSession kind lease
  unlock
  return .ok k

/-- The functions that add a session, with the lease it has or none. -/
def addWithLease (kind : SessionKind) (peer : String) (lease : Option ℕ) :
    EProg (Except Err ℕ) := do
  lock
  match ← getState with
  | .running =>
    match lease with
    | none =>
      match ← adm (acquireConnection peer) with
      | .error e =>
        unlock
        return .error (.limitError e)
      | .ok lease => addLeased kind lease
    | some lease =>
      match ← adm (ConnectionLease.activate lease) with
      | false =>
        unlock
        return .error errClosed
      | true => addLeased kind lease
  | _ =>
    unlock
    return .error errClosed

def addStreamWithLease (peer : String) (lease : Option ℕ) : EProg (Except Err ℕ) :=
  addWithLease .conn peer lease

def addWebSocketWithLease (peer : String) (lease : Option ℕ) : EProg (Except Err ℕ) :=
  addWithLease .webSocket peer lease

def addPacket (peer : String) : EProg (Except Err ℕ) := addWithLease .packet peer none

/-- `lease.release()`, which does nothing on a nil lease. -/
def releaseLease : Option ℕ → EProg Unit
  | none => return ()
  | some lease => adm (ConnectionLease.release lease)

/-- `removeStream`, `removeWebSocket` and `removePacket`. -/
def removeSession (k : ℕ) : EProg Unit := do
  lock
  let lease ← untrackSession k
  releaseLease lease
  maybeDoneLocked
  unlock

/-- `removeTracked` for a listener of either kind. -/
def removeTracked (j : ℕ) : EProg Unit := do
  lock
  untrackListener j
  maybeDoneLocked
  unlock

/-! ### `engine_admission.go` -/

/-- `Engine.acquireHandshake` and `Engine.acquireUpgrade`. -/
def acquireEngineActivity (kind : Activity) : EProg (Except Err ℕ) := do
  lock
  match ← getState with
  | .running =>
    match ← adm (Adm.acquireActivity kind) with
    | .error e =>
      unlock
      return .error (.limitError e)
    | .ok a =>
      unlock
      return .ok a
  | _ =>
    unlock
    return .error errClosed

/-- `engineActivityLease.release`. -/
def releaseEngineActivity (a : ℕ) : EProg Unit := do
  match ← adm (ActivityLease.release a) with
  | false => return ()
  | true => maybeDone

/-! ### `engine_shutdown.go` -/

/-- The loop of `beginGracefulShutdown` over the leases. -/
def drainLeases : List ℕ → EProg Unit
  | [] => return ()
  | lease :: leases => do
    let _ ← adm (ConnectionLease.beginDrain lease)
    drainLeases leases

/-- The snapshot when the call has made the transition. -/
def beginGracefulShutdown : EProg (Option EngineShutdownSet) := do
  lock
  match ← getState with
  | .running =>
    let (set, leases) ← startDraining
    drainLeases leases
    maybeDoneLocked
    unlock
    return some set
  | _ =>
    unlock
    return none

def beginAbort (reason : AbortReason) : EProg (Option EngineShutdownSet) := do
  lock
  match ← getState with
  | .done | .aborting =>
    unlock
    return none
  | _ =>
    let set ← startAborting reason
    maybeDoneLocked
    unlock
    return some set

def recordShutdownError (err : Err) : EProg Unit := do
  lock
  joinErr err
  unlock

def shutdownResult : EProg (Option Err) := do
  lock
  let result ← getResult
  unlock
  return result

end Ogrenet
