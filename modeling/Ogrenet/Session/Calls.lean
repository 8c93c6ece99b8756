import Ogrenet.Session.State

/-!
# Steps and shared functions of the session code

The steps of `SInstr` as programs, the program points where loops are cut, and the functions that
the three kinds of session have in common: `lifecycle.go`, `quota.go` and `closeOnce.Do`.
-/

namespace Ogrenet

open Interleaving Interleaving.Prog

namespace Ses

def ctxCause (k : ℕ) : SProg (Option Err) := perform (SInstr.ctxCause k)

def gateEnter : SProg Bool := perform SInstr.gateEnter

def gateLeave : SProg Unit := perform SInstr.gateLeave

def gateClose : SProg Unit := perform SInstr.gateClose

/-- A `select` that waits. -/
def select (cases : List Case) : SProg Fired := perform (SInstr.select cases false)

/-- A `select` with a default case. -/
def poll (cases : List Case) : SProg Fired := perform (SInstr.select cases true)

def releaseSlot : SProg Unit := perform SInstr.releaseSlot

def releaseEncoder : SProg Unit := perform SInstr.releaseEncoder

def encode (msg : Message) : SProg (Except Err Bytes) := perform (SInstr.encode msg)

def localSection (n : ℕ) : SProg (Option ℕ) := perform (SInstr.localSection n)

def localTry (n : ℕ) : SProg Bool := perform (SInstr.localTry n)

def localRelease (n : ℕ) : SProg Unit := perform (SInstr.localRelease n)

def globalSection (n : ℕ) : SProg (Option ℕ) := perform (SInstr.globalSection n)

def globalTry (n : ℕ) : SProg Bool := perform (SInstr.globalTry n)

def globalRelease (n : ℕ) : SProg Unit := perform (SInstr.globalRelease n)

def request (goal : CloseGoal) : SProg (Bool × CloseGoal) := perform (SInstr.request goal)

def abortSection (reason : AbortReason) (publish : Option (Option Err)) : SProg Bool :=
  perform (SInstr.abortSection reason publish)

def tryTerminal : SProg Bool := perform SInstr.tryTerminal

def setTerminal : SProg Unit := perform SInstr.setTerminal

def reason : SProg AbortReason := perform SInstr.reason

def err : SProg (Option Err) := perform SInstr.err

def ackErr (owed : Bool) : SProg (Option Err) := perform (SInstr.ackErr owed)

def setErr (e : Err) : SProg Unit := perform (SInstr.setErr e)

def signal (ch : Signal) : SProg Unit := perform (SInstr.signal ch)

def onceEnter (o : Once) : SProg Bool := perform (SInstr.onceEnter o)

def onceExit (o : Once) : SProg Unit := perform (SInstr.onceExit o)

def rawClose : SProg Unit := perform SInstr.rawClose

def setWriteDeadline : SProg (Option Err) := perform SInstr.setWriteDeadline

def setReadDeadline : SProg (Option Err) := perform SInstr.setReadDeadline

def rawWrite (p : Bytes) : SProg (ℕ × Option Err) := perform (SInstr.rawWrite p)

def rawCloseWrite : SProg (Option Err) := perform SInstr.rawCloseWrite

def rawRead : SProg (Bytes × Option Err) := perform SInstr.rawRead

def decodeOne (src : Bytes) : SProg (Except Err (Message × ℤ)) := perform (SInstr.decodeOne src)

def wsWrite (req : Request) : SProg (Option Err) := perform (SInstr.wsWrite req)

def wsRead : SProg (Except Err (Bool × Bytes)) := perform SInstr.wsRead

def wsDecode (text : Bool) (payload : Bytes) : SProg (Except Err Message) :=
  perform (SInstr.wsDecode text payload)

def wsClose : SProg (Option Err) := perform SInstr.wsClose

def wsPing : SProg (Option Err) := perform SInstr.wsPing

def writeBegin : SProg Unit := perform SInstr.writeBegin

def writeTimeoutCause : SProg (Option Err) := perform SInstr.writeTimeoutCause

def writePendingRead : SProg (Option Err) := perform SInstr.writePendingRead

def writeEnd : SProg (Option Err) := perform SInstr.writeEnd

def deferRead (e : Err) : SProg Bool := perform (SInstr.deferRead e)

def goWatch : SProg Unit := perform SInstr.goWatch

def packetWrite (req : Request) : SProg (Option Err) := perform (SInstr.packetWrite req)

def packetRead : SProg (Bytes × Option Err) := perform SInstr.packetRead

def wrote (ok : Bool) : SProg Unit := perform (SInstr.wrote ok)

def count (c : Counter) (n : ℕ) : SProg Unit := perform (SInstr.count c n)

def ack (i : ℕ) (v : Option Err) : SProg Unit := perform (SInstr.ack i v)

def callBegin (cb : Callback) : SProg Unit := perform (SInstr.callBegin cb)

def callEnd (cb : Callback) : SProg Unit := perform (SInstr.callEnd cb)

def loopDone : SProg Unit := perform SInstr.loopDone

def waitLoops : SProg Unit := perform SInstr.waitLoops

def engineRemove : SProg Unit := perform SInstr.engineRemove

end Ses

open Ses

/-! ### Program points -/

/-- A send that has its frame and waits for the byte budgets. -/
structure Sending where
  ctx : ℕ
  frame : Bytes
  payloadBytes : ℕ
  text : Bool := false
  peer : Option String := none
  deriving DecidableEq, Repr

/-- The loops of `writerLoop`: before the drain was requested, after it, and once the gate is
drained. -/
inductive WriterAt where
  | running
  | graceful
  | drain
  deriving DecidableEq, Repr

/-- The peer that a call on a packet connection names. -/
inductive Peer where
  /-- `Send` and `TrySend` name none. -/
  | unnamed
  /-- A nil address. -/
  | missing
  /-- A `*net.UDPAddr`, by its text. -/
  | udp (addr : String)
  /-- Another address, with what `net.ResolveUDPAddr` makes of its text. -/
  | other (resolved : Except Err String)
  deriving DecidableEq, Repr

/-- Where a goroutine of a session can start, and the heads of its loops. A `none` context is
nil. -/
inductive SLabel where
  | send (ctx : Option ℕ) (msg : Message)
  | trySend (msg : Message)
  /-- `Send` and `SendTo` of a packet connection. -/
  | sendTo (ctx : Option ℕ) (target : Peer) (data : Bytes)
  | trySendTo (target : Peer) (data : Bytes)
  | acquireLocal (a : Sending)
  | acquireGlobal (a : Sending)
  | closeWrite (ctx : Option ℕ)
  | shutdown (ctx : Option ℕ)
  | close
  | requestShutdown
  | requestDrain
  | writerLoop
  | writer (at_ : WriterAt)
  | writing (at_ : WriterAt) (i : ℕ) (req : Request) (rest : Bytes)
  | writerExit
  | failPending (pendingErr : Option Err)
  | readerLoop
  | reader (pending : Bytes)
  | decoding (pending : Bytes) (consumed : ℕ) (readErr : Option Err)
  | pingLoop
  | watchdog
  | watchCloseTimeout
  | watchContext (ctx : ℕ)
  | finalizer
  deriving DecidableEq, Repr

/-- What a goroutine returns: the error of the calls that have one. -/
inductive SVal where
  | result (e : Option Err)
  | unit
  deriving DecidableEq, Repr

abbrev SNext := Next SLabel SVal

/-- Leaves a call with its error. -/
def returnErr (e : Option Err) : SProg SNext := pure (.ret (.result e))

/-- The error value of `msg.Validate()`. -/
def Err.ofMessage : MessageError → Err
  | .invalidPayloadType => .sentinel .invalidPayloadType
  | .invalidUTF8 => .sentinel .invalidUTF8

/-! ### `lifecycle.go` -/

def requestWithPrevious (goal : CloseGoal) : SProg (Bool × CloseGoal) := do
  match goal with
  | .running | .abort => return (false, .running)
  | .write | .full =>
    match ← request goal with
    | (false, previous) => return (false, previous)
    | (true, previous) =>
      signal .writeReq
      if goal = .full then signal .fullReq
      return (true, previous)

def abortWith (reason : AbortReason) (publish : Option (Option Err)) : SProg Bool := do
  match ← abortSection reason publish with
  | false => return false
  | true =>
    signal .writeReq
    signal .fullReq
    signal .aborted
    signal .readDone
    signal .writeDone
    return true

def markTerminalChannels : SProg Unit := do
  signal .readDone
  signal .writeDone
  signal .terminal

def tryMarkTerminal : SProg Bool := do
  match ← tryTerminal with
  | false => return false
  | true =>
    markTerminalChannels
    return true

def markTerminal : SProg Unit := do
  setTerminal
  markTerminalChannels

/-! ### Small helpers -/

/-- `once.Do(body)`. -/
def onceDo (o : Once) (body : SProg Unit) : SProg Unit := do
  match ← onceEnter o with
  | false => return ()
  | true =>
    body
    onceExit o

/-- `isClosedSignal(ch)`, of which `isClosing` is a case. -/
def isClosedSignal (ch : Signal) : SProg Bool := do
  match ← poll [.closed ch] with
  | .default => return false
  | _ => return true

def isClosing : SProg Bool := isClosedSignal .closing

/-- `quota.release(n)`: the session's own budget, then the engine-wide one. -/
def quotaRelease (n : ℕ) : SProg Unit := do
  localRelease n
  globalRelease n

/-- `globalByteQuota.tryAcquire`. -/
def tryAcquireGlobal (cfg : SessionConfig) (n : ℕ) : SProg (Option Err) := do
  let limit : Err := .limitError ⟨.queuedBytes, cfg.maxQueuedBytesTotal⟩
  if cfg.maxQueuedBytesTotal = 0 ∨ n = 0 then return none
  else if cfg.maxQueuedBytesTotal < n then return some limit
  else
    match ← globalTry n with
    | true => return none
    | false => return some (.join (.sentinel .wouldBlock) limit)

/-- `byteQuota.tryAcquire`. -/
def tryAcquireQuota (cfg : SessionConfig) (n : ℕ) : SProg (Option Err) := do
  if cfg.maxQueuedBytes < n then return some (.sentinel .frameExceedsQueueBudget)
  else
    match ← localTry n with
    | false => return some (.sentinel .wouldBlock)
    | true =>
      match ← tryAcquireGlobal cfg n with
      | none => return none
      | some e =>
        localRelease n
        return some e

/-- The function of `finalize`: `settle` brings the session to its end, and the rest reports it. -/
def finalizeWith (settle : SProg Unit) : SProg Unit :=
  onceDo .final do
    settle
    let e ← err
    callBegin (.onClose e)
    callEnd (.onClose e)
    signal .done
    engineRemove

/-- The end of a loop goroutine: `loops.Done()`. -/
def endLoop : SProg SNext := do
  loopDone
  return .ret .unit

end Ogrenet
