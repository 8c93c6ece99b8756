import Ogrenet.Session.Calls

/-!
# WebSocket sessions

The programs of `wsSession` (`websocket.go`, `websocket_graceful.go` and
`websocket_write_state.go`).
-/

namespace Ogrenet

open Interleaving Interleaving.Prog Ses

namespace WebSocket

variable (cfg : SessionConfig)

def operationalError (op : Op) (cause : Err) (hint : ClassifyHint) : Err :=
  classifyOperational op cfg.site cause hint

def sendError (ctx : ℕ) (e : Err) : SProg Err := do
  match ← ctxCause ctx with
  | some cause => return cause
  | none => return operationalError cfg .send e .none

/-! ### Closing -/

def abort (reason : AbortReason) (cause : Option Err) : SProg Bool := do
  match ← abortWith reason (if reason = .failure then cause.map some else none) with
  | false => return false
  | true =>
    onceDo .close do
      gateClose
      signal .closing
      rawClose
    return true

def initiateClose (cause : Option Err) : SProg Unit := do
  let _ ← abort .failure cause

def lifecycleResult : SProg (Option Err) := do
  match ← err with
  | some e => return some e
  | none =>
    match ← reason with
    | .none => return none
    | .explicit | .caller | .failure => return some (.sentinel .closed)

def requestShutdown : SProg Bool := do
  match ← requestWithPrevious .full with
  | (false, _) => return false
  | (true, _) =>
    gateClose
    goWatch
    return true

def shutdown : Option ℕ → SProg SNext
  | none => returnErr (some (.sentinel .nilContext))
  | some ctx => do
    match ← ctxCause ctx with
    | some cause => returnErr (some cause)
    | none =>
      let owner ← requestShutdown
      match ← select [.closed .done, .closed .aborted, .ctxDone ctx] with
      | .ctxDone cause =>
        if owner then
          let _ ← abort .caller none
        returnErr (some cause)
      | _ => returnErr (← lifecycleResult)

def close : SProg SNext := do
  match ← isClosedSignal .done with
  | true => returnErr none
  | false =>
    let _ ← abort .explicit none
    returnErr none

def watchCloseTimeout : SProg SNext := do
  match ← select [.closed .writerDrained, .closed .aborted, .closed .done] with
  | .closed .writerDrained =>
    match ← select [.timer, .closed .aborted, .closed .done] with
    | .timer _ =>
      let cause : Err := .timeoutCause .close (.sentinel .deadlineExceeded)
      let _ ← abort .failure (some (operationalError cfg .close cause .none))
      return .ret .unit
    | _ => return .ret .unit
  | _ => return .ret .unit

/-! ### Sending -/

def acquireFrameSlot (ctx : ℕ) : SProg (Option Err) := do
  match ← select [.ctxDone ctx, .closed .closing, .slot] with
  | .ctxDone _ => return some (.sentinel .canceled)
  | .slot => return none
  | _ => return some (.sentinel .closed)

def tryAcquireFrameSlot : SProg (Option Err) := do
  match ← poll [.closed .closing, .slot] with
  | .slot => return none
  | .default => return some (.sentinel .wouldBlock)
  | _ => return some (.sentinel .closed)

def acquireEncoder (ctx : ℕ) : SProg (Option Err) := do
  match ← select [.ctxDone ctx, .closed .closing, .encoder] with
  | .ctxDone _ => return some (.sentinel .canceled)
  | .encoder => return none
  | _ => return some (.sentinel .closed)

def tryAcquireEncoder : SProg (Option Err) := do
  match ← poll [.closed .closing, .encoder] with
  | .encoder => return none
  | .default => return some (.sentinel .wouldBlock)
  | _ => return some (.sentinel .closed)

/-- `Send` returns an error before it has a slot. -/
def failSend (ctx : ℕ) (e : Err) : SProg SNext := do
  let e ← sendError cfg ctx e
  gateLeave
  returnErr (some e)

/-- `Send` returns an error while `held` is set: the deferred function gives the slot back. -/
def failHeld (ctx : ℕ) (e : Err) : SProg SNext := do
  let e ← sendError cfg ctx e
  releaseSlot
  gateLeave
  returnErr (some e)

def send : Option ℕ → Message → SProg SNext
  | none, _ => returnErr (some (.sentinel .nilContext))
  | some ctx, msg => do
    match ← ctxCause ctx with
    | some cause => returnErr (some cause)
    | none =>
      match ← gateEnter with
      | false => returnErr (some (operationalError cfg .send (.sentinel .closed) .none))
      | true =>
        match msg.validate with
        | .error e =>
          gateLeave
          returnErr (some (.ofMessage e))
        | .ok _ =>
          match ← acquireFrameSlot ctx with
          | some e => failSend cfg ctx e
          | none =>
            match ← acquireEncoder ctx with
            | some e => failHeld cfg ctx e
            | none =>
              let encoded ← encode msg
              releaseEncoder
              match encoded with
              | .error e => failHeld cfg ctx e
              | .ok payload =>
                if cfg.maxQueuedBytes < payload.length then
                  failHeld cfg ctx (.sentinel .frameExceedsQueueBudget)
                else
                  let a : Sending :=
                    { ctx, frame := payload, payloadBytes := msg.data.length,
                      text := msg.type == .text }
                  return .goto (.acquireLocal a)

/-- `Err()` if it is set, else `ErrClosed` in its envelope: what a send returns after a close. -/
def closedError : SProg Err := do
  match ← err with
  | some terminal => return terminal
  | none => return operationalError cfg .send (.sentinel .closed) .none

/-- The wait of `Send` for its ack. -/
def awaitAck (ctx i : ℕ) : SProg SNext := do
  match ← select [.ack i, .ctxDone ctx, .closed .closing] with
  | .acked v =>
    gateLeave
    returnErr v
  | .ctxDone cause =>
    gateLeave
    returnErr (some cause)
  | _ =>
    match ← poll [.ack i] with
    | .acked v =>
      gateLeave
      returnErr v
    | _ =>
      match ← ctxCause ctx with
      | some cause =>
        gateLeave
        returnErr (some cause)
      | none =>
        let e ← closedError cfg
        gateLeave
        returnErr (some e)

/-- `Send` once the bytes are charged. -/
def enqueue (a : Sending) : SProg SNext := do
  let req : Request :=
    { frame := a.frame, hasAck := true, payloadBytes := a.payloadBytes, text := a.text }
  match ← select [.ctxDone a.ctx, .closed .closing, .push req] with
  | .pushed i => awaitAck cfg a.ctx i
  | .ctxDone cause =>
    quotaRelease a.frame.length
    releaseSlot
    gateLeave
    returnErr (some cause)
  | _ =>
    quotaRelease a.frame.length
    releaseSlot
    match ← ctxCause a.ctx with
    | some cause =>
      gateLeave
      returnErr (some cause)
    | none =>
      let e ← closedError cfg
      gateLeave
      returnErr (some e)

/-- One round of `byteQuota.acquireLocal` in `Send`. -/
def acquireLocal (a : Sending) : SProg SNext := do
  match ← localSection a.frame.length with
  | some g =>
    match ← select [.ctxDone a.ctx, .closed .closing, .changedLocal g] with
    | .ctxDone _ => failHeld cfg a.ctx (.sentinel .canceled)
    | .changed => return .goto (.acquireLocal a)
    | _ => failHeld cfg a.ctx (.sentinel .closed)
  | none =>
    if cfg.maxQueuedBytesTotal = 0 ∨ a.frame.length = 0 then enqueue cfg a
    else if cfg.maxQueuedBytesTotal < a.frame.length then
      localRelease a.frame.length
      failHeld cfg a.ctx (.limitError ⟨.queuedBytes, cfg.maxQueuedBytesTotal⟩)
    else return .goto (.acquireGlobal a)

/-- One round of `globalByteQuota.acquire` in `Send`. -/
def acquireGlobal (a : Sending) : SProg SNext := do
  match ← globalSection a.frame.length with
  | some g =>
    match ← select [.ctxDone a.ctx, .closed .closing, .changedGlobal g] with
    | .ctxDone _ =>
      localRelease a.frame.length
      failHeld cfg a.ctx (.sentinel .canceled)
    | .changed => return .goto (.acquireGlobal a)
    | _ =>
      localRelease a.frame.length
      failHeld cfg a.ctx (.sentinel .closed)
  | none => enqueue cfg a

/-- `trySendError`, with the slot given back first when it is held, and the end of `TrySend`. -/
def failTrySend (held : Bool) (e : Err) : SProg SNext := do
  if e.is .wouldBlock then count .backpressure 1
  if held then releaseSlot
  gateLeave
  returnErr (some (operationalError cfg .send e .none))

/-- `TrySend` once the bytes are charged. -/
def tryEnqueue (req : Request) : SProg SNext := do
  match ← poll [.closed .closing, .push req] with
  | .pushed _ =>
    gateLeave
    returnErr none
  | .default =>
    quotaRelease req.bytes
    releaseSlot
    failTrySend cfg false (.sentinel .wouldBlock)
  | _ =>
    quotaRelease req.bytes
    releaseSlot
    let e ← closedError cfg
    gateLeave
    returnErr (some e)

def trySend (msg : Message) : SProg SNext := do
  match ← gateEnter with
  | false => returnErr (some (operationalError cfg .send (.sentinel .closed) .none))
  | true =>
    match msg.validate with
    | .error e =>
      gateLeave
      returnErr (some (.ofMessage e))
    | .ok _ =>
      match ← tryAcquireFrameSlot with
      | some e => failTrySend cfg false e
      | none =>
        match ← tryAcquireEncoder with
        | some e => failTrySend cfg true e
        | none =>
          let encoded ← encode msg
          releaseEncoder
          match encoded with
          | .error e =>
            releaseSlot
            gateLeave
            returnErr (some (operationalError cfg .send e .none))
          | .ok payload =>
            match ← tryAcquireQuota cfg payload.length with
            | some e => failTrySend cfg true e
            | none =>
              let req : Request :=
                { frame := payload, hasAck := false, payloadBytes := msg.data.length,
                  text := msg.type == .text }
              tryEnqueue cfg req

/-! ### The writer -/

/-- The error of a failed write: a timeout first, then a read failure that waited for it. -/
def writeError (e : Err) (timeoutCause pendingRead : Option Err) : Option Err :=
  if timeoutCause.isSome || e.isTimeoutFailure then
    some (operationalError cfg .write (.timeoutCause .write e) .none)
  else match pendingRead with
  | some readErr => (normalizeWSError readErr).map fun n => operationalError cfg .read n .none
  | none => some (operationalError cfg .write (.wrap "transport: websocket write" e) .none)

/-- The error with which a failed request is acknowledged. -/
def failedAck (owed won : Bool) (opErr : Option Err) : SProg Err := do
  match won, opErr with
  | true, some e => return e
  | _, _ =>
    match ← ackErr owed with
    | some terminal => return terminal
    | none => return .sentinel .closed

def handleOutbound (at_ : WriterAt) (i : ℕ) (req : Request) : SProg SNext := do
  writeBegin
  let e ← wsWrite req
  wrote e.isNone
  let timeoutCause ← writeTimeoutCause
  match e with
  | none =>
    let pendingRead ← writeEnd
    quotaRelease req.bytes
    releaseSlot
    count .bytesTX req.payloadBytes
    count .messagesTX 1
    if req.hasAck then ack i none
    match pendingRead with
    | some readErr =>
      initiateClose ((normalizeWSError readErr).map fun n => operationalError cfg .read n .none)
      return .goto .writerExit
    | none => return .goto (.writer at_)
  | some e =>
    let pendingRead ← writePendingRead
    quotaRelease req.bytes
    releaseSlot
    let opErr := writeError cfg e timeoutCause pendingRead
    let won ← abort .failure opErr
    let _ ← writeEnd
    let sendErr ← failedAck req.hasAck won opErr
    if req.hasAck then ack i (some sendErr)
    return .goto .writerExit

def finishLocalGraceful (e : Option Err) : SProg Unit := do
  match e.bind normalizeWSError with
  | some n => initiateClose (some (operationalError cfg .close n .none))
  | none =>
    signal .readDone
    signal .writeDone
    let _ ← tryMarkTerminal
    onceDo .close do
      gateClose
      signal .closing
      rawClose

def writer : WriterAt → SProg SNext
  | .running => do
    match ← select [.closed .closing, .closed .fullReq, .pop] with
    | .popped i req => handleOutbound cfg .running i req
    | .closed .fullReq => return .goto (.writer .graceful)
    | _ => return .goto .writerExit
  | .graceful => do
    match ← select [.closed .closing, .pop, .drained] with
    | .popped i req => handleOutbound cfg .graceful i req
    | .drained => return .goto (.writer .drain)
    | _ => return .goto .writerExit
  | .drain => do
    match ← poll [.pop] with
    | .popped i req => handleOutbound cfg .drain i req
    | _ =>
      signal .writerDrained
      let e ← wsClose
      finishLocalGraceful cfg e
      return .goto .writerExit

/-- The deferred function of `writerLoop`, up to the loop of `failPending`. -/
def writerExit : SProg SNext := do
  let _ ← select [.drained]
  let e ← closedError cfg
  return .goto (.failPending (some e))

/-- One round of `failPending`, and the end of the writer after it. -/
def failPending (pendingErr : Option Err) : SProg SNext := do
  match ← poll [.pop] with
  | .popped i req =>
    quotaRelease req.bytes
    releaseSlot
    if req.hasAck then ack i pendingErr
    return .goto (.failPending pendingErr)
  | _ =>
    signal .writerDrained
    endLoop

/-! ### The reader -/

def readerLoop : SProg SNext := do
  callBegin .onOpen
  callEnd .onOpen
  match ← isClosing with
  | true => endLoop
  | false => return .goto (.reader [])

def isNormalWSClose (e : Err) : Bool :=
  !e.is .canceled && (e.closeStatus == some 1000 || e.closeStatus == some 1001)

/-- Whether a read error belongs to the local close handshake. -/
def ownClose (e : Err) : SProg Bool := do
  match ← isClosedSignal .fullReq with
  | false => return false
  | true =>
    match ← isClosedSignal .aborted with
    | true => return false
    | false => if isNormalWSClose e then return true else isClosedSignal .writerDrained

/-- `s.readIdle > 0 && isTimeoutFailure(err) && !s.isClosing()`. -/
def idleTimeout (e : Err) : SProg Bool := do
  if cfg.readIdle && e.isTimeoutFailure then
    match ← isClosing with
    | true => return false
    | false => return true
  else return false

/-- The read error that is not part of the local close. -/
def failRead (e : Err) : SProg SNext := do
  match ← idleTimeout cfg e with
  | true =>
    initiateClose (some (operationalError cfg .read (.timeoutCause .readIdle e) .none))
    endLoop
  | false =>
    match ← writeTimeoutCause with
    | some cause =>
      initiateClose (some (operationalError cfg .write (.timeoutCause .write cause) .none))
      endLoop
    | none =>
      match ← deferRead e with
      | true => endLoop
      | false =>
        initiateClose ((normalizeWSError e).map fun n => operationalError cfg .read n .none)
        endLoop

def reader : SProg SNext := do
  match ← wsRead with
  | .error e =>
    match ← ownClose e with
    | true =>
      signal .readDone
      endLoop
    | false => failRead cfg e
  | .ok (text, payload) =>
    match ← wsDecode text payload with
    | .error e =>
      count .decodeErrors 1
      initiateClose (some (operationalError cfg .read e .messageDecode))
      endLoop
    | .ok msg =>
      count .bytesRX msg.data.length
      count .messagesRX 1
      callBegin (.onMessage msg)
      callEnd (.onMessage msg)
      match ← isClosing with
      | true => endLoop
      | false => return .goto (.reader [])

/-! ### The other goroutines -/

def pingLoop : SProg SNext := do
  match ← select [.closed .closing, .closed .fullReq, .timer] with
  | .timer _ =>
    match ← wsPing with
    | some e =>
      initiateClose (some (operationalError cfg .write (.wrap "transport: websocket ping" e) .none))
      endLoop
    | none => return .goto .pingLoop
  | _ => endLoop

def watchdog : SProg SNext := do
  match ← select [.closed .closing, .timer] with
  | .timer kind =>
    initiateClose (some (operationalError cfg .read (.timeoutError kind) .none))
    endLoop
  | _ => endLoop

/-- What `finalize` does before it reports the end. -/
def settleTerminal : SProg Unit := do
  match ← isClosing with
  | true => return ()
  | false => initiateClose none

def finalize : SProg Unit := finalizeWith settleTerminal

def finalizer : SProg SNext := do
  waitLoops
  finalize
  return .ret .unit

def body : SLabel → SProg SNext
  | .send ctx msg => send cfg ctx msg
  | .trySend msg => trySend cfg msg
  | .acquireLocal a => acquireLocal cfg a
  | .acquireGlobal a => acquireGlobal cfg a
  | .shutdown ctx => shutdown ctx
  | .close => close
  | .requestShutdown => do
    let _ ← requestShutdown
    return .ret .unit
  | .writerLoop => return .goto (.writer .running)
  | .writer at_ => writer cfg at_
  | .writerExit => writerExit cfg
  | .failPending e => failPending e
  | .readerLoop => readerLoop
  | .reader _ => reader cfg
  | .pingLoop => pingLoop cfg
  | .watchdog => watchdog cfg
  | .watchCloseTimeout => watchCloseTimeout cfg
  | .finalizer => finalizer
  | _ => return .ret .unit

end WebSocket

end Ogrenet
