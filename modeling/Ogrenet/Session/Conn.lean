import Ogrenet.Session.Calls

/-!
# TCP and TLS sessions

The programs of `conn` (`conn.go`, `admission.go` and `stream_graceful.go`), cut at the heads of
their loops.
-/

namespace Ogrenet

open Interleaving Interleaving.Prog Ses

namespace Conn

variable (cfg : SessionConfig)

def operationalError (op : Op) (cause : Err) (hint : ClassifyHint) : Err :=
  classifyOperational op cfg.site cause hint

def sendError (ctx : ℕ) (e : Err) : SProg Err := do
  match ← ctxCause ctx with
  | some cause => return cause
  | none => return operationalError cfg .send e .none

/-! ### Closing -/

def abort (reason : AbortReason) (cause : Option Err) : SProg Bool := do
  let cause := cause.bind fun e => if e.hasOperational then some e else normalizeConnError e
  match ← abortWith reason (some cause) with
  | false => return false
  | true =>
    onceDo .close do
      gateClose
      signal .closing
      rawClose
    return true

def initiateClose (cause : Option Err) : SProg Unit := do
  let _ ← abort .failure cause

def lifecycleResult : SProg (Option Err) := do
  match ← err with
  | some e => return some e
  | none =>
    match ← reason with
    | .none => return none
    | .explicit | .caller | .failure => return some (.sentinel .closed)

def maybeFinishGraceful : SProg Unit := do
  match ← isClosedSignal .readDone with
  | false => return ()
  | true =>
    match ← isClosedSignal .writeDone with
    | false => return ()
    | true =>
      match ← tryMarkTerminal with
      | false => return ()
      | true =>
        onceDo .close do
          gateClose
          signal .closing
          rawClose

def requestWriteClose : SProg Bool := do
  let (owner, _) ← requestWithPrevious .write
  if owner then gateClose
  return owner

def requestShutdown : SProg (Bool × Bool) := do
  let (owner, previous) ← requestWithPrevious .full
  if owner then gateClose
  return (owner, previous == .running)

/-- The branch of an expired context in `CloseWrite` and `Shutdown`. -/
def callerDone (cause : Err) (owner : Bool) : SProg SNext := do
  if owner then
    let _ ← abort .caller none
  returnErr (some cause)

def closeWrite : Option ℕ → SProg SNext
  | none => returnErr (some (.sentinel .nilContext))
  | some ctx => do
    match ← ctxCause ctx with
    | some cause => returnErr (some cause)
    | none =>
      let owner ← requestWriteClose
      match ← select [.closed .writeDone, .closed .aborted, .ctxDone ctx] with
      | .ctxDone cause => callerDone cause owner
      | _ => returnErr (← lifecycleResult)

def shutdown : Option ℕ → SProg SNext
  | none => returnErr (some (.sentinel .nilContext))
  | some ctx => do
    match ← ctxCause ctx with
    | some cause => returnErr (some cause)
    | none =>
      let (owner, ownsWrite) ← requestShutdown
      match ← select [.closed .writeDone, .closed .aborted, .ctxDone ctx] with
      | .ctxDone cause => callerDone cause (owner && ownsWrite)
      | .closed .writeDone =>
        match ← select [.closed .done, .closed .aborted, .ctxDone ctx] with
        | .ctxDone cause => callerDone cause owner
        | _ => returnErr (← lifecycleResult)
      | _ => returnErr (← lifecycleResult)

def close : SProg SNext := do
  match ← isClosedSignal .done with
  | true => returnErr none
  | false =>
    let _ ← abort .explicit none
    returnErr none

/-! ### Sending -/

def acquireFrameSlot (ctx : ℕ) : SProg (Option Err) := do
  match ← select [.ctxDone ctx, .closed .closing, .slot] with
  | .ctxDone _ => return some (.sentinel .canceled)
  | .slot => return none
  | _ => return some (.sentinel .closed)

def tryAcquireFrameSlot : SProg (Option Err) := do
  match ← poll [.closed .closing, .slot] with
  | .slot => return none
  | .default => return some (.sentinel .wouldBlock)
  | _ => return some (.sentinel .closed)

/-- The check of `closing` after the encoder was taken. -/
def checkEncoder : SProg (Option Err) := do
  match ← isClosing with
  | false => return none
  | true =>
    releaseEncoder
    return some (.sentinel .closed)

def acquireEncoder (ctx : ℕ) : SProg (Option Err) := do
  match ← select [.ctxDone ctx, .closed .closing, .encoder] with
  | .ctxDone _ => return some (.sentinel .canceled)
  | .encoder => checkEncoder
  | _ => return some (.sentinel .closed)

def tryAcquireEncoder : SProg (Option Err) := do
  match ← poll [.closed .closing, .encoder] with
  | .encoder => checkEncoder
  | .default => return some (.sentinel .wouldBlock)
  | _ => return some (.sentinel .closed)

/-- `Send` returns the error of `prepareSend`, through `sendError` and the deferred `gate.leave`. -/
def failSend (ctx : ℕ) (e : Err) : SProg SNext := do
  let e ← sendError cfg ctx e
  gateLeave
  returnErr (some e)

/-- `prepareSend` fails with the encoder and the slot in hand: its deferred releases run. -/
def failPrepared (ctx : ℕ) (e : Err) : SProg SNext := do
  releaseEncoder
  releaseSlot
  failSend cfg ctx e

def send : Option ℕ → Message → SProg SNext
  | none, _ => returnErr (some (.sentinel .nilContext))
  | some ctx, msg => do
    match ← ctxCause ctx with
    | some cause => returnErr (some cause)
    | none =>
      match ← gateEnter with
      | false => returnErr (some (operationalError cfg .send (.sentinel .closed) .none))
      | true =>
        match msg.validate with
        | .error e =>
          gateLeave
          returnErr (some (.ofMessage e))
        | .ok _ =>
          match ← acquireFrameSlot ctx with
          | some e => failSend cfg ctx e
          | none =>
            match ← acquireEncoder ctx with
            | some e =>
              releaseSlot
              failSend cfg ctx e
            | none =>
              match ← encode msg with
              | .error e => failPrepared cfg ctx e
              | .ok frame =>
                if cfg.maxQueuedBytes < frame.length then
                  failPrepared cfg ctx (.sentinel .frameExceedsQueueBudget)
                else return .goto (.acquireLocal
                  { ctx, frame, payloadBytes := msg.data.length })

/-- The wait of `Send` for its ack. -/
def awaitAck (ctx i : ℕ) : SProg SNext := do
  match ← select [.ack i, .ctxDone ctx, .closed .closing] with
  | .acked v =>
    gateLeave
    returnErr v
  | .ctxDone cause =>
    gateLeave
    returnErr (some cause)
  | _ =>
    match ← poll [.ack i] with
    | .acked v =>
      gateLeave
      returnErr v
    | _ =>
      match ← ctxCause ctx with
      | some cause =>
        gateLeave
        returnErr (some cause)
      | none =>
        match ← err with
        | some terminal =>
          gateLeave
          returnErr (some terminal)
        | none =>
          gateLeave
          returnErr (some (operationalError cfg .send (.sentinel .closed) .none))

/-- `Send` after `prepareSend` has returned the frame. -/
def enqueue (a : Sending) : SProg SNext := do
  let req : Request := { frame := a.frame, hasAck := true, payloadBytes := a.payloadBytes }
  match ← select [.ctxDone a.ctx, .closed .closing, .push req] with
  | .pushed i => awaitAck cfg a.ctx i
  | .ctxDone cause =>
    quotaRelease a.frame.length
    releaseSlot
    gateLeave
    returnErr (some cause)
  | _ =>
    quotaRelease a.frame.length
    releaseSlot
    match ← ctxCause a.ctx with
    | some cause =>
      gateLeave
      returnErr (some cause)
    | none =>
      gateLeave
      returnErr (some (operationalError cfg .send (.sentinel .closed) .none))

/-- One round of `byteQuota.acquireLocal` in `Send`. -/
def acquireLocal (a : Sending) : SProg SNext := do
  match ← localSection a.frame.length with
  | some g =>
    match ← select [.ctxDone a.ctx, .closed .closing, .changedLocal g] with
    | .ctxDone _ => failPrepared cfg a.ctx (.sentinel .canceled)
    | .changed => return .goto (.acquireLocal a)
    | _ => failPrepared cfg a.ctx (.sentinel .closed)
  | none =>
    if cfg.maxQueuedBytesTotal = 0 ∨ a.frame.length = 0 then
      releaseEncoder
      enqueue cfg a
    else if cfg.maxQueuedBytesTotal < a.frame.length then
      localRelease a.frame.length
      failPrepared cfg a.ctx (.limitError ⟨.queuedBytes, cfg.maxQueuedBytesTotal⟩)
    else return .goto (.acquireGlobal a)

/-- One round of `globalByteQuota.acquire` in `Send`. -/
def acquireGlobal (a : Sending) : SProg SNext := do
  match ← globalSection a.frame.length with
  | some g =>
    match ← select [.ctxDone a.ctx, .closed .closing, .changedGlobal g] with
    | .ctxDone _ =>
      localRelease a.frame.length
      failPrepared cfg a.ctx (.sentinel .canceled)
    | .changed => return .goto (.acquireGlobal a)
    | _ =>
      localRelease a.frame.length
      failPrepared cfg a.ctx (.sentinel .closed)
  | none =>
    releaseEncoder
    enqueue cfg a

/-- `TrySend` returns an error of its admission, counting backpressure. -/
def failTrySend (e : Err) : SProg SNext := do
  if e.is .wouldBlock then count .backpressure 1
  gateLeave
  returnErr (some (operationalError cfg .send e .none))

/-- `TrySend` after `prepareTrySend` has returned the frame. -/
def tryEnqueue (req : Request) : SProg SNext := do
  match ← poll [.closed .closing, .push req] with
  | .pushed _ =>
    gateLeave
    returnErr none
  | .default =>
    quotaRelease req.bytes
    releaseSlot
    count .backpressure 1
    gateLeave
    returnErr (some (operationalError cfg .send (.sentinel .wouldBlock) .none))
  | _ =>
    quotaRelease req.bytes
    releaseSlot
    gateLeave
    returnErr (some (operationalError cfg .send (.sentinel .closed) .none))

def trySend (msg : Message) : SProg SNext := do
  match ← gateEnter with
  | false => returnErr (some (operationalError cfg .send (.sentinel .closed) .none))
  | true =>
    match msg.validate with
    | .error e =>
      gateLeave
      returnErr (some (.ofMessage e))
    | .ok _ =>
      match ← tryAcquireFrameSlot with
      | some e => failTrySend cfg e
      | none =>
        match ← tryAcquireEncoder with
        | some e =>
          releaseSlot
          failTrySend cfg e
        | none =>
          match ← encode msg with
          | .error e =>
            releaseEncoder
            releaseSlot
            failTrySend cfg e
          | .ok frame =>
            match ← tryAcquireQuota cfg frame.length with
            | some e =>
              releaseEncoder
              releaseSlot
              failTrySend cfg e
            | none =>
              releaseEncoder
              tryEnqueue cfg { frame, hasAck := false, payloadBytes := msg.data.length }

/-! ### The writer -/

/-- `handleOutbound` once `writeFrame` has returned. -/
def finishOutbound (at_ : WriterAt) (i : ℕ) (req : Request) (result : Option Err) :
    SProg SNext := do
  wrote result.isNone
  quotaRelease req.bytes
  releaseSlot
  match result with
  | none =>
    count .bytesTX req.payloadBytes
    count .messagesTX 1
    if req.hasAck then ack i none
    return .goto (.writer at_)
  | some e =>
    let opErr := operationalError cfg .write e .none
    match ← abort .failure (some opErr) with
    | true =>
      if req.hasAck then ack i (some opErr)
      return .goto .writerExit
    | false =>
      match ← ackErr req.hasAck with
      | some terminal =>
        if req.hasAck then ack i (some terminal)
        return .goto .writerExit
      | none =>
        if req.hasAck then ack i (some (.sentinel .closed))
        return .goto .writerExit

/-- The rest of `writeFrame` after `writeAll`. -/
def finishWrite (at_ : WriterAt) (i : ℕ) (req : Request) (e : Option Err) : SProg SNext := do
  let clearErr ← setWriteDeadline
  match e, clearErr with
  | some e, _ =>
    finishOutbound cfg at_ i req (some
      (if e.isTimeoutFailure then .timeoutCause .write e else .wrap "transport: write" e))
  | none, some clearErr =>
    finishOutbound cfg at_ i req (some (.wrap "transport: clear write deadline" clearErr))
  | none, none => finishOutbound cfg at_ i req none

/-- `handleOutbound` up to the first write. -/
def handleOutbound (at_ : WriterAt) (i : ℕ) (req : Request) : SProg SNext := do
  match ← setWriteDeadline with
  | some e => finishOutbound cfg at_ i req (some (.wrap "transport: set write deadline" e))
  | none => return .goto (.writing at_ i req req.frame)

/-- One round of `writeAll`. -/
def writing (at_ : WriterAt) (i : ℕ) (req : Request) (rest : Bytes) : SProg SNext := do
  if rest = [] then finishWrite cfg at_ i req none
  else
    let (n, e) ← rawWrite rest
    match e with
    | some e => finishWrite cfg at_ i req (some e)
    | none =>
      if n = 0 then finishWrite cfg at_ i req (some (.sentinel .noProgress))
      else return .goto (.writing at_ i req (rest.drop n))

def closeTLSWrite : SProg (Option Err) := do
  match ← setWriteDeadline with
  | some e => return some (.wrap "transport: set TLS close deadline" e)
  | none =>
    let e ← rawCloseWrite
    let clearErr ← setWriteDeadline
    match e, clearErr with
    | some e, _ =>
      return some (if e.isTimeoutFailure then .timeoutCause .write e
        else .wrap "transport: TLS close write" e)
    | none, some clearErr => return some (.wrap "transport: clear TLS close deadline" clearErr)
    | none, none => return none

def closeProtocolWrite : SProg (Option Err) := do
  if cfg.tls then closeTLSWrite
  else if cfg.halfClose then rawCloseWrite
  else
    return some (.plain ("transport: " ++ cfg.site.protocol.name ++
      " stream does not support write half-close"))

def writer : WriterAt → SProg SNext
  | .running => do
    match ← select [.closed .closing, .closed .writeReq, .pop] with
    | .popped i req => handleOutbound cfg .running i req
    | .closed .writeReq => return .goto (.writer .graceful)
    | _ => return .goto .writerExit
  | .graceful => do
    match ← select [.closed .closing, .pop, .drained] with
    | .popped i req => handleOutbound cfg .graceful i req
    | .drained => return .goto (.writer .drain)
    | _ => return .goto .writerExit
  | .drain => do
    match ← poll [.pop] with
    | .popped i req => handleOutbound cfg .drain i req
    | _ =>
      match ← closeProtocolWrite cfg with
      | some e =>
        initiateClose (some (operationalError cfg .close e .none))
        return .goto .writerExit
      | none =>
        signal .writeDone
        signal .writerDrained
        maybeFinishGraceful
        return .goto .writerExit

/-- The deferred function of `writerLoop`, up to `failPending`. -/
def writerExit : SProg SNext := do
  let _ ← select [.drained]
  return .goto (.failPending (some (operationalError cfg .send (.sentinel .closed) .none)))

/-- One round of `failPending`, and the end of the writer after it. -/
def failPending (pendingErr : Option Err) : SProg SNext := do
  match ← poll [.pop] with
  | .popped i req =>
    quotaRelease req.bytes
    releaseSlot
    if req.hasAck then ack i pendingErr
    return .goto (.failPending pendingErr)
  | _ =>
    signal .writerDrained
    endLoop

/-! ### The reader -/

/-- The reader gives up with an error. -/
def failRead (cause : Err) (hint : ClassifyHint) : SProg SNext := do
  initiateClose (some (operationalError cfg .read cause hint))
  endLoop

def readerLoop : SProg SNext := do
  callBegin .onOpen
  callEnd .onOpen
  match ← isClosing with
  | true => endLoop
  | false => return .goto (.reader [])

/-- The end of a round of `readerLoop`, after the pending bytes have been decoded. -/
def readerTail (pending : Bytes) : Option Err → SProg SNext
  | none => do
    match ← isClosing with
    | true => endLoop
    | false => return .goto (.reader pending)
  | some readErr => do
    match ← isClosing with
    | true => endLoop
    | false =>
      if cfg.readIdle && readErr.isTimeoutFailure then
        failRead cfg (.timeoutCause .readIdle readErr) .none
      else
        match normalizeConnError readErr with
        | some e => failRead cfg e .none
        | none =>
          signal .readDone
          maybeFinishGraceful
          endLoop

/-- `readerLoop` once a read has returned and its deadline is cleared. -/
def readerGot (pending data : Bytes) (readErr : Option Err) : SProg SNext :=
  if data = [] then readerTail cfg pending readErr
  else
    return .goto (.decoding (pending ++ data) 0
      (readErr.bind fun e => if e.isTimeoutFailure then none else some e))

def reader (pending : Bytes) : SProg SNext := do
  if cfg.readIdle then
    match ← setReadDeadline with
    | some e => failRead cfg (.wrap "transport: set read deadline" e) .none
    | none =>
      let (data, readErr) ← rawRead
      let clearErr ← setReadDeadline
      match clearErr, readErr with
      | some e, none => failRead cfg (.wrap "transport: clear read deadline" e) .none
      | _, _ => readerGot cfg pending data readErr
  else
    let (data, readErr) ← rawRead
    readerGot cfg pending data readErr

/-- `readerLoop` after the inner loop: what was consumed is cut off, and the rest must fit. -/
def afterDecode (pending : Bytes) (consumed : ℕ) (readErr : Option Err) : SProg SNext := do
  let pending := pending.drop consumed
  if cfg.maxRead < pending.length then
    count .decodeErrors 1
    failRead cfg (.sentinel .readBufferFull) .none
  else readerTail cfg pending readErr

/-- One round of the inner loop of `readerLoop`. -/
def decoding (pending : Bytes) (consumed : ℕ) (readErr : Option Err) : SProg SNext := do
  if consumed < pending.length then
    let remaining := pending.drop consumed
    match ← decodeOne remaining with
    | .error e =>
      if e.is .needMore then afterDecode cfg pending consumed readErr
      else
        count .decodeErrors 1
        failRead cfg (.wrap "transport: decode frame" e)
          (if cfg.wireFramer then .wireDecode else .none)
    | .ok (msg, k) =>
      if k ≤ 0 ∨ (remaining.length : ℤ) < k then
        count .decodeErrors 1
        failRead cfg (.sentinel .invalidFramer) .none
      else
        match msg.validate with
        | .error e =>
          count .decodeErrors 1
          failRead cfg (.wrap "transport: invalid message" (.ofMessage e)) .messageDecode
        | .ok _ =>
          count .bytesRX msg.data.length
          count .messagesRX 1
          callBegin (.onMessage msg)
          callEnd (.onMessage msg)
          match ← isClosing with
          | true => endLoop
          | false => return .goto (.decoding pending (consumed + k.toNat) readErr)
  else afterDecode cfg pending consumed readErr

/-! ### The other goroutines -/

/-- `activity.run` with the function that `start` gives it. -/
def watchdog : SProg SNext := do
  match ← select [.closed .closing, .timer] with
  | .timer kind =>
    initiateClose (some (.timeoutError kind))
    endLoop
  | _ => endLoop

/-- What `finalize` does before it reports the end. -/
def settleTerminal : SProg Unit := do
  match ← isClosedSignal .terminal with
  | true => return ()
  | false =>
    match ← isClosing with
    | true => markTerminal
    | false =>
      initiateClose none
      markTerminal

def finalize : SProg Unit := finalizeWith settleTerminal

def finalizer : SProg SNext := do
  waitLoops
  finalize
  return .ret .unit

def body : SLabel → SProg SNext
  | .send ctx msg => send cfg ctx msg
  | .trySend msg => trySend cfg msg
  | .acquireLocal a => acquireLocal cfg a
  | .acquireGlobal a => acquireGlobal cfg a
  | .closeWrite ctx => closeWrite ctx
  | .shutdown ctx => shutdown ctx
  | .close => close
  | .requestShutdown => do
    let _ ← requestShutdown
    return .ret .unit
  | .writerLoop => return .goto (.writer .running)
  | .writer at_ => writer cfg at_
  | .writing at_ i req rest => writing cfg at_ i req rest
  | .writerExit => writerExit cfg
  | .failPending e => failPending e
  | .readerLoop => readerLoop
  | .reader pending => reader cfg pending
  | .decoding pending consumed readErr => decoding cfg pending consumed readErr
  | .watchdog => watchdog
  | .finalizer => finalizer
  | _ => return .ret .unit

end Conn

end Ogrenet
