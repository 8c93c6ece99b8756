import Ogrenet.Session.Calls

/-!
# UDP packet connections

The programs of `packetConn` (`packet.go` and `packet_graceful.go`). It has no lifecycle of its own:
`closeOnce` decides who closes it.
-/

namespace Ogrenet

open Interleaving Interleaving.Prog Ses

namespace Packet

variable (cfg : SessionConfig)

/-- `operationalError`, where the remote address is the peer if there is one. -/
def operationalError (op : Op) (cause : Err) (peer : Option String) : Err :=
  classifyOperational op { cfg.site with remoteAddr := peer.orElse fun _ => cfg.site.remoteAddr }
    cause .none

def sendError (ctx : ℕ) (e : Err) (peer : Option String) : SProg Err := do
  match ← ctxCause ctx with
  | some cause => return cause
  | none => return operationalError cfg .send e peer

/-! ### Closing -/

def initiateClose (cause : Option Err) : SProg Unit :=
  onceDo .close do
    match cause.bind fun e => if e.hasOperational then some e else normalizePacketError e with
    | some e => setErr e
    | none => pure ()
    gateClose
    signal .closing
    rawClose

def close : SProg SNext := do
  initiateClose none
  returnErr none

def requestDrain : SProg Unit :=
  onceDo .drain do
    gateClose
    signal .drainReq

/-! ### Sending -/

def acquireSlot (ctx : ℕ) : SProg (Option Err) := do
  match ← select [.ctxDone ctx, .closed .closing, .slot] with
  | .ctxDone _ => return some (.sentinel .canceled)
  | .slot => return none
  | _ => return some (.sentinel .closed)

def tryAcquireSlot : SProg (Option Err) := do
  match ← poll [.closed .closing, .slot] with
  | .slot => return none
  | .default => return some (.sentinel .wouldBlock)
  | _ => return some (.sentinel .closed)

/-- `send` returns an error before it has a slot. -/
def failSend (ctx : ℕ) (e : Err) (peer : Option String) : SProg SNext := do
  let e ← sendError cfg ctx e peer
  gateLeave
  returnErr (some e)

/-- `send` returns an error while `held` is set. -/
def failHeld (a : Sending) (e : Err) : SProg SNext := do
  let e ← sendError cfg a.ctx e a.peer
  releaseSlot
  gateLeave
  returnErr (some e)

/-- The end of `resolvePeer`: a connected socket sends to nobody else, and needs no address. -/
def matchRemote (addr : String) : Except Err (Option String) :=
  if cfg.connected then
    if cfg.site.remoteAddr = some addr then .ok none else .error (.sentinel .peerMismatch)
  else .ok (some addr)

/-- `resolvePeer`, and the check of `Send` and `TrySend`, which name no peer. -/
def resolvePeer : Peer → Except Err (Option String)
  | .unnamed => if cfg.connected then .ok none else .error (.sentinel .notConnected)
  | .missing => .error (.sentinel .peerRequired)
  | .udp addr => matchRemote cfg addr
  | .other (.ok addr) => matchRemote cfg addr
  | .other (.error e) =>
    .error (operationalError cfg .send (.wrap "transport: resolve UDP peer" e) none)

def send : Option ℕ → Option String → Bytes → SProg SNext
  | none, _, _ => returnErr (some (.sentinel .nilContext))
  | some ctx, peer, data => do
    match ← ctxCause ctx with
    | some cause => returnErr (some cause)
    | none =>
      match ← gateEnter with
      | false => returnErr (some (operationalError cfg .send (.sentinel .closed) peer))
      | true =>
        if cfg.maxPacket < data.length then
          gateLeave
          returnErr (some (operationalError cfg .send (.sentinel .datagramTooLarge) peer))
        else
          match ← acquireSlot ctx with
          | some e => failSend cfg ctx e peer
          | none =>
            let a : Sending := { ctx, frame := data, payloadBytes := data.length, peer }
            if cfg.maxQueuedBytes < data.length then
              failHeld cfg a (.sentinel .frameExceedsQueueBudget)
            else return .goto (.acquireLocal a)

/-- `Send` and `SendTo`. -/
def sendTo (ctx : Option ℕ) (target : Peer) (data : Bytes) : SProg SNext :=
  match resolvePeer cfg target with
  | .error e => returnErr (some e)
  | .ok peer => send cfg ctx peer data

/-- `Err()` if it is set, else `ErrClosed` in its envelope. -/
def closedError (peer : Option String) : SProg Err := do
  match ← err with
  | some terminal => return terminal
  | none => return operationalError cfg .send (.sentinel .closed) peer

/-- The wait of `send` for its ack. -/
def awaitAck (a : Sending) (i : ℕ) : SProg SNext := do
  match ← select [.ack i, .ctxDone a.ctx, .closed .closing] with
  | .acked v =>
    gateLeave
    returnErr v
  | .ctxDone cause =>
    gateLeave
    returnErr (some cause)
  | _ =>
    match ← poll [.ack i] with
    | .acked v =>
      gateLeave
      returnErr v
    | _ =>
      match ← ctxCause a.ctx with
      | some cause =>
        gateLeave
        returnErr (some cause)
      | none =>
        let e ← closedError cfg a.peer
        gateLeave
        returnErr (some e)

/-- `send` once the bytes are charged. -/
def enqueue (a : Sending) : SProg SNext := do
  let req : Request :=
    { frame := a.frame, hasAck := true, payloadBytes := a.payloadBytes, peer := a.peer }
  match ← select [.ctxDone a.ctx, .closed .closing, .push req] with
  | .pushed i => awaitAck cfg a i
  | .ctxDone cause =>
    quotaRelease a.frame.length
    releaseSlot
    gateLeave
    returnErr (some cause)
  | _ =>
    quotaRelease a.frame.length
    releaseSlot
    match ← ctxCause a.ctx with
    | some cause =>
      gateLeave
      returnErr (some cause)
    | none =>
      let e ← closedError cfg a.peer
      gateLeave
      returnErr (some e)

/-- One round of `byteQuota.acquireLocal` in `send`. -/
def acquireLocal (a : Sending) : SProg SNext := do
  match ← localSection a.frame.length with
  | some g =>
    match ← select [.ctxDone a.ctx, .closed .closing, .changedLocal g] with
    | .ctxDone _ => failHeld cfg a (.sentinel .canceled)
    | .changed => return .goto (.acquireLocal a)
    | _ => failHeld cfg a (.sentinel .closed)
  | none =>
    if cfg.maxQueuedBytesTotal = 0 ∨ a.frame.length = 0 then enqueue cfg a
    else if cfg.maxQueuedBytesTotal < a.frame.length then
      localRelease a.frame.length
      failHeld cfg a (.limitError ⟨.queuedBytes, cfg.maxQueuedBytesTotal⟩)
    else return .goto (.acquireGlobal a)

/-- One round of `globalByteQuota.acquire` in `send`. -/
def acquireGlobal (a : Sending) : SProg SNext := do
  match ← globalSection a.frame.length with
  | some g =>
    match ← select [.ctxDone a.ctx, .closed .closing, .changedGlobal g] with
    | .ctxDone _ =>
      localRelease a.frame.length
      failHeld cfg a (.sentinel .canceled)
    | .changed => return .goto (.acquireGlobal a)
    | _ =>
      localRelease a.frame.length
      failHeld cfg a (.sentinel .closed)
  | none => enqueue cfg a

/-- `trySendError`, with the slot given back first when it is held, and the end of `trySend`. -/
def failTrySend (held : Bool) (e : Err) (peer : Option String) : SProg SNext := do
  if e.is .wouldBlock then count .backpressure 1
  if held then releaseSlot
  gateLeave
  returnErr (some (operationalError cfg .send e peer))

/-- `trySend` once the bytes are charged. -/
def tryEnqueue (req : Request) : SProg SNext := do
  match ← poll [.closed .closing, .push req] with
  | .pushed _ =>
    gateLeave
    returnErr none
  | .default =>
    quotaRelease req.bytes
    releaseSlot
    failTrySend cfg false (.sentinel .wouldBlock) req.peer
  | _ =>
    quotaRelease req.bytes
    releaseSlot
    let e ← closedError cfg req.peer
    gateLeave
    returnErr (some e)

def trySend (peer : Option String) (data : Bytes) : SProg SNext := do
  match ← gateEnter with
  | false => returnErr (some (operationalError cfg .send (.sentinel .closed) peer))
  | true =>
    if cfg.maxPacket < data.length then
      gateLeave
      returnErr (some (operationalError cfg .send (.sentinel .datagramTooLarge) peer))
    else
      match ← tryAcquireSlot with
      | some e => failTrySend cfg false e peer
      | none =>
        match ← tryAcquireQuota cfg data.length with
        | some e => failTrySend cfg true e peer
        | none =>
          tryEnqueue cfg { frame := data, hasAck := false, payloadBytes := data.length, peer }

/-- `TrySend` and `TrySendTo`. -/
def trySendTo (target : Peer) (data : Bytes) : SProg SNext :=
  match resolvePeer cfg target with
  | .error e => returnErr (some e)
  | .ok peer => trySend cfg peer data

/-! ### The writer -/

def writeDatagram (req : Request) : SProg (Option Err) := do
  match ← setWriteDeadline with
  | some e => return some (.wrap "transport: set UDP write deadline" e)
  | none =>
    let e ← packetWrite req
    let clearErr ← setWriteDeadline
    match e, clearErr with
    | some e, _ =>
      return some (if e.isTimeoutFailure then .timeoutCause .write e
        else .wrap "transport: UDP write" e)
    | none, some clearErr => return some (.wrap "transport: clear UDP write deadline" clearErr)
    | none, none => return none

def handleOutbound (at_ : WriterAt) (i : ℕ) (req : Request) : SProg SNext := do
  let e ← writeDatagram req
  wrote e.isNone
  quotaRelease req.bytes
  releaseSlot
  match e with
  | none =>
    count .bytesTX req.bytes
    count .messagesTX 1
    if req.hasAck then ack i none
    return .goto (.writer at_)
  | some e =>
    initiateClose (some (operationalError cfg .write e req.peer))
    let sendErr ← closedError cfg req.peer
    if req.hasAck then ack i (some sendErr)
    return .goto .writerExit

def writer : WriterAt → SProg SNext
  | .running => do
    match ← select [.closed .closing, .closed .drainReq, .pop] with
    | .popped i req => handleOutbound cfg .running i req
    | .closed .drainReq => return .goto (.writer .graceful)
    | _ => return .goto .writerExit
  | .graceful => do
    match ← select [.closed .closing, .pop, .drained] with
    | .popped i req => handleOutbound cfg .graceful i req
    | .drained => return .goto (.writer .drain)
    | _ => return .goto .writerExit
  | .drain => do
    match ← poll [.pop] with
    | .popped i req => handleOutbound cfg .drain i req
    | _ =>
      initiateClose none
      return .goto .writerExit

/-- The deferred function of `writerLoop`, up to `failPending`. -/
def writerExit : SProg SNext := do
  let _ ← select [.drained]
  return .goto (.failPending none)

/-- One round of `failPending`, and the end of the writer after it. The error is found anew for each
request that is acknowledged. -/
def failPending : SProg SNext := do
  match ← poll [.pop] with
  | .popped i req =>
    quotaRelease req.bytes
    releaseSlot
    if req.hasAck then
      let e ← closedError cfg req.peer
      ack i (some e)
    return .goto (.failPending none)
  | _ => endLoop

/-! ### The reader -/

/-- The reader gives up. -/
def failRead (cause : Option Err) : SProg SNext := do
  initiateClose (cause.map fun e => operationalError cfg .receive e none)
  endLoop

/-- `readerLoop` once a read has returned and its deadline is cleared. -/
def readerGot (data : Bytes) : Option Err → SProg SNext
  | some e => do
    match ← isClosing with
    | true => endLoop
    | false =>
      if cfg.connected && cfg.readIdle && e.isTimeoutFailure then
        failRead cfg (some (.timeoutCause .readIdle e))
      else failRead cfg (normalizePacketError e)
  | none => do
    if cfg.maxPacket < data.length then
      count .droppedDatagrams 1
      return .goto (.reader [])
    else
      count .bytesRX data.length
      count .messagesRX 1
      callBegin (.onPacket data)
      callEnd (.onPacket data)
      match ← isClosing with
      | true => endLoop
      | false => return .goto (.reader [])

def reader : SProg SNext := do
  if cfg.connected && cfg.readIdle then
    match ← setReadDeadline with
    | some e => failRead cfg (some (.wrap "transport: set UDP read deadline" e))
    | none =>
      let (data, e) ← packetRead
      let clearErr ← setReadDeadline
      match clearErr, e with
      | some c, none => failRead cfg (some (.wrap "transport: clear UDP read deadline" c))
      | _, _ => readerGot cfg data e
  else
    let (data, e) ← packetRead
    readerGot cfg data e

/-! ### The other goroutines -/

def watchdog : SProg SNext := do
  match ← select [.closed .closing, .timer] with
  | .timer kind =>
    initiateClose (some (operationalError cfg .receive (.timeoutError kind) none))
    endLoop
  | _ => endLoop

/-- The goroutine of `listenPacket` that closes the socket when its context is done. -/
def watchContext (ctx : ℕ) : SProg SNext := do
  match ← select [.ctxDone ctx, .closed .done] with
  | .ctxDone _ =>
    initiateClose none
    return .ret .unit
  | _ => return .ret .unit

def finalize : SProg Unit := finalizeWith (initiateClose none)

def finalizer : SProg SNext := do
  waitLoops
  finalize
  return .ret .unit

def body : SLabel → SProg SNext
  | .sendTo ctx target data => sendTo cfg ctx target data
  | .trySendTo target data => trySendTo cfg target data
  | .acquireLocal a => acquireLocal cfg a
  | .acquireGlobal a => acquireGlobal cfg a
  | .close => close
  | .requestDrain => do
    requestDrain
    return .ret .unit
  | .writerLoop => return .goto (.writer .running)
  | .writer at_ => writer cfg at_
  | .writerExit => writerExit
  | .failPending _ => failPending cfg
  | .readerLoop => return .goto (.reader [])
  | .reader _ => reader cfg
  | .watchdog => watchdog cfg
  | .watchContext ctx => watchContext ctx
  | .finalizer => finalizer
  | _ => return .ret .unit

end Packet

end Ogrenet
