import Mathlib.Algebra.Order.Ring.Int
import Ogrenet.Errors
import Ogrenet.Quota.Basic
import Ogrenet.Wire.Codec

/-!
# The shared state of a session

What the goroutines of one `conn`, `wsSession` or `packetConn` share, and the atomic steps they take
on it. The three kinds have the same gate, byte budgets, slots, queue and stop channels and differ
in their programs, so one state serves all of them.

A step is a section of one mutex, one channel operation or `select`, one atomic counter, or one call
into the network or the handler. What the network, the framer and the clock answer is chosen by the
scheduler.
-/

namespace Ogrenet

open Interleaving Interleaving.Prog

/-- The implementations of a session: `conn`, `wsSession` and `packetConn`. -/
inductive SessionKind where
  | conn
  | webSocket
  | packet
  deriving DecidableEq, Repr

/-! ### `gate.go` -/

structure SendGate where
  closed : Bool := false
  active : ℕ := 0
  drained : Bool := false
  deriving DecidableEq, Repr

namespace SendGate

def enter (g : SendGate) : SendGate × Bool :=
  if g.closed then (g, false) else ({ g with active := g.active + 1 }, true)

def leave (g : SendGate) : SendGate :=
  { g with
    active := g.active - 1
    drained := g.drained || (g.closed && g.active - 1 == 0) }

def close (g : SendGate) : SendGate :=
  if g.closed then g else { g with closed := true, drained := g.drained || g.active == 0 }

end SendGate

/-! ### `lifecycle.go` -/

inductive CloseGoal where
  | running
  | write
  | full
  | abort
  deriving DecidableEq, Repr

def CloseGoal.rank : CloseGoal → ℕ
  | .running => 0
  | .write => 1
  | .full => 2
  | .abort => 3

inductive AbortReason where
  | none
  | explicit
  | caller
  | failure
  deriving DecidableEq, Repr

/-- The channels that carry no value and are only ever closed: those of `sessionLifecycle`, and
`closing`, `done`, `writerDrained` and `drainReq` of the sessions. -/
inductive Signal where
  | writeReq
  | fullReq
  | aborted
  | readDone
  | writeDone
  | terminal
  | closing
  | done
  | writerDrained
  | drainReq
  deriving DecidableEq, Repr

/-! ### Requests, callbacks and what leaves on the connection -/

/-- `outbound`, `wsOutbound` and `packetOutbound`. `frame` is the encoded frame, the WebSocket
payload or the datagram; `text` and `peer` are the WebSocket message type and the UDP target. -/
structure Request where
  frame : Bytes
  hasAck : Bool
  payloadBytes : ℕ
  text : Bool := false
  peer : Option String := none
  deriving DecidableEq, Repr

/-- The `bytes` field: what the request is charged. -/
def Request.bytes (r : Request) : ℕ := r.frame.length

/-- What a session puts on its connection: bytes of a stream, a half-close, a WebSocket message or a
datagram that was accepted, and the WebSocket close frame. -/
inductive Output where
  | bytes (p : Bytes)
  | closeWrite
  | message (r : Request)
  | closeFrame
  deriving DecidableEq, Repr

inductive Callback where
  | onOpen
  | onMessage (msg : Message)
  | onPacket (data : Bytes)
  | onClose (err : Option Err)
  deriving DecidableEq, Repr

inductive Counter where
  | bytesRX
  | messagesRX
  | bytesTX
  | messagesTX
  | backpressure
  | decodeErrors
  | droppedDatagrams
  deriving DecidableEq, Repr

inductive OnceState where
  | idle
  | running
  | finished
  deriving DecidableEq, Repr

/-- The `sync.Once` values whose functions are more than one step. -/
inductive Once where
  | close
  | final
  | drain
  deriving DecidableEq, Repr

/-- `wsWriteState`. `active` is whether `ctx` is set. -/
structure WSWriteState where
  active : Bool := false
  pendingRead : Option Err := none
  deriving DecidableEq, Repr

/-- What the session code reads of the Engine's configuration and of its own construction. -/
structure SessionConfig where
  site : Site
  writeQueue : ℕ
  maxQueuedBytes : ℕ
  /-- `MaxQueuedBytesTotal`, the limit of the engine-wide budget; zero counts nothing. -/
  maxQueuedBytesTotal : ℕ := 0
  /-- The connection is a `*tls.Conn`, or supports `CloseWrite`. -/
  tls : Bool := false
  halfClose : Bool := true
  /-- The framer is the default wire codec. -/
  wireFramer : Bool := true
  /-- `ReadIdle > 0`. -/
  readIdle : Bool := false
  readSize : ℕ := 4096
  maxRead : ℕ := 65536
  maxMessage : ℕ := 65536
  maxPacket : ℕ := 65507
  /-- The UDP socket is connected. -/
  connected : Bool := true
  /-- The session has an activity clock, and pings. -/
  activity : Bool := false
  ping : Bool := false

/-- A small plain TCP session. -/
def SessionConfig.small : SessionConfig :=
  { site := ⟨.tcp, none, none⟩, writeQueue := 2, maxQueuedBytes := 16 }

/-- What a number of bytes is charged engine-wide. -/
def SessionConfig.globalCharge (cfg : SessionConfig) (n : ℕ) : ℕ :=
  if cfg.maxQueuedBytesTotal = 0 then 0 else n

/-- The shared state. `sent` are all requests ever placed on `queue` and `received` says how many of
them have been taken off it; `acks` holds, for each of them, the buffer of its ack channel.
`others` are the bytes that other sessions have charged to the engine-wide budget. -/
structure Session where
  gate : SendGate := {}
  goal : CloseGoal := .running
  why : AbortReason := .none
  terminal : Bool := false
  closed : Signal → Bool := fun _ => false
  err : Option Err := none
  slots : ℕ := 0
  encoder : Bool := false
  sent : List Request := []
  received : ℕ := 0
  acks : List (Option (Option Err)) := []
  quota : ByteQuota
  global : ByteQuota
  others : ℕ := 0
  once : Once → OnceState := fun _ => .idle
  out : List Output := []
  counters : Counter → ℕ := fun _ => 0
  loops : ℕ
  expired : List (ℕ × Err) := []
  rawClosed : Bool := false
  writeState : WSWriteState := {}
  watchers : ℕ := 0
  /-- What `writeFrame`, `ws.Write` or `writeDatagram` returned, request by request. -/
  results : List Bool := []

namespace Session

/-- `context.Cause` of the context `k`. -/
def cause (s : Session) (k : ℕ) : Option Err := (s.expired.find? fun a => a.1 == k).map Prod.snd

/-- The requests on the queue. -/
def queue (s : Session) : List Request := s.sent.drop s.received

end Session

/-! ### Steps -/

/-- A case of a `select`. -/
inductive Case where
  | ctxDone (k : ℕ)
  | closed (ch : Signal)
  /-- `<-gate.done()`. -/
  | drained
  /-- `frameSlots <- struct{}{}`, `encodeSlot <- struct{}{}` and `queue <- req`. -/
  | slot
  | encoder
  | push (req : Request)
  /-- `<-queue` and `<-ack`. -/
  | pop
  | ack (i : ℕ)
  /-- `<-changed` of the session's own and of the engine-wide budget. -/
  | changedLocal (g : ℕ)
  | changedGlobal (g : ℕ)
  /-- A timer or ticker, which may fire at any time. -/
  | timer
  deriving DecidableEq, Repr

/-- What a `select` did. For a context that is done it is its cause, which never changes again. -/
inductive Fired where
  | ctxDone (cause : Err)
  | closed (ch : Signal)
  | drained
  | slot
  | encoder
  | pushed (i : ℕ)
  | popped (i : ℕ) (req : Request)
  | acked (v : Option Err)
  | changed
  | timer (kind : TimeoutKind)
  | default
  deriving DecidableEq, Repr

/-- The steps of the session code. -/
inductive SInstr where
  /-- `context.Cause(ctx)`. -/
  | ctxCause (k : ℕ)
  | gateEnter
  | gateLeave
  | gateClose
  /-- A `select`, with or without a default case. -/
  | select (cases : List Case) (dflt : Bool)
  /-- `<-frameSlots` and `<-encodeSlot`. -/
  | releaseSlot
  | releaseEncoder
  /-- The encoding of a message under `framerMu`. -/
  | encode (msg : Message)
  | localSection (n : ℕ)
  | localTry (n : ℕ)
  | localRelease (n : ℕ)
  | globalSection (n : ℕ)
  | globalTry (n : ℕ)
  | globalRelease (n : ℕ)
  /-- The section of `life.mu` in `requestWithPrevious`. -/
  | request (goal : CloseGoal)
  /-- The section of `life.mu` in `abortWith`; `publish` is what its function writes to `err`. -/
  | abortSection (reason : AbortReason) (publish : Option (Option Err))
  /-- The sections of `life.mu` in `tryMarkTerminal`, `markTerminal` and `reason`. -/
  | tryTerminal
  | setTerminal
  | reason
  /-- `Err()`, and the assignment under `errMu`. -/
  | err
  /-- `Err()` as the writer reads it after a failed write and an abort that was lost or had no
  cause; `owed` says that the request waits for its ack. -/
  | ackErr (owed : Bool)
  | setErr (e : Err)
  /-- The close of a channel, under its `sync.Once` where it has one. -/
  | signal (ch : Signal)
  /-- The start of `once.Do(f)`, with the answer whether `f` is to run here, and its end. -/
  | onceEnter (o : Once)
  | onceExit (o : Once)
  | rawClose
  | setWriteDeadline
  | setReadDeadline
  | rawWrite (p : Bytes)
  | rawCloseWrite
  | rawRead
  | decodeOne (src : Bytes)
  | wsWrite (req : Request)
  /-- `ws.Read`: whether it is a text message, and its payload. -/
  | wsRead
  /-- `s.decode(typ, payload)`. -/
  | wsDecode (text : Bool) (payload : Bytes)
  | wsClose
  | wsPing
  /-- The sections of `wsWriteState.mu`. -/
  | writeBegin
  | writeTimeoutCause
  | writePendingRead
  | writeEnd
  | deferRead (e : Err)
  /-- `go s.watchCloseTimeout()`. -/
  | goWatch
  | packetWrite (req : Request)
  | packetRead
  /-- Not a step of the source: it records what the write of a request returned. -/
  | wrote (ok : Bool)
  | count (c : Counter) (n : ℕ)
  /-- `req.ack <- v`. -/
  | ack (i : ℕ) (v : Option Err)
  /-- The start and the return of a handler callback. -/
  | callBegin (cb : Callback)
  | callEnd (cb : Callback)
  /-- `loops.Done()` and `loops.Wait()`. -/
  | loopDone
  | waitLoops
  /-- `engine.removeStream(c)` and its siblings. -/
  | engineRemove

@[reducible] def SInstr.Resp : SInstr → Type
  | .ctxCause _ => Option Err
  | .gateEnter => Bool
  | .select _ _ => Fired
  | .encode _ => Except Err Bytes
  | .localSection _ => Option ℕ
  | .localTry _ => Bool
  | .globalSection _ => Option ℕ
  | .globalTry _ => Bool
  | .request _ => Bool × CloseGoal
  | .abortSection _ _ => Bool
  | .tryTerminal => Bool
  | .reason => AbortReason
  | .err => Option Err
  | .ackErr _ => Option Err
  | .onceEnter _ => Bool
  | .setWriteDeadline => Option Err
  | .setReadDeadline => Option Err
  | .rawWrite _ => ℕ × Option Err
  | .rawCloseWrite => Option Err
  | .rawRead => Bytes × Option Err
  | .decodeOne _ => Except Err (Message × ℤ)
  | .wsWrite _ => Option Err
  | .wsRead => Except Err (Bool × Bytes)
  | .wsDecode _ _ => Except Err Message
  | .wsClose => Option Err
  | .wsPing => Option Err
  | .writeTimeoutCause => Option Err
  | .writePendingRead => Option Err
  | .writeEnd => Option Err
  | .deferRead _ => Bool
  | .packetWrite _ => Option Err
  | .packetRead => Bytes × Option Err
  | _ => Unit

abbrev SProg := Prog SInstr SInstr.Resp

/-- How the scheduler resolves a step: the case of a `select`, and what the outside answers. -/
structure Choice where
  pick : Option ℕ := none
  n : ℕ := 0
  data : Bytes := []
  err : Option Err := none
  msg : Message := ⟨.binary, []⟩
  consumed : ℤ := 0
  kind : TimeoutKind := .connectionIdle

namespace Session

variable (cfg : SessionConfig)

def close (s : Session) (ch : Signal) : Session :=
  { s with closed := Function.update s.closed ch true }

/-- The effect of a case of a `select` that is ready. -/
def fire (s : Session) (x : Choice) : Case → Option (Session × Fired)
  | .ctxDone k => (s.cause k).map fun e => (s, .ctxDone e)
  | .closed ch => if s.closed ch then some (s, .closed ch) else none
  | .drained => if s.gate.drained then some (s, .drained) else none
  | .slot =>
    if s.slots < cfg.writeQueue + 1 then some ({ s with slots := s.slots + 1 }, .slot) else none
  | .encoder => if s.encoder then none else some ({ s with encoder := true }, .encoder)
  | .push req =>
    if s.queue.length < cfg.writeQueue then
      some ({ s with sent := s.sent ++ [req], acks := s.acks ++ [none] }, .pushed s.sent.length)
    else none
  | .pop =>
    match s.sent[s.received]? with
    | some req => some ({ s with received := s.received + 1 }, .popped s.received req)
    | none => none
  | .ack i =>
    match s.acks[i]? with
    | some (some v) => some ({ s with acks := s.acks.set i none }, .acked v)
    | _ => none
  | .changedLocal g => if g ∉ s.quota.closed then none else some (s, .changed)
  | .changedGlobal g => if g ∉ s.global.closed then none else some (s, .changed)
  | .timer => some (s, .timer x.kind)

/-- A `select` takes any case that is ready, and its default only when none is. -/
def select (s : Session) (x : Choice) (cases : List Case) (dflt : Bool) :
    Option (Session × Fired) :=
  match x.pick with
  | some k => (cases[k]?).bind (s.fire cfg x)
  | none =>
    if dflt && cases.all fun c => (s.fire cfg x c).isNone then some (s, .default) else none

/-- The effect of one step; `none` when it has to wait. -/
def exec (s : Session) (x : Choice) : (i : SInstr) → Option (Session × i.Resp)
  | .ctxCause k => some (s, s.cause k)
  | .gateEnter => some ({ s with gate := s.gate.enter.1 }, s.gate.enter.2)
  | .gateLeave => some ({ s with gate := s.gate.leave }, ())
  | .gateClose => some ({ s with gate := s.gate.close }, ())
  | .select cases dflt => s.select cfg x cases dflt
  | .releaseSlot => if s.slots = 0 then none else some ({ s with slots := s.slots - 1 }, ())
  | .releaseEncoder => if s.encoder then some ({ s with encoder := false }, ()) else none
  | .encode _ =>
    match x.err with
    | some e => some (s, .error e)
    | none => some (s, .ok x.data)
  | .localSection n =>
    some ({ s with quota := (s.quota.acquireSection n).1 }, (s.quota.acquireSection n).2)
  | .localTry n => some ({ s with quota := (s.quota.tryAcquire n).1 }, (s.quota.tryAcquire n).2)
  | .localRelease n => some ({ s with quota := s.quota.release n }, ())
  | .globalSection n =>
    some ({ s with global := (s.global.acquireSection n).1 }, (s.global.acquireSection n).2)
  | .globalTry n =>
    some ({ s with global := (s.global.tryAcquire n).1 }, (s.global.tryAcquire n).2)
  | .globalRelease n =>
    if s.global.limit = 0 then some (s, ()) else some ({ s with global := s.global.release n }, ())
  | .request goal =>
    if s.terminal || goal.rank ≤ s.goal.rank then some (s, (false, s.goal))
    else some ({ s with goal }, (true, s.goal))
  | .abortSection reason publish =>
    if s.terminal || s.goal == .abort then some (s, false)
    else some ({ s with goal := .abort, why := reason, err := publish.getD s.err }, true)
  | .tryTerminal =>
    if s.terminal || s.goal == .abort then some (s, false)
    else some ({ s with terminal := true }, true)
  | .setTerminal => some ({ s with terminal := true }, ())
  | .reason => some (s, s.why)
  | .err => some (s, s.err)
  | .ackErr _ => some (s, s.err)
  | .setErr e => some ({ s with err := some e }, ())
  | .signal ch => some (s.close ch, ())
  | .onceEnter o =>
    match s.once o with
    | .idle => some ({ s with once := Function.update s.once o .running }, true)
    | .running => none
    | .finished => some (s, false)
  | .onceExit o => some ({ s with once := Function.update s.once o .finished }, ())
  | .rawClose => some ({ s with rawClosed := true }, ())
  | .setWriteDeadline => some (s, x.err)
  | .setReadDeadline => some (s, x.err)
  | .rawWrite p =>
    some ({ s with out := s.out ++ [Output.bytes (p.take x.n)] }, (min x.n p.length, x.err))
  | .rawCloseWrite => some ({ s with out := s.out ++ [Output.closeWrite] }, x.err)
  | .rawRead => some (s, (x.data.take cfg.readSize, x.err))
  | .decodeOne _ =>
    match x.err with
    | some e => some (s, .error e)
    | none => some (s, .ok (x.msg, x.consumed))
  | .wsWrite req =>
    match x.err with
    | some e => some (s, some e)
    | none => some ({ s with out := s.out ++ [Output.message req] }, none)
  | .wsRead =>
    match x.err with
    | some e => some (s, .error e)
    | none => some (s, .ok (x.msg.type == .text, x.data))
  | .wsDecode _ _ =>
    match x.err with
    | some e => some (s, .error e)
    | none => some (s, .ok x.msg)
  | .wsClose => some ({ s with out := s.out ++ [Output.closeFrame] }, x.err)
  | .wsPing => some (s, x.err)
  | .writeBegin => some ({ s with writeState := { active := true } }, ())
  | .writeTimeoutCause => some (s, if s.writeState.active then x.err else none)
  | .writePendingRead => some (s, s.writeState.pendingRead)
  | .writeEnd => some ({ s with writeState := {} }, s.writeState.pendingRead)
  | .deferRead e =>
    if s.writeState.active then
      some ({ s with writeState := { s.writeState with
        pendingRead := some (s.writeState.pendingRead.getD e) } }, true)
    else some (s, false)
  | .goWatch => some ({ s with watchers := s.watchers + 1 }, ())
  | .packetWrite req =>
    match x.err with
    | some e => some (s, some e)
    | none => some ({ s with out := s.out ++ [Output.message req] }, none)
  | .packetRead => some (s, (x.data, x.err))
  | .wrote ok => some ({ s with results := s.results ++ [ok] }, ())
  | .count c n => some ({ s with counters := Function.update s.counters c (s.counters c + n) }, ())
  | .ack i v =>
    match s.acks[i]? with
    | some none => some ({ s with acks := s.acks.set i (some v) }, ())
    | _ => none
  | .callBegin _ => some (s, ())
  | .callEnd _ => some (s, ())
  | .loopDone => some ({ s with loops := s.loops - 1 }, ())
  | .waitLoops => if s.loops = 0 then some (s, ()) else none
  | .engineRemove => some (s, ())

end Session

end Ogrenet
