import Ogrenet.Session.Parts.Basic

/-!
# What the goroutines of a session have in hand

The outline of the send path. A `Hand` says which of the session's resources a goroutine holds: a
place inside the gate, a frame slot, bytes of the two budgets, and for the writer a record of each
request it has taken off the queue and of what it has given back for it.
-/

namespace Ogrenet

open Interleaving Interleaving.Prog

/-- What has been done for a request that was taken off the queue. -/
structure Spent where
  index : ℕ
  req : Request
  slots : ℕ := 0
  own : ℕ := 0
  shared : ℕ := 0
  acks : ℕ := 0
  /-- A write was tried for it. -/
  tried : Bool := false
  /-- What was recorded of its write. -/
  result : Option Bool := none
  /-- A call on the connection has failed for it. -/
  failed : Bool := false
  deriving DecidableEq, Repr

/-- The number of acks that a request waits for. -/
def Request.acks (r : Request) : ℕ := if r.hasAck then 1 else 0

/-- The ack has been sent, and the result of a write that was tried is recorded. -/
structure Spent.Done (e : Spent) : Prop where
  acks : e.acks = e.req.acks
  recorded : e.tried = true → e.result ≠ none

/-- Everything the request held has been given back, too. -/
structure Spent.Settled (cfg : SessionConfig) (e : Spent) : Prop extends e.Done where
  slots : e.slots = 1
  own : e.own = e.req.bytes
  shared : e.shared = cfg.globalCharge e.req.bytes

structure Hand where
  entry : SLabel
  /-- The goroutine is one that `loops` waits for. -/
  loop : Bool := false
  inGate : Bool := false
  slots : ℕ := 0
  /-- Bytes charged to the session's own budget, and engine-wide. -/
  own : ℕ := 0
  shared : ℕ := 0
  /-- What `Encode` returned. -/
  encoded : Option Bytes := none
  /-- The request it has put on the queue, with its place there. -/
  pushed : Option (ℕ × Request) := none
  /-- The place whose ack was received as nil. -/
  confirmed : Option ℕ := none
  /-- The requests it has taken off the queue, the latest first. -/
  spent : List Spent := []
  /-- The message or datagram that the last write has sent, until its result is recorded. -/
  delivered : Option Request := none
  /-- A call on the connection has failed since the last request was taken off the queue. -/
  failed : Bool := false
  /-- What `bytesTX` and `messagesTX` lag behind the writes. -/
  owedBytes : ℕ := 0
  owedMessages : ℕ := 0
  sawDrained : Bool := false
  sawEmpty : Bool := false
  waited : Bool := false

/-- The bytes that a written request adds to `bytesTX`. -/
def SessionKind.txBytes (kind : SessionKind) (req : Request) : ℕ :=
  if kind = .packet then req.bytes else req.payloadBytes

def SLabel.isLoop : SLabel → Bool
  | .writerLoop | .readerLoop | .pingLoop | .watchdog => true
  | _ => false

/-- The request that a `select` offers to the queue. -/
def offered : List Case → Option Request
  | [] => none
  | .push req :: _ => some req
  | _ :: cs => offered cs

def offersPop : List Case → Bool
  | [] => false
  | .pop :: _ => true
  | _ :: cs => offersPop cs

/-- The request is the one that a goroutine started at `entry` is to send. -/
def Carries (cfg : SessionConfig) (encoded : Option Bytes) (req : Request) : SLabel → Prop
  | .send _ msg | .trySend msg => encoded = some req.frame ∧ req.payloadBytes = msg.data.length
  | .sendTo _ target data | .trySendTo target data =>
    req.frame = data ∧ req.payloadBytes = data.length ∧
      Packet.resolvePeer cfg target = .ok req.peer
  | _ => False

namespace Hand

variable (kind : SessionKind) (cfg : SessionConfig)

def start (l : SLabel) : Hand := { entry := l, loop := l.isLoop }

/-- Books something on the request that is in hand. -/
def settle (f : Spent → Spent) (h : Hand) : Hand := { h with spent := h.spent.modifyHead f }

/-- Books a write on the request that is in hand. -/
def attempt (h : Hand) : Hand := h.settle fun e => { e with tried := true }

def fired (cases : List Case) : Fired → Hand → Hand
  | .drained, h => { h with sawDrained := true }
  | .slot, h => { h with slots := h.slots + 1 }
  | .pushed i, h =>
    match offered cases with
    | some req =>
      { h with
        slots := h.slots - 1
        own := h.own - req.bytes
        shared := h.shared - cfg.globalCharge req.bytes
        pushed := some (i, req) }
    | none => h
  | .popped i req, h =>
    { h with
      slots := h.slots + 1
      own := h.own + req.bytes
      shared := h.shared + cfg.globalCharge req.bytes
      spent := { index := i, req } :: h.spent
      failed := false }
  | .acked none, h => { h with confirmed := h.pushed.map Prod.fst }
  | .default, h => { h with sawEmpty := h.sawEmpty || (h.sawDrained && offersPop cases) }
  | _, h => h

def upd : (i : SInstr) → i.Resp → Hand → Hand
  | .gateEnter, true, h => { h with inGate := true }
  | .gateLeave, _, h => { h with inGate := false }
  | .select cases _, r, h => h.fired cfg cases r
  | .releaseSlot, _, h =>
    { h with slots := h.slots - 1 }.settle fun e => { e with slots := e.slots + 1 }
  | .encode _, .ok frame, h => { h with encoded := some frame }
  | .localSection n, none, h | .localTry n, true, h => { h with own := h.own + n }
  | .globalSection n, none, h | .globalTry n, true, h => { h with shared := h.shared + n }
  | .localRelease n, _, h => { h with own := h.own - n }.settle fun e => { e with own := e.own + n }
  | .globalRelease n, _, h =>
    { h with shared := h.shared - cfg.globalCharge n }.settle fun e =>
      { e with shared := e.shared + cfg.globalCharge n }
  | .setWriteDeadline, some _, h => { h with failed := true }
  | .rawWrite _, (n, e), h => { h with failed := h.failed || e.isSome || n == 0 }.attempt
  | .wsWrite req, none, h | .packetWrite req, none, h => { h with delivered := some req }.attempt
  | .wsWrite _, some _, h | .packetWrite _, some _, h => { h with failed := true }.attempt
  | .wrote ok, _, h =>
    { h with
      delivered := none
      owedBytes := if ok then h.spent.head?.elim 0 fun e => kind.txBytes e.req else 0
      owedMessages := if ok then 1 else 0 }.settle fun e =>
        { e with result := some ok, failed := h.failed }
  | .count .bytesTX n, _, h => { h with owedBytes := h.owedBytes - n }
  | .count .messagesTX n, _, h => { h with owedMessages := h.owedMessages - n }
  | .ack _ _, _, h => h.settle fun e => { e with acks := e.acks + 1 }
  | .loopDone, _, h => { h with loop := false }
  | .waitLoops, _, h => { h with waited := true }
  | _, _, h => h

lemma fired_keeps (cases : List Case) (r : Fired) (h : Hand) :
    (h.fired cfg cases r).entry = h.entry ∧ (h.fired cfg cases r).encoded = h.encoded ∧
      (h.fired cfg cases r).delivered = h.delivered := by
  unfold fired
  split
  case h_3 => split <;> exact ⟨rfl, rfl, rfl⟩
  all_goals exact ⟨rfl, rfl, rfl⟩

/-- No step changes where the goroutine was started. -/
lemma upd_entry (i : SInstr) (r : i.Resp) (h : Hand) : (h.upd kind cfg i r).entry = h.entry := by
  unfold upd
  split
  case h_3 => exact (fired_keeps _ _ _ _).1
  all_goals rfl

/-- Nothing is held of the slots and the byte budgets. -/
def Free (h : Hand) : Prop := h.slots = 0 ∧ h.own = 0 ∧ h.shared = 0

/-- The counters have caught up with the writes. -/
def Counted (h : Hand) : Prop := h.owedBytes = 0 ∧ h.owedMessages = 0

/-- The request in hand is settled but for what is still held for it. -/
def Acked (h : Hand) : Prop := ∀ e ∈ h.spent.head?, e.Done

def caseReq (cases : List Case) (h : Hand) : Case → Prop
  | .slot => h.inGate = true ∧ h.slots = 0
  | .push req =>
    h.inGate = true ∧ offered cases = some req ∧ 0 < h.slots ∧ req.bytes ≤ h.own ∧
      cfg.globalCharge req.bytes ≤ h.shared ∧ Carries cfg h.encoded req h.entry
  | .pop =>
    h.entry = .writerLoop ∧ h.loop = true ∧ h.Free ∧ h.Acked
  | .ack i => ∃ req, h.pushed = some (i, req)
  | _ => True

def req (kind : SessionKind) (cfg : SessionConfig) : SInstr → Hand → Prop
  | .gateEnter, h => h.inGate = false ∧ h.entry ≠ .writerLoop
  | .gateLeave, h => h.inGate = true ∧ h.Free
  | .select cases _, h => ∀ c ∈ cases, h.caseReq cfg cases c
  | .releaseSlot, h => 0 < h.slots
  | .encode _, h => h.pushed = none
  | .localSection _, h | .localTry _, h | .globalSection _, h | .globalTry _, h => h.inGate = true
  | .localRelease n, h => n ≤ h.own
  | .globalRelease n, h => cfg.globalCharge n ≤ h.shared
  | .rawWrite _, h | .wsWrite _, h | .packetWrite _, h => h.entry = .writerLoop ∧ h.loop = true
  | .wrote ok, h =>
    h.entry = .writerLoop ∧ h.loop = true ∧ h.Counted ∧
      ∃ e es, h.spent = e :: es ∧ e.result = none ∧ (∀ e' ∈ es, e'.result ≠ none) ∧
        (ok = true → kind ≠ .conn → h.delivered = some e.req) ∧ ok = !h.failed
  | .count .bytesTX n, h => n ≤ h.owedBytes
  | .count .messagesTX n, h => n ≤ h.owedMessages
  | .ack i v, h =>
    h.entry = .writerLoop ∧ h.loop = true ∧ ∃ e es, h.spent = e :: es ∧ e.index = i ∧ e.acks = 0 ∧
      e.req.hasAck = true ∧ (v = none → e.result = some true)
  | .loopDone, h =>
    h.loop = true ∧ (h.entry = .writerLoop → h.sawEmpty = true ∧ h.Free ∧ h.Acked ∧ h.Counted)
  | .signal .done, h => h.waited = true
  | _, _ => True

/-- A sender inside the gate, with what it holds. -/
def sender (entry : SLabel) (encoded : Option Bytes) (slots own shared : ℕ) : Hand :=
  { entry, inGate := true, slots, own, shared, encoded }

/-- The writer, with what it holds. -/
def writer (b : Hand) (slots own shared owedBytes owedMessages : ℕ) (spent : List Spent) : Hand :=
  { b with
    entry := .writerLoop, loop := true, inGate := false, slots, own, shared, owedBytes,
    owedMessages, spent }

/-- The writer between two requests. -/
def Ready (h : Hand) : Prop := ∃ b spent, h = writer b 0 0 0 0 0 spent ∧ h.Acked

/-- Every request taken off the queue has been written. -/
def Written (h : Hand) : Prop := ∀ e ∈ h.spent, e.result ≠ none

/-- The writer has taken request `i` and not yet written it. -/
def Writing (i : ℕ) (req : Request) (h : Hand) : Prop :=
  ∃ b es tried, h = writer b 1 req.bytes (cfg.globalCharge req.bytes) 0 0
    ({ index := i, req, tried } :: es) ∧ ∀ e ∈ es, e.result ≠ none

/-- A goroutine that has nothing to do with sending. -/
def Idle (role : Role) (h : Hand) : Prop :=
  ∃ l, h = start l ∧ l.role = role ∧ l.isLoop = role.isLoop

/-- The request that a waiting sender will put on the queue. -/
def requestOf (a : Sending) : SessionKind → Request
  | .conn => { frame := a.frame, hasAck := true, payloadBytes := a.payloadBytes }
  | .webSocket =>
    { frame := a.frame, hasAck := true, payloadBytes := a.payloadBytes, text := a.text }
  | .packet => { frame := a.frame, hasAck := true, payloadBytes := a.payloadBytes, peer := a.peer }

def pre : SLabel → Hand → Prop
  | .acquireLocal a, h => ∃ entry encoded, h = sender entry encoded 1 0 0 ∧
      Carries cfg encoded (requestOf a kind) entry
  | .acquireGlobal a, h => ∃ entry encoded, h = sender entry encoded 1 a.frame.length 0 ∧
      Carries cfg encoded (requestOf a kind) entry ∧ cfg.maxQueuedBytesTotal ≠ 0
  | .writer at_, h => h.Ready ∧ h.Written ∧ (at_ = .drain → h.sawDrained = true)
  | .writing at_ i req _, h =>
    h.Writing cfg i req ∧ h.failed = false ∧ (at_ = .drain → h.sawDrained = true)
  | .writerExit, h => h.Ready
  | .failPending e, h => h.Ready ∧ h.sawDrained = true ∧ (kind ≠ .packet → e ≠ none)
  | .send ctx msg, h => h = start (.send ctx msg)
  | .trySend msg, h => h = start (.trySend msg)
  | .sendTo ctx target data, h => h = start (.sendTo ctx target data)
  | .trySendTo target data, h => h = start (.trySendTo target data)
  | .writerLoop, h => h = start .writerLoop
  | .finalizer, h => h = start .finalizer
  | l, h => h.Idle l.role

/-- `Send` returns nil only with the ack of its own request, and `TrySend` with the request on the
queue. -/
def post (v : SVal) (h : Hand) : Prop :=
  match h.entry, v with
  | .send _ _, .result none | .sendTo _ _ _, .result none =>
    ∃ i req, h.pushed = some (i, req) ∧ h.confirmed = some i
  | .trySend _, .result none | .trySendTo _ _, .result none => ∃ i req, h.pushed = some (i, req)
  | _, _ => True

end Hand

/-- The outline of the send path. -/
def resourceOutline (kind : SessionKind) (cfg : SessionConfig) :
    Outline SInstr SInstr.Resp SLabel SVal Hand where
  start := Hand.start
  upd i r h := Hand.upd kind cfg i r h
  req i h := Hand.req kind cfg i h
  ans
    | .select cases dflt, r, _ => Fired.From cases dflt r
    | _, _, _ => True
  pre l h := Hand.pre kind cfg l h
  post _ v h := Hand.post v h

end Ogrenet
