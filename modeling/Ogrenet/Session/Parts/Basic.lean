import Ogrenet.Interleaving.Calls
import Ogrenet.Session.Machine

/-!
# What the programs of a session are made of

Whatever a goroutine of a session does, it ends the session only through a few functions: `abort` or
`initiateClose`, the two that finish a graceful close, and `finalize`. `made_body` says this of
every program, with the causes and reasons it can pass; what the programs do besides is of no
interest to how a session ends.

`SMade` also follows the result of a send to where it comes from. A send returns an error of its own
admission, which it classifies, the cause of its context, what `Err()` gives, or the ack of the
writer.
-/

namespace Ogrenet

open Interleaving Interleaving.Prog Ses

abbrev SLog := List (Sigma SInstr.Resp)

/-- Where a goroutine of a session was started and what it has done. -/
abbrev SPast := Outline.Past SLabel SInstr.Resp

/-- What a goroutine is for. -/
inductive Role where
  | sender
  | waiter
  | closer
  | requester
  | writer
  | reader
  | pinger
  | watchdog
  | timeoutWatcher
  | contextWatcher
  | finalizer
  deriving DecidableEq, Repr

def SLabel.role : SLabel → Role
  | .send .. | .trySend _ | .sendTo .. | .trySendTo .. | .acquireLocal _ | .acquireGlobal _ =>
    .sender
  | .closeWrite _ | .shutdown _ => .waiter
  | .close => .closer
  | .requestShutdown | .requestDrain => .requester
  | .writerLoop | .writer _ | .writing .. | .writerExit | .failPending _ => .writer
  | .readerLoop | .reader _ | .decoding .. => .reader
  | .pingLoop => .pinger
  | .watchdog => .watchdog
  | .watchCloseTimeout => .timeoutWatcher
  | .watchContext _ => .contextWatcher
  | .finalizer => .finalizer

/-- The goroutine is one that `loops` waits for. -/
def Role.isLoop : Role → Bool
  | .writer | .reader | .pinger | .watchdog => true
  | _ => false

/-- The goroutine is on the send path. -/
def Role.outbound : Role → Bool
  | .sender | .writer => true
  | _ => false

/-- No error, or one that satisfies `P`. -/
def Told (P : Err → Prop) (v : Option Err) : Prop := ∀ e, v = some e → P e

/-- What the goroutines may count on. When `clean` holds, nothing from outside carries a
`*transport.Error`. `Err()` and the acks hand over errors that satisfy `hands`, which every error
with the envelope does, and the cause of the context `k` satisfies `causes k`. -/
structure Terms where
  clean : Prop
  hands : Err → Prop
  causes : ℕ → Err → Prop
  typed : ∀ e : Err, e.hasOperational = true → hands e

/-- Terms on which anything may be handed over. -/
def Terms.any (clean : Prop) : Terms where
  clean := clean
  hands _ := True
  causes _ _ := True
  typed _ _ := trivial

/-- The goroutine stays what it is. A read error that is kept for later is as clean as the reads,
and what the writer keeps for the pending requests may be handed over. A loop returns nothing. -/
def Role.Stays (τ : Terms) (role : Role) : SNext → Prop
  | .goto (.decoding _ _ readErr) => .reader = role ∧ (τ.clean → Bare readErr)
  | .goto (.failPending v) => .writer = role ∧ Told τ.hands v
  | .goto l => l.role = role
  | .ret v => role.isLoop = true → v = .unit

/-- The context that a send was given. -/
def SLabel.ctx : SLabel → Option ℕ
  | .send ctx _ | .sendTo ctx _ _ => ctx
  | _ => none

/-- There is a peer, and it is the remote address of a connected socket. -/
def Peer.Valid (cfg : SessionConfig) : Peer → Prop
  | .missing => False
  | .udp addr | .other (.ok addr) => cfg.connected = true → cfg.site.remoteAddr = some addr
  | _ => True

/-- A call of `Send`, `TrySend`, `SendTo` or `TrySendTo` with a context where it takes one, a valid
peer and a message that passes `Validate`. -/
def SLabel.Sends (cfg : SessionConfig) : SLabel → Prop
  | .send ctx msg => ctx.isSome = true ∧ msg.validate = .ok ()
  | .trySend msg => msg.validate = .ok ()
  | .sendTo ctx target _ => ctx.isSome = true ∧ target.Valid cfg
  | .trySendTo target _ => target.Valid cfg
  | _ => False

/-- A `Send` or `TrySend` on a packet socket that is not connected. -/
def SLabel.Unaddressed (cfg : SessionConfig) : SLabel → Prop
  | .sendTo _ .unnamed _ | .trySendTo .unnamed _ => cfg.connected = false
  | _ => False

/-- A send that goes out to a peer. -/
def SLabel.Served (cfg : SessionConfig) (l : SLabel) : Prop := l.Sends cfg ∧ ¬ l.Unaddressed cfg

/-- The send that started at `l₀` was given the context. -/
def SLabel.Under (cfg : SessionConfig) (l₀ : SLabel) (ctx : ℕ) : Prop :=
  l₀.Served cfg → l₀.ctx = some ctx

/-- What a send that started at `l₀` may return. -/
def Returns (τ : Terms) (cfg : SessionConfig) (l₀ : SLabel) (v : Option Err) : Prop :=
  l₀.Served cfg → ∀ e, v = some e → τ.hands e ∨ ∃ k, l₀.ctx = some k ∧ τ.causes k e

/-- How a piece of program of a send that started at `l₀` may end. -/
def Leads (τ : Terms) (cfg : SessionConfig) (l₀ : SLabel) : SNext → Prop
  | .goto (.acquireLocal a) | .goto (.acquireGlobal a) => l₀.Under cfg a.ctx
  | .goto _ => False
  | .ret (.result v) => Returns τ cfg l₀ v
  | .ret .unit => True

/-- A goroutine that started at `l₀` may be at `l`. -/
def SLabel.Follows (τ : Terms) (cfg : SessionConfig) (l₀ : SLabel) : SLabel → Prop
  | .send o msg => l₀ = .send o msg
  | .trySend msg => l₀ = .trySend msg
  | .sendTo o target data => l₀ = .sendTo o target data
  | .trySendTo target data => l₀ = .trySendTo target data
  | .acquireLocal a | .acquireGlobal a => l₀.role = .sender ∧ l₀.Under cfg a.ctx
  | l => l₀.role.Stays τ (.goto l)

/-- Only the writer takes requests off the queue and waits for the gate, and only senders take
slots, put requests on the queue and wait for their acks. -/
def Case.fits (role : Role) : Case → Bool
  | .pop | .drained => role == .writer
  | .slot | .encoder | .push _ | .ack _ => role == .sender
  | _ => true

/-- The step neither decides how the session ends nor announces it, and is one that a goroutine with
this role may do. -/
def SInstr.plain (kind : SessionKind) (role : Role) : SInstr → Bool
  | .abortSection _ _ | .tryTerminal | .setTerminal | .setErr _ => false
  | .signal .closing | .signal .aborted | .signal .done | .signal .terminal => false
  | .signal .readDone => kind != .packet && role != .sender
  | .signal .writeDone => role != .sender
  | .onceEnter o | .onceExit o => o == .drain
  | .callBegin (.onClose _) | .callEnd (.onClose _) => false
  | .callBegin _ | .callEnd _ => role == .reader
  | .request goal => goal != .abort
  | .select cases _ => cases.all (Case.fits role)
  | .gateEnter | .gateLeave | .encode _ | .releaseEncoder | .localSection _ | .localTry _
  | .globalSection _ | .globalTry _ => role == .sender
  | .releaseSlot | .localRelease _ | .globalRelease _ => role.outbound
  | .setWriteDeadline | .rawWrite _ | .rawCloseWrite | .wsWrite _ | .wsClose | .packetWrite _
  | .wrote _ | .writeBegin | .writePendingRead | .writeEnd | .ackErr _ | .ack _ _
  | .count .bytesTX _ | .count .messagesTX _ => role == .writer
  | .deferRead _ => role == .reader
  | .loopDone => false
  | .waitLoops => role == .finalizer
  | _ => true

/-- The step is plain; when `clean` holds, a read error that is handed to the writer carries no
`*transport.Error`. -/
def SInstr.Plain (clean : Prop) (kind : SessionKind) (role : Role) : SInstr → Prop
  | .deferRead e => role = .reader ∧ (clean → e.hasOperational = false)
  | i => i.plain kind role = true

/-- The errors in an answer from outside carry no `*transport.Error`. -/
def SInstr.Bare : (i : SInstr) → i.Resp → Prop
  | .setWriteDeadline, e | .setReadDeadline, e | .rawCloseWrite, e | .wsWrite _, e | .wsClose, e
  | .wsPing, e | .writeTimeoutCause, e | .writePendingRead, e | .writeEnd, e
  | .packetWrite _, e => Ogrenet.Bare e
  | .rawWrite _, (_, e) | .rawRead, (_, e) | .packetRead, (_, e) => Ogrenet.Bare e
  | .decodeOne _, .error e | .wsRead, .error e | .wsDecode _ _, .error e =>
    e.hasOperational = false
  | _, _ => True

/-- The step is plain, and a request is acknowledged with what may be handed over. -/
def SInstr.Fits (τ : Terms) (kind : SessionKind) (role : Role) : SInstr → Prop
  | .ack _ v => role = .writer ∧ Told τ.hands v
  | i => i.Plain τ.clean kind role

/-- A loop ends with `loops.Done()`. -/
def SInstr.Last (role : Role) (i : SInstr) (n : SNext) : Prop :=
  i = .loopDone ∧ role.isLoop = true ∧ n = .ret .unit

/-- The answer keeps to the terms. A `select` on one context answers with its cause. A writer that
finds no error for an ack it owes hands over `ErrClosed` itself. -/
def SInstr.Answers (τ : Terms) : (i : SInstr) → i.Resp → Prop
  | .ctxCause k, cause => Told (τ.causes k) cause
  | .select cases _, .ctxDone e => ∀ k, (∀ k', .ctxDone k' ∈ cases → k' = k) → τ.causes k e
  | .select _ _, .acked v => Told τ.hands v
  | .err, e => Told τ.hands e
  | .ackErr owed, e => Told τ.hands e ∧ (owed = true → e = none → τ.hands (.sentinel .closed))
  | i, r => τ.clean → i.Bare r

/-- What a goroutine can give `abort` and `initiateClose`. Only the waiting calls abort for their
caller, and a cause is in the typed envelope unless the watchdog of a stream passes it. -/
structure Gives (clean : Prop) (kind : SessionKind) (role : Role) (reason : AbortReason)
    (cause : Option Err) : Prop where
  caller : reason = .caller → role = .waiter
  explicit : reason = .explicit → role = .closer
  failure : cause ≠ none → reason = .failure ∧ role ≠ .closer ∧ role ≠ .contextWatcher
  typed : ∀ e, cause = some e → e.Typed clean ∨ kind = .conn ∧ role = .watchdog
  watchdog : kind = .conn → role = .watchdog → ∃ timeout, cause = some (.timeoutError timeout)
  named : reason ≠ .none

/-- The functions that end a session of each kind, as a goroutine with this role calls them. -/
inductive EndCall (clean : Prop) (cfg : SessionConfig) (role : Role) :
    SessionKind → (β : Type) → SProg β → Prop
  | connAbort {reason : AbortReason} {cause : Option Err} :
      Gives clean .conn role reason cause →
        EndCall clean cfg role .conn Bool (Conn.abort reason cause)
  | connFinish : role = .writer ∨ role = .reader →
      EndCall clean cfg role .conn Unit Conn.maybeFinishGraceful
  | connFinalize : role = .finalizer → EndCall clean cfg role .conn Unit Conn.finalize
  | wsAbort {reason : AbortReason} {cause : Option Err} :
      Gives clean .webSocket role reason cause →
        EndCall clean cfg role .webSocket Bool (WebSocket.abort reason cause)
  | wsFinish {e : Option Err} : role = .writer → (clean → Ogrenet.Bare e) →
      EndCall clean cfg role .webSocket Unit (WebSocket.finishLocalGraceful cfg e)
  | wsFinalize : role = .finalizer → EndCall clean cfg role .webSocket Unit WebSocket.finalize
  | packetClose {cause : Option Err} :
      Gives clean .packet role .failure cause →
        EndCall clean cfg role .packet Unit (Packet.initiateClose cause)
  | packetFinalize : role = .finalizer → EndCall clean cfg role .packet Unit Packet.finalize

/-- The program is made of plain steps and of what ends a session of this kind. -/
abbrev SMade (τ : Terms) (kind : SessionKind) (cfg : SessionConfig) (role : Role) {α : Type}
    (F : α → Prop) (p : SProg α) : Prop :=
  p.Made (SInstr.Fits τ kind role) (SInstr.Answers τ) (EndCall τ.clean cfg role kind)
    (fun _ _ => False) F

/-- A program that leaves the goroutine what it is. -/
abbrev SBody (τ : Terms) (kind : SessionKind) (cfg : SessionConfig) (role : Role)
    (p : SProg SNext) : Prop :=
  p.Made (SInstr.Fits τ kind role) (SInstr.Answers τ) (EndCall τ.clean cfg role kind)
    (SInstr.Last role) (role.Stays τ)

/-- A piece of program of a send that started at `l₀`. -/
abbrev SSend (τ : Terms) (kind : SessionKind) (cfg : SessionConfig) (l₀ : SLabel)
    (p : SProg SNext) : Prop :=
  SMade τ kind cfg .sender (Leads τ cfg l₀) p

/-! ### Shared parts -/

section Shared

variable {τ : Terms} {clean : Prop} {kind : SessionKind} {cfg : SessionConfig} {role : Role}
  {l₀ : SLabel} {ctx : ℕ}

lemma SInstr.Plain.plain {i : SInstr} (h : i.Plain clean kind role) : i.plain kind role = true := by
  cases i with
  | deferRead e =>
    obtain ⟨rfl, -⟩ := h
    rfl
  | _ => exact h

lemma Told.none {P : Err → Prop} : Told P none := nofun

lemma Told.some {P : Err → Prop} {e : Err} (h : P e) : Told P (some e) :=
  fun _ he => Option.some.inj he ▸ h

lemma Told.classified {op : Op} {site : Site} {e : Err} {hint : ClassifyHint} :
    Told τ.hands (Option.some (classifyOperational op site e hint)) :=
  .some (τ.typed _ classifyOperational_classified.hasOperational)

lemma Returns.told {v : Option Err} (h : Told τ.hands v) : Returns τ cfg l₀ v :=
  fun _ e he => .inl (h e he)

lemma Returns.classified {op : Op} {site : Site} {e : Err} {hint : ClassifyHint} :
    Returns τ cfg l₀ (some (classifyOperational op site e hint)) := .told .classified

lemma Returns.cause {e : Err} (hctx : l₀.Under cfg ctx) (h : τ.causes ctx e) :
    Returns τ cfg l₀ (some e) :=
  fun hs _ he => .inr ⟨ctx, hctx hs, Option.some.inj he ▸ h⟩

/-- What `sendError` gives is returned. -/
lemma Returns.sendError {e : Err} (hctx : l₀.Under cfg ctx) (h : τ.hands e ∨ τ.causes ctx e) :
    Returns τ cfg l₀ (some e) :=
  h.elim (fun h => .told (.some h)) fun h => .cause hctx h

lemma Returns.vacuous {v : Option Err} (h : ¬ l₀.Sends cfg) : Returns τ cfg l₀ v :=
  fun hs => absurd hs.1 h

lemma made_return {v : SVal} (h : role.isLoop = true → v = .unit) :
    SBody τ kind cfg role (pure (.ret v)) := .done h

lemma made_leave {v : Option Err} (h : Returns τ cfg l₀ v) :
    SSend τ kind cfg l₀ (do gateLeave; returnErr v) :=
  .op rfl fun _ => .done h

lemma made_endLoop (h : role.isLoop = true) : SBody τ kind cfg role endLoop :=
  .last ⟨rfl, h, rfl⟩

lemma made_tryAcquireGlobal (n : ℕ) :
    SMade τ kind cfg .sender (fun _ => True) (tryAcquireGlobal cfg n) := by
  simp only [tryAcquireGlobal]
  split
  · exact .done trivial
  · split
    · exact .done trivial
    · refine .op rfl ?_
      rintro (_ | _)
      · exact .done trivial
      · exact .done trivial

lemma made_tryAcquireQuota (n : ℕ) :
    SMade τ kind cfg .sender (fun _ => True) (tryAcquireQuota cfg n) := by
  simp only [tryAcquireQuota]
  split
  · exact .done trivial
  · refine .op rfl ?_
    rintro (_ | _)
    · exact .done trivial
    · refine (made_tryAcquireGlobal n).bind ?_
      rintro (_ | e) -
      · exact .done trivial
      · exact .op rfl fun _ => .done trivial

lemma made_quotaRelease (n : ℕ) (h : role.outbound = true) :
    SMade τ kind cfg role (fun _ => True) (quotaRelease n) :=
  .op h fun _ => .op h fun _ => .done trivial

lemma made_isClosedSignal (ch : Signal) :
    SMade τ kind cfg role (fun _ => True) (isClosedSignal ch) :=
  .op rfl fun r => by cases r <;> exact .done trivial

/-- The check of `closing` at the end of a round. -/
lemma made_unlessClosing {p : SProg SNext} (h : role.isLoop = true)
    (hp : SBody τ kind cfg role p) :
    SBody τ kind cfg role (do
      match ← isClosing with
      | true => endLoop
      | false => p) := by
  refine (made_isClosedSignal .closing).bind ?_
  rintro (_ | _) -
  · exact hp
  · exact made_endLoop h

lemma made_requestWithPrevious (goal : CloseGoal) :
    SMade τ kind cfg role (fun _ => True) (requestWithPrevious goal) := by
  cases goal with
  | running | abort => exact .done trivial
  | write =>
    refine .op rfl ?_
    rintro ⟨_ | _, previous⟩
    · exact .done trivial
    · exact .op rfl fun _ => .done trivial
  | full =>
    refine .op rfl ?_
    rintro ⟨_ | _, previous⟩
    · exact .done trivial
    · exact .op rfl fun _ =>
        .op rfl fun _ => .done trivial

lemma Role.stays_self (l : SLabel) : l.role.Stays (.any False) (.goto l) := by
  cases l with
  | decoding pending consumed readErr => exact ⟨rfl, False.elim⟩
  | failPending v => exact ⟨rfl, fun _ _ => trivial⟩
  | _ => rfl

lemma Role.Stays.role_eq {l : SLabel} (h : role.Stays τ (.goto l)) : l.role = role := by
  cases l with
  | decoding pending consumed readErr | failPending v => exact h.1
  | _ => exact h

/-- A send stays one. -/
lemma Leads.stays {n : SNext} (h : Leads τ cfg l₀ n) : Role.sender.Stays τ n := by
  cases n with
  | goto l => cases l <;> first | rfl | exact h.elim
  | ret v => exact nofun

/-- The writer acknowledges a request that asks for it and goes on. -/
lemma made_ackThen {i : ℕ} {req : Request} {v : Option Err} {l : SLabel}
    (hl : Role.writer.Stays τ (.goto l)) (hv : req.hasAck = true → Told τ.hands v) :
    SBody τ kind cfg .writer (do
      if req.hasAck then ack i v
      return .goto l) := by
  show SBody τ kind cfg .writer (if _ then _ else _)
  split
  · exact .op ⟨rfl, hv ‹_›⟩ fun _ => .done hl
  · exact .done hl

/-- A goroutine without a cause. -/
lemma Gives.noCause (h : kind = .conn → role ≠ .watchdog) :
    Gives clean kind role .failure none where
  caller := nofun
  explicit := nofun
  failure h := absurd rfl h
  typed := nofun
  watchdog hk hr := absurd hr (h hk)
  named := nofun

/-- A waiting call whose context is done. -/
lemma Gives.waiter : Gives clean kind .waiter .caller none where
  caller _ := rfl
  explicit := nofun
  failure h := absurd rfl h
  typed := nofun
  watchdog _ := nofun
  named := nofun

/-- The watchdog of a stream. -/
lemma Gives.timedOut (timeout : TimeoutKind) :
    Gives clean .conn .watchdog .failure (some (.timeoutError timeout)) where
  caller := nofun
  explicit := nofun
  failure _ := ⟨rfl, nofun, nofun⟩
  typed _ _ := .inr ⟨rfl, rfl⟩
  watchdog _ _ := ⟨timeout, rfl⟩
  named := nofun

/-- `Close`. -/
lemma Gives.closer : Gives clean kind .closer .explicit none where
  caller := nofun
  explicit _ := rfl
  failure h := absurd rfl h
  typed := nofun
  watchdog _ := nofun
  named := nofun

/-- A classified cause, given by one of the loops. -/
lemma Gives.operational (role : Role) {op : Op} {site : Site} {e : Err} {hint : ClassifyHint}
    (hrole : role ≠ .closer ∧ role ≠ .contextWatcher ∧ (kind = .conn → role ≠ .watchdog))
    (he : clean → e.hasOperational = false) :
    Gives clean kind role .failure (some (classifyOperational op site e hint)) where
  caller := nofun
  explicit := nofun
  failure _ := ⟨rfl, hrole.1, hrole.2.1⟩
  typed := by
    rintro _ ⟨⟩
    exact .inl ⟨classifyOperational_classified.hasOperational, fun hc =>
      ⟨op, site, e, hint, rfl, he hc⟩⟩
  watchdog hk hr := absurd hr (hrole.2.2 hk)
  named := nofun

lemma Gives.normalized (role : Role) {op : Op} {site : Site} {hint : ClassifyHint}
    {cause : Option Err}
    (hrole : role ≠ .closer ∧ role ≠ .contextWatcher ∧ (kind = .conn → role ≠ .watchdog))
    (he : clean → Bare cause) :
    Gives clean kind role .failure (cause.map fun e => classifyOperational op site e hint) := by
  cases cause with
  | none => exact .noCause hrole.2.2
  | some e => exact .operational role hrole fun hc => he hc e rfl

end Shared

/-! ### Errors without an envelope -/

section Bare

variable {e : Err}

lemma Bare.of_eq (h : e.hasOperational = false) : Bare (some e) :=
  fun _ he => Option.some.inj he ▸ h

/-- The error of a write that has failed. -/
lemma Bare.writeFailure {text : String} (h : e.hasOperational = false) :
    Bare (some (if e.isTimeoutFailure then .timeoutCause .write e else .wrap text e)) := by
  split
  · exact .of_eq h
  · exact .of_eq h

lemma Bare.normalizeConnError (h : e.hasOperational = false) : Bare (normalizeConnError e) := by
  simp only [Ogrenet.normalizeConnError]
  split
  · exact nofun
  · exact .of_eq h

lemma Bare.normalizeWSError (h : e.hasOperational = false) : Bare (normalizeWSError e) := by
  simp only [Ogrenet.normalizeWSError]
  repeat' split
  · exact nofun
  · exact nofun
  · exact .of_eq h

lemma Bare.normalizePacketError (h : e.hasOperational = false) :
    Bare (normalizePacketError e) := by
  simp only [Ogrenet.normalizePacketError]
  split
  · exact nofun
  · exact .of_eq h

/-- An error that came with data is kept unless it is a timeout. -/
lemma Bare.unlessTimeout {o : Option Err} (h : Bare o) :
    Bare (o.bind fun e => if e.isTimeoutFailure then none else some e) := by
  intro e he
  obtain ⟨e', ho, he'⟩ := Option.bind_eq_some_iff.mp he
  obtain ⟨-, he'⟩ := Option.ite_none_left_eq_some.mp he'
  exact h e (ho.trans he')

lemma Err.ofMessage_bare (e : MessageError) : (Err.ofMessage e).hasOperational = false := by
  cases e <;> rfl

end Bare

end Ogrenet
