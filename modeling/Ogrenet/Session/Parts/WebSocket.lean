import Ogrenet.Session.Parts.Basic

/-!
# What the programs of a WebSocket session are made of
-/

namespace Ogrenet

open Interleaving Interleaving.Prog Ses

namespace WebSocket

variable {τ : Terms} {cfg : SessionConfig} {role : Role} {l₀ : SLabel} {ctx : ℕ}

/-! ### Senders -/

lemma made_sendError (e : Err) :
    SMade τ .webSocket cfg .sender (fun e => τ.hands e ∨ τ.causes ctx e) (sendError cfg ctx e) := by
  refine .ask rfl ?_
  rintro (_ | cause) hcause
  · exact .done (.inl (τ.typed _ classifyOperational_classified.hasOperational))
  · exact .done (.inr (hcause _ rfl))

lemma made_failSend (hctx : l₀.Under cfg ctx) (e : Err) :
    SSend τ .webSocket cfg l₀ (failSend cfg ctx e) :=
  (made_sendError e).bind fun _ he => made_leave (.sendError hctx he)

lemma made_failHeld (hctx : l₀.Under cfg ctx) (e : Err) :
    SSend τ .webSocket cfg l₀ (failHeld cfg ctx e) :=
  (made_sendError e).bind fun _ he => .op rfl fun _ => made_leave (.sendError hctx he)

lemma made_closedError : SMade τ .webSocket cfg role τ.hands (closedError cfg) := by
  refine .ask rfl ?_
  rintro (_ | terminal) hterm
  · exact .done (τ.typed _ classifyOperational_classified.hasOperational)
  · exact .done (hterm _ rfl)

/-- A send finds the session closed. -/
lemma made_closed : SSend τ .webSocket cfg l₀ (do
    let e ← closedError cfg
    gateLeave
    returnErr (some e)) :=
  made_closedError.bind fun _ he => made_leave (.told (.some he))

/-- The same, unless its context is done. -/
lemma made_causeOrClosed (hctx : l₀.Under cfg ctx) : SSend τ .webSocket cfg l₀ (do
    match ← ctxCause ctx with
    | some cause =>
      gateLeave
      returnErr (some cause)
    | none =>
      let e ← closedError cfg
      gateLeave
      returnErr (some e)) := by
  refine .ask rfl ?_
  rintro (_ | cause) hcause
  · exact made_closed
  · exact made_leave (.cause hctx (hcause _ rfl))

lemma made_awaitAck (hctx : l₀.Under cfg ctx) (i : ℕ) :
    SSend τ .webSocket cfg l₀ (awaitAck cfg ctx i) := by
  refine .ask rfl fun r hr => ?_
  cases r with
  | acked v => exact made_leave (.told hr)
  | ctxDone cause => exact made_leave (.cause hctx (hr _ (by simp)))
  | _ =>
    refine .ask rfl fun r hr => ?_
    cases r with
    | acked v => exact made_leave (.told hr)
    | _ => exact made_causeOrClosed hctx

lemma made_enqueue {a : Sending} (hctx : l₀.Under cfg a.ctx) :
    SSend τ .webSocket cfg l₀ (enqueue cfg a) := by
  refine .ask rfl fun r hr => ?_
  cases r with
  | pushed i => exact made_awaitAck hctx i
  | ctxDone cause =>
    refine (made_quotaRelease _ rfl).bind fun _ _ => .op rfl fun _ => ?_
    exact made_leave (.cause hctx (hr _ (by simp)))
  | _ => exact (made_quotaRelease _ rfl).bind fun _ _ => .op rfl fun _ => made_causeOrClosed hctx

lemma made_acquireLocal {a : Sending} (hctx : l₀.Under cfg a.ctx) :
    SSend τ .webSocket cfg l₀ (acquireLocal cfg a) := by
  refine .op rfl ?_
  rintro (_ | g)
  · show SSend τ .webSocket cfg l₀ (if _ then _ else _)
    split
    · exact made_enqueue hctx
    · split
      · exact .op rfl fun _ => made_failHeld hctx _
      · exact .done hctx
  · refine .op rfl fun r => ?_
    cases r with
    | changed => exact .done hctx
    | _ => exact made_failHeld hctx _

lemma made_acquireGlobal {a : Sending} (hctx : l₀.Under cfg a.ctx) :
    SSend τ .webSocket cfg l₀ (acquireGlobal cfg a) := by
  refine .op rfl ?_
  rintro (_ | g)
  · exact made_enqueue hctx
  · refine .op rfl fun r => ?_
    cases r with
    | changed => exact .done hctx
    | _ => exact .op rfl fun _ => made_failHeld hctx _

lemma made_acquireFrameSlot (ctx : ℕ) :
    SMade τ .webSocket cfg .sender (fun _ => True) (acquireFrameSlot ctx) :=
  .op rfl fun r => by cases r <;> exact .done trivial

lemma made_tryAcquireFrameSlot :
    SMade τ .webSocket cfg .sender (fun _ => True) tryAcquireFrameSlot :=
  .op rfl fun r => by cases r <;> exact .done trivial

lemma made_acquireEncoder (ctx : ℕ) :
    SMade τ .webSocket cfg .sender (fun _ => True) (acquireEncoder ctx) :=
  .op rfl fun r => by cases r <;> exact .done trivial

lemma made_tryAcquireEncoder : SMade τ .webSocket cfg .sender (fun _ => True) tryAcquireEncoder :=
  .op rfl fun r => by cases r <;> exact .done trivial

lemma made_send (o : Option ℕ) (msg : Message) :
    SSend τ .webSocket cfg (.send o msg) (send cfg o msg) := by
  cases o with
  | none => exact .done (.vacuous nofun)
  | some ctx =>
    have hctx : (SLabel.send (some ctx) msg).Under cfg ctx := fun _ => rfl
    refine .ask rfl ?_
    rintro (_ | cause) hcause
    · refine .op rfl ?_
      rintro (_ | _)
      · exact .done .classified
      · cases hv : msg.validate with
        | error e => exact made_leave (.vacuous fun hs => by rw [hs.2] at hv; cases hv)
        | ok _ =>
          refine (made_acquireFrameSlot ctx).bind ?_
          rintro (_ | e) -
          · refine (made_acquireEncoder ctx).bind ?_
            rintro (_ | e) -
            · refine .op rfl fun encoded => .op rfl fun _ => ?_
              cases encoded with
              | error e => exact made_failHeld hctx _
              | ok payload =>
                show SSend τ .webSocket cfg _ (if _ then _ else _)
                split
                · exact made_failHeld hctx _
                · exact .done hctx
            · exact made_failHeld hctx _
          · exact made_failSend hctx _
    · exact .done (Returns.cause hctx (hcause _ rfl))

lemma made_failTrySend (held : Bool) (e : Err) :
    SSend τ .webSocket cfg l₀ (failTrySend cfg held e) := by
  have hheld : SSend τ .webSocket cfg l₀ (do
      if held then releaseSlot
      gateLeave
      returnErr (some (operationalError cfg .send e .none))) := by
    cases held with
    | false => exact made_leave .classified
    | true => exact .op rfl fun _ => made_leave .classified
  simp only [failTrySend]
  split
  · exact .op rfl fun _ => hheld
  · exact hheld

lemma made_tryEnqueue (req : Request) : SSend τ .webSocket cfg l₀ (tryEnqueue cfg req) := by
  refine .op rfl fun r => ?_
  cases r with
  | pushed i => exact made_leave (.told .none)
  | default =>
    refine (made_quotaRelease _ rfl).bind fun _ _ => .op rfl fun _ => ?_
    exact made_failTrySend false (.sentinel .wouldBlock)
  | _ => exact (made_quotaRelease _ rfl).bind fun _ _ => .op rfl fun _ => made_closed

lemma made_trySend (msg : Message) :
    SSend τ .webSocket cfg (.trySend msg) (trySend cfg msg) := by
  refine .op rfl ?_
  rintro (_ | _)
  · exact .done .classified
  · cases hv : msg.validate with
    | error e =>
      exact made_leave (.vacuous fun (hs : msg.validate = .ok ()) => by rw [hs] at hv; cases hv)
    | ok _ =>
      refine made_tryAcquireFrameSlot.bind ?_
      rintro (_ | e) -
      · refine made_tryAcquireEncoder.bind ?_
        rintro (_ | e) -
        · refine .op rfl fun encoded => .op rfl fun _ => ?_
          cases encoded with
          | error e => exact .op rfl fun _ => made_leave .classified
          | ok payload =>
            refine (made_tryAcquireQuota payload.length).bind ?_
            rintro (_ | e) -
            · exact made_tryEnqueue _
            · exact made_failTrySend _ _
        · exact made_failTrySend _ _
      · exact made_failTrySend _ _

/-! ### Closers -/

lemma made_initiateClose {cause : Option Err} (h : Gives τ.clean .webSocket role .failure cause) :
    SMade τ .webSocket cfg role (fun _ => True) (initiateClose cause) :=
  .call (.wsAbort h) fun _ => .done trivial

lemma made_requestShutdown : SMade τ .webSocket cfg role (fun _ => True) requestShutdown := by
  refine (made_requestWithPrevious .full).bind ?_
  rintro ⟨_ | _, previous⟩ -
  · exact .done trivial
  · exact .op rfl fun _ => .op rfl fun _ => .done trivial

lemma made_result : SBody τ .webSocket cfg .waiter (do returnErr (← lifecycleResult)) := by
  refine .op rfl ?_
  rintro (_ | e)
  · exact .op rfl fun r => by cases r <;> exact made_return nofun
  · exact made_return nofun

lemma made_shutdown (ctx : Option ℕ) : SBody τ .webSocket cfg .waiter (shutdown ctx) := by
  cases ctx with
  | none => exact made_return nofun
  | some ctx =>
    refine .op rfl ?_
    rintro (_ | cause)
    · apply made_requestShutdown.bind
      intro owner _
      refine .op rfl fun r => ?_
      cases r with
      | ctxDone cause =>
        cases owner with
        | false => exact made_return nofun
        | true =>
          exact .call (p := abort .caller none) (.wsAbort .waiter) fun _ => made_return nofun
      | _ => exact made_result
    · exact made_return nofun

lemma made_close : SBody τ .webSocket cfg .closer close := by
  refine (made_isClosedSignal .done).bind ?_
  rintro (_ | _) -
  · exact .call (p := abort .explicit none) (.wsAbort .closer) fun _ => made_return nofun
  · exact made_return nofun

lemma made_watchCloseTimeout :
    SBody τ .webSocket cfg .timeoutWatcher (watchCloseTimeout cfg) := by
  refine .op rfl fun r => ?_
  cases r with
  | closed ch =>
    cases ch with
    | writerDrained =>
      refine .op rfl fun r => ?_
      cases r with
      | timer timeout =>
        refine .call (p := abort .failure _) (.wsAbort ?_) fun _ => made_return nofun
        exact .operational .timeoutWatcher (by decide) fun _ => rfl
      | _ => exact made_return nofun
    | _ => exact made_return nofun
  | _ => exact made_return nofun

/-! ### The writer -/

lemma gives_writeError {clean : Prop} {e : Err} (timeoutCause : Option Err)
    {pendingRead : Option Err}
    (he : clean → e.hasOperational = false) (hread : clean → Bare pendingRead) :
    Gives clean .webSocket .writer .failure (writeError cfg e timeoutCause pendingRead) := by
  simp only [writeError]
  split
  · exact .operational .writer (by decide) he
  · cases pendingRead with
    | none => exact .operational .writer (by decide) he
    | some readErr =>
      exact .normalized .writer (by decide) fun hc => Bare.normalizeWSError (hread hc readErr rfl)

lemma told_writeError (e : Err) (timeoutCause pendingRead : Option Err) :
    Told τ.hands (writeError cfg e timeoutCause pendingRead) := by
  intro e' he'
  have hgives : Gives False .webSocket .writer .failure
      (writeError cfg e timeoutCause pendingRead) := gives_writeError timeoutCause nofun nofun
  exact τ.typed e' ((hgives.typed e' he').resolve_right nofun).1

lemma made_failedAck {opErr : Option Err} (hop : Told τ.hands opErr) (owed won : Bool) :
    SMade τ .webSocket cfg .writer (fun e => owed = true → τ.hands e)
      (failedAck owed won opErr) := by
  have hread : SMade τ .webSocket cfg .writer (fun e => owed = true → τ.hands e) (do
      match ← ackErr owed with
      | some terminal => return terminal
      | none => return .sentinel .closed) := by
    refine .ask rfl ?_
    rintro (_ | terminal) ⟨hterm, hclosed⟩
    · exact .done fun howed => hclosed howed rfl
    · exact .done fun _ => hterm _ rfl
  cases won with
  | false => exact hread
  | true =>
    cases opErr with
    | none => exact hread
    | some e => exact .done fun _ => hop e rfl

/-- After a write the writer takes over a read failure that has waited for it. -/
lemma made_afterWrite (at_ : WriterAt) {pendingRead : Option Err} :
    (τ.clean → Bare pendingRead) → SBody τ .webSocket cfg .writer (match pendingRead with
      | some readErr => do
        initiateClose ((normalizeWSError readErr).map fun n => operationalError cfg .read n .none)
        return .goto .writerExit
      | none => return .goto (.writer at_)) := by
  intro hread
  cases pendingRead with
  | none => exact .done rfl
  | some readErr =>
    exact (made_initiateClose (.normalized .writer (by decide) fun hc =>
      Bare.normalizeWSError (hread hc readErr rfl))).bind fun _ _ => .done rfl

lemma made_handleOutbound (at_ : WriterAt) (i : ℕ) (req : Request) :
    SBody τ .webSocket cfg .writer (handleOutbound cfg at_ i req) := by
  refine .op rfl fun _ => .ask rfl ?_
  intro e he
  refine .op rfl fun _ => .op rfl ?_
  intro timeoutCause
  cases e with
  | none =>
    refine .ask rfl fun pendingRead hread => ?_
    have hafter : SBody τ .webSocket cfg .writer _ := made_afterWrite at_ hread
    apply (made_quotaRelease _ rfl).bind
    intro _ _
    refine .op rfl fun _ => .op rfl fun _ => .op rfl fun _ => ?_
    show SBody τ .webSocket cfg .writer (if _ then _ else _)
    split
    · exact .op ⟨rfl, .none⟩ fun _ => hafter
    · exact hafter
  | some e =>
    refine .ask rfl fun pendingRead hread => ?_
    have hgives : Gives τ.clean .webSocket .writer .failure
        (writeError cfg e timeoutCause pendingRead) :=
      gives_writeError timeoutCause (fun hc => he hc e rfl) hread
    have hop : Told τ.hands (writeError cfg e timeoutCause pendingRead) :=
      told_writeError e timeoutCause pendingRead
    apply (made_quotaRelease _ rfl).bind
    intro _ _
    refine .op rfl fun _ => .call (p := abort .failure _) (.wsAbort hgives) ?_
    intro won
    refine .op rfl fun _ => (made_failedAck hop req.hasAck won).bind ?_
    intro ackErr hack
    exact made_ackThen rfl fun howed => .some (hack howed)

lemma made_writer (at_ : WriterAt) : SBody τ .webSocket cfg .writer (writer cfg at_) := by
  cases at_ with
  | running =>
    refine .op rfl fun r => ?_
    cases r with
    | popped i req => exact made_handleOutbound _ i req
    | closed ch => cases ch <;> exact .done rfl
    | _ => exact .done rfl
  | graceful =>
    refine .op rfl fun r => ?_
    cases r with
    | popped i req => exact made_handleOutbound _ i req
    | _ => exact .done rfl
  | drain =>
    have hdone : SBody τ .webSocket cfg .writer (do
        signal .writerDrained
        let e ← wsClose
        finishLocalGraceful cfg e
        return .goto .writerExit) :=
      .op rfl fun _ => .ask rfl fun e he =>
        .call (p := finishLocalGraceful cfg e) (.wsFinish rfl he) fun _ => .done rfl
    refine .op rfl fun r => ?_
    cases r with
    | popped i req => exact made_handleOutbound _ i req
    | _ => exact hdone

lemma made_failPending {e : Option Err} (he : Told τ.hands e) :
    SBody τ .webSocket cfg .writer (failPending e) := by
  refine .op rfl fun r => ?_
  cases r with
  | popped i req =>
    refine (made_quotaRelease _ rfl).bind fun _ _ => .op rfl fun _ => ?_
    exact made_ackThen ⟨rfl, he⟩ fun _ => he
  | _ => exact .op rfl fun _ => made_endLoop rfl

/-! ### The reader and the other goroutines -/

lemma made_ownClose (e : Err) : SMade τ .webSocket cfg .reader (fun _ => True) (ownClose e) := by
  refine (made_isClosedSignal .fullReq).bind ?_
  rintro (_ | _) -
  · exact .done trivial
  · refine (made_isClosedSignal .aborted).bind ?_
    rintro (_ | _) -
    · show SMade τ .webSocket cfg .reader (fun _ => True) (if _ then _ else _)
      split
      · exact .done trivial
      · exact made_isClosedSignal .writerDrained
    · exact .done trivial

lemma made_idleTimeout (e : Err) :
    SMade τ .webSocket cfg .reader (fun _ => True) (idleTimeout cfg e) := by
  simp only [idleTimeout]
  split
  · refine (made_isClosedSignal .closing).bind ?_
    rintro (_ | _) -
    · exact .done trivial
    · exact .done trivial
  · exact .done trivial

/-- A loop gives up with a cause. -/
lemma made_giveUp {cause : Option Err} (h : Gives τ.clean .webSocket role .failure cause)
    (hloop : role.isLoop = true) :
    SBody τ .webSocket cfg role (do initiateClose cause; endLoop) :=
  (made_initiateClose h).bind fun _ _ => made_endLoop hloop

lemma made_failRead {e : Err} (he : τ.clean → e.hasOperational = false) :
    SBody τ .webSocket cfg .reader (failRead cfg e) := by
  refine (made_idleTimeout e).bind ?_
  rintro (_ | _) -
  · refine .ask rfl ?_
    rintro (_ | cause) hcause
    · refine .op ⟨rfl, he⟩ ?_
      rintro (_ | _)
      · exact made_giveUp
          (.normalized .reader (by decide) fun hc => Bare.normalizeWSError (he hc)) rfl
      · exact made_endLoop rfl
    · exact made_giveUp (.operational .reader (by decide) fun hc => hcause hc cause rfl) rfl
  · exact made_giveUp (.operational .reader (by decide) he) rfl

lemma made_reader : SBody τ .webSocket cfg .reader (reader cfg) := by
  refine .ask rfl ?_
  rintro (e | ⟨text, payload⟩) he
  · refine (made_ownClose e).bind ?_
    rintro (_ | _) -
    · exact made_failRead he
    · exact .op rfl fun _ => made_endLoop rfl
  · refine .ask rfl ?_
    rintro (e | msg) he
    · exact .op rfl fun _ => made_giveUp (.operational .reader (by decide) he) rfl
    · exact .op rfl fun _ => .op rfl fun _ => .op rfl fun _ => .op rfl fun _ =>
        made_unlessClosing rfl (.done rfl)

lemma made_pingLoop : SBody τ .webSocket cfg .pinger (pingLoop cfg) := by
  refine .op rfl fun r => ?_
  cases r with
  | timer timeout =>
    refine .ask rfl ?_
    rintro (_ | e) he
    · exact .done rfl
    · exact made_giveUp (.operational .pinger (by decide) fun hc => he hc e rfl) rfl
  | _ => exact made_endLoop rfl

lemma made_watchdog : SBody τ .webSocket cfg .watchdog (watchdog cfg) := by
  refine .op rfl fun r => ?_
  cases r with
  | timer timeout => exact made_giveUp (.operational .watchdog (by decide) fun _ => rfl) rfl
  | _ => exact made_endLoop rfl

lemma made_sender {l : SLabel} (hl : l₀.Follows τ cfg l) (hrole : l.role = .sender) :
    SSend τ .webSocket cfg l₀ (body cfg l) := by
  cases l with
  | send o msg =>
    obtain rfl := hl
    exact made_send o msg
  | trySend msg =>
    obtain rfl := hl
    exact made_trySend msg
  | sendTo o target data | trySendTo target data => exact .done trivial
  | acquireLocal a => exact made_acquireLocal hl.2
  | acquireGlobal a => exact made_acquireGlobal hl.2
  | _ => cases hrole

lemma made_body (l : SLabel) (hl : l.role.Stays τ (.goto l)) (hrole : l.role ≠ .sender) :
    SBody τ .webSocket cfg l.role (body cfg l) := by
  cases l with
  | send | trySend | sendTo | trySendTo | acquireLocal | acquireGlobal => exact absurd rfl hrole
  | shutdown ctx => exact made_shutdown ctx
  | close => exact made_close
  | requestShutdown => exact made_requestShutdown.bind fun _ _ => made_return nofun
  | writerLoop => exact .done rfl
  | writer at_ => exact made_writer at_
  | writerExit =>
    exact .op rfl fun _ => made_closedError.bind fun _ he => .done ⟨rfl, .some he⟩
  | failPending e => exact made_failPending hl.2
  | readerLoop => exact .op rfl fun _ => .op rfl fun _ => made_unlessClosing rfl (.done rfl)
  | reader pending => exact made_reader
  | pingLoop => exact made_pingLoop
  | watchdog => exact made_watchdog
  | watchCloseTimeout => exact made_watchCloseTimeout
  | finalizer =>
    exact .op rfl fun _ => .call (p := finalize) (.wsFinalize rfl) fun _ => made_return nofun
  | _ => exact made_return fun _ => rfl

end WebSocket

end Ogrenet
