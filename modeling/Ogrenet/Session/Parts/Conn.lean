import Ogrenet.Session.Parts.Basic

/-!
# What the programs of a stream session are made of
-/

namespace Ogrenet

open Interleaving Interleaving.Prog Ses

namespace Conn

variable {τ : Terms} {cfg : SessionConfig} {role : Role} {l₀ : SLabel} {ctx : ℕ}

/-! ### Senders -/

lemma made_failSend (hctx : l₀.Under cfg ctx) (e : Err) :
    SSend τ .conn cfg l₀ (failSend cfg ctx e) := by
  refine .ask rfl ?_
  rintro (_ | cause) hcause
  · exact made_leave .classified
  · exact made_leave (.cause hctx (hcause _ rfl))

lemma made_failPrepared (hctx : l₀.Under cfg ctx) (e : Err) :
    SSend τ .conn cfg l₀ (failPrepared cfg ctx e) :=
  .op rfl fun _ => .op rfl fun _ => made_failSend hctx e

lemma made_awaitAck (hctx : l₀.Under cfg ctx) (i : ℕ) :
    SSend τ .conn cfg l₀ (awaitAck cfg ctx i) := by
  refine .ask rfl fun r hr => ?_
  cases r with
  | acked v => exact made_leave (.told hr)
  | ctxDone cause => exact made_leave (.cause hctx (hr _ (by simp)))
  | _ =>
    refine .ask rfl fun r hr => ?_
    cases r with
    | acked v => exact made_leave (.told hr)
    | _ =>
      refine .ask rfl ?_
      rintro (_ | cause) hcause
      · refine .ask rfl ?_
        rintro (_ | terminal) hterm
        · exact made_leave .classified
        · exact made_leave (.told hterm)
      · exact made_leave (.cause hctx (hcause _ rfl))

lemma made_enqueue {a : Sending} (hctx : l₀.Under cfg a.ctx) :
    SSend τ .conn cfg l₀ (enqueue cfg a) := by
  refine .ask rfl fun r hr => ?_
  cases r with
  | pushed i => exact made_awaitAck hctx i
  | ctxDone cause =>
    refine (made_quotaRelease _ rfl).bind fun _ _ => .op rfl fun _ => ?_
    exact made_leave (.cause hctx (hr _ (by simp)))
  | _ =>
    refine (made_quotaRelease _ rfl).bind fun _ _ => .op rfl fun _ => .ask rfl ?_
    rintro (_ | cause) hcause
    · exact made_leave .classified
    · exact made_leave (.cause hctx (hcause _ rfl))

lemma made_acquireLocal {a : Sending} (hctx : l₀.Under cfg a.ctx) :
    SSend τ .conn cfg l₀ (acquireLocal cfg a) := by
  refine .op rfl ?_
  rintro (_ | g)
  · show SSend τ .conn cfg l₀ (if _ then _ else _)
    split
    · exact .op rfl fun _ => made_enqueue hctx
    · split
      · exact .op rfl fun _ => made_failPrepared hctx _
      · exact .done hctx
  · refine .op rfl fun r => ?_
    cases r with
    | changed => exact .done hctx
    | _ => exact made_failPrepared hctx _

lemma made_acquireGlobal {a : Sending} (hctx : l₀.Under cfg a.ctx) :
    SSend τ .conn cfg l₀ (acquireGlobal cfg a) := by
  refine .op rfl ?_
  rintro (_ | g)
  · exact .op rfl fun _ => made_enqueue hctx
  · refine .op rfl fun r => ?_
    cases r with
    | changed => exact .done hctx
    | _ => exact .op rfl fun _ => made_failPrepared hctx _

lemma made_acquireFrameSlot (ctx : ℕ) :
    SMade τ .conn cfg .sender (fun _ => True) (acquireFrameSlot ctx) :=
  .op rfl fun r => by cases r <;> exact .done trivial

lemma made_tryAcquireFrameSlot : SMade τ .conn cfg .sender (fun _ => True) tryAcquireFrameSlot :=
  .op rfl fun r => by cases r <;> exact .done trivial

lemma made_checkEncoder : SMade τ .conn cfg .sender (fun _ => True) checkEncoder := by
  refine (made_isClosedSignal .closing).bind ?_
  rintro (_ | _) -
  · exact .done trivial
  · exact .op rfl fun _ => .done trivial

lemma made_acquireEncoder (ctx : ℕ) :
    SMade τ .conn cfg .sender (fun _ => True) (acquireEncoder ctx) := by
  refine .op rfl fun r => ?_
  cases r with
  | encoder => exact made_checkEncoder
  | _ => exact .done trivial

lemma made_tryAcquireEncoder : SMade τ .conn cfg .sender (fun _ => True) tryAcquireEncoder := by
  refine .op rfl fun r => ?_
  cases r with
  | encoder => exact made_checkEncoder
  | _ => exact .done trivial

lemma made_send (o : Option ℕ) (msg : Message) :
    SSend τ .conn cfg (.send o msg) (send cfg o msg) := by
  cases o with
  | none => exact .done (.vacuous nofun)
  | some ctx =>
    have hctx : (SLabel.send (some ctx) msg).Under cfg ctx := fun _ => rfl
    refine .ask rfl ?_
    rintro (_ | cause) hcause
    · refine .op rfl ?_
      rintro (_ | _)
      · exact .done .classified
      · cases hv : msg.validate with
        | error e => exact made_leave (.vacuous fun hs => by rw [hs.2] at hv; cases hv)
        | ok _ =>
          refine (made_acquireFrameSlot ctx).bind ?_
          rintro (_ | e) -
          · refine (made_acquireEncoder ctx).bind ?_
            rintro (_ | e) -
            · refine .op rfl ?_
              rintro (e | frame)
              · exact made_failPrepared hctx _
              · show SSend τ .conn cfg _ (if _ then _ else _)
                split
                · exact made_failPrepared hctx _
                · exact .done hctx
            · exact .op rfl fun _ => made_failSend hctx _
          · exact made_failSend hctx _
    · exact .done (Returns.cause hctx (hcause _ rfl))

lemma made_failTrySend (e : Err) : SSend τ .conn cfg l₀ (failTrySend cfg e) := by
  simp only [failTrySend]
  split
  · exact .op rfl fun _ => made_leave .classified
  · exact made_leave .classified

lemma made_tryEnqueue (req : Request) : SSend τ .conn cfg l₀ (tryEnqueue cfg req) := by
  refine .op rfl fun r => ?_
  cases r with
  | pushed i => exact made_leave (.told .none)
  | default =>
    refine (made_quotaRelease _ rfl).bind fun _ _ => .op rfl fun _ => .op rfl fun _ => ?_
    exact made_leave .classified
  | _ =>
    refine (made_quotaRelease _ rfl).bind fun _ _ => .op rfl fun _ => ?_
    exact made_leave .classified

lemma made_trySend (msg : Message) :
    SSend τ .conn cfg (.trySend msg) (trySend cfg msg) := by
  refine .op rfl ?_
  rintro (_ | _)
  · exact .done .classified
  · cases hv : msg.validate with
    | error e =>
      exact made_leave (.vacuous fun (hs : msg.validate = .ok ()) => by rw [hs] at hv; cases hv)
    | ok _ =>
      refine made_tryAcquireFrameSlot.bind ?_
      rintro (_ | e) -
      · refine made_tryAcquireEncoder.bind ?_
        rintro (_ | e) -
        · refine .op rfl ?_
          rintro (e | frame)
          · exact .op rfl fun _ => .op rfl fun _ => made_failTrySend e
          · refine (made_tryAcquireQuota frame.length).bind ?_
            rintro (_ | e) -
            · exact .op rfl fun _ => made_tryEnqueue _
            · exact .op rfl fun _ => .op rfl fun _ => made_failTrySend e
        · exact .op rfl fun _ => made_failTrySend e
      · exact made_failTrySend e

/-! ### Closers -/

lemma made_initiateClose {cause : Option Err} (h : Gives τ.clean .conn role .failure cause) :
    SMade τ .conn cfg role (fun _ => True) (initiateClose cause) :=
  .call (.connAbort h) fun _ => .done trivial

lemma made_lifecycleResult : SMade τ .conn cfg role (fun _ => True) lifecycleResult := by
  refine .op rfl ?_
  rintro (_ | e)
  · exact .op rfl fun r => by cases r <;> exact .done trivial
  · exact .done trivial

lemma made_requestWriteClose : SMade τ .conn cfg role (fun _ => True) requestWriteClose := by
  refine (made_requestWithPrevious .write).bind ?_
  rintro ⟨_ | _, previous⟩ -
  · exact .done trivial
  · exact .op rfl fun _ => .done trivial

lemma made_requestShutdown : SMade τ .conn cfg role (fun _ => True) requestShutdown := by
  refine (made_requestWithPrevious .full).bind ?_
  rintro ⟨_ | _, previous⟩ -
  · exact .done trivial
  · exact .op rfl fun _ => .done trivial

lemma made_callerDone (cause : Err) (owner : Bool) :
    SBody τ .conn cfg .waiter (callerDone cause owner) := by
  cases owner with
  | false => exact made_return nofun
  | true =>
    exact .call (p := abort .caller none) (.connAbort .waiter) fun _ => made_return nofun

lemma made_result : SBody τ .conn cfg .waiter (do returnErr (← lifecycleResult)) :=
  made_lifecycleResult.bind fun _ _ => made_return nofun

lemma made_closeWrite (ctx : Option ℕ) :
    SBody τ .conn cfg .waiter (closeWrite ctx) := by
  cases ctx with
  | none => exact made_return nofun
  | some ctx =>
    refine .op rfl ?_
    rintro (_ | cause)
    · refine made_requestWriteClose.bind fun owner _ => .op rfl fun r => ?_
      cases r with
      | ctxDone cause => exact made_callerDone cause owner
      | _ => exact made_result
    · exact made_return nofun

lemma made_shutdown (ctx : Option ℕ) :
    SBody τ .conn cfg .waiter (shutdown ctx) := by
  cases ctx with
  | none => exact made_return nofun
  | some ctx =>
    refine .op rfl ?_
    rintro (_ | cause)
    · refine made_requestShutdown.bind ?_
      rintro ⟨owner, ownsWrite⟩ -
      refine .op rfl fun r => ?_
      cases r with
      | ctxDone cause => exact made_callerDone cause _
      | closed ch =>
        cases ch with
        | writeDone =>
          refine .op rfl fun r => ?_
          cases r with
          | ctxDone cause => exact made_callerDone cause owner
          | _ => exact made_result
        | _ => exact made_result
      | _ => exact made_result
    · exact made_return nofun

lemma made_close : SBody τ .conn cfg .closer close := by
  refine (made_isClosedSignal .done).bind ?_
  rintro (_ | _) -
  · exact .call (p := abort .explicit none) (.connAbort .closer) fun _ => made_return nofun
  · exact made_return nofun

/-! ### The writer -/

lemma made_finishOutbound (at_ : WriterAt) (i : ℕ) (req : Request) {result : Option Err}
    (hresult : τ.clean → Bare result) :
    SBody τ .conn cfg .writer (finishOutbound cfg at_ i req result) := by
  refine .op rfl fun _ => (made_quotaRelease _ rfl).bind fun _ _ => .op rfl fun _ => ?_
  cases result with
  | none => exact .op rfl fun _ => .op rfl fun _ => made_ackThen rfl fun _ => .none
  | some e =>
    have hgives : Gives τ.clean .conn .writer .failure
        (some (operationalError cfg .write e .none)) :=
      .operational .writer (by decide) fun hc => hresult hc e rfl
    refine .call (p := abort .failure _) (.connAbort hgives) ?_
    rintro (_ | _)
    · refine .ask rfl ?_
      rintro (_ | terminal) ⟨hterm, hclosed⟩
      · exact made_ackThen rfl fun howed => .some (hclosed howed rfl)
      · exact made_ackThen rfl fun _ => hterm
    · exact made_ackThen rfl fun _ => .classified

lemma made_finishWrite (at_ : WriterAt) (i : ℕ) (req : Request) {e : Option Err}
    (he : τ.clean → Bare e) :
    SBody τ .conn cfg .writer (finishWrite cfg at_ i req e) := by
  refine .ask rfl fun clearErr hclear => ?_
  cases e with
  | some e =>
    exact made_finishOutbound at_ i req fun hc => Bare.writeFailure (he hc e rfl)
  | none =>
    cases clearErr with
    | none => exact made_finishOutbound at_ i req fun _ => nofun
    | some e => exact made_finishOutbound at_ i req fun hc => Bare.of_eq (hclear hc e rfl)

lemma made_handleOutbound (at_ : WriterAt) (i : ℕ) (req : Request) :
    SBody τ .conn cfg .writer (handleOutbound cfg at_ i req) := by
  refine .ask rfl ?_
  rintro (_ | e) he
  · exact .done rfl
  · exact made_finishOutbound at_ i req fun hc => Bare.of_eq (he hc e rfl)

lemma made_writing (at_ : WriterAt) (i : ℕ) (req : Request) (rest : Bytes) :
    SBody τ .conn cfg .writer (writing cfg at_ i req rest) := by
  simp only [writing]
  split
  · exact made_finishWrite at_ i req fun _ => nofun
  · refine .ask rfl ?_
    rintro ⟨n, _ | e⟩ he
    · show SBody τ .conn cfg .writer (if _ then _ else _)
      split
      · exact made_finishWrite at_ i req fun _ => Bare.of_eq rfl
      · exact .done rfl
    · exact made_finishWrite at_ i req he

lemma made_closeProtocolWrite :
    SMade τ .conn cfg .writer (fun e => τ.clean → Bare e) (closeProtocolWrite cfg) := by
  simp only [closeProtocolWrite]
  split
  · refine .ask rfl ?_
    rintro (_ | e) he
    · refine .ask rfl fun e he => .ask rfl fun clearErr hclear => ?_
      cases e with
      | some e => exact .done fun hc => Bare.writeFailure (he hc e rfl)
      | none =>
        cases clearErr with
        | none => exact .done fun _ => nofun
        | some e => exact .done fun hc => Bare.of_eq (hclear hc e rfl)
    · exact .done fun hc => Bare.of_eq (he hc e rfl)
  · split
    · exact .ask rfl fun _ he => .done he
    · exact .done fun _ => Bare.of_eq rfl

lemma made_writer (at_ : WriterAt) :
    SBody τ .conn cfg .writer (writer cfg at_) := by
  cases at_ with
  | running =>
    refine .op rfl fun r => ?_
    cases r with
    | popped i req => exact made_handleOutbound _ i req
    | closed ch => cases ch <;> exact .done rfl
    | _ => exact .done rfl
  | graceful =>
    refine .op rfl fun r => ?_
    cases r with
    | popped i req => exact made_handleOutbound _ i req
    | _ => exact .done rfl
  | drain =>
    refine .op rfl fun r => ?_
    cases r with
    | popped i req => exact made_handleOutbound _ i req
    | _ =>
      refine made_closeProtocolWrite.bind ?_
      rintro (_ | e) he
      · refine .op rfl fun _ => .op rfl fun _ => ?_
        exact .call (p := maybeFinishGraceful) (.connFinish (.inl rfl)) fun _ => .done rfl
      · refine (made_initiateClose (Gives.operational .writer (by decide) ?_)).bind
          fun _ _ => .done rfl
        exact fun hc => he hc e rfl

lemma made_failPending {e : Option Err} (he : Told τ.hands e) :
    SBody τ .conn cfg .writer (failPending e) := by
  refine .op rfl fun r => ?_
  cases r with
  | popped i req =>
    refine (made_quotaRelease _ rfl).bind fun _ _ => .op rfl fun _ => ?_
    exact made_ackThen ⟨rfl, he⟩ fun _ => he
  | _ => exact .op rfl fun _ => made_endLoop rfl

/-! ### The reader and the other goroutines -/

lemma made_failRead {cause : Err} (hint : ClassifyHint)
    (hcause : τ.clean → cause.hasOperational = false) :
    SBody τ .conn cfg .reader (failRead cfg cause hint) :=
  (made_initiateClose (Gives.operational .reader (by decide) hcause)).bind
    fun _ _ => made_endLoop rfl

lemma made_readerTail (pending : Bytes) {readErr : Option Err} (hread : τ.clean → Bare readErr) :
    SBody τ .conn cfg .reader (readerTail cfg pending readErr) := by
  cases readErr with
  | none => exact made_unlessClosing rfl (.done rfl)
  | some readErr =>
    refine made_unlessClosing rfl ?_
    split
    · exact made_failRead _ fun hc => hread hc readErr rfl
    · split
      · rename_i e he
        exact made_failRead _ fun hc => Bare.normalizeConnError (hread hc readErr rfl) e he
      · exact .op rfl fun _ =>
          .call (p := maybeFinishGraceful) (.connFinish (.inr rfl)) fun _ => made_endLoop rfl

lemma made_readerGot (pending data : Bytes) {readErr : Option Err}
    (hread : τ.clean → Bare readErr) :
    SBody τ .conn cfg .reader (readerGot cfg pending data readErr) := by
  simp only [readerGot]
  split
  · exact made_readerTail _ hread
  · exact .done ⟨rfl, fun hc => (hread hc).unlessTimeout⟩

lemma made_reader (pending : Bytes) :
    SBody τ .conn cfg .reader (reader cfg pending) := by
  simp only [reader]
  split
  · refine .ask rfl ?_
    rintro (_ | e) he
    · refine .ask rfl ?_
      rintro ⟨data, readErr⟩ hread
      refine .ask rfl fun clearErr hclear => ?_
      cases clearErr with
      | none => exact made_readerGot pending data hread
      | some e =>
        cases readErr with
        | none => exact made_failRead _ fun hc => hclear hc e rfl
        | some e' => exact made_readerGot pending data hread
    · exact made_failRead _ fun hc => he hc e rfl
  · exact .ask rfl fun r hread => made_readerGot pending r.1 hread

lemma made_afterDecode (pending : Bytes) (consumed : ℕ) {readErr : Option Err}
    (hread : τ.clean → Bare readErr) :
    SBody τ .conn cfg .reader (afterDecode cfg pending consumed readErr) := by
  simp only [afterDecode]
  split
  · exact .op rfl fun _ => made_failRead _ fun _ => rfl
  · exact made_readerTail _ hread

lemma made_decoding (pending : Bytes) (consumed : ℕ) {readErr : Option Err}
    (hread : τ.clean → Bare readErr) :
    SBody τ .conn cfg .reader (decoding cfg pending consumed readErr) := by
  simp only [decoding]
  split
  · refine .ask rfl ?_
    rintro (e | ⟨msg, k⟩) he
    · show SBody τ .conn cfg .reader (if _ then _ else _)
      split
      · exact made_afterDecode _ _ hread
      · exact .op rfl fun _ => made_failRead _ he
    · show SBody τ .conn cfg .reader (if _ then _ else _)
      split
      · exact .op rfl fun _ => made_failRead _ fun _ => rfl
      · cases msg.validate with
        | error e => exact .op rfl fun _ => made_failRead _ fun _ => Err.ofMessage_bare e
        | ok _ =>
          exact .op rfl fun _ => .op rfl fun _ => .op rfl fun _ =>
            .op rfl fun _ => made_unlessClosing rfl (.done ⟨rfl, hread⟩)
  · exact made_afterDecode _ _ hread

lemma made_watchdog : SBody τ .conn cfg .watchdog watchdog := by
  refine .op rfl fun r => ?_
  cases r with
  | timer timeout =>
    exact (made_initiateClose (.timedOut timeout)).bind fun _ _ => made_endLoop rfl
  | _ => exact made_endLoop rfl

lemma made_sender {l : SLabel} (hl : l₀.Follows τ cfg l) (hrole : l.role = .sender) :
    SSend τ .conn cfg l₀ (body cfg l) := by
  cases l with
  | send o msg =>
    obtain rfl := hl
    exact made_send o msg
  | trySend msg =>
    obtain rfl := hl
    exact made_trySend msg
  | sendTo o target data | trySendTo target data => exact .done trivial
  | acquireLocal a => exact made_acquireLocal hl.2
  | acquireGlobal a => exact made_acquireGlobal hl.2
  | _ => cases hrole

lemma made_body (l : SLabel) (hl : l.role.Stays τ (.goto l)) (hrole : l.role ≠ .sender) :
    SBody τ .conn cfg l.role (body cfg l) := by
  cases l with
  | send | trySend | sendTo | trySendTo | acquireLocal | acquireGlobal => exact absurd rfl hrole
  | closeWrite ctx => exact made_closeWrite ctx
  | shutdown ctx => exact made_shutdown ctx
  | close => exact made_close
  | requestShutdown => exact made_requestShutdown.bind fun _ _ => made_return nofun
  | writerLoop => exact .done rfl
  | writer at_ => exact made_writer at_
  | writing at_ i req rest => exact made_writing at_ i req rest
  | writerExit => exact .op rfl fun _ => .done ⟨rfl, .classified⟩
  | failPending e => exact made_failPending hl.2
  | readerLoop =>
    exact .op rfl fun _ => .op rfl fun _ => made_unlessClosing rfl (.done rfl)
  | reader pending => exact made_reader pending
  | decoding pending consumed readErr => exact made_decoding pending consumed hl.2
  | watchdog => exact made_watchdog
  | finalizer =>
    exact .op rfl fun _ => .call (p := finalize) (.connFinalize rfl) fun _ => made_return nofun
  | _ => exact made_return fun _ => rfl

end Conn

end Ogrenet
