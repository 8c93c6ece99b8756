import Ogrenet.Session.Parts.Conn
import Ogrenet.Session.Parts.WebSocket

/-!
# What the programs of a packet connection are made of
-/

namespace Ogrenet

open Interleaving Interleaving.Prog Ses

namespace Packet

variable {τ : Terms} {cfg : SessionConfig} {role : Role} {l₀ : SLabel} {ctx : ℕ}

/-! ### Senders -/

lemma made_sendError (e : Err) (peer : Option String) :
    SMade τ .packet cfg .sender (fun e => τ.hands e ∨ τ.causes ctx e)
      (sendError cfg ctx e peer) := by
  refine .ask rfl ?_
  rintro (_ | cause) hcause
  · exact .done (.inl (τ.typed _ classifyOperational_classified.hasOperational))
  · exact .done (.inr (hcause _ rfl))

lemma made_failSend (hctx : l₀.Under cfg ctx) (e : Err) (peer : Option String) :
    SSend τ .packet cfg l₀ (failSend cfg ctx e peer) :=
  (made_sendError e peer).bind fun _ he => made_leave (.sendError hctx he)

lemma made_failHeld {a : Sending} (hctx : l₀.Under cfg a.ctx) (e : Err) :
    SSend τ .packet cfg l₀ (failHeld cfg a e) :=
  (made_sendError e a.peer).bind fun _ he => .op rfl fun _ => made_leave (.sendError hctx he)

lemma made_closedError (peer : Option String) :
    SMade τ .packet cfg role τ.hands (closedError cfg peer) := by
  refine .ask rfl ?_
  rintro (_ | terminal) hterm
  · exact .done (τ.typed _ classifyOperational_classified.hasOperational)
  · exact .done (hterm _ rfl)

/-- A send finds the connection closed. -/
lemma made_closed (peer : Option String) : SSend τ .packet cfg l₀ (do
    let e ← closedError cfg peer
    gateLeave
    returnErr (some e)) :=
  (made_closedError peer).bind fun _ he => made_leave (.told (.some he))

/-- The same, unless its context is done. -/
lemma made_causeOrClosed (hctx : l₀.Under cfg ctx) (peer : Option String) :
    SSend τ .packet cfg l₀ (do
      match ← ctxCause ctx with
      | some cause =>
        gateLeave
        returnErr (some cause)
      | none =>
        let e ← closedError cfg peer
        gateLeave
        returnErr (some e)) := by
  refine .ask rfl ?_
  rintro (_ | cause) hcause
  · exact made_closed peer
  · exact made_leave (.cause hctx (hcause _ rfl))

lemma made_awaitAck {a : Sending} (hctx : l₀.Under cfg a.ctx) (i : ℕ) :
    SSend τ .packet cfg l₀ (awaitAck cfg a i) := by
  refine .ask rfl fun r hr => ?_
  cases r with
  | acked v => exact made_leave (.told hr)
  | ctxDone cause => exact made_leave (.cause hctx (hr _ (by simp)))
  | _ =>
    refine .ask rfl fun r hr => ?_
    cases r with
    | acked v => exact made_leave (.told hr)
    | _ => exact made_causeOrClosed hctx a.peer

lemma made_enqueue {a : Sending} (hctx : l₀.Under cfg a.ctx) :
    SSend τ .packet cfg l₀ (enqueue cfg a) := by
  refine .ask rfl fun r hr => ?_
  cases r with
  | pushed i => exact made_awaitAck hctx i
  | ctxDone cause =>
    refine (made_quotaRelease _ rfl).bind fun _ _ => .op rfl fun _ => ?_
    exact made_leave (.cause hctx (hr _ (by simp)))
  | _ =>
    refine (made_quotaRelease _ rfl).bind fun _ _ => .op rfl fun _ => ?_
    exact made_causeOrClosed hctx a.peer

lemma made_acquireLocal {a : Sending} (hctx : l₀.Under cfg a.ctx) :
    SSend τ .packet cfg l₀ (acquireLocal cfg a) := by
  refine .op rfl ?_
  rintro (_ | g)
  · show SSend τ .packet cfg l₀ (if _ then _ else _)
    split
    · exact made_enqueue hctx
    · split
      · exact .op rfl fun _ => made_failHeld hctx _
      · exact .done hctx
  · refine .op rfl fun r => ?_
    cases r with
    | changed => exact .done hctx
    | _ => exact made_failHeld hctx _

lemma made_acquireGlobal {a : Sending} (hctx : l₀.Under cfg a.ctx) :
    SSend τ .packet cfg l₀ (acquireGlobal cfg a) := by
  refine .op rfl ?_
  rintro (_ | g)
  · exact made_enqueue hctx
  · refine .op rfl fun r => ?_
    cases r with
    | changed => exact .done hctx
    | _ => exact .op rfl fun _ => made_failHeld hctx _

lemma made_acquireSlot (ctx : ℕ) :
    SMade τ .packet cfg .sender (fun _ => True) (acquireSlot ctx) :=
  .op rfl fun r => by cases r <;> exact .done trivial

lemma made_tryAcquireSlot : SMade τ .packet cfg .sender (fun _ => True) tryAcquireSlot :=
  .op rfl fun r => by cases r <;> exact .done trivial

/-- A valid peer is refused only with the envelope, unless the call should have named one. -/
lemma Returns.resolvePeer {target : Peer} {e : Err} (h : Packet.resolvePeer cfg target = .error e)
    (hs : l₀.Served cfg → target.Valid cfg ∧ (target = .unnamed → cfg.connected = true)) :
    Returns τ cfg l₀ (some e) := by
  intro hserved
  obtain ⟨hvalid, hnamed⟩ := hs hserved
  have hmatch : ∀ addr, (cfg.connected = true → cfg.site.remoteAddr = some addr) →
      matchRemote cfg addr ≠ .error e := fun addr haddr h => by
    simp only [matchRemote] at h
    split at h
    · rename_i hconn
      rw [if_pos (haddr hconn)] at h
      cases h
    · cases h
  cases target with
  | unnamed =>
    simp only [Packet.resolvePeer, hnamed rfl, if_true] at h
    cases h
  | missing => exact hvalid.elim
  | udp addr => exact absurd h (hmatch addr hvalid)
  | other resolved =>
    cases resolved with
    | ok addr => exact absurd h (hmatch addr hvalid)
    | error e' =>
      cases h
      exact Returns.classified hserved

lemma made_send (o : Option ℕ) (target : Peer) (peer : Option String) (data : Bytes) :
    SSend τ .packet cfg (.sendTo o target data) (send cfg o peer data) := by
  cases o with
  | none => exact .done (.vacuous nofun)
  | some ctx =>
    have hctx : (SLabel.sendTo (some ctx) target data).Under cfg ctx := fun _ => rfl
    refine .ask rfl ?_
    rintro (_ | cause) hcause
    · refine .op rfl ?_
      rintro (_ | _)
      · exact .done .classified
      · show SSend τ .packet cfg _ (if _ then _ else _)
        split
        · exact made_leave .classified
        · refine (made_acquireSlot ctx).bind ?_
          rintro (_ | e) -
          · show SSend τ .packet cfg _ (if _ then _ else _)
            split
            · exact made_failHeld hctx _
            · exact .done hctx
          · exact made_failSend hctx _ _
    · exact .done (Returns.cause hctx (hcause _ rfl))

lemma made_sendTo (o : Option ℕ) (target : Peer) (data : Bytes) :
    SSend τ .packet cfg (.sendTo o target data) (sendTo cfg o target data) := by
  rw [sendTo]
  split
  · refine .done (Returns.resolvePeer ‹_› fun hs => ⟨hs.1.2, ?_⟩)
    rintro rfl
    exact Bool.eq_true_of_not_eq_false hs.2
  · exact made_send o target _ data

lemma made_failTrySend (held : Bool) (e : Err) (peer : Option String) :
    SSend τ .packet cfg l₀ (failTrySend cfg held e peer) := by
  have hheld : SSend τ .packet cfg l₀ (do
      if held then releaseSlot
      gateLeave
      returnErr (some (operationalError cfg .send e peer))) := by
    cases held with
    | false => exact made_leave .classified
    | true => exact .op rfl fun _ => made_leave .classified
  simp only [failTrySend]
  split
  · exact .op rfl fun _ => hheld
  · exact hheld

lemma made_tryEnqueue (req : Request) : SSend τ .packet cfg l₀ (tryEnqueue cfg req) := by
  refine .op rfl fun r => ?_
  cases r with
  | pushed i => exact made_leave (.told .none)
  | default =>
    refine (made_quotaRelease _ rfl).bind fun _ _ => .op rfl fun _ => ?_
    exact made_failTrySend false (.sentinel .wouldBlock) req.peer
  | _ => exact (made_quotaRelease _ rfl).bind fun _ _ => .op rfl fun _ => made_closed req.peer

lemma made_trySend (peer : Option String) (data : Bytes) :
    SSend τ .packet cfg l₀ (trySend cfg peer data) := by
  refine .op rfl ?_
  rintro (_ | _)
  · exact .done .classified
  · show SSend τ .packet cfg _ (if _ then _ else _)
    split
    · exact made_leave .classified
    · refine made_tryAcquireSlot.bind ?_
      rintro (_ | e) -
      · refine (made_tryAcquireQuota data.length).bind ?_
        rintro (_ | e) -
        · exact made_tryEnqueue _
        · exact made_failTrySend _ _ _
      · exact made_failTrySend _ _ _

lemma made_trySendTo (target : Peer) (data : Bytes) :
    SSend τ .packet cfg (.trySendTo target data) (trySendTo cfg target data) := by
  rw [trySendTo]
  split
  · refine .done (Returns.resolvePeer ‹_› fun hs => ⟨hs.1, ?_⟩)
    rintro rfl
    exact Bool.eq_true_of_not_eq_false hs.2
  · exact made_trySend _ data

/-! ### Closers and the writer -/

lemma made_requestDrain : SMade τ .packet cfg role (fun _ => True) requestDrain := by
  refine .op rfl ?_
  rintro (_ | _)
  · exact .done trivial
  · exact .op rfl fun _ => .op rfl fun _ => .op rfl fun _ => .done trivial

lemma made_writeDatagram (req : Request) :
    SMade τ .packet cfg .writer (fun e => τ.clean → Bare e) (writeDatagram req) := by
  refine .ask rfl ?_
  rintro (_ | e) he
  · refine .ask rfl fun e he => .ask rfl fun clearErr hclear => ?_
    cases e with
    | some e => exact .done fun hc => Bare.writeFailure (he hc e rfl)
    | none =>
      cases clearErr with
      | none => exact .done fun _ => nofun
      | some e => exact .done fun hc => Bare.of_eq (hclear hc e rfl)
  · exact .done fun hc => Bare.of_eq (he hc e rfl)

lemma made_handleOutbound (at_ : WriterAt) (i : ℕ) (req : Request) :
    SBody τ .packet cfg .writer (handleOutbound cfg at_ i req) := by
  refine (made_writeDatagram req).bind fun e he => .op rfl fun _ =>
    (made_quotaRelease _ rfl).bind fun _ _ => .op rfl fun _ => ?_
  cases e with
  | none => exact .op rfl fun _ => .op rfl fun _ => made_ackThen rfl fun _ => .none
  | some e =>
    have hgives : Gives τ.clean .packet .writer .failure
        (some (operationalError cfg .write e req.peer)) :=
      .operational .writer (by decide) fun hc => he hc e rfl
    refine .call (p := initiateClose _) (.packetClose hgives) fun _ => ?_
    exact (made_closedError req.peer).bind fun _ he => made_ackThen rfl fun _ => .some he

lemma made_writer (at_ : WriterAt) : SBody τ .packet cfg .writer (writer cfg at_) := by
  cases at_ with
  | running =>
    refine .op rfl fun r => ?_
    cases r with
    | popped i req => exact made_handleOutbound _ i req
    | closed ch => cases ch <;> exact .done rfl
    | _ => exact .done rfl
  | graceful =>
    refine .op rfl fun r => ?_
    cases r with
    | popped i req => exact made_handleOutbound _ i req
    | _ => exact .done rfl
  | drain =>
    have hdone : SBody τ .packet cfg .writer (do
        initiateClose none
        return .goto .writerExit) :=
      .call (p := initiateClose none) (.packetClose (.noCause nofun)) fun _ => .done rfl
    refine .op rfl fun r => ?_
    cases r with
    | popped i req => exact made_handleOutbound _ i req
    | _ => exact hdone

lemma made_failPending : SBody τ .packet cfg .writer (failPending cfg) := by
  refine .op rfl fun r => ?_
  cases r with
  | popped i req =>
    refine (made_quotaRelease _ rfl).bind fun _ _ => .op rfl fun _ => ?_
    show SBody τ .packet cfg .writer (if _ then _ else _)
    split
    · exact (made_closedError req.peer).bind fun _ he => .op ⟨rfl, .some he⟩ fun _ =>
        .done ⟨rfl, .none⟩
    · exact .done ⟨rfl, .none⟩
  | _ => exact made_endLoop rfl

/-! ### The reader and the other goroutines -/

lemma made_failRead {cause : Option Err} (hcause : τ.clean → Bare cause) :
    SBody τ .packet cfg .reader (failRead cfg cause) :=
  .call (p := initiateClose _) (.packetClose (.normalized .reader (by decide) hcause))
    fun _ => made_endLoop rfl

lemma made_readerGot (data : Bytes) {e : Option Err} (he : τ.clean → Bare e) :
    SBody τ .packet cfg .reader (readerGot cfg data e) := by
  cases e with
  | some e =>
    refine made_unlessClosing rfl ?_
    split
    · exact made_failRead fun hc => Bare.of_eq (he hc e rfl)
    · exact made_failRead fun hc => Bare.normalizePacketError (he hc e rfl)
  | none =>
    simp only [readerGot]
    split
    · exact .op rfl fun _ => .done rfl
    · exact .op rfl fun _ => .op rfl fun _ => .op rfl fun _ => .op rfl fun _ =>
        made_unlessClosing rfl (.done rfl)

lemma made_reader : SBody τ .packet cfg .reader (reader cfg) := by
  simp only [reader]
  split
  · refine .ask rfl ?_
    rintro (_ | e) he
    · refine .ask rfl ?_
      rintro ⟨data, e⟩ he
      refine .ask rfl fun clearErr hclear => ?_
      cases clearErr with
      | none => exact made_readerGot data he
      | some c =>
        cases e with
        | none => exact made_failRead fun hc => Bare.of_eq (hclear hc c rfl)
        | some e => exact made_readerGot data he
    · exact made_failRead fun hc => Bare.of_eq (he hc e rfl)
  · exact .ask rfl fun r hr => made_readerGot r.1 hr

lemma made_watchdog : SBody τ .packet cfg .watchdog (watchdog cfg) := by
  refine .op rfl fun r => ?_
  cases r with
  | timer timeout =>
    have hgives : Gives τ.clean .packet .watchdog .failure
        (some (operationalError cfg .receive (.timeoutError timeout) none)) :=
      .operational .watchdog (by decide) fun _ => rfl
    exact .call (p := initiateClose _) (.packetClose hgives) fun _ => made_endLoop rfl
  | _ => exact made_endLoop rfl

lemma made_watchContext (ctx : ℕ) : SBody τ .packet cfg .contextWatcher (watchContext ctx) := by
  refine .op rfl fun r => ?_
  cases r with
  | ctxDone cause =>
    exact .call (p := initiateClose none) (.packetClose (.noCause nofun)) fun _ => made_return nofun
  | _ => exact made_return nofun

lemma made_sender {l : SLabel} (hl : l₀.Follows τ cfg l) (hrole : l.role = .sender) :
    SSend τ .packet cfg l₀ (body cfg l) := by
  cases l with
  | sendTo o target data =>
    obtain rfl := hl
    exact made_sendTo o target data
  | trySendTo target data =>
    obtain rfl := hl
    exact made_trySendTo target data
  | send o msg | trySend msg => exact .done trivial
  | acquireLocal a => exact made_acquireLocal hl.2
  | acquireGlobal a => exact made_acquireGlobal hl.2
  | _ => cases hrole

lemma made_body (l : SLabel) (hrole : l.role ≠ .sender) :
    SBody τ .packet cfg l.role (body cfg l) := by
  cases l with
  | send | trySend | sendTo | trySendTo | acquireLocal | acquireGlobal => exact absurd rfl hrole
  | close =>
    exact .call (p := initiateClose none) (.packetClose (.noCause nofun))
      fun _ => made_return nofun
  | requestDrain => exact made_requestDrain.bind fun _ _ => made_return nofun
  | writerLoop => exact .done rfl
  | writer at_ => exact made_writer at_
  | writerExit => exact .op rfl fun _ => .done ⟨rfl, .none⟩
  | failPending e => exact made_failPending
  | readerLoop => exact .done rfl
  | reader pending => exact made_reader
  | watchdog => exact made_watchdog
  | watchContext ctx => exact made_watchContext ctx
  | finalizer =>
    exact .op rfl fun _ => .call (p := finalize) (.packetFinalize rfl) fun _ => made_return nofun
  | _ => exact made_return fun _ => rfl

end Packet

section All

variable {τ : Terms} {kind : SessionKind} {cfg : SessionConfig} {l₀ l : SLabel}

lemma SLabel.follows_self (hrole : l.role = .sender) : l.Follows τ cfg l := by
  cases l with
  | acquireLocal a | acquireGlobal a => exact ⟨rfl, fun hs => hs.1.elim⟩
  | send | trySend | sendTo | trySendTo => rfl
  | _ => cases hrole

/-- What every program of a send is made of. -/
lemma made_sender (hl : l₀.Follows τ cfg l) (hrole : l.role = .sender) :
    SSend τ kind cfg l₀ (kind.body cfg l) := by
  cases kind with
  | conn => exact Conn.made_sender hl hrole
  | webSocket => exact WebSocket.made_sender hl hrole
  | packet => exact Packet.made_sender hl hrole

/-- What every other program is made of. -/
lemma made_other (hl : l.role.Stays τ (.goto l)) (hrole : l.role ≠ .sender) :
    SBody τ kind cfg l.role (kind.body cfg l) := by
  cases kind with
  | conn => exact Conn.made_body l hl hrole
  | webSocket => exact WebSocket.made_body l hl hrole
  | packet => exact Packet.made_body l hrole

lemma SInstr.Fits.plain {clean : Prop} {role : Role} {i : SInstr}
    (h : i.Fits (.any clean) kind role) : i.Plain clean kind role := by
  cases i with
  | ack k v =>
    obtain ⟨rfl, -⟩ := h
    rfl
  | _ => exact h

/-- On these terms the answers need only be clean. -/
lemma SInstr.Answers.of_bare {clean : Prop} {i : SInstr} {r : i.Resp} (h : clean → i.Bare r) :
    i.Answers (.any clean) r := by
  cases i with
  | select cases dflt =>
    cases r with
    | ctxDone e | acked v => exact fun _ _ => trivial
    | _ => exact h
  | ctxCause k | err => exact fun _ _ => trivial
  | ackErr owed => exact ⟨fun _ _ => trivial, fun _ _ => trivial⟩
  | _ => exact h

end All

/-- What every program of a session is made of, whatever is handed over. -/
lemma made_body (clean : Prop) (kind : SessionKind) (cfg : SessionConfig) (l : SLabel)
    (hl : l.role.Stays (.any clean) (.goto l)) :
    (kind.body cfg l).Made (fun i => i.Plain clean kind l.role) (fun i r => clean → i.Bare r)
      (EndCall clean cfg l.role kind) (SInstr.Last l.role) (l.role.Stays (.any clean)) := by
  by_cases hrole : l.role = .sender
  · rw [hrole]
    exact (made_sender (SLabel.follows_self hrole) hrole).imp (fun _ => SInstr.Fits.plain)
      (fun _ _ => .of_bare) (fun _ _ => False.elim) fun _ => Leads.stays
  · exact (made_other hl hrole).imp (fun _ => SInstr.Fits.plain) (fun _ _ => .of_bare)
      (fun _ _ => id) fun _ => id

end Ogrenet
