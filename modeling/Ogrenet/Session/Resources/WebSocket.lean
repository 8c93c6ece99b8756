import Ogrenet.Session.Resources.Calls

/-!
# Resources of a WebSocket session
-/

namespace Ogrenet

open Interleaving Interleaving.Prog Ses

namespace WebSocket

variable {cfg : SessionConfig} {l₀ entry : SLabel} {encoded : Option Bytes} {h : Hand}

/-! ### Senders -/

lemma neutral_closedError : (closedError cfg).Forall fun i => i.neutral = true := by
  refine ⟨rfl, ?_⟩
  rintro (_ | e) <;> trivial

/-- A send that returns `Err()` or `ErrClosed`. -/
lemma wp_leaveClosed (hg : h.inGate = true) (hf : h.Free) :
    (resourceOutline .webSocket cfg).wp
      (do
        let e ← closedError cfg
        gateLeave
        returnErr (some e))
      ((resourceOutline .webSocket cfg).ends l₀) h :=
  (Outline.wp_bind (closedError cfg) _ _ _).mpr
    (wp_neutral neutral_closedError fun _ => wp_leave hg hf)

lemma wp_failSend (ctx : ℕ) (e : Err) (hg : h.inGate = true) (hf : h.Free) :
    (resourceOutline .webSocket cfg).wp (failSend cfg ctx e)
      ((resourceOutline .webSocket cfg).ends l₀) h := by
  refine ⟨trivial, ?_⟩
  rintro (_ | cause) -
  · exact wp_leave hg hf
  · exact wp_leave hg hf

lemma wp_failHeld (ctx : ℕ) (e : Err) :
    (resourceOutline .webSocket cfg).wp (failHeld cfg ctx e)
      ((resourceOutline .webSocket cfg).ends l₀) (.sender entry encoded 1 0 0) := by
  refine ⟨trivial, ?_⟩
  rintro (_ | cause) -
  · exact ⟨Nat.one_pos, fun _ _ => wp_leave rfl ⟨rfl, rfl, rfl⟩⟩
  · exact ⟨Nat.one_pos, fun _ _ => wp_leave rfl ⟨rfl, rfl, rfl⟩⟩

lemma wp_awaitAck (ctx i : ℕ) (req : Request) :
    (resourceOutline .webSocket cfg).wp (awaitAck cfg ctx i)
      ((resourceOutline .webSocket cfg).ends l₀) (.queued entry encoded i req) := by
  refine wp_select ⟨⟨⟨req, rfl⟩, fun v => wp_acked v⟩,
    ⟨trivial, fun cause => wp_leave rfl ⟨rfl, rfl, rfl⟩⟩, ⟨trivial, ?_⟩⟩
  refine wp_poll ⟨⟨req, rfl⟩, fun v => wp_acked v⟩ ⟨trivial, ?_⟩
  rintro (_ | cause) -
  · exact wp_leaveClosed rfl ⟨rfl, rfl, rfl⟩
  · exact wp_leave rfl ⟨rfl, rfl, rfl⟩

lemma wp_enqueue (a : Sending) (hc : Carries cfg encoded (Hand.requestOf a .webSocket) entry)
    {shared : ℕ} (hs : shared = cfg.globalCharge a.frame.length) :
    (resourceOutline .webSocket cfg).wp (enqueue cfg a)
      ((resourceOutline .webSocket cfg).ends l₀)
      (.sender entry encoded 1 a.frame.length shared) := by
  subst hs
  refine wp_select ⟨⟨trivial, fun cause => ?_⟩, ⟨trivial, ?_⟩, ⟨caseReq_push rfl hc, fun i => ?_⟩⟩
  · exact wp_handBack (wp_leave rfl ⟨rfl, rfl, rfl⟩)
  · refine wp_handBack ⟨trivial, ?_⟩
    rintro (_ | cause) -
    · exact wp_leaveClosed rfl ⟨rfl, rfl, rfl⟩
    · exact wp_leave rfl ⟨rfl, rfl, rfl⟩
  · exact wp_pushed rfl (wp_awaitAck a.ctx i (Hand.requestOf a .webSocket))

lemma wp_acquireLocal (a : Sending) (hc : Carries cfg encoded (Hand.requestOf a .webSocket) entry) :
    (resourceOutline .webSocket cfg).wp (acquireLocal cfg a)
      ((resourceOutline .webSocket cfg).ends l₀) (.sender entry encoded 1 0 0) := by
  refine wp_localSection ?_ fun g => ?_
  · show (resourceOutline .webSocket cfg).wp (if _ then _ else _) _ _
    split
    · rename_i hz
      exact wp_enqueue a hc (globalCharge_of_zero hz).symm
    · split
      · exact wp_localRelease (wp_failHeld a.ctx _)
      · rename_i hz _
        exact ⟨entry, encoded, rfl, hc, fun h0 => hz (Or.inl h0)⟩
  · exact wp_select ⟨⟨trivial, fun cause => wp_failHeld a.ctx _⟩,
      ⟨trivial, wp_failHeld a.ctx _⟩, ⟨trivial, ⟨entry, encoded, rfl, hc⟩⟩⟩

lemma wp_acquireGlobal (a : Sending) (hc : Carries cfg encoded (Hand.requestOf a .webSocket) entry)
    (hz : cfg.maxQueuedBytesTotal ≠ 0) :
    (resourceOutline .webSocket cfg).wp (acquireGlobal cfg a)
      ((resourceOutline .webSocket cfg).ends l₀) (.sender entry encoded 1 a.frame.length 0) := by
  refine wp_globalSection ?_ fun g => ?_
  · exact wp_enqueue a hc (if_neg hz).symm
  · exact wp_select ⟨⟨trivial, fun cause => wp_localRelease (wp_failHeld a.ctx _)⟩,
      ⟨trivial, wp_localRelease (wp_failHeld a.ctx _)⟩,
      ⟨trivial, ⟨entry, encoded, rfl, hc, hz⟩⟩⟩

lemma neutral_acquireEncoder (ctx : ℕ) :
    (acquireEncoder ctx).Forall fun i => i.neutral = true :=
  ⟨rfl, fun r => by cases r <;> trivial⟩

lemma neutral_tryAcquireEncoder : tryAcquireEncoder.Forall fun i => i.neutral = true :=
  ⟨rfl, fun r => by cases r <;> trivial⟩

lemma wp_send (ctx : Option ℕ) (msg : Message) :
    (resourceOutline .webSocket cfg).wp (send cfg ctx msg)
      ((resourceOutline .webSocket cfg).ends l₀) (.start (.send ctx msg)) := by
  cases ctx with
  | none => exact wp_returnErr _
  | some ctx =>
    refine ⟨trivial, ?_⟩
    rintro (_ | cause) -
    · refine ⟨⟨rfl, nofun⟩, ?_⟩
      rintro (_ | _) -
      · exact wp_returnErr _
      · show (resourceOutline .webSocket cfg).wp _ _ (.sender (.send (some ctx) msg) none 0 0 0)
        cases msg.validate with
        | error e => exact wp_leave rfl ⟨rfl, rfl, rfl⟩
        | ok _ =>
          refine (Outline.wp_bind (acquireFrameSlot ctx) _ _ _).mpr (wp_acquireFrameSlot ctx ?_
            fun e => wp_failSend ctx e rfl ⟨rfl, rfl, rfl⟩)
          refine (Outline.wp_bind (acquireEncoder ctx) _ _ _).mpr
            (wp_neutral (neutral_acquireEncoder ctx) ?_)
          rintro (_ | e)
          · refine ⟨rfl, ?_⟩
            rintro (e | payload) -
            · exact ⟨trivial, fun _ _ => wp_failHeld ctx e⟩
            · refine ⟨trivial, fun _ _ => ?_⟩
              show (resourceOutline .webSocket cfg).wp (if _ then _ else _) _ _
              split
              · exact wp_failHeld ctx _
              · exact ⟨_, _, rfl, rfl, rfl⟩
          · exact wp_failHeld ctx e
    · exact wp_returnErr _

lemma wp_failTrySend (e : Err) (hg : h.inGate = true) (hf : h.Free) :
    (resourceOutline .webSocket cfg).wp (failTrySend cfg false e)
      ((resourceOutline .webSocket cfg).ends l₀) h := by
  simp only [failTrySend]
  split
  · exact ⟨trivial, fun _ _ => wp_leave hg hf⟩
  · exact wp_leave hg hf

lemma wp_failTryHeld (e : Err) :
    (resourceOutline .webSocket cfg).wp (failTrySend cfg true e)
      ((resourceOutline .webSocket cfg).ends l₀) (.sender entry encoded 1 0 0) := by
  simp only [failTrySend]
  split
  · exact ⟨trivial, fun _ _ => ⟨Nat.one_pos, fun _ _ => wp_leave rfl ⟨rfl, rfl, rfl⟩⟩⟩
  · exact ⟨Nat.one_pos, fun _ _ => wp_leave rfl ⟨rfl, rfl, rfl⟩⟩

lemma wp_tryEnqueue {msg : Message} (req : Request) (hc : Carries cfg encoded req (.trySend msg)) :
    (resourceOutline .webSocket cfg).wp (tryEnqueue cfg req)
      ((resourceOutline .webSocket cfg).ends l₀)
      (.sender (.trySend msg) encoded 1 req.bytes (cfg.globalCharge req.bytes)) := by
  refine wp_poll ⟨⟨trivial, ?_⟩, ⟨caseReq_push rfl hc, fun i => ?_⟩⟩ ?_
  · exact wp_handBack (wp_leaveClosed rfl ⟨rfl, rfl, rfl⟩)
  · exact wp_pushed rfl ⟨⟨rfl, rfl, rfl, rfl⟩, fun _ _ => ⟨i, _, rfl⟩⟩
  · exact wp_handBack (wp_failTrySend (.sentinel .wouldBlock) rfl ⟨rfl, rfl, rfl⟩)

lemma wp_trySend (msg : Message) :
    (resourceOutline .webSocket cfg).wp (trySend cfg msg)
      ((resourceOutline .webSocket cfg).ends l₀) (.start (.trySend msg)) := by
  refine ⟨⟨rfl, nofun⟩, ?_⟩
  rintro (_ | _) -
  · exact wp_returnErr _
  · show (resourceOutline .webSocket cfg).wp _ _ (.sender (.trySend msg) none 0 0 0)
    cases msg.validate with
    | error e => exact wp_leave rfl ⟨rfl, rfl, rfl⟩
    | ok _ =>
      refine (Outline.wp_bind tryAcquireFrameSlot _ _ _).mpr (wp_tryAcquireFrameSlot ?_
        fun e => wp_failTrySend e rfl ⟨rfl, rfl, rfl⟩)
      refine (Outline.wp_bind tryAcquireEncoder _ _ _).mpr
        (wp_neutral neutral_tryAcquireEncoder ?_)
      rintro (_ | e)
      · refine ⟨rfl, ?_⟩
        rintro (e | payload) -
        · exact ⟨trivial, fun _ _ => ⟨Nat.one_pos, fun _ _ => wp_leave rfl ⟨rfl, rfl, rfl⟩⟩⟩
        · refine ⟨trivial, fun _ _ => ?_⟩
          exact (Outline.wp_bind (tryAcquireQuota cfg payload.length) _ _ _).mpr
            (wp_tryAcquireQuota (wp_tryEnqueue _ ⟨rfl, rfl⟩) fun e => wp_failTryHeld e)
      · exact wp_failTryHeld e

/-! ### What ends a session -/

lemma neutral_abort (reason : AbortReason) (cause : Option Err) :
    (abort reason cause).Forall fun i => i.neutral = true := by
  refine (neutral_abortWith reason _).bind ?_
  rintro (_ | _)
  · trivial
  · refine (neutral_onceDo .close ?_).bind fun _ => trivial
    exact ⟨rfl, fun _ => ⟨rfl, fun _ => ⟨rfl, fun _ => trivial⟩⟩⟩

lemma neutral_initiateClose (cause : Option Err) :
    (initiateClose cause).Forall fun i => i.neutral = true :=
  (neutral_abort .failure cause).bind fun _ => trivial

/-! ### The writer -/

lemma neutral_failedAck (owed won : Bool) (opErr : Option Err) :
    (failedAck owed won opErr).Forall fun i => i.neutral = true := by
  cases won with
  | false => exact ⟨rfl, fun r => by cases r <;> trivial⟩
  | true =>
    cases opErr with
    | none => exact ⟨rfl, fun r => by cases r <;> trivial⟩
    | some e => trivial

lemma wp_handleOutbound {at_ : WriterAt} {i : ℕ} {req : Request} (hw : h.Writing cfg i req)
    (hf : h.failed = false) (hd : at_ = .drain → h.sawDrained = true) :
    (resourceOutline .webSocket cfg).wp (handleOutbound cfg at_ i req)
      ((resourceOutline .webSocket cfg).ends l₀) h := by
  obtain ⟨b, es, tried, rfl, hes⟩ := hw
  refine ⟨trivial, fun _ _ => ⟨⟨rfl, rfl⟩, fun e _ => ?_⟩⟩
  cases e with
  | none =>
    let b' : Hand := { b with delivered := none }
    refine ⟨⟨rfl, rfl, ⟨rfl, rfl⟩, _, _, rfl, rfl, hes, fun _ _ => rfl, congrArg not hf.symm⟩,
      fun _ _ => ⟨trivial, fun timeoutCause _ => ⟨trivial, fun pendingRead _ => ?_⟩⟩⟩
    refine wp_giveBack (b := b') ?_
    refine wp_countBytes (b := b') ?_
    refine ⟨Nat.le_refl _, fun _ _ => ?_⟩
    refine wp_ackIf (b := b') ?_ ?_ ?_ ?_ ?_ fun e he hr => ?_
    · rfl
    · rfl
    · rfl
    · exact fun _ => rfl
    · exact fun _ => nofun
    · have hready : (Hand.writer b' 0 0 0 0 0 (e :: es)).Ready :=
        ⟨b', e :: es, rfl, fun d hd => by cases hd; exact he⟩
      cases pendingRead with
      | none => exact ⟨hready, List.forall_mem_cons.mpr ⟨by rw [hr]; nofun, hes⟩, hd⟩
      | some readErr =>
        exact (Outline.wp_bind (initiateClose _) _ _ _).mpr
          (wp_neutral (neutral_initiateClose _) fun _ => hready)
  | some e =>
    let b' : Hand := { b with delivered := none, failed := true }
    refine ⟨⟨rfl, rfl, ⟨rfl, rfl⟩, _, _, rfl, rfl, hes, nofun, rfl⟩, fun _ _ => ⟨trivial,
      fun timeoutCause _ => ⟨trivial, fun pendingRead _ => ?_⟩⟩⟩
    refine wp_giveBack (b := b') ?_
    refine (Outline.wp_bind (abort .failure _) _ _ _).mpr
      (wp_neutral (neutral_abort _ _) fun won => ⟨trivial, fun _ _ => ?_⟩)
    refine (Outline.wp_bind (failedAck req.hasAck won _) _ _ _).mpr
      (wp_neutral (neutral_failedAck req.hasAck won _) fun sendErr => ?_)
    exact wp_failAck b' es rfl rfl rfl nofun

lemma neutral_finishLocalGraceful (e : Option Err) :
    (finishLocalGraceful cfg e).Forall fun i => i.neutral = true := by
  simp only [finishLocalGraceful]
  split
  · exact neutral_initiateClose _
  · refine ⟨rfl, fun _ => ⟨rfl, fun _ => neutral_tryMarkTerminal.bind fun _ => ?_⟩⟩
    exact neutral_onceDo .close ⟨rfl, fun _ => ⟨rfl, fun _ => ⟨rfl, fun _ => trivial⟩⟩⟩

lemma wp_writer {at_ : WriterAt} (hr : h.Ready) (hw : h.Written)
    (hd : at_ = .drain → h.sawDrained = true) :
    (resourceOutline .webSocket cfg).wp (writer cfg at_)
      ((resourceOutline .webSocket cfg).ends l₀) h := by
  cases at_ with
  | running =>
    exact wp_select ⟨⟨trivial, hr⟩, ⟨trivial, ⟨hr, hw, nofun⟩⟩,
      ⟨hr.caseReq_pop, fun i req => wp_handleOutbound (hr.popped hw _ i req) rfl nofun⟩⟩
  | graceful =>
    exact wp_select ⟨⟨trivial, hr⟩,
      ⟨hr.caseReq_pop, fun i req => wp_handleOutbound (hr.popped hw _ i req) rfl nofun⟩,
      ⟨trivial, ⟨hr.drained cfg _, hw, fun _ => rfl⟩⟩⟩
  | drain =>
    refine wp_poll ⟨hr.caseReq_pop, fun i req =>
      wp_handleOutbound (hr.popped hw _ i req) rfl hd⟩ ?_
    refine ⟨trivial, fun _ _ => ⟨trivial, fun e _ => ?_⟩⟩
    exact (Outline.wp_bind (finishLocalGraceful cfg e) _ _ _).mpr
      (wp_neutral (neutral_finishLocalGraceful e) fun _ => hr.polled cfg [.pop])

lemma wp_writerExit (hr : h.Ready) :
    (resourceOutline .webSocket cfg).wp (writerExit cfg)
      ((resourceOutline .webSocket cfg).ends l₀) h :=
  wp_select ⟨trivial, (Outline.wp_bind (closedError cfg) _ _ _).mpr
    (wp_neutral neutral_closedError fun _ => ⟨hr.drained cfg _, rfl, nofun⟩)⟩

/-! ### All programs -/

lemma neutral_settleTerminal : settleTerminal.Forall fun i => i.neutral = true := by
  refine (neutral_isClosedSignal .closing).bind ?_
  rintro (_ | _)
  · exact neutral_initiateClose none
  · trivial

lemma wp_finalizer : (resourceOutline .webSocket cfg).wp finalizer
    ((resourceOutline .webSocket cfg).ends l₀) (.start .finalizer) :=
  ⟨trivial, fun _ _ => (Outline.wp_bind finalize _ _ _).mpr
    (wp_finalizeWith neutral_settleTerminal rfl trivial)⟩

/-- Every program of a WebSocket session keeps to the outline. -/
lemma wp_body (l : SLabel) (hh : (resourceOutline .webSocket cfg).pre l h) :
    (resourceOutline .webSocket cfg).wp (body cfg l)
      ((resourceOutline .webSocket cfg).ends l₀) h := by
  cases l with
  | send ctx msg =>
    cases hh
    exact wp_send ctx msg
  | trySend msg =>
    cases hh
    exact wp_trySend msg
  | acquireLocal a =>
    obtain ⟨entry, encoded, rfl, hc⟩ := hh
    exact wp_acquireLocal a hc
  | acquireGlobal a =>
    obtain ⟨entry, encoded, rfl, hc, hz⟩ := hh
    exact wp_acquireGlobal a hc hz
  | writerLoop =>
    cases hh
    exact ⟨Hand.ready_start, nofun, nofun⟩
  | writer at_ => exact wp_writer hh.1 hh.2.1 hh.2.2
  | writerExit => exact wp_writerExit hh
  | failPending e => exact wp_failPending hh.1 hh.2.1 (hh.2.2 nofun)
  | finalizer =>
    cases hh
    exact wp_finalizer
  | sendTo _ _ _ | trySendTo _ _ | writing _ _ _ _ => exact Hand.post_unit h
  | _ => exact wp_idle rfl (by nofun) hh

end WebSocket

end Ogrenet
