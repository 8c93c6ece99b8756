import Ogrenet.Session.Resources.Calls

/-!
# Resources of a TCP or TLS session
-/

namespace Ogrenet

open Interleaving Interleaving.Prog Ses

namespace Conn

variable {cfg : SessionConfig} {l₀ entry : SLabel} {encoded : Option Bytes} {h : Hand}

/-! ### Senders -/

lemma wp_failSend (ctx : ℕ) (e : Err) (hg : h.inGate = true) (hf : h.Free) :
    (resourceOutline .conn cfg).wp (failSend cfg ctx e) ((resourceOutline .conn cfg).ends l₀)
      h := by
  refine ⟨trivial, ?_⟩
  rintro (_ | cause) -
  · exact wp_leave hg hf
  · exact wp_leave hg hf

lemma wp_failPrepared (ctx : ℕ) (e : Err) :
    (resourceOutline .conn cfg).wp (failPrepared cfg ctx e) ((resourceOutline .conn cfg).ends l₀)
      (.sender entry encoded 1 0 0) :=
  ⟨trivial, fun _ _ => ⟨Nat.one_pos, fun _ _ => wp_failSend ctx e rfl ⟨rfl, rfl, rfl⟩⟩⟩

lemma wp_awaitAck (ctx i : ℕ) (req : Request) :
    (resourceOutline .conn cfg).wp (awaitAck cfg ctx i) ((resourceOutline .conn cfg).ends l₀)
      (.queued entry encoded i req) := by
  refine wp_select ⟨⟨⟨req, rfl⟩, fun v => wp_acked v⟩,
    ⟨trivial, fun cause => wp_leave rfl ⟨rfl, rfl, rfl⟩⟩, ⟨trivial, ?_⟩⟩
  refine wp_poll ⟨⟨req, rfl⟩, fun v => wp_acked v⟩ ⟨trivial, ?_⟩
  rintro (_ | cause) -
  · refine ⟨trivial, ?_⟩
    rintro (_ | terminal) -
    · exact wp_leave rfl ⟨rfl, rfl, rfl⟩
    · exact wp_leave rfl ⟨rfl, rfl, rfl⟩
  · exact wp_leave rfl ⟨rfl, rfl, rfl⟩

lemma wp_enqueue (a : Sending) (hc : Carries cfg encoded (Hand.requestOf a .conn) entry)
    {shared : ℕ}
    (hs : shared = cfg.globalCharge a.frame.length) :
    (resourceOutline .conn cfg).wp (enqueue cfg a) ((resourceOutline .conn cfg).ends l₀)
      (.sender entry encoded 1 a.frame.length shared) := by
  subst hs
  refine wp_select ⟨⟨trivial, fun cause => ?_⟩, ⟨trivial, ?_⟩, ⟨caseReq_push rfl hc, fun i => ?_⟩⟩
  · exact wp_handBack (wp_leave rfl ⟨rfl, rfl, rfl⟩)
  · refine wp_handBack ⟨trivial, ?_⟩
    rintro (_ | cause) -
    · exact wp_leave rfl ⟨rfl, rfl, rfl⟩
    · exact wp_leave rfl ⟨rfl, rfl, rfl⟩
  · exact wp_pushed rfl (wp_awaitAck a.ctx i (Hand.requestOf a .conn))

lemma wp_acquireLocal (a : Sending) (hc : Carries cfg encoded (Hand.requestOf a .conn) entry) :
    (resourceOutline .conn cfg).wp (acquireLocal cfg a) ((resourceOutline .conn cfg).ends l₀)
      (.sender entry encoded 1 0 0) := by
  refine wp_localSection ?_ fun g => ?_
  · show (resourceOutline .conn cfg).wp (if _ then _ else _) _ _
    split
    · rename_i hz
      exact ⟨trivial, fun _ _ => wp_enqueue a hc (globalCharge_of_zero hz).symm⟩
    · split
      · exact wp_localRelease (wp_failPrepared a.ctx _)
      · rename_i hz _
        exact ⟨entry, encoded, rfl, hc, fun h0 => hz (Or.inl h0)⟩
  · exact wp_select ⟨⟨trivial, fun cause => wp_failPrepared a.ctx _⟩,
      ⟨trivial, wp_failPrepared a.ctx _⟩, ⟨trivial, ⟨entry, encoded, rfl, hc⟩⟩⟩

lemma wp_acquireGlobal (a : Sending) (hc : Carries cfg encoded (Hand.requestOf a .conn) entry)
    (hz : cfg.maxQueuedBytesTotal ≠ 0) :
    (resourceOutline .conn cfg).wp (acquireGlobal cfg a) ((resourceOutline .conn cfg).ends l₀)
      (.sender entry encoded 1 a.frame.length 0) := by
  refine wp_globalSection ?_ fun g => ?_
  · exact ⟨trivial, fun _ _ => wp_enqueue a hc (if_neg hz).symm⟩
  · exact wp_select ⟨⟨trivial, fun cause => wp_localRelease (wp_failPrepared a.ctx _)⟩,
      ⟨trivial, wp_localRelease (wp_failPrepared a.ctx _)⟩,
      ⟨trivial, ⟨entry, encoded, rfl, hc, hz⟩⟩⟩

lemma neutral_checkEncoder : checkEncoder.Forall fun i => i.neutral = true := by
  refine (neutral_isClosedSignal .closing).bind ?_
  rintro (_ | _)
  · trivial
  · exact ⟨rfl, fun _ => trivial⟩

lemma neutral_acquireEncoder (ctx : ℕ) :
    (acquireEncoder ctx).Forall fun i => i.neutral = true :=
  ⟨rfl, fun r => by cases r <;> first | exact neutral_checkEncoder | trivial⟩

lemma neutral_tryAcquireEncoder : tryAcquireEncoder.Forall fun i => i.neutral = true :=
  ⟨rfl, fun r => by cases r <;> first | exact neutral_checkEncoder | trivial⟩

lemma wp_send (ctx : Option ℕ) (msg : Message) :
    (resourceOutline .conn cfg).wp (send cfg ctx msg) ((resourceOutline .conn cfg).ends l₀)
      (.start (.send ctx msg)) := by
  cases ctx with
  | none => exact wp_returnErr _
  | some ctx =>
    refine ⟨trivial, ?_⟩
    rintro (_ | cause) -
    · refine ⟨⟨rfl, nofun⟩, ?_⟩
      rintro (_ | _) -
      · exact wp_returnErr _
      · show (resourceOutline .conn cfg).wp _ _ (.sender (.send (some ctx) msg) none 0 0 0)
        cases msg.validate with
        | error e => exact wp_leave rfl ⟨rfl, rfl, rfl⟩
        | ok _ =>
          refine (Outline.wp_bind (acquireFrameSlot ctx) _ _ _).mpr (wp_acquireFrameSlot ctx ?_
            fun e => wp_failSend ctx e rfl ⟨rfl, rfl, rfl⟩)
          refine (Outline.wp_bind (acquireEncoder ctx) _ _ _).mpr
            (wp_neutral (neutral_acquireEncoder ctx) ?_)
          rintro (_ | e)
          · refine ⟨rfl, ?_⟩
            rintro (e | frame) -
            · exact wp_failPrepared ctx e
            · show (resourceOutline .conn cfg).wp (if _ then _ else _) _ _
              split
              · exact wp_failPrepared ctx _
              · exact ⟨_, _, rfl, rfl, rfl⟩
          · exact ⟨Nat.one_pos, fun _ _ => wp_failSend ctx e rfl ⟨rfl, rfl, rfl⟩⟩
    · exact wp_returnErr _

lemma wp_failTrySend (e : Err) (hg : h.inGate = true) (hf : h.Free) :
    (resourceOutline .conn cfg).wp (failTrySend cfg e) ((resourceOutline .conn cfg).ends l₀) h := by
  simp only [failTrySend]
  split
  · exact ⟨trivial, fun _ _ => wp_leave hg hf⟩
  · exact wp_leave hg hf

lemma wp_tryEnqueue {msg : Message} (req : Request) (hc : Carries cfg encoded req (.trySend msg)) :
    (resourceOutline .conn cfg).wp (tryEnqueue cfg req) ((resourceOutline .conn cfg).ends l₀)
      (.sender (.trySend msg) encoded 1 req.bytes (cfg.globalCharge req.bytes)) := by
  refine wp_poll ⟨⟨trivial, ?_⟩, ⟨caseReq_push rfl hc, fun i => ?_⟩⟩ ?_
  · exact wp_handBack (wp_leave rfl ⟨rfl, rfl, rfl⟩)
  · exact wp_pushed rfl ⟨⟨rfl, rfl, rfl, rfl⟩, fun _ _ => ⟨i, _, rfl⟩⟩
  · exact wp_handBack ⟨trivial, fun _ _ => wp_leave rfl ⟨rfl, rfl, rfl⟩⟩

lemma wp_trySend (msg : Message) :
    (resourceOutline .conn cfg).wp (trySend cfg msg) ((resourceOutline .conn cfg).ends l₀)
      (.start (.trySend msg)) := by
  refine ⟨⟨rfl, nofun⟩, ?_⟩
  rintro (_ | _) -
  · exact wp_returnErr _
  · show (resourceOutline .conn cfg).wp _ _ (.sender (.trySend msg) none 0 0 0)
    cases msg.validate with
    | error e => exact wp_leave rfl ⟨rfl, rfl, rfl⟩
    | ok _ =>
      refine (Outline.wp_bind tryAcquireFrameSlot _ _ _).mpr (wp_tryAcquireFrameSlot ?_
        fun e => wp_failTrySend e rfl ⟨rfl, rfl, rfl⟩)
      refine (Outline.wp_bind tryAcquireEncoder _ _ _).mpr
        (wp_neutral neutral_tryAcquireEncoder ?_)
      rintro (_ | e)
      · refine ⟨rfl, ?_⟩
        rintro (e | frame) -
        · exact ⟨trivial, fun _ _ => ⟨Nat.one_pos, fun _ _ =>
            wp_failTrySend e rfl ⟨rfl, rfl, rfl⟩⟩⟩
        · refine (Outline.wp_bind (tryAcquireQuota cfg frame.length) _ _ _).mpr
            (wp_tryAcquireQuota ?_ fun e => ?_)
          · exact ⟨trivial, fun _ _ => wp_tryEnqueue _ ⟨rfl, rfl⟩⟩
          · exact ⟨trivial, fun _ _ => ⟨Nat.one_pos, fun _ _ =>
              wp_failTrySend e rfl ⟨rfl, rfl, rfl⟩⟩⟩
      · exact ⟨Nat.one_pos, fun _ _ => wp_failTrySend e rfl ⟨rfl, rfl, rfl⟩⟩

/-! ### What ends a session -/

lemma neutral_abort (reason : AbortReason) (cause : Option Err) :
    (abort reason cause).Forall fun i => i.neutral = true := by
  refine (neutral_abortWith reason _).bind ?_
  rintro (_ | _)
  · trivial
  · refine (neutral_onceDo .close ?_).bind fun _ => trivial
    exact ⟨rfl, fun _ => ⟨rfl, fun _ => ⟨rfl, fun _ => trivial⟩⟩⟩

lemma neutral_initiateClose (cause : Option Err) :
    (initiateClose cause).Forall fun i => i.neutral = true :=
  (neutral_abort .failure cause).bind fun _ => trivial

lemma neutral_maybeFinishGraceful : maybeFinishGraceful.Forall fun i => i.neutral = true := by
  refine (neutral_isClosedSignal .readDone).bind ?_
  rintro (_ | _)
  · trivial
  · refine (neutral_isClosedSignal .writeDone).bind ?_
    rintro (_ | _)
    · trivial
    · refine neutral_tryMarkTerminal.bind ?_
      rintro (_ | _)
      · trivial
      · exact neutral_onceDo .close ⟨rfl, fun _ => ⟨rfl, fun _ => ⟨rfl, fun _ => trivial⟩⟩⟩

/-! ### The writer -/

lemma wp_finishOutbound {at_ : WriterAt} {i : ℕ} {req : Request} (hw : h.Writing cfg i req)
    (hd : at_ = .drain → h.sawDrained = true) {result : Option Err}
    (hf : result.isNone = !h.failed) :
    (resourceOutline .conn cfg).wp (finishOutbound cfg at_ i req result)
      ((resourceOutline .conn cfg).ends l₀) h := by
  obtain ⟨b, es, tried, rfl, hes⟩ := hw
  refine ⟨⟨rfl, rfl, ⟨rfl, rfl⟩, _, _, rfl, rfl, hes, fun _ h => absurd rfl h, hf⟩,
    fun _ _ => ?_⟩
  let b' : Hand := { b with delivered := none }
  cases result with
  | none =>
    refine wp_giveBack (b := b') ?_
    refine wp_countBytes (b := b') ?_
    refine ⟨Nat.le_refl _, fun _ _ => ?_⟩
    refine wp_ackIf (b := b') ?_ ?_ ?_ ?_ ?_ fun e he hr => ?_
    · rfl
    · rfl
    · rfl
    · exact fun _ => rfl
    · exact fun _ => nofun
    · refine ⟨⟨b', e :: es, rfl, fun d hd => ?_⟩, ?_, hd⟩
      · cases hd
        exact he
      · exact List.forall_mem_cons.mpr ⟨by rw [hr]; nofun, hes⟩
  | some e =>
    refine wp_giveBack (b := b') ?_
    refine (Outline.wp_bind (abort .failure _) _ _ _).mpr (wp_neutral (neutral_abort _ _) ?_)
    rintro (_ | _)
    · refine ⟨trivial, ?_⟩
      rintro (_ | terminal) -
      · exact wp_failAck b' es rfl rfl rfl nofun
      · exact wp_failAck b' es rfl rfl rfl nofun
    · exact wp_failAck b' es rfl rfl rfl nofun

lemma wp_finishWrite {at_ : WriterAt} {i : ℕ} {req : Request} (hw : h.Writing cfg i req)
    (hd : at_ = .drain → h.sawDrained = true) {e : Option Err} (hf : e.isNone = !h.failed) :
    (resourceOutline .conn cfg).wp (finishWrite cfg at_ i req e)
      ((resourceOutline .conn cfg).ends l₀) h := by
  refine ⟨trivial, ?_⟩
  rintro (_ | clearErr) -
  · cases e with
    | some e => exact wp_finishOutbound hw hd hf
    | none => exact wp_finishOutbound hw hd hf
  · cases e with
    | some e => exact wp_finishOutbound (hw.called true) hd rfl
    | none => exact wp_finishOutbound (hw.called true) hd rfl

lemma wp_handleOutbound {at_ : WriterAt} {i : ℕ} {req : Request} (hw : h.Writing cfg i req)
    (hf : h.failed = false) (hd : at_ = .drain → h.sawDrained = true) :
    (resourceOutline .conn cfg).wp (handleOutbound cfg at_ i req)
      ((resourceOutline .conn cfg).ends l₀) h := by
  refine ⟨trivial, ?_⟩
  rintro (_ | e) -
  · exact ⟨hw, hf, hd⟩
  · exact wp_finishOutbound (hw.called true) hd rfl

lemma wp_writing {at_ : WriterAt} {i : ℕ} {req : Request} (hw : h.Writing cfg i req)
    (hf : h.failed = false) (hd : at_ = .drain → h.sawDrained = true) (rest : Bytes) :
    (resourceOutline .conn cfg).wp (writing cfg at_ i req rest)
      ((resourceOutline .conn cfg).ends l₀) h := by
  simp only [writing]
  split
  · exact wp_finishWrite hw hd (by rw [hf]; rfl)
  · refine ⟨hw.isWriter, ?_⟩
    rintro ⟨n, _ | e⟩ -
    · show (resourceOutline .conn cfg).wp (if n = 0 then _ else _) _
        { h with failed := h.failed || false || n == 0 }.attempt
      split
      · rename_i hn
        refine wp_finishWrite (hw.attempted h.delivered (h.failed || false || n == 0)) hd ?_
        simp [Hand.attempt, Hand.settle, hn]
      · rename_i hn
        exact ⟨hw.attempted h.delivered _, by simp [Hand.attempt, Hand.settle, hf, hn], hd⟩
    · refine wp_finishWrite (e := some e)
        (hw.attempted h.delivered (h.failed || true || n == 0)) hd ?_
      simp [Hand.attempt, Hand.settle]

lemma wp_closeProtocolWrite {Q : Option Err → Hand → Prop}
    (hQ : ∀ e failed, Q e { h with failed }) :
    (resourceOutline .conn cfg).wp (closeProtocolWrite cfg) Q h := by
  simp only [closeProtocolWrite]
  split
  · refine ⟨trivial, ?_⟩
    rintro (_ | e) -
    · refine ⟨trivial, fun e _ => ⟨trivial, ?_⟩⟩
      rintro (_ | clearErr) -
      · cases e with
        | some e => exact hQ _ h.failed
        | none => exact hQ _ h.failed
      · cases e with
        | some e => exact hQ _ true
        | none => exact hQ _ true
    · exact hQ _ true
  · split
    · exact ⟨trivial, fun e _ => hQ e h.failed⟩
    · exact hQ _ h.failed

lemma wp_writer {at_ : WriterAt} (hr : h.Ready) (hw : h.Written)
    (hd : at_ = .drain → h.sawDrained = true) :
    (resourceOutline .conn cfg).wp (writer cfg at_) ((resourceOutline .conn cfg).ends l₀) h := by
  cases at_ with
  | running =>
    exact wp_select ⟨⟨trivial, hr⟩, ⟨trivial, ⟨hr, hw, nofun⟩⟩,
      ⟨hr.caseReq_pop, fun i req => wp_handleOutbound (hr.popped hw _ i req) rfl nofun⟩⟩
  | graceful =>
    refine wp_select ⟨⟨trivial, hr⟩,
      ⟨hr.caseReq_pop, fun i req => wp_handleOutbound (hr.popped hw _ i req) rfl nofun⟩,
      ⟨trivial, ?_⟩⟩
    exact ⟨hr.drained cfg _, hw, fun _ => rfl⟩
  | drain =>
    refine wp_poll ⟨hr.caseReq_pop, fun i req =>
      wp_handleOutbound (hr.popped hw _ i req) rfl hd⟩ ?_
    refine (Outline.wp_bind (closeProtocolWrite cfg) _ _ _).mpr
      (wp_closeProtocolWrite fun e failed => ?_)
    have hready := (hr.polled cfg [.pop]).called failed
    cases e with
    | none =>
      refine ⟨trivial, fun _ _ => ⟨trivial, fun _ _ => ?_⟩⟩
      exact (Outline.wp_bind maybeFinishGraceful _ _ _).mpr
        (wp_neutral neutral_maybeFinishGraceful fun _ => hready)
    | some e =>
      exact (Outline.wp_bind (initiateClose _) _ _ _).mpr
        (wp_neutral (neutral_initiateClose _) fun _ => hready)

lemma wp_writerExit (hr : h.Ready) :
    (resourceOutline .conn cfg).wp (writerExit cfg) ((resourceOutline .conn cfg).ends l₀) h :=
  wp_select ⟨trivial, ⟨hr.drained cfg _, rfl, nofun⟩⟩

/-! ### All programs -/

lemma neutral_settleTerminal : settleTerminal.Forall fun i => i.neutral = true := by
  have hmark : markTerminal.Forall fun i => i.neutral = true :=
    ⟨rfl, fun _ => neutral_markTerminalChannels⟩
  refine (neutral_isClosedSignal .terminal).bind ?_
  rintro (_ | _)
  · refine (neutral_isClosedSignal .closing).bind ?_
    rintro (_ | _)
    · exact (neutral_initiateClose none).bind fun _ => hmark
    · exact hmark
  · trivial

lemma wp_finalizer : (resourceOutline .conn cfg).wp finalizer
    ((resourceOutline .conn cfg).ends l₀) (.start .finalizer) :=
  ⟨trivial, fun _ _ => (Outline.wp_bind finalize _ _ _).mpr
    (wp_finalizeWith neutral_settleTerminal rfl trivial)⟩

/-- Every program of a stream session keeps to the outline. -/
lemma wp_body (l : SLabel) (hh : (resourceOutline .conn cfg).pre l h) :
    (resourceOutline .conn cfg).wp (body cfg l) ((resourceOutline .conn cfg).ends l₀) h := by
  cases l with
  | send ctx msg =>
    cases hh
    exact wp_send ctx msg
  | trySend msg =>
    cases hh
    exact wp_trySend msg
  | acquireLocal a =>
    obtain ⟨entry, encoded, rfl, hc⟩ := hh
    exact wp_acquireLocal a hc
  | acquireGlobal a =>
    obtain ⟨entry, encoded, rfl, hc, hz⟩ := hh
    exact wp_acquireGlobal a hc hz
  | writerLoop =>
    cases hh
    exact ⟨Hand.ready_start, nofun, nofun⟩
  | writer at_ => exact wp_writer hh.1 hh.2.1 hh.2.2
  | writing at_ i req rest => exact wp_writing hh.1 hh.2.1 hh.2.2 rest
  | writerExit => exact wp_writerExit hh
  | failPending e => exact wp_failPending hh.1 hh.2.1 (hh.2.2 nofun)
  | finalizer =>
    cases hh
    exact wp_finalizer
  | sendTo _ _ _ | trySendTo _ _ => exact Hand.post_unit h
  | _ => exact wp_idle rfl (by nofun) hh

end Conn

end Ogrenet
