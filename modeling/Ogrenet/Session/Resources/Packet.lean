import Ogrenet.Session.Resources.Calls

/-!
# Resources of a UDP packet connection
-/

namespace Ogrenet

open Interleaving Interleaving.Prog Ses

namespace Packet

variable {cfg : SessionConfig} {l₀ entry : SLabel} {encoded : Option Bytes} {h : Hand}

/-! ### Senders -/

lemma neutral_closedError (peer : Option String) :
    (closedError cfg peer).Forall fun i => i.neutral = true := by
  refine ⟨rfl, ?_⟩
  rintro (_ | e) <;> trivial

/-- A send that returns `Err()` or `ErrClosed`. -/
lemma wp_leaveClosed (peer : Option String) (hg : h.inGate = true) (hf : h.Free) :
    (resourceOutline .packet cfg).wp
      (do
        let e ← closedError cfg peer
        gateLeave
        returnErr (some e))
      ((resourceOutline .packet cfg).ends l₀) h :=
  (Outline.wp_bind (closedError cfg peer) _ _ _).mpr
    (wp_neutral (neutral_closedError peer) fun _ => wp_leave hg hf)

lemma wp_failSend (ctx : ℕ) (e : Err) (peer : Option String) (hg : h.inGate = true)
    (hf : h.Free) :
    (resourceOutline .packet cfg).wp (failSend cfg ctx e peer)
      ((resourceOutline .packet cfg).ends l₀) h := by
  refine ⟨trivial, ?_⟩
  rintro (_ | cause) -
  · exact wp_leave hg hf
  · exact wp_leave hg hf

lemma wp_failHeld (a : Sending) (e : Err) :
    (resourceOutline .packet cfg).wp (failHeld cfg a e) ((resourceOutline .packet cfg).ends l₀)
      (.sender entry encoded 1 0 0) := by
  refine ⟨trivial, ?_⟩
  rintro (_ | cause) -
  · exact ⟨Nat.one_pos, fun _ _ => wp_leave rfl ⟨rfl, rfl, rfl⟩⟩
  · exact ⟨Nat.one_pos, fun _ _ => wp_leave rfl ⟨rfl, rfl, rfl⟩⟩

lemma wp_awaitAck (a : Sending) (i : ℕ) (req : Request) :
    (resourceOutline .packet cfg).wp (awaitAck cfg a i) ((resourceOutline .packet cfg).ends l₀)
      (.queued entry encoded i req) := by
  refine wp_select ⟨⟨⟨req, rfl⟩, fun v => wp_acked v⟩,
    ⟨trivial, fun cause => wp_leave rfl ⟨rfl, rfl, rfl⟩⟩, ⟨trivial, ?_⟩⟩
  refine wp_poll ⟨⟨req, rfl⟩, fun v => wp_acked v⟩ ⟨trivial, ?_⟩
  rintro (_ | cause) -
  · exact wp_leaveClosed a.peer rfl ⟨rfl, rfl, rfl⟩
  · exact wp_leave rfl ⟨rfl, rfl, rfl⟩

lemma wp_enqueue (a : Sending) (hc : Carries cfg encoded (Hand.requestOf a .packet) entry)
    {shared : ℕ} (hs : shared = cfg.globalCharge a.frame.length) :
    (resourceOutline .packet cfg).wp (enqueue cfg a) ((resourceOutline .packet cfg).ends l₀)
      (.sender entry encoded 1 a.frame.length shared) := by
  subst hs
  refine wp_select ⟨⟨trivial, fun cause => ?_⟩, ⟨trivial, ?_⟩, ⟨caseReq_push rfl hc, fun i => ?_⟩⟩
  · exact wp_handBack (wp_leave rfl ⟨rfl, rfl, rfl⟩)
  · refine wp_handBack ⟨trivial, ?_⟩
    rintro (_ | cause) -
    · exact wp_leaveClosed a.peer rfl ⟨rfl, rfl, rfl⟩
    · exact wp_leave rfl ⟨rfl, rfl, rfl⟩
  · exact wp_pushed rfl (wp_awaitAck a i (Hand.requestOf a .packet))

lemma wp_acquireLocal (a : Sending) (hc : Carries cfg encoded (Hand.requestOf a .packet) entry) :
    (resourceOutline .packet cfg).wp (acquireLocal cfg a) ((resourceOutline .packet cfg).ends l₀)
      (.sender entry encoded 1 0 0) := by
  refine wp_localSection ?_ fun g => ?_
  · show (resourceOutline .packet cfg).wp (if _ then _ else _) _ _
    split
    · rename_i hz
      exact wp_enqueue a hc (globalCharge_of_zero hz).symm
    · split
      · exact wp_localRelease (wp_failHeld a _)
      · rename_i hz _
        exact ⟨entry, encoded, rfl, hc, fun h0 => hz (Or.inl h0)⟩
  · exact wp_select ⟨⟨trivial, fun cause => wp_failHeld a _⟩, ⟨trivial, wp_failHeld a _⟩,
      ⟨trivial, ⟨entry, encoded, rfl, hc⟩⟩⟩

lemma wp_acquireGlobal (a : Sending) (hc : Carries cfg encoded (Hand.requestOf a .packet) entry)
    (hz : cfg.maxQueuedBytesTotal ≠ 0) :
    (resourceOutline .packet cfg).wp (acquireGlobal cfg a) ((resourceOutline .packet cfg).ends l₀)
      (.sender entry encoded 1 a.frame.length 0) := by
  refine wp_globalSection ?_ fun g => ?_
  · exact wp_enqueue a hc (if_neg hz).symm
  · exact wp_select ⟨⟨trivial, fun cause => wp_localRelease (wp_failHeld a _)⟩,
      ⟨trivial, wp_localRelease (wp_failHeld a _)⟩, ⟨trivial, ⟨entry, encoded, rfl, hc, hz⟩⟩⟩

lemma wp_send (ctx : Option ℕ) {target : Peer} {peer : Option String} (data : Bytes)
    (hpeer : resolvePeer cfg target = .ok peer) :
    (resourceOutline .packet cfg).wp (send cfg ctx peer data)
      ((resourceOutline .packet cfg).ends l₀) (.start (.sendTo ctx target data)) := by
  cases ctx with
  | none => exact wp_returnErr _
  | some ctx =>
    refine ⟨trivial, ?_⟩
    rintro (_ | cause) -
    · refine ⟨⟨rfl, nofun⟩, ?_⟩
      rintro (_ | _) -
      · exact wp_returnErr _
      · show (resourceOutline .packet cfg).wp (if _ then _ else _) _
          (.sender (.sendTo (some ctx) target data) none 0 0 0)
        split
        · exact wp_leave rfl ⟨rfl, rfl, rfl⟩
        · refine (Outline.wp_bind (acquireSlot ctx) _ _ _).mpr (wp_acquireFrameSlot ctx ?_
            fun e => wp_failSend ctx e peer rfl ⟨rfl, rfl, rfl⟩)
          show (resourceOutline .packet cfg).wp (if _ then _ else _) _ _
          split
          · exact wp_failHeld _ _
          · exact ⟨_, _, rfl, rfl, rfl, hpeer⟩
    · exact wp_returnErr _

lemma wp_sendTo (ctx : Option ℕ) (target : Peer) (data : Bytes) :
    (resourceOutline .packet cfg).wp (sendTo cfg ctx target data)
      ((resourceOutline .packet cfg).ends l₀) (.start (.sendTo ctx target data)) := by
  rw [sendTo]
  split
  · exact wp_returnErr _
  · exact wp_send ctx data ‹_›

lemma wp_failTrySend (e : Err) (peer : Option String) (hg : h.inGate = true) (hf : h.Free) :
    (resourceOutline .packet cfg).wp (failTrySend cfg false e peer)
      ((resourceOutline .packet cfg).ends l₀) h := by
  simp only [failTrySend]
  split
  · exact ⟨trivial, fun _ _ => wp_leave hg hf⟩
  · exact wp_leave hg hf

lemma wp_failTryHeld (e : Err) (peer : Option String) :
    (resourceOutline .packet cfg).wp (failTrySend cfg true e peer)
      ((resourceOutline .packet cfg).ends l₀) (.sender entry encoded 1 0 0) := by
  simp only [failTrySend]
  split
  · exact ⟨trivial, fun _ _ => ⟨Nat.one_pos, fun _ _ => wp_leave rfl ⟨rfl, rfl, rfl⟩⟩⟩
  · exact ⟨Nat.one_pos, fun _ _ => wp_leave rfl ⟨rfl, rfl, rfl⟩⟩

lemma wp_tryEnqueue {target : Peer} {data : Bytes} (req : Request)
    (hc : Carries cfg encoded req (.trySendTo target data)) :
    (resourceOutline .packet cfg).wp (tryEnqueue cfg req) ((resourceOutline .packet cfg).ends l₀)
      (.sender (.trySendTo target data) encoded 1 req.bytes (cfg.globalCharge req.bytes)) := by
  refine wp_poll ⟨⟨trivial, ?_⟩, ⟨caseReq_push rfl hc, fun i => ?_⟩⟩ ?_
  · exact wp_handBack (wp_leaveClosed req.peer rfl ⟨rfl, rfl, rfl⟩)
  · exact wp_pushed rfl ⟨⟨rfl, rfl, rfl, rfl⟩, fun _ _ => ⟨i, _, rfl⟩⟩
  · exact wp_handBack (wp_failTrySend (.sentinel .wouldBlock) req.peer rfl ⟨rfl, rfl, rfl⟩)

lemma wp_trySend {target : Peer} {peer : Option String} (data : Bytes)
    (hpeer : resolvePeer cfg target = .ok peer) :
    (resourceOutline .packet cfg).wp (trySend cfg peer data)
      ((resourceOutline .packet cfg).ends l₀) (.start (.trySendTo target data)) := by
  refine ⟨⟨rfl, nofun⟩, ?_⟩
  rintro (_ | _) -
  · exact wp_returnErr _
  · show (resourceOutline .packet cfg).wp (if _ then _ else _) _
      (.sender (.trySendTo target data) none 0 0 0)
    split
    · exact wp_leave rfl ⟨rfl, rfl, rfl⟩
    · refine (Outline.wp_bind tryAcquireSlot _ _ _).mpr (wp_tryAcquireFrameSlot ?_
        fun e => wp_failTrySend e peer rfl ⟨rfl, rfl, rfl⟩)
      exact (Outline.wp_bind (tryAcquireQuota cfg data.length) _ _ _).mpr
        (wp_tryAcquireQuota (wp_tryEnqueue _ ⟨rfl, rfl, hpeer⟩) fun e => wp_failTryHeld e peer)

lemma wp_trySendTo (target : Peer) (data : Bytes) :
    (resourceOutline .packet cfg).wp (trySendTo cfg target data)
      ((resourceOutline .packet cfg).ends l₀) (.start (.trySendTo target data)) := by
  rw [trySendTo]
  split
  · exact wp_returnErr _
  · exact wp_trySend data ‹_›

/-! ### What ends a session -/

lemma neutral_initiateClose (cause : Option Err) :
    (initiateClose cause).Forall fun i => i.neutral = true := by
  refine neutral_onceDo .close ?_
  split
  · exact ⟨rfl, fun _ => ⟨rfl, fun _ => ⟨rfl, fun _ => ⟨rfl, fun _ => trivial⟩⟩⟩⟩
  · exact ⟨rfl, fun _ => ⟨rfl, fun _ => ⟨rfl, fun _ => trivial⟩⟩⟩

/-! ### The writer -/

lemma wp_writeDatagram {i : ℕ} {req : Request} {Q : Option Err → Hand → Prop}
    (hw : h.Writing cfg i req) (hsent : Q none { h with delivered := some req }.attempt)
    (hfailed : ∀ e h', h'.Writing cfg i req → h'.failed = true → Q (some e) h') :
    (resourceOutline .packet cfg).wp (writeDatagram req) Q h := by
  refine ⟨trivial, ?_⟩
  rintro (_ | e) -
  · refine ⟨hw.isWriter, fun e _ => ⟨trivial, fun clearErr _ => ?_⟩⟩
    cases e with
    | some e => cases clearErr <;> exact hfailed _ _ (hw.attempted h.delivered true) rfl
    | none =>
      cases clearErr with
      | none => exact hsent
      | some e => exact hfailed _ _ (hw.attempted (some req) true) rfl
  · exact hfailed _ _ (hw.called true) rfl

lemma wp_handleOutbound {at_ : WriterAt} {i : ℕ} {req : Request} (hw : h.Writing cfg i req)
    (hf : h.failed = false) (hd : at_ = .drain → h.sawDrained = true) :
    (resourceOutline .packet cfg).wp (handleOutbound cfg at_ i req)
      ((resourceOutline .packet cfg).ends l₀) h := by
  refine (Outline.wp_bind (writeDatagram req) _ _ _).mpr
    (wp_writeDatagram hw ?_ fun e h hw hf => ?_)
  · obtain ⟨b, es, tried, rfl, hes⟩ := hw
    let b' : Hand := { b with delivered := none }
    refine ⟨⟨rfl, rfl, ⟨rfl, rfl⟩, _, _, rfl, rfl, hes, fun _ _ => rfl, congrArg not hf.symm⟩,
      fun _ _ => ?_⟩
    refine wp_giveBack (b := b') ?_
    refine wp_countBytes (b := b') ?_
    refine ⟨Nat.le_refl _, fun _ _ => ?_⟩
    refine wp_ackIf (b := b') ?_ ?_ ?_ ?_ ?_ fun e he hr => ?_
    · rfl
    · rfl
    · rfl
    · exact fun _ => rfl
    · exact fun _ => nofun
    · refine ⟨⟨b', e :: es, rfl, fun d hd => by cases hd; exact he⟩, ?_, hd⟩
      exact List.forall_mem_cons.mpr ⟨by rw [hr]; nofun, hes⟩
  · obtain ⟨b, es, tried, rfl, hes⟩ := hw
    let b' : Hand := { b with delivered := none }
    refine ⟨⟨rfl, rfl, ⟨rfl, rfl⟩, _, _, rfl, rfl, hes, nofun, congrArg not hf.symm⟩,
      fun _ _ => ?_⟩
    refine wp_giveBack (b := b') ?_
    refine (Outline.wp_bind (initiateClose _) _ _ _).mpr
      (wp_neutral (neutral_initiateClose _) fun _ => ?_)
    refine (Outline.wp_bind (closedError cfg req.peer) _ _ _).mpr
      (wp_neutral (neutral_closedError req.peer) fun sendErr => ?_)
    exact wp_failAck b' es rfl rfl rfl nofun

lemma wp_writer {at_ : WriterAt} (hr : h.Ready) (hw : h.Written)
    (hd : at_ = .drain → h.sawDrained = true) :
    (resourceOutline .packet cfg).wp (writer cfg at_) ((resourceOutline .packet cfg).ends l₀)
      h := by
  cases at_ with
  | running =>
    exact wp_select ⟨⟨trivial, hr⟩, ⟨trivial, ⟨hr, hw, nofun⟩⟩,
      ⟨hr.caseReq_pop, fun i req => wp_handleOutbound (hr.popped hw _ i req) rfl nofun⟩⟩
  | graceful =>
    exact wp_select ⟨⟨trivial, hr⟩,
      ⟨hr.caseReq_pop, fun i req => wp_handleOutbound (hr.popped hw _ i req) rfl nofun⟩,
      ⟨trivial, ⟨hr.drained cfg _, hw, fun _ => rfl⟩⟩⟩
  | drain =>
    refine wp_poll ⟨hr.caseReq_pop, fun i req =>
      wp_handleOutbound (hr.popped hw _ i req) rfl hd⟩ ?_
    exact (Outline.wp_bind (initiateClose none) _ _ _).mpr
      (wp_neutral (neutral_initiateClose none) fun _ => hr.polled cfg [.pop])

lemma wp_writerExit (hr : h.Ready) :
    (resourceOutline .packet cfg).wp writerExit ((resourceOutline .packet cfg).ends l₀) h :=
  wp_select ⟨trivial, ⟨hr.drained cfg _, rfl, fun hk => absurd rfl hk⟩⟩

lemma wp_failPending (hr : h.Ready) (hd : h.sawDrained = true) :
    (resourceOutline .packet cfg).wp (failPending cfg) ((resourceOutline .packet cfg).ends l₀)
      h := by
  refine wp_poll ⟨hr.caseReq_pop, fun i req => ?_⟩ (wp_endWriter hr hd)
  obtain ⟨b, spent, rfl, -⟩ := hr
  rw [Hand.fired_popped]
  let b' : Hand := { b with failed := false }
  refine wp_giveBack (b := b') ?_
  cases hack : req.hasAck with
  | false =>
    refine ⟨⟨b', _ :: spent, rfl, fun d hd => ?_⟩, hd, fun hk => absurd rfl hk⟩
    cases hd
    exact ⟨by simp [Request.acks, hack], fun h => absurd h Bool.false_ne_true⟩
  | true =>
    refine (Outline.wp_bind (closedError cfg req.peer) _ _ _).mpr
      (wp_neutral (neutral_closedError req.peer) fun e => ?_)
    refine ⟨⟨rfl, rfl, _, spent, rfl, rfl, rfl, hack, by simp⟩, fun _ _ => ?_⟩
    refine ⟨⟨b', _ :: spent, rfl, fun d hd => ?_⟩, hd, fun hk => absurd rfl hk⟩
    cases hd
    exact ⟨by simp [Request.acks, hack], fun h => absurd h Bool.false_ne_true⟩

/-! ### All programs -/

lemma wp_finalizer : (resourceOutline .packet cfg).wp finalizer
    ((resourceOutline .packet cfg).ends l₀) (.start .finalizer) :=
  ⟨trivial, fun _ _ => (Outline.wp_bind finalize _ _ _).mpr
    (wp_finalizeWith (neutral_initiateClose none) rfl trivial)⟩

/-- Every program of a packet connection keeps to the outline. -/
lemma wp_body (l : SLabel) (hh : (resourceOutline .packet cfg).pre l h) :
    (resourceOutline .packet cfg).wp (body cfg l) ((resourceOutline .packet cfg).ends l₀) h := by
  cases l with
  | sendTo ctx target data =>
    cases hh
    exact wp_sendTo ctx target data
  | trySendTo target data =>
    cases hh
    exact wp_trySendTo target data
  | acquireLocal a =>
    obtain ⟨entry, encoded, rfl, hc⟩ := hh
    exact wp_acquireLocal a hc
  | acquireGlobal a =>
    obtain ⟨entry, encoded, rfl, hc, hz⟩ := hh
    exact wp_acquireGlobal a hc hz
  | writerLoop =>
    cases hh
    exact ⟨Hand.ready_start, nofun, nofun⟩
  | writer at_ => exact wp_writer hh.1 hh.2.1 hh.2.2
  | writerExit => exact wp_writerExit hh
  | failPending e => exact wp_failPending hh.1 hh.2.1
  | finalizer =>
    cases hh
    exact wp_finalizer
  | send _ _ | trySend _ | writing _ _ _ _ => exact Hand.post_unit h
  | _ => exact wp_idle rfl (by nofun) hh

end Packet

end Ogrenet
