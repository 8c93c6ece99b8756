import Ogrenet.Session.Frames.Desk

/-!
# The functions of a stream session keep to the outline of the encoder slot
-/

namespace Ogrenet

open Interleaving Interleaving.Prog Ses

namespace Desk

variable {cfg : SessionConfig} {α : Type} {d : Desk}

/-! ### Rules -/

lemma wp_select {cases : List Case} {k : Fired → SProg α} {Q : α → Desk → Prop}
    (hc : Case.Each (fun c => d.caseReq cases c ∧ c.All fun r =>
      (frameOutline cfg).wp (k r) Q (d.upd cfg (.select cases false) r)) cases) :
    (frameOutline cfg).wp (.op (.select cases false) k) Q d :=
  ⟨fun c hm => (hc.mem c hm).1, fun _ hr => hr.all (fun c hm => (hc.mem c hm).2) (by simp)⟩

lemma wp_poll {cases : List Case} {k : Fired → SProg α} {Q : α → Desk → Prop}
    (hc : Case.Each (fun c => d.caseReq cases c ∧ c.All fun r =>
      (frameOutline cfg).wp (k r) Q (d.upd cfg (.select cases true) r)) cases)
    (hd : (frameOutline cfg).wp (k .default) Q (d.upd cfg (.select cases true) .default)) :
    (frameOutline cfg).wp (.op (.select cases true) k) Q d :=
  ⟨fun c hm => (hc.mem c hm).1, fun _ hr => hr.all (fun c hm => (hc.mem c hm).2) fun _ => hd⟩

/-- The end of a send, in which nothing is at the desk any more. -/
lemma wp_leave {l₀ : SLabel} {v : Option Err} (h : d.encoding = .away) :
    (frameOutline cfg).wp (do gateLeave; returnErr v) ((frameOutline cfg).ends l₀) d :=
  ⟨h, fun _ _ => ⟨h, rfl⟩⟩

lemma wp_quotaRelease {Q : Unit → Desk → Prop} {encoding : Encoding} {waiting : Bool}
    {entry : SLabel} {encoded : Option Bytes} {slots shared n : ℕ}
    (hQ : ∀ shared', Q () (preparing encoding false entry encoded slots 0 shared')) :
    (frameOutline cfg).wp (quotaRelease n) Q
      (preparing encoding waiting entry encoded slots n shared) := by
  refine ⟨fun _ => Nat.le_refl n, fun _ _ => ⟨trivial, fun _ _ => ?_⟩⟩
  have hQ := hQ (shared - cfg.globalCharge n)
  rw [← Nat.sub_self n] at hQ
  exact hQ

lemma wp_localRelease {k : Unit → SProg α} {Q : α → Desk → Prop} {encoding : Encoding}
    {waiting : Bool} {entry : SLabel} {encoded : Option Bytes} {slots shared n : ℕ}
    (hk : (frameOutline cfg).wp (k ()) Q (preparing encoding false entry encoded slots 0 shared)) :
    (frameOutline cfg).wp (.op (.localRelease n) k) Q
      (preparing encoding waiting entry encoded slots n shared) := by
  refine ⟨fun _ => Nat.le_refl n, fun _ _ => ?_⟩
  rw [← Nat.sub_self n] at hk
  exact hk

lemma wp_localSection {k : Option ℕ → SProg α} {Q : α → Desk → Prop} {waiting : Bool}
    {entry : SLabel} {frame : Bytes}
    (hnone : (frameOutline cfg).wp (k none) Q (preparing (.framed frame)
      (waiting && decide (0 < cfg.globalCharge frame.length)) entry (some frame) 1 frame.length 0))
    (hsome : ∀ g, (frameOutline cfg).wp (k (some g)) Q
      (preparing (.framed frame) waiting entry (some frame) 1 0 0)) :
    (frameOutline cfg).wp (.op (.localSection frame.length) k) Q
      (preparing (.framed frame) waiting entry (some frame) 1 0 0) := by
  refine ⟨⟨rfl, frame, rfl, rfl⟩, ?_⟩
  rintro (_ | g) -
  · show (frameOutline cfg).wp (k none) Q (preparing _ _ entry _ 1 (0 + frame.length) 0)
    rw [Nat.zero_add]
    exact hnone
  · exact hsome g

/-- When the engine has no budget to charge, a charged frame waits no more. -/
lemma not_waits {n : ℕ} {waiting : Bool} (h : cfg.maxQueuedBytesTotal = 0 ∨ n = 0) :
    (waiting && decide (0 < cfg.globalCharge n)) = false := by
  rw [globalCharge_of_zero h]
  exact Bool.and_false waiting

/-- The charge of `tryAcquire` is all or nothing. -/
lemma wp_tryAcquireQuota {Q : Option Err → Desk → Prop} {entry : SLabel} {frame : Bytes}
    (hnone : ∀ shared, Q none
      (preparing (.framed frame) false entry (some frame) 1 frame.length shared))
    (hsome : ∀ e, Q (some e) (preparing (.framed frame) false entry (some frame) 1 0 0)) :
    (frameOutline cfg).wp (tryAcquireQuota cfg frame.length) Q (preparing (.framed frame)
      (decide (frame.length ≤ cfg.maxQueuedBytes)) entry (some frame) 1 0 0) := by
  simp only [tryAcquireQuota]
  split
  · rw [decide_eq_false (Nat.not_le.mpr ‹_›)]
    exact hsome _
  · refine ⟨⟨rfl, frame, rfl, rfl⟩, ?_⟩
    rintro (_ | _) -
    · exact hsome _
    · show (frameOutline cfg).wp _ _ (preparing (.framed frame)
        (_ && decide (0 < cfg.globalCharge frame.length)) entry (some frame) 1 (0 + frame.length) 0)
      rw [Nat.zero_add]
      refine (Outline.wp_bind (tryAcquireGlobal cfg frame.length) _ _ _).mpr ?_
      simp only [tryAcquireGlobal]
      split
      · rw [not_waits ‹_›]
        exact hnone 0
      · split
        · exact wp_localRelease (hsome _)
        · refine ⟨trivial, ?_⟩
          rintro (_ | _) -
          · exact wp_localRelease (hsome _)
          · exact hnone _

/-! ### Senders -/

section Senders

open Conn

variable {l₀ entry : SLabel} {encoded : Option Bytes} {shared : ℕ} {waiting : Bool}

lemma wp_failSend (ctx : ℕ) (e : Err) (h : d.encoding = .away) :
    (frameOutline cfg).wp (failSend cfg ctx e) ((frameOutline cfg).ends l₀) d := by
  refine ⟨trivial, ?_⟩
  rintro (_ | cause) -
  · exact wp_leave h
  · exact wp_leave h

/-- The deferred calls of `prepareSend` release the encoder slot and then the frame slot. -/
lemma wp_failPrepared (ctx : ℕ) (e : Err) {encoding : Encoding} (h : encoding ≠ .away) :
    (frameOutline cfg).wp (failPrepared cfg ctx e) ((frameOutline cfg).ends l₀)
      (preparing encoding false entry encoded 1 0 0) := by
  refine ⟨⟨h, rfl⟩, fun _ _ => ⟨⟨rfl, rfl, fun _ => rfl⟩, fun _ _ => ?_⟩⟩
  exact wp_failSend ctx e rfl

lemma wp_awaitAck (ctx i : ℕ) (h : d.encoding = .away) :
    (frameOutline cfg).wp (awaitAck cfg ctx i) ((frameOutline cfg).ends l₀) d := by
  refine wp_select ⟨⟨trivial, fun v => wp_leave h⟩, ⟨trivial, fun _ => wp_leave h⟩, ⟨trivial, ?_⟩⟩
  refine wp_poll ⟨trivial, fun v => wp_leave h⟩ ⟨trivial, ?_⟩
  rintro (_ | cause) -
  · refine ⟨trivial, ?_⟩
    rintro (_ | terminal) -
    · exact wp_leave h
    · exact wp_leave h
  · exact wp_leave h

lemma wp_enqueue (a : Sending) :
    (frameOutline cfg).wp (enqueue cfg a) ((frameOutline cfg).ends l₀)
      (preparing .away false entry (some a.frame) 1 a.frame.length shared) := by
  refine wp_select ⟨⟨trivial, fun cause => ?_⟩, ⟨trivial, ?_⟩,
    ⟨⟨rfl, rfl, rfl, rfl⟩, fun i => wp_awaitAck a.ctx i rfl⟩⟩
  · refine (Outline.wp_bind (quotaRelease a.frame.length) _ _ _).mpr (wp_quotaRelease fun _ => ?_)
    exact ⟨⟨rfl, rfl, fun _ => rfl⟩, fun _ _ => wp_leave rfl⟩
  · refine (Outline.wp_bind (quotaRelease a.frame.length) _ _ _).mpr (wp_quotaRelease fun _ => ?_)
    refine ⟨⟨rfl, rfl, fun _ => rfl⟩, fun _ _ => ⟨trivial, ?_⟩⟩
    rintro (_ | cause) -
    · exact wp_leave rfl
    · exact wp_leave rfl

lemma wp_acquireLocal (a : Sending) (h : entry ≠ .writerLoop) :
    (frameOutline cfg).wp (acquireLocal cfg a) ((frameOutline cfg).ends l₀)
      (preparing (.framed a.frame) waiting entry (some a.frame) 1 0 0) := by
  refine wp_localSection ?_ fun g => ?_
  · show (frameOutline cfg).wp (if _ then _ else _) _ _
    split
    · rw [not_waits ‹_›]
      exact ⟨⟨Encoding.noConfusion, rfl⟩, fun _ _ => wp_enqueue a⟩
    · split
      · exact wp_localRelease (wp_failPrepared a.ctx _ Encoding.noConfusion)
      · exact ⟨_, entry, h, rfl⟩
  · exact wp_select ⟨⟨trivial, fun _ => wp_failPrepared a.ctx _ Encoding.noConfusion⟩,
      ⟨trivial, wp_failPrepared a.ctx _ Encoding.noConfusion⟩, ⟨trivial, waiting, entry, h, rfl⟩⟩

lemma wp_acquireGlobal (a : Sending) (h : entry ≠ .writerLoop) :
    (frameOutline cfg).wp (acquireGlobal cfg a) ((frameOutline cfg).ends l₀)
      (preparing (.framed a.frame) waiting entry (some a.frame) 1 a.frame.length 0) := by
  refine ⟨trivial, ?_⟩
  rintro (_ | g) -
  · exact ⟨⟨Encoding.noConfusion, rfl⟩, fun _ _ => wp_enqueue a⟩
  · have hfail : ∀ e, (frameOutline cfg).wp
        (do localRelease a.frame.length; failPrepared cfg a.ctx e) ((frameOutline cfg).ends l₀)
        (preparing (.framed a.frame) waiting entry (some a.frame) 1 a.frame.length 0) :=
      fun e => wp_localRelease (wp_failPrepared a.ctx e Encoding.noConfusion)
    exact wp_select ⟨⟨trivial, fun _ => hfail _⟩, ⟨trivial, hfail _⟩,
      ⟨trivial, waiting, entry, h, rfl⟩⟩

/-- The check of `closing` gives the encoder slot back when it fails. -/
lemma wp_checkEncoder {Q : Option Err → Desk → Prop}
    (hnone : Q none (preparing .ready false entry none 1 0 0))
    (hsome : ∀ e, Q (some e) (preparing .away false entry none 1 0 0)) :
    (frameOutline cfg).wp checkEncoder Q (preparing .ready false entry none 1 0 0) := by
  refine (Outline.wp_bind isClosing _ _ _).mpr (wp_poll ⟨trivial, ?_⟩ hnone)
  exact ⟨⟨Encoding.noConfusion, rfl⟩, fun _ _ => hsome _⟩

lemma wp_send (ctx : Option ℕ) (msg : Message) :
    (frameOutline cfg).wp (send cfg ctx msg) ((frameOutline cfg).ends l₀)
      (.start (.send ctx msg)) := by
  cases ctx with
  | none => exact ⟨rfl, rfl⟩
  | some ctx =>
    refine ⟨trivial, ?_⟩
    rintro (_ | cause) -
    · refine ⟨rfl, ?_⟩
      rintro (_ | _) -
      · exact ⟨rfl, rfl⟩
      · show (frameOutline cfg).wp _ _ (preparing .away false (.send (some ctx) msg) none 0 0 0)
        cases msg.validate with
        | error e => exact wp_leave rfl
        | ok _ =>
          refine (Outline.wp_bind (acquireFrameSlot ctx) _ _ _).mpr ?_
          refine wp_select ⟨⟨trivial, fun _ => wp_failSend ctx _ rfl⟩,
            ⟨trivial, wp_failSend ctx _ rfl⟩, ⟨⟨rfl, rfl⟩, ?_⟩⟩
          -- the slot is in hand: every failure from here on gives it back
          have hfail : ∀ e, (frameOutline cfg).wp (do releaseSlot; failSend cfg ctx e)
              ((frameOutline cfg).ends l₀)
              (preparing .away false (.send (some ctx) msg) none 1 0 0) := fun e =>
            ⟨⟨rfl, rfl, fun _ => rfl⟩, fun _ _ => wp_failSend ctx e rfl⟩
          refine (Outline.wp_bind (acquireEncoder ctx) _ _ _).mpr ?_
          refine wp_select ⟨⟨trivial, fun _ => hfail _⟩, ⟨trivial, hfail _⟩,
            ⟨⟨rfl, by simp [preparing, upd, Hand.upd_entry, Hand.sender], rfl, rfl⟩,
              wp_checkEncoder ?_ hfail⟩⟩
          refine ⟨⟨rfl, rfl, rfl⟩, ?_⟩
          rintro (e | frame) -
          · exact wp_failPrepared ctx e Encoding.noConfusion
          · show (frameOutline cfg).wp (if _ then _ else _) _ (preparing (.framed frame)
              (decide (frame.length ≤ cfg.maxQueuedBytes)) _ (some frame) 1 0 0)
            split
            · rw [decide_eq_false (Nat.not_le.mpr ‹_›)]
              exact wp_failPrepared ctx _ Encoding.noConfusion
            · exact ⟨_, .send (some ctx) msg, by simp, rfl⟩
    · exact ⟨rfl, rfl⟩

lemma wp_failTrySend (e : Err) (h : d.encoding = .away) :
    (frameOutline cfg).wp (failTrySend cfg e) ((frameOutline cfg).ends l₀) d := by
  simp only [failTrySend]
  split
  · exact ⟨trivial, fun _ _ => wp_leave h⟩
  · exact wp_leave h

lemma wp_tryEnqueue (req : Request) :
    (frameOutline cfg).wp (tryEnqueue cfg req) ((frameOutline cfg).ends l₀)
      (preparing .away false entry (some req.frame) 1 req.bytes shared) := by
  refine wp_poll ⟨⟨trivial, ?_⟩, ⟨⟨rfl, rfl, rfl, rfl⟩, fun i => wp_leave rfl⟩⟩ ?_
  · refine (Outline.wp_bind (quotaRelease req.bytes) _ _ _).mpr (wp_quotaRelease fun _ => ?_)
    exact ⟨⟨rfl, rfl, fun _ => rfl⟩, fun _ _ => wp_leave rfl⟩
  · refine (Outline.wp_bind (quotaRelease req.bytes) _ _ _).mpr (wp_quotaRelease fun _ => ?_)
    exact ⟨⟨rfl, rfl, fun _ => rfl⟩, fun _ _ => ⟨trivial, fun _ _ => wp_leave rfl⟩⟩

lemma wp_trySend (msg : Message) :
    (frameOutline cfg).wp (trySend cfg msg) ((frameOutline cfg).ends l₀)
      (.start (.trySend msg)) := by
  refine ⟨rfl, ?_⟩
  rintro (_ | _) -
  · exact ⟨rfl, rfl⟩
  · show (frameOutline cfg).wp _ _ (preparing .away false (.trySend msg) none 0 0 0)
    cases msg.validate with
    | error e => exact wp_leave rfl
    | ok _ =>
      refine (Outline.wp_bind tryAcquireFrameSlot _ _ _).mpr ?_
      refine wp_poll ⟨⟨trivial, wp_failTrySend _ rfl⟩, ⟨⟨rfl, rfl⟩, ?_⟩⟩ (wp_failTrySend _ rfl)
      have hfail : ∀ e, (frameOutline cfg).wp (do releaseSlot; failTrySend cfg e)
          ((frameOutline cfg).ends l₀) (preparing .away false (.trySend msg) none 1 0 0) :=
        fun e => ⟨⟨rfl, rfl, fun _ => rfl⟩, fun _ _ => wp_failTrySend e rfl⟩
      refine (Outline.wp_bind tryAcquireEncoder _ _ _).mpr ?_
      refine wp_poll ⟨⟨trivial, hfail _⟩,
        ⟨⟨rfl, by simp [preparing, upd, Hand.upd_entry, Hand.sender], rfl, rfl⟩,
          wp_checkEncoder ?_ hfail⟩⟩ (hfail _)
      refine ⟨⟨rfl, rfl, rfl⟩, ?_⟩
      rintro (e | frame) -
      · exact ⟨⟨Encoding.noConfusion, rfl⟩, fun _ _ => hfail e⟩
      · refine (Outline.wp_bind (tryAcquireQuota cfg frame.length) _ _ _).mpr
          (wp_tryAcquireQuota (fun _ => ?_) fun e => ?_)
        · exact ⟨⟨Encoding.noConfusion, rfl⟩, fun _ _ => wp_tryEnqueue _⟩
        · exact ⟨⟨Encoding.noConfusion, rfl⟩, fun _ _ => ⟨⟨rfl, rfl, fun _ => rfl⟩, fun _ _ =>
            wp_failTrySend e rfl⟩⟩

end Senders

end Desk

/-! ### Everybody else -/

/-- The step is one that a goroutine with this role may do without a desk. -/
def SInstr.offDesk (role : Role) : SInstr → Bool
  | .gateEnter | .gateLeave | .encode _ | .releaseEncoder | .localSection _ | .localTry _ => false
  | .select cases _ => cases.all (Case.fits role)
  | _ => true

lemma SInstr.Plain.offDesk {i : SInstr} {role : Role} (h : i.Plain False .conn role)
    (hrole : role ≠ .sender) : i.offDesk role = true := by
  have hplain := h.plain
  cases i with
  | gateEnter | gateLeave | encode _ | releaseEncoder | localSection _ | localTry _ =>
    exact absurd (beq_iff_eq.mp hplain) hrole
  | select cases dflt => exact hplain
  | _ => rfl

lemma SInstr.Ending.offDesk {i : SInstr} {role : Role} (h : i.Ending False .conn role) :
    i.offDesk role = true := by
  cases i with
  | gateEnter | gateLeave | encode _ | releaseEncoder | localSection _ | localTry _ => exact h.elim
  | select cases dflt => exact h
  | _ => rfl

namespace Desk

variable {cfg : SessionConfig} {d : Desk} {role : Role}

lemma Elsewhere.caseReq (h : d.Elsewhere role) (hrole : role ≠ .sender) {cases : List Case}
    {c : Case} (hc : c.fits role = true) : d.caseReq cases c := by
  cases c with
  | slot | encoder | push _ => exact absurd (beq_iff_eq.mp hc) hrole
  | pop => exact h.writer (beq_iff_eq.mp hc)
  | _ => trivial

lemma Elsewhere.fired (h : d.Elsewhere role) (hrole : role ≠ .sender) {cases : List Case}
    {dflt : Bool} {r : Fired} (hc : cases.all (Case.fits role) = true)
    (hr : r.From cases dflt) : (d.upd cfg (.select cases dflt) r).Elsewhere role := by
  refine hr.all (P := fun r => (d.upd cfg (.select cases dflt) r).Elsewhere role)
    (fun c hm => ?_) fun _ => ⟨⟨h.away, h.idle, h.own⟩, h.outside, h.writer⟩
  have hfits := List.all_eq_true.mp hc c hm
  cases c with
  | slot | encoder | push _ => exact absurd (beq_iff_eq.mp hfits) hrole
  | pop =>
    intro i req
    have hentry := h.writer (beq_iff_eq.mp hfits)
    exact ⟨⟨h.away, h.idle, fun hne => absurd hentry hne⟩, h.outside, h.writer⟩
  | ack j =>
    intro v
    cases v <;> exact ⟨⟨h.away, h.idle, h.own⟩, h.outside, h.writer⟩
  | ctxDone _ => exact fun _ => ⟨⟨h.away, rfl, h.own⟩, h.outside, h.writer⟩
  | timer => exact fun _ => ⟨⟨h.away, h.idle, h.own⟩, h.outside, h.writer⟩
  | closed _ => exact ⟨⟨h.away, rfl, h.own⟩, h.outside, h.writer⟩
  | _ => exact ⟨⟨h.away, h.idle, h.own⟩, h.outside, h.writer⟩

lemma Elsewhere.step (h : d.Elsewhere role) (hrole : role ≠ .sender) {i : SInstr}
    (hi : i.offDesk role = true) :
    (frameOutline cfg).req i d ∧
      ∀ r, (frameOutline cfg).ans i r d → ((frameOutline cfg).upd i r d).Elsewhere role := by
  cases i with
  | gateEnter | gateLeave | encode _ | releaseEncoder | localSection _ | localTry _ => cases hi
  | select cases dflt =>
    have hall := List.all_eq_true.mp hi
    exact ⟨fun c hm => h.caseReq hrole (hall c hm), fun r hr => h.fired hrole hi hr⟩
  | releaseSlot => exact ⟨h.toRests, fun _ _ => ⟨⟨h.away, h.idle, h.own⟩, h.outside, h.writer⟩⟩
  | localRelease n =>
    refine ⟨fun hne => ?_, fun _ _ => ⟨⟨h.away, rfl, fun hne => ?_⟩, h.outside, h.writer⟩⟩
    · rw [h.own hne]
      exact Nat.zero_le n
    · show d.hand.own - n = 0
      rw [h.own hne, Nat.zero_sub]
  | globalTry n =>
    refine ⟨trivial, fun r _ => ?_⟩
    cases r <;> exact ⟨⟨h.away, rfl, h.own⟩, h.outside, h.writer⟩
  | globalSection n =>
    refine ⟨trivial, fun r _ => ?_⟩
    cases r with
    | none => exact ⟨⟨h.away, rfl, h.own⟩, h.outside, h.writer⟩
    | some g => exact ⟨⟨h.away, h.idle, h.own⟩, h.outside, h.writer⟩
  | count c n =>
    refine ⟨trivial, fun _ _ => ?_⟩
    cases c <;> exact ⟨⟨h.away, h.idle, h.own⟩, h.outside, h.writer⟩
  | setWriteDeadline | wsWrite _ | packetWrite _ =>
    refine ⟨trivial, fun r _ => ?_⟩
    cases r <;> exact ⟨⟨h.away, h.idle, h.own⟩, h.outside, h.writer⟩
  | _ => exact ⟨trivial, fun _ _ => ⟨⟨h.away, h.idle, h.own⟩, h.outside, h.writer⟩⟩

lemma wp_elsewhere {l l₀ : SLabel} (hrole : l.role ≠ .sender) (h : d.Elsewhere l.role) :
    (frameOutline cfg).wp (Conn.body cfg l) ((frameOutline cfg).ends l₀) d := by
  refine Outline.wp_of_made (J := fun d => d.Elsewhere l.role)
    (made_body False .conn cfg l (Role.stays_self l)) ?_ ?_ ?_ ?_ h
  · intro i hi d hd
    obtain ⟨hreq, hans⟩ := @Elsewhere.step cfg _ _ hd hrole _ (hi.offDesk hrole)
    exact ⟨hreq, fun r hr => ⟨False.elim, hans r hr⟩⟩
  · rintro i n ⟨rfl, -, rfl⟩ d hd
    exact ⟨trivial, fun _ _ => ⟨hd.away, hd.outside⟩⟩
  · intro β p hp d hd
    refine Outline.wp_of_within (hp.ending.imp ?_ fun _ => id) (fun _ _ _ h => h) hd
    exact fun i hi d hd => hd.step hrole hi.offDesk
  · intro n d hn hd
    cases n with
    | ret v => exact ⟨hd.away, hd.outside⟩
    | goto l' =>
      have hl' := hn.role_eq
      rw [← hl'] at hd hrole
      cases l' with
      | acquireLocal a | acquireGlobal a | send ctx msg | trySend msg => exact absurd rfl hrole
      | _ => exact hd

lemma wp_body {l l₀ : SLabel} (h : (frameOutline cfg).pre l d) :
    (frameOutline cfg).wp (Conn.body cfg l) ((frameOutline cfg).ends l₀) d := by
  cases l with
  | acquireLocal a =>
    obtain ⟨_, entry, hne, rfl⟩ := h
    exact wp_acquireLocal a hne
  | acquireGlobal a =>
    obtain ⟨_, entry, hne, rfl⟩ := h
    exact wp_acquireGlobal a hne
  | send ctx msg =>
    obtain rfl := h
    exact wp_send ctx msg
  | trySend msg =>
    obtain rfl := h
    exact wp_trySend msg
  | sendTo _ _ _ | trySendTo _ _ => exact ⟨h.away, h.outside⟩
  | _ => exact wp_elsewhere (by simp [SLabel.role]) h

end Desk

end Ogrenet
