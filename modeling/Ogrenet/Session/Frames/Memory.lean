import Ogrenet.Session.Frames.Programs

/-!
# The memory of encoded frames is bounded

On a stream session at most one call at a time has a frame that is encoded and not yet admitted by
the byte budgets, the charged bytes stay within `maxQueuedBytes`, and no more than `writeQueue + 1`
frames are in preparation, queued or in flight.
-/

namespace Ogrenet

open Interleaving Interleaving.Prog

variable {cfg : SessionConfig} {s s' : Session} {x : Choice}

/-! ### The shared state -/

/-- The part of the state that bounds the frames. -/
def Session.shelf (s : Session) : Bool × ℕ × ByteQuota := (s.encoder, s.slots, s.quota)

def Case.shelved : Case → Bool
  | .slot | .encoder => true
  | _ => false

def SInstr.shelved : SInstr → Bool
  | .releaseSlot | .releaseEncoder | .localSection _ | .localTry _ | .localRelease _ => true
  | .select _ _ => true
  | _ => false

lemma Session.fire_shelf {c : Case} {r : Fired} (hc : c.shelved = false)
    (h : s.fire cfg x c = some (s', r)) : s'.shelf = s.shelf := by
  cases c with
  | slot | encoder => cases hc
  | ctxDone k =>
    obtain ⟨e, -, h⟩ := Option.map_eq_some_iff.mp h
    cases h
    rfl
  | closed _ | drained | push req =>
    obtain ⟨-, h⟩ := Option.ite_none_right_eq_some.mp h
    cases h
    rfl
  | changedLocal g | changedGlobal g =>
    obtain ⟨-, h⟩ := Option.ite_none_left_eq_some.mp h
    cases h
    rfl
  | pop | ack i =>
    simp only [fire] at h
    split at h <;> cases h
    rfl
  | timer =>
    cases h
    rfl

lemma Session.exec_shelf {i : SInstr} {r : i.Resp} (hi : i.shelved = false)
    (h : s.exec cfg x i = some (s', r)) : s'.shelf = s.shelf := by
  cases i with
  | select _ _ | releaseSlot | releaseEncoder | localSection _ | localTry _ | localRelease _ =>
    cases hi
  | waitLoops =>
    obtain ⟨-, h⟩ := Option.ite_none_right_eq_some.mp h
    cases h
    rfl
  | encode _ | request _ | abortSection _ _ | tryTerminal | onceEnter _ | deferRead _
  | decodeOne _ | wsWrite _ | wsRead | wsDecode _ _ | packetWrite _ | ack _ _ | globalRelease _ =>
    simp only [exec] at h
    split at h <;> cases h <;> rfl
  | _ =>
    cases h
    rfl

/-- The bounds that `adoptStreamWithLease` sets up with its channels and its budget. -/
structure Session.Bounded (cfg : SessionConfig) (s : Session) : Prop where
  slots : s.slots ≤ cfg.writeQueue + 1
  limit : s.quota.limit = cfg.maxQueuedBytes
  used : s.quota.used ≤ s.quota.limit

lemma Session.Bounded.of_shelf (h : s.Bounded cfg) (heq : s'.shelf = s.shelf) : s'.Bounded cfg := by
  simp only [shelf, Prod.mk.injEq] at heq
  obtain ⟨-, hslots, hquota⟩ := heq
  constructor
  · rw [hslots]
    exact h.slots
  · rw [hquota]
    exact h.limit
  · rw [hquota]
    exact h.used

lemma Session.Bounded.fire (h : s.Bounded cfg) {c : Case} {r : Fired}
    (hx : s.fire cfg x c = some (s', r)) : s'.Bounded cfg := by
  cases c with
  | slot =>
    obtain ⟨hlt, hx⟩ := Option.ite_none_right_eq_some.mp hx
    cases hx
    exact ⟨hlt, h.limit, h.used⟩
  | encoder =>
    obtain ⟨-, hx⟩ := Option.ite_none_left_eq_some.mp hx
    cases hx
    exact ⟨h.slots, h.limit, h.used⟩
  | _ => exact h.of_shelf (fire_shelf rfl hx)

lemma Session.Bounded.exec (h : s.Bounded cfg) {i : SInstr} {r : i.Resp}
    (hx : s.exec cfg x i = some (s', r)) : s'.Bounded cfg := by
  cases i with
  | select cases dflt =>
    obtain ⟨c, -, hx⟩ | ⟨-, -, rfl, -⟩ := select_cases hx
    · exact h.fire hx
    · exact h
  | releaseSlot =>
    obtain ⟨-, hx⟩ := Option.ite_none_left_eq_some.mp hx
    cases hx
    exact ⟨Nat.le_trans (Nat.sub_le _ _) h.slots, h.limit, h.used⟩
  | releaseEncoder =>
    obtain ⟨-, hx⟩ := Option.ite_none_right_eq_some.mp hx
    cases hx
    exact ⟨h.slots, h.limit, h.used⟩
  | localSection n =>
    cases hx
    refine ⟨h.slots, ByteQuota.limit_acquireSection.trans h.limit, ?_⟩
    rcases ByteQuota.acquireSection_cases (q := s.quota) (n := n) with ⟨hfits, heq⟩ | ⟨-, _, -, heq⟩
    · rw [heq]
      exact hfits
    · show (s.quota.acquireSection n).1.used ≤ (s.quota.acquireSection n).1.limit
      rw [heq, ByteQuota.limit_acquireSection]
      exact h.used
  | localTry n =>
    cases hx
    refine ⟨h.slots, ByteQuota.limit_tryAcquire.trans h.limit, ?_⟩
    rcases ByteQuota.tryAcquire_cases (q := s.quota) (n := n) with ⟨hfits, heq⟩ | heq
    · rw [heq]
      exact hfits
    · rw [heq]
      exact h.used
  | localRelease n =>
    cases hx
    refine ⟨h.slots, ByteQuota.limit_release.trans h.limit, ?_⟩
    show (s.quota.release n).used ≤ (s.quota.release n).limit
    rw [ByteQuota.release_used, ByteQuota.limit_release]
    exact Nat.le_trans (Nat.sub_le _ _) h.used
  | _ => exact h.of_shelf (exec_shelf rfl hx)

/-! ### The encoder slot -/

namespace Desk

variable {d : Desk} {ds : List Desk} {t : ℕ}

lemma encoders_away (h : d.encoding = .away) : d.encoders = 0 := if_pos h

lemma encoders_held (h : d.encoding ≠ .away) : d.encoders = 1 := if_neg h

/-- Only taking and releasing the slot changes whether it is held. -/
lemma encoders_upd {i : SInstr} {r : i.Resp} (hi : i.shelved = false) (hreq : d.req i) :
    (d.upd cfg i r).encoders = d.encoders := by
  cases i with
  | select _ _ | releaseSlot | releaseEncoder | localSection _ | localTry _ | localRelease _ =>
    cases hi
  | encode msg =>
    cases r with
    | error e => rfl
    | ok frame =>
      rw [encoders_held (d := d) (by rw [hreq.1]; exact Encoding.noConfusion)]
      exact encoders_held Encoding.noConfusion
  | _ => rfl

/-- A case of a `select` that fires. -/
lemma encoder_fire (h : s.encoder.toNat = total encoders ds) (ht : ds[t]? = some d)
    {cases : List Case} {dflt : Bool} {c : Case} {r : Fired} (hreq : d.caseReq cases c)
    (hx : s.fire cfg x c = some (s', r)) :
    s'.encoder.toNat = total encoders (ds.set t (d.upd cfg (.select cases dflt) r)) := by
  have hkeep : s'.encoder = s.encoder → r ≠ .encoder →
      s'.encoder.toNat = total encoders (ds.set t (d.upd cfg (.select cases dflt) r)) := by
    intro hs hr
    have hsame : (d.upd cfg (.select cases dflt) r).encoders = d.encoders := by
      cases r with
      | encoder => exact absurd rfl hr
      | _ => rfl
    rw [hs, h, total_set_eq ht hsame]
  cases c with
  | encoder =>
    obtain ⟨hfree, hx⟩ := Option.ite_none_left_eq_some.mp hx
    cases hx
    have htotal := total_set (f := encoders) (d.upd cfg (.select cases dflt) .encoder) ht
    have hnew : (d.upd cfg (.select cases dflt) .encoder).encoders = 1 :=
      encoders_held Encoding.noConfusion
    rw [encoders_away hreq.1, hnew, ← h, Bool.eq_false_iff.mpr hfree] at htotal
    exact htotal.symm
  | slot =>
    obtain ⟨-, hx⟩ := Option.ite_none_right_eq_some.mp hx
    cases hx
    exact hkeep rfl (by simp)
  | _ =>
    have hshelf := Session.fire_shelf rfl hx
    refine hkeep (congrArg Prod.fst hshelf) ?_
    exact Session.fire_from hx (fun r => r ≠ .encoder) (by simp [Case.All])

lemma encoder_exec (h : s.encoder.toNat = total encoders ds) (ht : ds[t]? = some d)
    {i : SInstr} {r : i.Resp} (hreq : d.req i) (hx : s.exec cfg x i = some (s', r)) :
    s'.encoder.toNat = total encoders (ds.set t (d.upd cfg i r)) := by
  cases i with
  | select cases dflt =>
    obtain ⟨c, hc, hx⟩ | ⟨-, rfl, rfl, -⟩ := Session.select_cases hx
    · exact encoder_fire h ht (hreq c hc) hx
    · refine h.trans (total_set_eq ht ?_).symm
      rfl
  | releaseEncoder =>
    obtain ⟨hheld, hx⟩ := Option.ite_none_right_eq_some.mp hx
    cases hx
    have htotal := total_set (f := encoders) (d.upd cfg .releaseEncoder ()) ht
    have hnew : (d.upd cfg .releaseEncoder ()).encoders = 0 := encoders_away rfl
    rw [encoders_held hreq.1, hnew, ← h, hheld] at htotal
    simp only [Bool.toNat_true, Bool.toNat_false] at htotal ⊢
    omega
  | releaseSlot =>
    obtain ⟨-, hx⟩ := Option.ite_none_left_eq_some.mp hx
    cases hx
    refine h.trans (total_set_eq ht ?_).symm
    rfl
  | localSection n | localTry n | localRelease n =>
    cases hx
    refine h.trans (total_set_eq ht ?_).symm
    rfl
  | _ =>
    have hshelf := Session.exec_shelf rfl hx
    rw [show s'.encoder = s.encoder from congrArg Prod.fst hshelf, h]
    exact (total_set_eq ht (encoders_upd rfl hreq)).symm

end Desk

/-! ### Whole runs -/

structure Frames (cfg : SessionConfig) (s : Session) (ds : List Desk) : Prop where
  desks : ∀ d ∈ ds, d.Ok
  encoder : s.encoder.toNat = total Desk.encoders ds
  bounded : s.Bounded cfg

lemma Desk.elsewhere_start {l : SLabel} (h : l.role = .writer → l = .writerLoop) :
    (Desk.start l).Elsewhere l.role :=
  ⟨⟨rfl, rfl, fun _ => rfl⟩, rfl, h⟩

lemma Desk.pre_spawn {l : SLabel} (h : SessionKind.conn.spawn s l = some s') :
    (frameOutline cfg).pre l (Desk.start l) := by
  cases l with
  | send ctx msg | trySend msg => rfl
  | closeWrite _ | shutdown _ | close | requestShutdown =>
    exact elsewhere_start (by simp [SLabel.role])
  | _ => cases h

lemma frameOutline_sound (cfg : SessionConfig) :
    (frameOutline cfg).Sound (sessionMachine .conn cfg) (Frames cfg) fun _ _ => True where
  body l₀ l d h := Desk.wp_body h
  exec p t x th i k s' r _ ht _ hG hreq hx := by
    have hd := Outline.ctxs_getElem? (O := frameOutline cfg) ht
    have hans : (frameOutline cfg).ans i r ((frameOutline cfg).ctx th) := by
      cases i with
      | select cases dflt => exact Session.select_from hx
      | _ => trivial
    refine ⟨hans, ?_, Desk.encoder_exec hG.encoder hd hreq hx, hG.bounded.exec hx⟩
    exact forall_mem_set hG.desks ((hG.desks _ (List.mem_of_getElem? hd)).step hreq hans)
  spawn p l s' _ hG hs := by
    refine ⟨Desk.pre_spawn hs, ?_⟩
    obtain ⟨watchers, rfl⟩ := SessionKind.spawn_eq hs
    refine ⟨forall_mem_concat hG.desks (Desk.Rests.ok ⟨rfl, rfl, fun _ => rfl⟩), ?_,
      hG.bounded.of_shelf rfl⟩
    rw [total_append]
    exact hG.encoder
  env p e s' _ hG he := by
    obtain ⟨expired, global, others, rfl⟩ := Session.env_eq he
    exact ⟨hG.desks, hG.encoder, hG.bounded.of_shelf rfl⟩

lemma frames_reached {p : SProcess} (hp : SessionReaches .conn cfg p) :
    (frameOutline cfg).Holds (Frames cfg) p := by
  refine (frameOutline_sound cfg).reaches ⟨⟨?_, ?_, ?_⟩, ?_⟩ hp
  · intro d hd
    obtain ⟨th, hth, rfl⟩ := List.mem_map.mp hd
    obtain ⟨l, -, rfl⟩ := List.mem_map.mp hth
    exact Desk.Rests.ok ⟨rfl, rfl, fun _ => rfl⟩
  · refine (total_eq_zero_iff.mpr fun d hd => ?_).symm
    obtain ⟨th, hth, rfl⟩ := List.mem_map.mp hd
    obtain ⟨l, -, rfl⟩ := List.mem_map.mp hth
    rfl
  · exact ⟨Nat.zero_le _, rfl, Nat.zero_le _⟩
  · intro th hth
    obtain ⟨l, hl, rfl⟩ := List.mem_map.mp hth
    apply Desk.wp_body
    rcases mem_init hl with rfl | rfl | rfl | rfl | rfl
    all_goals exact Desk.elsewhere_start (by simp [SLabel.role])

/-! ### The bound -/

/-- How far a goroutine is with its frame, read off the steps it has taken. -/
def deskOf (cfg : SessionConfig) (th : SThread) : Desk := (frameOutline cfg).ctx th

lemma deskOf_hand (th : SThread) : (deskOf cfg th).hand = handOf .conn cfg th := by
  obtain ⟨l, prog, log⟩ := th
  induction log with
  | nil => rfl
  | cons a log ih => exact congrArg (Hand.upd .conn cfg a.1 a.2) ih

/-- What bounds the frames that a stream session keeps in memory. -/
structure FrameMemory (cfg : SessionConfig) (p : SProcess) : Prop where
  /-- The encoder slot is taken exactly when one of the calls holds it. -/
  encoder : p.shared.encoder.toNat = total (fun th => (deskOf cfg th).encoders) p.threads
  /-- At most one call has a frame that is encoded and not yet charged to the byte budgets, queued
  or given up. -/
  one_waiting : total (fun th => (deskOf cfg th).waiting.toNat) p.threads ≤ 1
  /-- Every frame that is being prepared, with or without its charge, has a frame slot. -/
  slot : ∀ th ∈ p.threads, th.entry ≠ .writerLoop →
    (deskOf cfg th).encoding ≠ .away ∨ 0 < (handOf .conn cfg th).own →
      (handOf .conn cfg th).slots = 1
  /-- What a call has charged is the length of what `Encode` returned to it. -/
  charge : ∀ th ∈ p.threads, th.entry ≠ .writerLoop → 0 < (handOf .conn cfg th).own →
    ∃ frame, (handOf .conn cfg th).encoded = some frame ∧
      (handOf .conn cfg th).own = frame.length
  /-- Frames in preparation, queued and in flight, by number and by charged bytes. -/
  count : total Hand.slots (p.hands .conn cfg) + p.shared.queue.length ≤ cfg.writeQueue + 1
  charged : total Hand.own (p.hands .conn cfg) + total Request.bytes p.shared.queue ≤
    cfg.maxQueuedBytes
  /-- A call that is about to leave the gate or has returned, with an error or not, holds neither
  the encoder slot nor a frame slot nor bytes of either budget. -/
  returned : ∀ th ∈ p.threads, th.entry ≠ .writerLoop →
    ((∃ k, th.prog = .op .gateLeave k) ∨ ∃ v, th.prog = .done (.ret v)) →
      (deskOf cfg th).encoding = .away ∧ (handOf .conn cfg th).Free

lemma Desk.Ok.waiting_le {d : Desk} (h : d.Ok) : d.waiting.toNat ≤ d.encoders := by
  cases hw : d.waiting with
  | true => exact (encoders_held (h.held hw)).ge
  | false => exact Nat.zero_le _

/-- For every interleaving of `Send`, `TrySend`, the writer and those who close the session. -/
theorem frame_memory_bounded (cfg : SessionConfig) (p : SProcess)
    (hp : SessionReaches .conn cfg p) : FrameMemory cfg p := by
  obtain ⟨hF, hdesks⟩ := frames_reached hp
  obtain ⟨hR, hhands⟩ := resources_reached hp
  have hok : ∀ th ∈ p.threads, (deskOf cfg th).Ok := fun th hth =>
    hF.desks _ (List.mem_map_of_mem hth)
  have hencoder :
      p.shared.encoder.toNat = total (fun th => (deskOf cfg th).encoders) p.threads := by
    rw [hF.encoder]
    exact total_map _ _ _
  constructor
  · exact hencoder
  · calc total (fun th => (deskOf cfg th).waiting.toNat) p.threads
        ≤ total (fun th => (deskOf cfg th).encoders) p.threads :=
          total_le_total fun th hth => (hok th hth).waiting_le
      _ = p.shared.encoder.toNat := hencoder.symm
      _ ≤ 1 := Bool.toNat_le _
  · intro th hth hentry h
    have hd := hok th hth
    rw [← deskOf_hand] at h ⊢
    rcases h with h | h
    · exact hd.slot h
    · exact (hd.charge (by rwa [deskOf_hand, handOf_entry]) h).1
  · intro th hth hentry h
    have hd := hok th hth
    rw [← deskOf_hand] at h ⊢
    exact (hd.charge (by rwa [deskOf_hand, handOf_entry]) h).2
  · exact hR.budgets.slots.symm.trans_le hF.bounded.slots
  · exact hR.budgets.own.symm.trans_le (hF.bounded.used.trans_eq hF.bounded.limit)
  · intro th hth hentry h
    have hdesk := hdesks th hth
    have hhand := hhands th hth
    rcases h with ⟨k, h⟩ | ⟨v, h⟩
    · rw [h] at hdesk hhand
      exact ⟨hdesk.1, hhand.1.2⟩
    · rw [h] at hdesk
      have hout : (handOf .conn cfg th).inGate = false := by
        rw [← deskOf_hand]
        exact hdesk.2
      exact ⟨hdesk.1, (hR.hands _ (List.mem_map_of_mem hth)).outside hout
        (by rwa [← @handOf_entry .conn cfg] at hentry)⟩

/-- A frame of ten bytes is queued in a budget of sixteen. A second call waits with its own ten
bytes for the budget, and a third finds the encoder slot taken. -/
def SProcess.secondFrameWaits : List (Event SLabel Choice SEnv) :=
  [.spawn (.trySend ⟨.binary, [1, 2]⟩), .run 3 {}, .run 3 { pick := some 1 },
    .run 3 { pick := some 1 }, .run 3 {}, .run 3 { data := [0, 1, 2, 3, 4, 5, 6, 7, 8, 9] },
    .run 3 {}, .run 3 {}, .run 3 { pick := some 1 },
    .spawn (.send (some 0) ⟨.binary, [3]⟩), .run 4 {}, .run 4 {}, .run 4 { pick := some 2 },
    .run 4 { pick := some 2 }, .run 4 {}, .run 4 { data := [9, 8, 7, 6, 5, 4, 3, 2, 1, 0] },
    .run 4 {}, .run 4 {},
    .spawn (.trySend ⟨.binary, [4]⟩), .run 5 {}, .run 5 { pick := some 1 }, .run 5 {}]

theorem frame_memory_bounded_secondFrameWaits : ∃ p : SProcess,
    (sessionMachine .conn .small).run (SProcess.init .conn .small) SProcess.secondFrameWaits =
        some p ∧
      (p.shared.encoder, p.shared.slots, p.shared.quota.used,
        p.threads.map fun th => (deskOf .small th).waiting) =
        (true, 3, 10, [false, false, false, false, true, false]) ∧
      FrameMemory .small p := by
  have hrun : ((sessionMachine .conn .small).run (SProcess.init .conn .small)
      SProcess.secondFrameWaits).map (fun p => (p.shared.encoder, p.shared.slots,
        p.shared.quota.used, p.threads.map fun th => (deskOf .small th).waiting)) =
      some (true, 3, 10, [false, false, false, false, true, false]) := by decide
  obtain ⟨p, hp, hobs⟩ := Option.map_eq_some_iff.mp hrun
  exact ⟨p, hp, hobs, frame_memory_bounded .small p ⟨_, hp⟩⟩

end Ogrenet
