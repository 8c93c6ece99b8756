import Ogrenet.Session.Frames.Memory
import Ogrenet.Session.Stream.Drain
import Ogrenet.Session.Writes

/-!
# Where the bytes of a stream session come from

Every frame that was ever queued is what `Encode` returned for the message of the call that queued
it, and a frame whose write was recorded as a success is on the wire, with everything before it.
-/

namespace Ogrenet

open Interleaving Interleaving.Prog

variable {cfg : SessionConfig} {s s' : Session} {x : Choice}

/-! ### The queue -/

lemma Session.fire_sent {cse : Case} {r : Fired} (h : s.fire cfg x cse = some (s', r)) :
    s'.sent = s.sent ∨ ∃ req, cse = .push req ∧ s'.sent = s.sent ++ [req] := by
  cases cse with
  | push req =>
    obtain ⟨-, h⟩ := Option.ite_none_right_eq_some.mp h
    cases h
    exact Or.inr ⟨req, rfl, rfl⟩
  | ctxDone k =>
    obtain ⟨e, -, h⟩ := Option.map_eq_some_iff.mp h
    cases h
    exact Or.inl rfl
  | pop | ack i =>
    simp only [fire] at h
    split at h <;> cases h
    exact Or.inl rfl
  | timer =>
    cases h
    exact Or.inl rfl
  | closed ch | drained | slot =>
    obtain ⟨-, h⟩ := Option.ite_none_right_eq_some.mp h
    cases h
    exact Or.inl rfl
  | encoder | changedLocal g | changedGlobal g =>
    obtain ⟨-, h⟩ := Option.ite_none_left_eq_some.mp h
    cases h
    exact Or.inl rfl

/-- Only a `select` that offers a request puts one on the queue. -/
lemma Session.exec_sent {i : SInstr} {r : i.Resp} (h : s.exec cfg x i = some (s', r)) :
    s'.sent = s.sent ∨ ∃ cases dflt req, i = .select cases dflt ∧ .push req ∈ cases ∧
      s'.sent = s.sent ++ [req] := by
  cases i with
  | select cases dflt =>
    obtain ⟨cse, hmem, hf⟩ | ⟨-, -, rfl, -⟩ := select_cases h
    · rcases fire_sent hf with hsame | ⟨req, rfl, hsent⟩
      · exact Or.inl hsame
      · exact Or.inr ⟨cases, dflt, req, rfl, hmem, hsent⟩
    · exact Or.inl rfl
  | releaseSlot =>
    obtain ⟨-, h⟩ := Option.ite_none_left_eq_some.mp h
    cases h
    exact Or.inl rfl
  | releaseEncoder | waitLoops =>
    obtain ⟨-, h⟩ := Option.ite_none_right_eq_some.mp h
    cases h
    exact Or.inl rfl
  | encode _ | globalRelease _ | onceEnter _ | decodeOne _ | wsRead | wsDecode _ _ | ack _ _
  | request _ | abortSection _ _ | tryTerminal | wsWrite _ | packetWrite _ | deferRead _ =>
    simp only [exec] at h
    split at h <;> cases h <;> exact Or.inl rfl
  | _ =>
    cases h
    exact Or.inl rfl

lemma Session.sent_mono {i : SInstr} {r : i.Resp} (h : s.exec cfg x i = some (s', r)) :
    s.sent <+: s'.sent := by
  obtain hsame | ⟨_, _, req, -, -, hpush⟩ := exec_sent h
  · exact ⟨[], (List.append_nil _).trans hsame.symm⟩
  · rw [hpush]
    exact List.prefix_append _ _

lemma Session.out_mono {i : SInstr} {r : i.Resp} (h : s.exec cfg x i = some (s', r)) :
    s.out <+: s'.out := by
  rw [(exec_writes h).out]
  exact List.prefix_append _ _

/-! ### What was encoded -/

lemma Hand.upd_encoded (i : SInstr) (r : i.Resp) (h : Hand) :
    (h.upd .conn cfg i r).encoded = h.encoded ∨ ∃ msg frame,
      (⟨i, r⟩ : Sigma SInstr.Resp) = ⟨.encode msg, .ok frame⟩ ∧
        (h.upd .conn cfg i r).encoded = some frame := by
  unfold Hand.upd
  split
  case h_3 => exact Or.inl (fired_keeps _ _ _ _).2.1
  case h_5 => exact Or.inr ⟨_, _, rfl, rfl⟩
  all_goals exact Or.inl rfl

/-- What a call has encoded is in its past. -/
lemma encode_of_encoded {th : SThread} {frame : Bytes}
    (h : (handOf .conn cfg th).encoded = some frame) :
    ∃ msg, ⟨.encode msg, .ok frame⟩ ∈ th.log := by
  obtain ⟨l, prog, log⟩ := th
  induction log with
  | nil => cases h
  | cons a log ih =>
    obtain hsame | ⟨msg, frame', ha, hnew⟩ :=
      @Hand.upd_encoded cfg a.1 a.2 (handOf .conn cfg ⟨l, prog, log⟩)
    · obtain ⟨msg, hmem⟩ := ih (hsame.symm.trans h)
      exact ⟨msg, List.mem_cons_of_mem a hmem⟩
    · cases hnew.symm.trans h
      exact ⟨msg, List.mem_cons.mpr (Or.inl ha.symm)⟩

/-! ### The wire -/

/-- A request whose write has succeeded is on the wire, after everything that was queued before. -/
def Session.WritesKept (s : Session) : Prop :=
  ∀ i, s.results[i]? = some true → i < s.sent.length ∧
    framesOf (s.sent.take (i + 1)) <+: outBytes s.out

lemma outBytes_mono {out out' : List Output} (h : out <+: out') :
    outBytes out <+: outBytes out' := by
  obtain ⟨more, rfl⟩ := h
  rw [outBytes, outBytes, List.flatMap_append]
  exact List.prefix_append _ _

lemma Session.WritesKept.mono (h : s.WritesKept) (hsent : s.sent <+: s'.sent)
    (hout : s.out <+: s'.out) (hres : s'.results = s.results) : s'.WritesKept := by
  intro i hi
  rw [hres] at hi
  obtain ⟨hlt, hpre⟩ := h i hi
  obtain ⟨more, hmore⟩ := hsent
  rw [← hmore, List.length_append, List.take_append_of_le_length hlt]
  exact ⟨Nat.lt_add_right _ hlt, hpre.trans (outBytes_mono hout)⟩

/-- The writer records that a frame was written in full. -/
lemma Session.WritesKept.wrote (h : s.WritesKept) {ok : Bool} {rest : Bytes}
    (hwire : OnWire s.sent s.received s.results s.out (.inside rest))
    (hok : ok = true → rest = []) :
    { s with results := s.results ++ [ok] }.WritesKept := by
  obtain ⟨n, req, part, -, hreq, hpart, hout, hres⟩ := hwire
  intro i hi
  rcases Nat.lt_or_ge i s.results.length with hlt | hge
  · exact h i ((List.getElem?_append_left hlt).symm.trans hi)
  · rw [List.getElem?_append_right hge] at hi
    obtain ⟨hzero, hi⟩ := List.getElem?_singleton.symm.trans hi |> Option.ite_none_right_eq_some.mp
    rw [hres, List.length_replicate] at hge hzero
    obtain rfl : i = n := by omega
    rw [hok (Option.some.inj hi), List.append_nil] at hpart
    refine ⟨(List.getElem?_eq_some_iff.mp hreq).1, ?_⟩
    rw [List.take_add_one, hreq, framesOf, List.map_append, List.flatten_append, hout, hpart]
    simp [framesOf]

/-! ### Whole runs -/

/-- Where the queue and the wire of a stream session come from. -/
structure Sourced (p : SProcess) : Prop where
  /-- A call encodes the message that it was given. -/
  asked : ∀ th ∈ p.threads, ∀ msg r, ⟨.encode msg, r⟩ ∈ th.log → th.entry.message = some msg
  queued : ∀ req ∈ p.shared.sent, ∃ th ∈ p.threads, ∃ msg, ⟨.encode msg, .ok req.frame⟩ ∈ th.log
  written : p.shared.WritesKept

/-- The step of a goroutine on the connection. -/
lemma writesKept_exec {p : SProcess} (hp : SessionReaches .conn cfg p) {t : ℕ} {th : SThread}
    (ht : p.threads[t]? = some th) {i : SInstr} {k : i.Resp → SProg SNext}
    (hprog : th.prog = .op i k) {r : i.Resp} (hx : p.shared.exec cfg x i = some (s', r))
    (h : p.shared.WritesKept) : s'.WritesKept := by
  have hw := Session.exec_writes hx
  cases i with
  | wrote ok =>
    cases hx
    -- only the writer records a result, and only with the rest of the frame in hand
    obtain ⟨hL, hlives⟩ := lifecycle_reached hp
    have hlife := hlives th (List.mem_of_getElem? ht)
    rw [hprog] at hlife
    obtain ⟨hentry, rest, hphase, hok⟩ := hlife.1
    have hwire := (hL.writing.wire _ (List.mem_map_of_mem (List.mem_of_getElem? ht)) hentry).1
    rw [hphase] at hwire
    exact h.wrote hwire hok
  | _ =>
    exact h.mono (Session.sent_mono hx) (Session.out_mono hx) (hw.results.trans (List.append_nil _))

/-- The step of a goroutine on the queue. -/
lemma queued_exec {p : SProcess} (hp : SessionReaches .conn cfg p) {t : ℕ} {th th' : SThread}
    (ht : p.threads[t]? = some th) {i : SInstr} {k : i.Resp → SProg SNext}
    (hprog : th.prog = .op i k) {r : i.Resp} (hlog : th'.log = ⟨i, r⟩ :: th.log)
    (hx : p.shared.exec cfg x i = some (s', r)) (h : Sourced p) :
    ∀ req ∈ s'.sent, ∃ th ∈ p.threads.set t th', ∃ msg, ⟨.encode msg, .ok req.frame⟩ ∈ th.log := by
  have hkeep : ∀ req : Request, (∃ msg, ⟨.encode msg, .ok req.frame⟩ ∈ th.log) →
      ∃ msg, ⟨.encode msg, .ok req.frame⟩ ∈ th'.log := by
    rintro req ⟨msg, hmsg⟩
    rw [hlog]
    exact ⟨msg, List.mem_cons_of_mem _ hmsg⟩
  have hold : ∀ req ∈ p.shared.sent, ∃ th ∈ p.threads.set t th', ∃ msg,
      ⟨.encode msg, .ok req.frame⟩ ∈ th.log :=
    fun req hreq => exists_mem_set ht (h.queued req hreq) (hkeep req)
  obtain hsame | ⟨cases, dflt, req, rfl, hpush, hsent⟩ := Session.exec_sent hx
  · rw [hsame]
    exact hold
  · rw [hsent]
    refine forall_mem_concat hold ?_
    have hdesk := (frames_reached hp).threads th (List.mem_of_getElem? ht)
    rw [hprog] at hdesk
    have hencoded : (deskOf cfg th).hand.encoded = some req.frame := (hdesk.1 _ hpush).2.2.2
    rw [deskOf_hand] at hencoded
    refine ⟨th', List.mem_set (List.getElem?_eq_some_iff.mp ht).1 _, hkeep req ?_⟩
    exact encode_of_encoded hencoded

lemma Sourced.step {p q : SProcess} (hp : SessionReaches .conn cfg p) (h : Sourced p)
    {e : Event SLabel Choice SEnv} (hstep : (sessionMachine .conn cfg).step p e = some q) :
    Sourced q := by
  obtain ⟨t, x, l, i, k, log, s', r, rfl, ht, hx, rfl⟩ | ⟨t, x, l, l', log, rfl, ht, rfl⟩ |
    ⟨l, s', rfl, hs, rfl⟩ | ⟨x, s', rfl, hs, rfl⟩ := Machine.step_cases hstep
  · have hmem := List.mem_of_getElem? ht
    refine ⟨forall_mem_set h.asked fun msg r' hr' => ?_, queued_exec hp ht rfl rfl hx h,
      writesKept_exec hp ht rfl hx h.written⟩
    rcases List.mem_cons.mp hr' with heq | hr'
    · cases heq
      have hdesk := ((frames_reached hp).threads _ hmem).1
      have hmsg : (deskOf cfg _).hand.entry.message = some msg := hdesk.2.2
      rw [deskOf_hand, handOf_entry] at hmsg
      exact hmsg
    · exact h.asked _ hmem msg r' hr'
  · have hmem := List.mem_of_getElem? ht
    refine ⟨forall_mem_set h.asked fun msg r => h.asked _ hmem msg r, fun req hreq => ?_,
      h.written⟩
    exact exists_mem_set ht (h.queued req hreq) id
  · obtain ⟨_, rfl⟩ := SessionKind.spawn_eq hs
    refine ⟨forall_mem_concat h.asked fun msg r' hr' => absurd hr' List.not_mem_nil,
      fun req hreq => ?_, h.written⟩
    obtain ⟨th, hth, hmsg⟩ := h.queued req hreq
    exact ⟨th, List.mem_append_left _ hth, hmsg⟩
  · obtain ⟨_, _, _, rfl⟩ := Session.env_eq hs
    exact ⟨h.asked, h.queued, h.written⟩

lemma sourced_reached {p : SProcess} (hp : SessionReaches .conn cfg p) : Sourced p := by
  have hstep : SessionReaches .conn cfg p ∧ Sourced p := by
    refine Machine.reaches_induction (M := sessionMachine .conn cfg)
      (P := fun p => SessionReaches .conn cfg p ∧ Sourced p)
      (fun p₁ e p₂ h₁ h => ⟨h₁.1.tail h, h₁.2.step h₁.1 h⟩) ⟨⟨[], rfl⟩, ?_, ?_, ?_⟩ hp
    · intro th hth msg r hr
      obtain ⟨l, -, rfl⟩ := List.mem_map.mp hth
      exact absurd hr List.not_mem_nil
    · exact fun req hreq => absurd hreq List.not_mem_nil
    · intro i hi
      cases hi
  exact hstep.2

end Ogrenet
