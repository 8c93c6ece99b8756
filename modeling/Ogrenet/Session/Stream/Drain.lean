import Ogrenet.Session.Stream.Programs

/-!
# Graceful drain of a stream session

What `CloseWrite` and `Shutdown` promise when they return nil, and what is on the wire at every
moment.
-/

namespace Ogrenet

open Interleaving Interleaving.Prog

variable {cfg : SessionConfig} {s s' : Session} {cs : List Life}

/-! ### The outline is sound -/

lemma Lifecycle.of_life (hL : Lifecycle s cs) (h : s'.life = s.life)
    (hd : s.gate.drained = true → s'.gate.drained = true) : Lifecycle s' cs := by
  obtain ⟨hl, hw⟩ := Session.later_of_life h hd
  have hs := hL.signals.of_life h
  simp only [Session.life, Prod.mk.injEq] at h
  obtain ⟨-, -, -, h₄, h₅, h₆, h₇, h₈, h₉⟩ := h
  refine ⟨fun c hc => (hL.knows c hc).later hl, hs, ⟨hL.reading.one, ?_, ?_⟩,
    ⟨hL.writing.one, ?_, fun hc => ?_⟩⟩
  · rw [h₉]
    exact hL.reading.loops
  · rw [h₄]
    exact hL.reading.readDone
  · rw [h₅, h₆, h₇, h₈]
    intro c hc he
    obtain ⟨hwire, hempty⟩ := hL.writing.wire c hc he
    exact ⟨hwire, fun hse => ⟨hd (hempty hse).1, (hempty hse).2⟩⟩
  · rw [h₈] at hc
    exact ⟨(hL.writing.shut hc).1.same hw hd, (hL.writing.shut hc).2⟩

lemma spawn_conn {l : SLabel} (h : SessionKind.conn.spawn s l = some s') :
    s' = s ∧ l.isLoop = false ∧ lifeOutline.pre l (.start l) := by
  cases l with
  | send _ _ | trySend _ | closeWrite _ | shutdown _ | close | requestShutdown =>
    cases h
    exact ⟨rfl, rfl, rfl⟩
  | _ => cases h

lemma Lifecycle.spawn (hL : Lifecycle s cs) {l : SLabel} (hl : l.isLoop = false) :
    Lifecycle s (cs ++ [Life.start l]) := by
  have hread : (Life.start l).reading = false := by
    cases l <;> first | rfl | cases hl
  have hne : (Life.start l).entry ≠ .writerLoop := fun he => by
    rw [show l = .writerLoop from he] at hl
    cases hl
  have hw : (Life.start l).writers = 0 := if_neg hne
  refine ⟨?_, hL.signals, ⟨?_, ?_, fun h => ?_⟩, ⟨?_, ?_, fun h => ?_⟩⟩
  · refine List.forall_mem_append.mpr ⟨hL.knows, List.forall_mem_singleton.mpr ?_⟩
    refine ⟨nofun, nofun, nofun, nofun, nofun, nofun, nofun, fun h => ?_, nofun⟩
    rw [hread] at h
    cases h
  · simpa [hread] using hL.reading.one
  · simpa [Life.start, hl] using hL.reading.loops
  · rcases hL.reading.readDone h with ⟨c, hc, hm⟩ | hall
    · exact Or.inl ⟨c, List.mem_append_left _ hc, hm⟩
    · exact Or.inr (List.forall_mem_append.mpr ⟨hall, List.forall_mem_singleton.mpr hread⟩)
  · simpa [hw] using hL.writing.one
  · exact List.forall_mem_append.mpr ⟨hL.writing.wire,
      List.forall_mem_singleton.mpr fun he => absurd he hne⟩
  · obtain ⟨hshut, hstop⟩ := hL.writing.shut h
    exact ⟨hshut, List.forall_mem_append.mpr ⟨hstop,
      List.forall_mem_singleton.mpr fun he => absurd he hne⟩⟩

lemma Session.env_life {e : SEnv} (he : s.env e = some s') :
    s'.life = s.life ∧ s'.gate = s.gate := by
  cases e with
  | expire k cause =>
    simp only [Session.env] at he
    split at he <;> cases he <;> exact ⟨rfl, rfl⟩
  | otherAcquire n | otherRelease n =>
    obtain ⟨-, he⟩ := Option.ite_none_right_eq_some.mp he
    cases he
    exact ⟨rfl, rfl⟩

/-- The lifecycle is kept by every step from a state whose resources are in order. -/
lemma lifeOutline_sound (cfg : SessionConfig) :
    lifeOutline.Sound (sessionMachine .conn cfg) Lifecycle
      fun p _ => (resourceOutline .conn cfg).Holds (Resources .conn cfg) p where
  body l₀ l c hc := Conn.life_body l hc
  exec p t x th i k s' r hok ht hprog hG hreq hx := by
    refine hG.exec hok.shared.received_le (Outline.ctxs_getElem? ht) hreq ?_ hx
    -- whoever offers a request to the queue is inside the gate
    rintro cases dflt req rfl hpush
    have hwp := hok.threads th (List.mem_of_getElem? ht)
    rw [hprog] at hwp
    exact (hok.shared.not_drained (Outline.ctxs_getElem? ht) (hwp.1 _ hpush).1).2
  spawn p l s' _ hG hs := by
    obtain ⟨rfl, hl, hpre⟩ := spawn_conn hs
    exact ⟨hpre, hG.spawn hl⟩
  env p e s' _ hG he := by
    obtain ⟨hlife, hgate⟩ := Session.env_life he
    exact hG.of_life hlife (by rw [hgate]; exact id)

lemma loopLabels_conn (cfg : SessionConfig) : loopLabels .conn cfg =
    [SLabel.writerLoop, SLabel.readerLoop] ++ if cfg.activity then [SLabel.watchdog] else [] := by
  simp [loopLabels]

lemma lifecycle_init (cfg : SessionConfig) :
    lifeOutline.Holds Lifecycle (SProcess.init .conn cfg) := by
  have hctxs : lifeOutline.ctxs (SProcess.init .conn cfg).threads =
      (loopLabels .conn cfg ++ [SLabel.finalizer]).map Life.start := by
    simp [SProcess.init, Outline.ctxs, Function.comp_def, lifeOutline]
  refine ⟨?_, fun th hth => ?_⟩
  · rw [hctxs]
    refine ⟨fun c hc => ?_, ?_, ⟨?_, ?_, fun h => ?_⟩, ⟨?_, fun c hc _ => ?_, fun h => ?_⟩⟩
    · obtain ⟨l, hl, rfl⟩ := List.mem_map.mp hc
      constructor <;> intro h
      -- the label of the reader is the only flag that is set at the start
      case reading =>
        rw [show l = .readerLoop from beq_iff_eq.mp h]
        rfl
      all_goals cases h
    · constructor <;> intro h <;> cases h
    · rw [loopLabels_conn]
      cases cfg.activity <;> decide
    · simp only [SProcess.init, Session.init]
      rw [loopLabels_conn]
      cases cfg.activity <;> decide
    · cases h
    · rw [loopLabels_conn]
      cases cfg.activity <;> decide
    · obtain ⟨l, -, rfl⟩ := List.mem_map.mp hc
      exact ⟨⟨rfl, rfl⟩, fun h => by cases h⟩
    · cases h
  · obtain ⟨l, hl, rfl⟩ := List.mem_map.mp hth
    refine (lifeOutline_sound cfg).body l l _ ?_
    rcases mem_init hl with rfl | rfl | rfl | rfl | rfl <;> rfl

/-- Every state that is reached is inside the outline. -/
lemma lifecycle_reached {p : SProcess} (hp : SessionReaches .conn cfg p) :
    lifeOutline.Holds Lifecycle p := by
  obtain ⟨es, hes⟩ := hp
  exact (lifeOutline_sound cfg).run (lifecycle_init cfg) hes
    fun es₁ _ _ _ _ hr => resources_reached ⟨es₁, hr⟩

/-! ### After a failed write -/

/-- A write on the connection returned an error or made no progress. -/
def FailedIn (log : List (Sigma SInstr.Resp)) : Prop :=
  ∃ b n e, ⟨.rawWrite b, (n, e)⟩ ∈ log ∧ (e ≠ none ∨ n = 0)

/-- The write of a frame has failed: `writeFrame` has returned an error, or is about to. -/
def WriteFailed (p : SProcess) : Prop :=
  false ∈ p.shared.results ∨ ∃ th ∈ p.threads, FailedIn th.log

lemma Life.upd_broken {i : SInstr} {r : i.Resp} {c : Life} (h : c.broken = true) :
    (c.upd i r).broken = true := by
  unfold Life.upd
  split
  case h_1 cases dflt r =>
    cases r with
    | closed ch => cases ch <;> exact h
    | _ => exact h
  all_goals simp [h]

lemma broken_of_log {th : SThread} (h : FailedIn th.log) :
    (lifeOutline.ctx th).broken = true := by
  obtain ⟨l, prog, log⟩ := th
  obtain ⟨b, n, e, h, hf⟩ := h
  induction log with
  | nil => cases h
  | cons a log ih =>
    rcases List.mem_cons.mp h with rfl | h
    · show (_ || (e.isSome || n == 0)) = true
      rcases hf with hf | hf
      · simp [Option.isSome_iff_ne_none.mpr hf]
      · simp [hf]
    · exact Life.upd_broken (ih h)

def SInstr.writes : SInstr → Bool
  | .rawWrite _ | .rawCloseWrite | .wsWrite _ | .wsClose | .packetWrite _ => true
  | _ => false

/-- Whoever is about to write knows that no write has failed. -/
lemma not_writeFailed {p : SProcess} (hL : lifeOutline.Holds Lifecycle p) {t : ℕ} {th : SThread}
    (ht : p.threads[t]? = some th) {i : SInstr} (hi : i.writes = true)
    (hreq : (lifeOutline.ctx th).req i) : ¬ WriteFailed p := by
  have hctx := Outline.ctxs_getElem? (O := lifeOutline) ht
  obtain ⟨he, hph, hb⟩ : (lifeOutline.ctx th).entry = .writerLoop ∧
      (lifeOutline.ctx th).phase ≠ .stopped ∧ (lifeOutline.ctx th).broken = false := by
    cases i with
    | rawWrite b => exact ⟨hreq.1, by rw [hreq.2.1]; nofun, hreq.2.2⟩
    | rawCloseWrite => exact ⟨hreq.1, by rw [hreq.2.1]; nofun, hreq.2.2.1⟩
    | wsWrite _ | wsClose | packetWrite _ => exact absurd hreq id
    | _ => cases hi
  rintro (hf | ⟨th', hth', hf⟩)
  · exact (hL.shared.writing.wire _ (List.mem_of_getElem? hctx) he).1.not_failed hph hf
  · have hb' := broken_of_log hf
    obtain ⟨j, hj⟩ := List.mem_iff_getElem?.mp hth'
    have hctx' := Outline.ctxs_getElem? (O := lifeOutline) hj
    have he' := (hL.shared.knows _ (List.mem_of_getElem? hctx')).broken hb'
    obtain rfl := hL.shared.writing.writer_eq hctx hctx' he he'
    rw [ht] at hj
    cases hj
    rw [hb] at hb'
    cases hb'

lemma Session.fire_out {x : Choice} {c : Case} {r : Fired} (h : s.fire cfg x c = some (s', r)) :
    s'.out = s.out ∧ s'.results = s.results := by
  cases c with
  | ctxDone k =>
    obtain ⟨e, -, h⟩ := Option.map_eq_some_iff.mp h
    cases h
    exact ⟨rfl, rfl⟩
  | pop | ack i =>
    simp only [Session.fire] at h
    split at h <;> cases h
    exact ⟨rfl, rfl⟩
  | timer =>
    cases h
    exact ⟨rfl, rfl⟩
  | closed ch | drained | slot | push req =>
    obtain ⟨-, h⟩ := Option.ite_none_right_eq_some.mp h
    cases h
    exact ⟨rfl, rfl⟩
  | encoder | changedLocal g | changedGlobal g =>
    obtain ⟨-, h⟩ := Option.ite_none_left_eq_some.mp h
    cases h
    exact ⟨rfl, rfl⟩

lemma Session.exec_out {x : Choice} {i : SInstr} {r : i.Resp} (hi : i.writes = false)
    (h : s.exec cfg x i = some (s', r)) : s'.out = s.out ∧ s.results <+: s'.results := by
  cases hc : i.calm with
  | true =>
    have hlife := (Session.exec_life hc h).1
    simp only [Session.life, Prod.mk.injEq] at hlife
    obtain ⟨-, -, -, -, -, -, h₇, h₈, -⟩ := hlife
    exact ⟨h₈, h₇ ▸ List.prefix_rfl⟩
  | false =>
    cases i with
    | select cases dflt =>
      obtain ⟨c, -, h⟩ | ⟨-, -, rfl, -⟩ := Session.select_cases h
      · exact ⟨(Session.fire_out h).1, (Session.fire_out h).2 ▸ List.prefix_rfl⟩
      · exact ⟨rfl, List.prefix_rfl⟩
    | request goal | abortSection reason publish | tryTerminal =>
      simp only [Session.exec] at h
      split at h <;> cases h <;> exact ⟨rfl, List.prefix_rfl⟩
    | waitLoops =>
      obtain ⟨-, h⟩ := Option.ite_none_right_eq_some.mp h
      cases h
      exact ⟨rfl, List.prefix_rfl⟩
    | wrote ok =>
      cases h
      exact ⟨rfl, List.prefix_append _ _⟩
    | setTerminal | reason | signal ch | loopDone | callBegin cb =>
      cases h
      exact ⟨rfl, List.prefix_rfl⟩
    | rawWrite _ | rawCloseWrite | wsWrite _ | wsClose | packetWrite _ => cases hi
    | _ => cases hc

lemma FailedIn.cons {log : List (Sigma SInstr.Resp)} (h : FailedIn log) (a : Sigma SInstr.Resp) :
    FailedIn (a :: log) := by
  obtain ⟨b, n, e, hmem, hf⟩ := h
  exact ⟨b, n, e, List.mem_cons_of_mem _ hmem, hf⟩

/-- One step after a failed write leaves the wire as it is. -/
lemma WriteFailed.step {p q : SProcess} (hp : SessionReaches .conn cfg p) (hf : WriteFailed p)
    {e : Event SLabel Choice SEnv} (h : (sessionMachine .conn cfg).step p e = some q) :
    WriteFailed q ∧ q.shared.out = p.shared.out := by
  have hL := lifecycle_reached hp
  obtain ⟨t, x, l, i, k, log, s', r, rfl, ht, hx, rfl⟩ | ⟨t, x, l, l', log, rfl, ht, rfl⟩ |
    ⟨l, s', rfl, hs, rfl⟩ | ⟨x, s', rfl, hs, rfl⟩ := Machine.step_cases h
  · have hreq := (hL.threads _ (List.mem_of_getElem? ht)).1
    cases hi : i.writes with
    | true => exact absurd hf (not_writeFailed hL ht hi hreq)
    | false =>
      obtain ⟨hout, hres⟩ := Session.exec_out hi hx
      exact ⟨hf.imp (fun h => hres.subset h) fun h => exists_mem_set ht h fun h => h.cons _, hout⟩
  · exact ⟨hf.imp_right fun h => exists_mem_set ht h id, rfl⟩
  · obtain ⟨rfl, -, -⟩ := spawn_conn hs
    exact ⟨hf.imp_right fun ⟨th, hth, h⟩ => ⟨th, List.mem_append_left _ hth, h⟩, rfl⟩
  · have hlife := (Session.env_life hs).1
    simp only [Session.life, Prod.mk.injEq] at hlife
    obtain ⟨-, -, -, -, -, -, h₇, h₈, -⟩ := hlife
    exact ⟨hf.imp_left fun h => by rw [h₇]; exact h, h₈⟩

/-- After a failed write nothing is ever written again. -/
lemma out_of_writeFailed {p q : SProcess} (hp : SessionReaches .conn cfg p) (hf : WriteFailed p)
    (hq : (sessionMachine .conn cfg).Reaches p q) : q.shared.out = p.shared.out := by
  have hstep : SessionReaches .conn cfg q ∧ WriteFailed q ∧ q.shared.out = p.shared.out := by
    refine Machine.reaches_induction (M := sessionMachine .conn cfg)
      (P := fun q => SessionReaches .conn cfg q ∧ WriteFailed q ∧ q.shared.out = p.shared.out)
      (fun r e r' hr h => ?_) ⟨hp, hf, rfl⟩ hq
    obtain ⟨hr, hfr, hout⟩ := hr
    obtain ⟨hfr', hout'⟩ := hfr.step hr h
    exact ⟨hr.tail h, hfr', hout'.trans hout⟩
  exact hstep.2.2

/-! ### The drain -/

lemma life_entry (th : SThread) : (lifeOutline.ctx th).entry = th.entry := by
  obtain ⟨l, prog, log⟩ := th
  induction log with
  | nil => rfl
  | cons a log ih => exact (Life.upd_entry a.1 a.2 _).trans ih

/-- The call has returned nil. -/
def returnedNil (th : SThread) : Bool :=
  match th.prog with
  | .done (.ret (.result none)) => true
  | _ => false

lemma prog_of_returnedNil {th : SThread} (h : returnedNil th = true) :
    th.prog = .done (.ret (.result none)) := by
  simp only [returnedNil] at h
  split at h
  · assumption
  · cases h

/-- The call is `CloseWrite` or `Shutdown`. -/
def SLabel.closesWrite : SLabel → Bool
  | .closeWrite _ | .shutdown _ => true
  | _ => false

/-- What a stream session guarantees of its write side, from the state `p` on. -/
structure Drained (cfg : SessionConfig) (p : SProcess) : Prop where
  /-- A `TrySend` that returned nil has put its message on the queue. -/
  queued : ∀ th ∈ p.threads, ∀ msg, th.entry = .trySend msg → returnedNil th = true →
    ∃ (i : ℕ) (req : Request), p.shared.sent[i]? = some req ∧
      Carries cfg (handOf .conn cfg th).encoded req th.entry
  /-- When `CloseWrite` or `Shutdown` has returned nil, everything that was ever queued had been
  written before the write side was closed, and nothing was written after it. -/
  shut : ∀ th ∈ p.threads, th.entry.closesWrite = true → returnedNil th = true → Shut p.shared
  /-- At every moment there are whole frames on the wire, and at most a part of the next one. -/
  frames : WholeFrames p.shared.sent (outBytes p.shared.out)
  /-- After a frame that could not be written in full nothing is written. -/
  stopped : WriteFailed p → ∀ q, (sessionMachine .conn cfg).Reaches p q →
    q.shared.out = p.shared.out

/-- Graceful drain loses nothing, whatever the interleaving. -/
theorem graceful_drain_loses_nothing (cfg : SessionConfig) (p : SProcess)
    (hp : SessionReaches .conn cfg p) : Drained cfg p := by
  obtain ⟨hR, hsends⟩ := resources_reached hp
  obtain ⟨hL, hends⟩ := lifecycle_reached hp
  refine ⟨fun th hth msg he hnil => ?_, fun th hth hcl hnil => ?_, ?_,
    fun hf q hq => out_of_writeFailed hp hf hq⟩
  · have hpost := hsends th hth
    rw [prog_of_returnedNil hnil] at hpost
    change (handOf .conn cfg th).post (.result none) at hpost
    obtain ⟨i, req, hpushed⟩ : ∃ i req, (handOf .conn cfg th).pushed = some (i, req) := by
      simpa only [Hand.post, handOf_entry, he] using hpost
    have hk := (hR.knows (handOf .conn cfg th) (List.mem_map_of_mem hth)).pushed i req hpushed
    rw [handOf_entry] at hk
    exact ⟨i, req, hk⟩
  · have hpost := hends th hth
    rw [prog_of_returnedNil hnil] at hpost
    change (lifeOutline.ctx th).post (.result none) at hpost
    have hclean : (lifeOutline.ctx th).clean = true := by
      have he := life_entry th
      cases hl : th.entry with
      | closeWrite ctx => simpa only [Life.post, he, hl] using hpost
      | shutdown ctx => simpa only [Life.post, he, hl] using hpost
      | _ =>
        rw [hl] at hcl
        cases hcl
    exact (hL.writing.shut ((hL.knows _ (List.mem_map_of_mem hth)).clean hclean)).1
  · obtain ⟨c, hc, he⟩ : ∃ c ∈ lifeOutline.ctxs p.threads, c.entry = .writerLoop := by
      by_contra hnone
      have hzero : total Life.writers (lifeOutline.ctxs p.threads) = 0 :=
        total_eq_zero_iff.mpr fun c hc => if_neg fun he => hnone ⟨c, hc, he⟩
      rw [hL.writing.one] at hzero
      cases hzero
    exact (hL.writing.wire c hc he).1.wholeFrames hR.received_le

/-- A message is queued, the write side is closed, and the writer drains the queue. -/
def SProcess.drain : List (Event SLabel Choice SEnv) :=
  [.spawn (.trySend ⟨.binary, [1, 2]⟩), .run 3 {}, .run 3 { pick := some 1 },
    .run 3 { pick := some 1 }, .run 3 {}, .run 3 { data := [7, 8, 9] }, .run 3 {}, .run 3 {},
    .run 3 { pick := some 1 }, .run 3 {},
    .spawn (.closeWrite (some 0)), .run 4 {}, .run 4 {}, .run 4 {}, .run 4 {},
    .run 0 {}, .run 0 { pick := some 2 }, .run 0 {}, .run 0 {}, .run 0 { n := 2 }, .run 0 {},
    .run 0 { n := 1 }, .run 0 {}, .run 0 {}, .run 0 {}, .run 0 {}, .run 0 {}, .run 0 {}, .run 0 {},
    .run 0 {}, .run 0 {}, .run 0 { pick := some 1 }, .run 0 {}, .run 0 { pick := some 2 },
    .run 0 {}, .run 0 {}, .run 0 {}, .run 0 {}, .run 4 { pick := some 0 }, .run 4 {}, .run 4 {}]

theorem graceful_drain_loses_nothing_drain : ∃ p : SProcess,
    (sessionMachine .conn .small).run (SProcess.init .conn .small) SProcess.drain = some p ∧
      p.shared.out = [.bytes [7, 8], .bytes [9], .closeWrite] ∧
      p.threads.map (fun th => returnedNil th) = [false, false, false, true, true] ∧
      Drained .small p := by
  have hrun : ((sessionMachine .conn .small).run (SProcess.init .conn .small)
      SProcess.drain).map
        (fun p => (p.shared.out, p.threads.map (fun th => returnedNil th))) =
      some ([.bytes [7, 8], .bytes [9], .closeWrite], [false, false, false, true, true]) := by
    decide
  obtain ⟨p, hp, hobs⟩ := Option.map_eq_some_iff.mp hrun
  obtain ⟨hout, hnil⟩ := Prod.mk.inj hobs
  exact ⟨p, hp, hout, hnil, graceful_drain_loses_nothing .small p ⟨_, hp⟩⟩

end Ogrenet
