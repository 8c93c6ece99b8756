import Ogrenet.Session.Stream.Life

/-!
# The life of a stream session, step by step
-/

namespace Ogrenet

open Interleaving Interleaving.Prog

/-! ### Frames on the wire -/

lemma framesOf_take_succ {sent : List Request} {n : ℕ} {req : Request} (h : sent[n]? = some req) :
    framesOf (sent.take (n + 1)) = framesOf (sent.take n) ++ req.frame := by
  rw [List.take_add_one, h]
  simp [framesOf]

lemma outBytes_append (out : List Output) (o : Output) :
    outBytes (out ++ [o]) = outBytes out ++ outBytes [o] := List.flatMap_append

/-- A frame that is written up to some point. -/
lemma wholeFrames_of_part {sent : List Request} {n : ℕ} {req : Request} {part rest : Bytes}
    (h : sent[n]? = some req) (hp : part ++ rest = req.frame) :
    WholeFrames sent (framesOf (sent.take n) ++ part) := by
  have hlt := (List.getElem?_eq_some_iff.mp h).1
  cases rest with
  | nil =>
    refine ⟨n + 1, [], hlt, ?_, Or.inl rfl⟩
    rw [framesOf_take_succ h, ← hp, List.append_nil, List.append_nil]
  | cons b bs =>
    refine ⟨n, part, Nat.le_of_lt hlt, rfl, Or.inr ⟨req, h, ⟨b :: bs, hp⟩, ?_⟩⟩
    rw [← hp, List.length_append, List.length_cons]
    omega

lemma WholeFrames.append {sent : List Request} {bytes : Bytes} (h : WholeFrames sent bytes)
    (more : List Request) : WholeFrames (sent ++ more) bytes := by
  obtain ⟨n, part, hn, hb, hpart⟩ := h
  refine ⟨n, part, by rw [List.length_append]; omega, ?_, ?_⟩
  · rw [List.take_append_of_le_length hn]
    exact hb
  · exact hpart.imp_right fun ⟨req, hreq, hpre⟩ =>
      ⟨req, getElem?_mono (List.prefix_append _ _) hreq, hpre⟩

namespace OnWire

variable {sent : List Request} {received : ℕ} {results : List Bool} {out : List Output}

lemma wholeFrames {ph : WirePhase} (hr : received ≤ sent.length)
    (h : OnWire sent received results out ph) : WholeFrames sent (outBytes out) := by
  cases ph with
  | between => exact ⟨received, [], hr, by rw [h.1, List.append_nil], Or.inl rfl⟩
  | inside rest =>
    obtain ⟨n, req, part, -, hreq, hpart, hout, -⟩ := h
    rw [hout]
    exact wholeFrames_of_part hreq hpart
  | stopped => exact h

lemma append {ph : WirePhase} (hr : received ≤ sent.length)
    (h : OnWire sent received results out ph) (more : List Request) :
    OnWire (sent ++ more) received results out ph := by
  cases ph with
  | between =>
    rw [OnWire, List.take_append_of_le_length hr]
    exact h
  | inside rest =>
    obtain ⟨n, req, part, hn, hreq, hpart, hout, hres⟩ := h
    refine ⟨n, req, part, hn, getElem?_mono (List.prefix_append _ _) hreq, hpart, ?_, hres⟩
    rw [List.take_append_of_le_length (by omega)]
    exact hout
  | stopped => exact WholeFrames.append h more

/-- Taking the next request off the queue. -/
lemma take {ph : WirePhase} {req : Request} (h : OnWire sent received results out ph)
    (hph : ∀ rest, ph ≠ .inside rest) (hreq : sent[received]? = some req) :
    OnWire sent (received + 1) results out (ph.take req.frame) := by
  cases ph with
  | between => exact ⟨received, req, [], rfl, hreq, rfl, by rw [h.1, List.append_nil], h.2⟩
  | inside rest => exact absurd rfl (hph rest)
  | stopped => exact h

/-- Some bytes of the frame are written. -/
lemma write {p : Bytes} (h : OnWire sent received results out (.inside p)) (n : ℕ) :
    OnWire sent received results (out ++ [Output.bytes (p.take n)]) (.inside (p.drop n)) := by
  obtain ⟨m, req, part, hm, hreq, hpart, hout, hres⟩ := h
  refine ⟨m, req, part ++ p.take n, hm, hreq, ?_, ?_, hres⟩
  · rw [List.append_assoc, List.take_append_drop, hpart]
  · rw [outBytes_append, hout, List.append_assoc]
    simp [outBytes]

/-- The frame is complete. -/
lemma finish (h : OnWire sent received results out (.inside [])) :
    OnWire sent received (results ++ [true]) out .between := by
  obtain ⟨m, req, part, rfl, hreq, hpart, hout, hres⟩ := h
  refine ⟨?_, ?_⟩
  · rw [framesOf_take_succ hreq, hout, ← hpart, List.append_nil]
  · rw [hres, List.replicate_succ']

/-- A writer that has not stopped has never failed. -/
lemma not_failed {ph : WirePhase} (h : OnWire sent received results out ph)
    (hph : ph ≠ .stopped) : false ∉ results := by
  cases ph with
  | between =>
    rw [h.2]
    simp
  | inside rest =>
    obtain ⟨n, req, part, -, -, -, -, hres⟩ := h
    rw [hres]
    simp
  | stopped => exact absurd rfl hph

end OnWire

/-! ### States that come later -/

/-- What a step never takes back. -/
structure Session.Later (s s' : Session) : Prop where
  why : s.why ≠ .none → s'.why ≠ .none
  closed : ∀ ch, s.closed ch = true → s'.closed ch = true
  out : ∀ o ∈ s.out, o ∈ s'.out
  loops : s'.loops ≤ s.loops
  drained : s.gate.drained = true → s'.gate.drained = true

variable {s s' : Session} {cs : List Life} {t : ℕ} {c c' : Life}

lemma Session.Over.later (h : s.Over) (hl : s.Later s') : s'.Over :=
  h.imp hl.why (hl.closed .writeDone)

lemma Life.Knows.later (h : c.Knows s) (hl : s.Later s') : c.Knows s' where
  aborted ha := hl.why (h.aborted ha)
  isOver ho := (h.isOver ho).later hl
  sawReadDone hr := hl.closed _ (h.sawReadDone hr)
  marked hm := hl.closed _ (h.marked hm)
  clean hc := hl.out _ (h.clean hc)
  waited hw := Nat.le_zero.mp ((h.waited hw) ▸ hl.loops)
  sawDrained hd := hl.drained (h.sawDrained hd)
  reading := h.reading
  broken := h.broken

/-- `s'` differs from `s` in nothing that the writer puts on the wire. -/
structure Session.SameWire (s s' : Session) : Prop where
  sent : s'.sent = s.sent
  received : s'.received = s.received
  results : s'.results = s.results
  out : s'.out = s.out

lemma Shut.same (h : Shut s) (hw : s.SameWire s')
    (hd : s.gate.drained = true → s'.gate.drained = true) : Shut s' := by
  obtain ⟨h₁, h₂, h₃, h₄⟩ := h
  refine ⟨hd h₁, ?_, ?_, ?_⟩
  · rw [hw.received, hw.sent]
    exact h₂
  · rw [hw.results, hw.sent]
    exact h₃
  · rw [hw.out, hw.sent]
    exact h₄

lemma Writing.writer_eq (hw : Writing s cs) (ht : cs[t]? = some c) {j : ℕ} {d : Life}
    (hj : cs[j]? = some d) (hc : c.entry = .writerLoop) (hd : d.entry = .writerLoop) : t = j := by
  by_contra htj
  have hle := add_le_total (f := Life.writers) htj ht hj
  have hone := hw.one
  simp only [Life.writers, hc, hd, if_true] at hle hone
  omega

/-- A step that leaves the wire alone, in which the writer may stop. -/
lemma Writing.frame (hw : Writing s cs) (hr : s.received ≤ s.sent.length) (ht : cs[t]? = some c)
    (he : c'.entry = c.entry) (hph : c'.phase = c.phase ∨ c'.phase = .stopped)
    (hse : c'.sawEmpty = true → c.sawEmpty = true) (hs : s.SameWire s')
    (hd : s.gate.drained = true → s'.gate.drained = true) : Writing s' (cs.set t c') := by
  refine ⟨?_, ?_, fun hc => ?_⟩
  · rw [total_set_eq ht (by simp only [Life.writers, he])]
    exact hw.one
  · rw [hs.sent, hs.received, hs.results, hs.out]
    refine forall_mem_set_of_unique ht (fun hh _ _ hj hd => hw.writer_eq ht hj hh hd)
      (fun h => he ▸ h) hw.wire (fun _ d _ hwire => ?_) fun _ hwire => ?_
    · exact ⟨hwire.1, fun h => ⟨hd (hwire.2 h).1, (hwire.2 h).2⟩⟩
    · refine ⟨?_, fun h => ⟨hd (hwire.2 (hse h)).1, (hwire.2 (hse h)).2⟩⟩
      rcases hph with hph | hph
      · rw [hph]
        exact hwire.1
      · rw [hph]
        exact hwire.1.wholeFrames hr
  · rw [hs.out] at hc
    obtain ⟨hshut, hstop⟩ := hw.shut hc
    refine ⟨hshut.same hs hd, forall_mem_set hstop fun hw' => ?_⟩
    rcases hph with hph | hph
    · rw [hph]
      exact hstop c (List.mem_of_getElem? ht) (he ▸ hw')
    · exact hph

lemma Marked.set (h : Marked cs) (ht : cs[t]? = some c) (hm : c.marked = true → c'.marked = true) :
    Marked (cs.set t c') :=
  exists_mem_set ht h hm

/-- A step that leaves the reader and `ReadClosed` alone. -/
lemma Reading.frame (hr : Reading s cs) (ht : cs[t]? = some c) (hread : c'.reading = c.reading)
    (hmark : c'.marked = c.marked) (hloop : c'.loop = c.loop) (hs : s'.loops = s.loops)
    (hc : s'.closed .readDone = s.closed .readDone) : Reading s' (cs.set t c') := by
  refine ⟨?_, ?_, fun h => ?_⟩
  · rw [total_set_eq ht (by rw [hread])]
    exact hr.one
  · rw [total_set_eq ht (by rw [hloop]), hs]
    exact hr.loops
  · rw [hc] at h
    rcases hr.readDone h with hm | hall
    · exact Or.inl (Marked.set hm ht fun hm => hmark.trans hm)
    · exact Or.inr (forall_mem_set hall (hread.trans (hall c (List.mem_of_getElem? ht))))

/-- The step of a goroutine that stays what it is to the reader's and the writer's side. -/
structure Life.Stays (c c' : Life) : Prop where
  entry : c'.entry = c.entry
  loop : c'.loop = c.loop
  reading : c'.reading = c.reading
  marked : c'.marked = c.marked
  phase : c'.phase = c.phase ∨ c'.phase = .stopped
  sawEmpty : c'.sawEmpty = true → c.sawEmpty = true

lemma Life.Stays.refl (c : Life) : c.Stays c := ⟨rfl, rfl, rfl, rfl, Or.inl rfl, id⟩

namespace Lifecycle

/-- A step that touches neither the wire nor `ReadClosed`. -/
lemma stay (hL : Lifecycle s cs) (hr : s.received ≤ s.sent.length) (ht : cs[t]? = some c)
    (hc : c.Stays c') (hl : s.Later s') (hw : s.SameWire s') (hloops : s'.loops = s.loops)
    (hread : s'.closed .readDone = s.closed .readDone) (hs : Signals s') (hk : c'.Knows s') :
    Lifecycle s' (cs.set t c') where
  knows := forall_mem_set (fun d hd => (hL.knows d hd).later hl) hk
  signals := hs
  reading := hL.reading.frame ht hc.reading hc.marked hc.loop hloops hread
  writing := hL.writing.frame hr ht hc.entry hc.phase hc.sawEmpty hw hl.drained

lemma knows_of (hL : Lifecycle s cs) (ht : cs[t]? = some c) : c.Knows s :=
  hL.knows c (List.mem_of_getElem? ht)

end Lifecycle

/-! ### Steps that say nothing of the lifecycle -/

/-- The part of the state that `Lifecycle` speaks of, the gate apart. -/
def Session.life (s : Session) :=
  (s.goal, s.why, s.terminal, s.closed, s.sent, s.received, s.results, s.out, s.loops)

/-- The step is of no interest to the lifecycle. -/
def SInstr.calm : SInstr → Bool
  | .select _ _ | .request _ | .abortSection _ _ | .tryTerminal | .setTerminal | .reason
  | .signal _ | .rawWrite _ | .rawCloseWrite | .wsWrite _ | .wsClose | .packetWrite _ | .wrote _
  | .loopDone | .waitLoops | .callBegin _ => false
  | _ => true

lemma Session.exec_life {cfg : SessionConfig} {x : Choice} {i : SInstr} {r : i.Resp}
    (hi : i.calm = true) (h : s.exec cfg x i = some (s', r)) :
    s'.life = s.life ∧ (s.gate.drained = true → s'.gate.drained = true) := by
  cases i with
  | gateEnter =>
    cases h
    refine ⟨rfl, fun hd => ?_⟩
    simp only [SendGate.enter]
    split <;> exact hd
  | gateLeave =>
    cases h
    exact ⟨rfl, fun hd => by simp [SendGate.leave, hd]⟩
  | gateClose =>
    cases h
    exact ⟨rfl, SendGate.drained_close⟩
  | releaseSlot =>
    obtain ⟨-, h⟩ := Option.ite_none_left_eq_some.mp h
    cases h
    exact ⟨rfl, id⟩
  | releaseEncoder =>
    obtain ⟨-, h⟩ := Option.ite_none_right_eq_some.mp h
    cases h
    exact ⟨rfl, id⟩
  | encode msg | globalRelease n | onceEnter o | decodeOne src | wsRead | wsDecode text payload
  | deferRead e | ack i v =>
    simp only [exec] at h
    split at h <;> cases h <;> exact ⟨rfl, id⟩
  | _ => first | (cases h; exact ⟨rfl, id⟩) | cases hi

lemma Life.upd_calm {i : SInstr} (hi : i.calm = true) (r : i.Resp) (c : Life) : c.upd i r = c := by
  cases i <;> first | rfl | cases hi

lemma Session.later_of_life (h : s'.life = s.life)
    (hd : s.gate.drained = true → s'.gate.drained = true) : s.Later s' ∧ s.SameWire s' := by
  simp only [Session.life, Prod.mk.injEq] at h
  obtain ⟨-, h₂, -, h₄, h₅, h₆, h₇, h₈, h₉⟩ := h
  refine ⟨⟨?_, ?_, ?_, Nat.le_of_eq h₉, hd⟩, ⟨h₅, h₆, h₇, h₈⟩⟩
  · rw [h₂]
    exact id
  · rw [h₄]
    exact fun _ => id
  · rw [h₈]
    exact fun _ => id

lemma Signals.of_life (hs : Signals s) (h : s'.life = s.life) : Signals s' := by
  simp only [Session.life, Prod.mk.injEq] at h
  obtain ⟨h₁, h₂, h₃, h₄, -, -, -, h₈, -⟩ := h
  obtain ⟨g₁, g₂, g₃, g₄, g₅⟩ := hs
  simp only [Session.Over] at g₃ g₄
  refine ⟨?_, ?_, ?_, ?_, ?_⟩
  · rw [h₁, h₂]
    exact g₁
  · rw [h₄, h₂]
    exact g₂
  · rw [Session.Over, h₃, h₂, h₄]
    exact g₃
  · rw [Session.Over, h₂, h₄]
    exact g₄
  · rw [h₄, h₂, h₈]
    exact g₅

/-- A step that only changes what the goroutine has seen. -/
lemma Lifecycle.learn (hL : Lifecycle s cs) (hr : s.received ≤ s.sent.length)
    (ht : cs[t]? = some c) (h : s'.life = s.life)
    (hd : s.gate.drained = true → s'.gate.drained = true) (hc : c.Stays c') (hk : c'.Knows s') :
    Lifecycle s' (cs.set t c') := by
  obtain ⟨hl, hw⟩ := Session.later_of_life h hd
  have hs := hL.signals.of_life h
  simp only [Session.life, Prod.mk.injEq] at h
  obtain ⟨-, -, -, h₄, -, -, -, -, h₉⟩ := h
  exact hL.stay hr ht hc hl hw h₉ (by rw [h₄]) hs hk

/-! ### Goals, ends and channels -/

namespace Session

lemma close_closed {ch ch' : Signal} :
    (s.close ch).closed ch' = true ↔ ch' = ch ∨ s.closed ch' = true := by
  by_cases h : ch' = ch
  · simp [close, h]
  · simp [close, h]

lemma later_close (s : Session) (ch : Signal) : s.Later (s.close ch) :=
  ⟨id, fun _ h => close_closed.mpr (Or.inr h), fun _ => id, Nat.le_refl _, id⟩

lemma sameWire_close (s : Session) (ch : Signal) : s.SameWire (s.close ch) := ⟨rfl, rfl, rfl, rfl⟩

end Session

lemma Signals.close (hs : Signals s) {ch : Signal} (ha : ch = .aborted → s.why ≠ .none)
    (hc : ch = .closing → s.Over)
    (hw : ch = .writeDone → s.why ≠ .none ∨ .closeWrite ∈ s.out) : Signals (s.close ch) := by
  have hl := s.later_close ch
  refine ⟨hs.goal, fun h => ?_, fun h => (hs.terminal h).later hl, fun h => ?_, fun h => ?_⟩
  · rcases Session.close_closed.mp h with h | h
    · exact ha h.symm
    · exact hs.aborted h
  · rcases Session.close_closed.mp h with h | h
    · exact (hc h.symm).later hl
    · exact (hs.closing h).later hl
  · rcases Session.close_closed.mp h with h | h
    · exact hw h.symm
    · exact hs.writeDone h

/-- An end of the write side has a reason, or the write side was closed. -/
lemma Signals.isOver (hs : Signals s) (h : s.Over) : s.why ≠ .none ∨ .closeWrite ∈ s.out :=
  h.elim Or.inl hs.writeDone

namespace Lifecycle

lemma request (hL : Lifecycle s cs) (hr : s.received ≤ s.sent.length) (ht : cs[t]? = some c)
    {goal : CloseGoal} (hg : goal ≠ .abort) : Lifecycle { s with goal } (cs.set t c) := by
  obtain ⟨-, h₂, h₃, h₄, h₅⟩ := hL.signals
  have hl : s.Later { s with goal } := ⟨id, fun _ => id, fun _ => id, Nat.le_refl _, id⟩
  exact hL.stay hr ht (.refl c) hl ⟨rfl, rfl, rfl, rfl⟩ rfl rfl
    ⟨fun h => absurd h hg, h₂, h₃, h₄, h₅⟩ ((hL.knows_of ht).later hl)

/-- An abort that comes too late knows that the session is over. -/
lemma abortLost (hL : Lifecycle s cs) (hr : s.received ≤ s.sent.length) (ht : cs[t]? = some c)
    (h : (s.terminal || s.goal == .abort) = true) :
    Lifecycle s (cs.set t
      { c with aborted := c.aborted || false, isOver := true, phase := .stopped }) := by
  have hk := hL.knows_of ht
  refine hL.learn hr ht rfl id ⟨rfl, rfl, rfl, rfl, Or.inr rfl, id⟩
    ⟨fun ha => hk.aborted (by simpa using ha), fun _ => ?_, hk.3, hk.4, hk.5, hk.6, hk.7, hk.8,
      hk.9⟩
  simp only [Bool.or_eq_true, beq_iff_eq] at h
  rcases h with h | h
  · exact hL.signals.terminal h
  · exact Or.inl (hL.signals.goal h)

lemma abortWon (hL : Lifecycle s cs) (hr : s.received ≤ s.sent.length) (ht : cs[t]? = some c)
    {why : AbortReason} (hw : why ≠ .none) (err : Option Err) :
    Lifecycle { s with goal := .abort, why, err }
      (cs.set t { c with aborted := c.aborted || true, isOver := true, phase := .stopped }) := by
  have hl : s.Later { s with goal := .abort, why, err } :=
    ⟨fun _ => hw, fun _ => id, fun _ => id, Nat.le_refl _, id⟩
  have hk := (hL.knows_of ht).later hl
  refine hL.stay hr ht ⟨rfl, rfl, rfl, rfl, Or.inr rfl, id⟩ hl ⟨rfl, rfl, rfl, rfl⟩ rfl rfl
    ⟨fun _ => hw, fun _ => hw, fun _ => Or.inl hw, fun _ => Or.inl hw, fun _ => Or.inl hw⟩
    ⟨fun _ => hw, fun _ => Or.inl hw, hk.3, hk.4, hk.5, hk.6, hk.7, hk.8, hk.9⟩

lemma setTerminal (hL : Lifecycle s cs) (hr : s.received ≤ s.sent.length) (ht : cs[t]? = some c)
    (ho : c.isOver = true) : Lifecycle { s with terminal := true } (cs.set t c) := by
  obtain ⟨h₁, h₂, -, h₄, h₅⟩ := hL.signals
  have hk := hL.knows_of ht
  have hl : s.Later { s with terminal := true } := ⟨id, fun _ => id, fun _ => id, Nat.le_refl _, id⟩
  exact hL.stay hr ht (.refl c) hl ⟨rfl, rfl, rfl, rfl⟩ rfl rfl
    ⟨h₁, h₂, fun _ => hk.isOver ho, h₄, h₅⟩
    (hk.later hl)

/-- The session is over and was not aborted: its write side was closed. -/
lemma reason (hL : Lifecycle s cs) (hr : s.received ≤ s.sent.length) (ht : cs[t]? = some c) :
    Lifecycle s (cs.set t (c.upd .reason s.why)) := by
  have hk := hL.knows_of ht
  cases hw : s.why with
  | none =>
    refine hL.learn hr ht rfl id ⟨rfl, rfl, rfl, rfl, Or.inl rfl, id⟩
      ⟨hk.1, hk.2, hk.3, hk.4, fun hc => ?_, hk.6, hk.7, hk.8, hk.9⟩
    rcases Bool.or_eq_true _ _ |>.mp hc with hc | ho
    · exact hk.clean hc
    · exact (hL.signals.isOver (hk.isOver ho)).resolve_left fun h => h hw
  | explicit | caller | failure => exact hL.learn hr ht rfl id (.refl c) hk

/-- The close of a channel other than `ReadClosed`. -/
lemma signal (hL : Lifecycle s cs) (hr : s.received ≤ s.sent.length) (ht : cs[t]? = some c)
    {ch : Signal} (hch : ch ≠ .readDone) (hreq : c.req (.signal ch)) :
    Lifecycle (s.close ch) (cs.set t c) := by
  have hk := hL.knows_of ht
  have hs : Signals (s.close ch) := by
    refine hL.signals.close ?_ ?_ ?_
    · rintro rfl
      exact hk.aborted hreq
    · rintro rfl
      exact hk.isOver hreq
    · rintro rfl
      rcases hreq with ho | hc
      · exact hL.signals.isOver (hk.isOver ho)
      · exact Or.inr (hk.clean hc)
  exact hL.stay hr ht (.refl c) (s.later_close ch) (s.sameWire_close ch) rfl
    (Function.update_of_ne hch.symm _ _) hs (hk.later (s.later_close ch))

/-! ### The reader -/

lemma reader_eq (hr : Reading s cs) (ht : cs[t]? = some c) (hc : c.reading = true) :
    ∀ d ∈ cs.set t { c with reading := false, marked := c.marked || c.aborted },
      d.reading = false := by
  intro d hd
  obtain ⟨j, hj⟩ := List.mem_iff_getElem?.mp hd
  by_cases htj : t = j
  · subst htj
    rw [List.getElem?_set_self (List.getElem?_eq_some_iff.mp ht).1] at hj
    cases hj
    rfl
  · rw [List.getElem?_set_ne htj] at hj
    have hle := add_le_total (f := fun c : Life => c.reading.toNat) htj ht hj
    have hone := hr.one
    cases hd : d.reading with
    | false => rfl
    | true =>
      simp only [hc, hd, Bool.toNat_true] at hle
      omega

/-- `ReadClosed` is closed in an abort, by the reader, or after its end. -/
lemma signalRead (hL : Lifecycle s cs) (hr : s.received ≤ s.sent.length) (ht : cs[t]? = some c)
    (hreq : c.req (.signal .readDone)) :
    Lifecycle (s.close .readDone)
      (cs.set t { c with marked := c.marked || c.aborted, reading := false }) := by
  have hk := (hL.knows_of ht).later (s.later_close .readDone)
  have hsum := total_set (f := fun c : Life => c.reading.toNat)
    { c with marked := c.marked || c.aborted, reading := false } ht
  have hone := hL.reading.one
  refine ⟨forall_mem_set (fun d hd => (hL.knows d hd).later (s.later_close _)) ?_,
    hL.signals.close nofun nofun nofun, ⟨?_, ?_, fun _ => ?_⟩,
    hL.writing.frame hr ht rfl (Or.inl rfl) id (s.sameWire_close _) id⟩
  · exact ⟨hk.1, hk.2, hk.3, fun _ => Session.close_closed.mpr (Or.inl rfl), hk.5, hk.6, hk.7,
      nofun, hk.9⟩
  · simp only [Bool.toNat_false] at hsum
    omega
  · rw [total_set_eq ht (by rfl)]
    exact hL.reading.loops
  · have hset : ∀ {P : Prop}, (∀ d ∈ cs, d.reading = false) → P ∨ ∀ d ∈
        cs.set t { c with marked := c.marked || c.aborted, reading := false }, d.reading = false :=
      fun h => Or.inr (forall_mem_set h rfl)
    rcases hreq with ha | hread | hsaw | hwait
    · exact Or.inl ⟨_, List.mem_set (List.getElem?_eq_some_iff.mp ht).1 _, by simp [ha]⟩
    · exact Or.inr (reader_eq hL.reading ht hread)
    · rcases hL.reading.readDone ((hL.knows_of ht).sawReadDone hsaw) with hm | hall
      · exact Or.inl (hm.set ht fun hm => by simp [hm])
      · exact hset hall
    · -- all loops have ended, the reader's among them
      refine hset fun d hd => ?_
      have hz := (hL.knows_of ht).waited hwait
      rw [hL.reading.loops, total_eq_zero_iff] at hz
      cases hread : d.reading with
      | false => rfl
      | true =>
        have := hz d hd
        rw [(hL.knows d hd).reading hread] at this
        cases this

lemma loopDone (hL : Lifecycle s cs) (hr : s.received ≤ s.sent.length) (ht : cs[t]? = some c)
    (hloop : c.loop = true) :
    Lifecycle { s with loops := s.loops - 1 }
      (cs.set t { c with loop := false, reading := false }) := by
  have hl : s.Later { s with loops := s.loops - 1 } :=
    ⟨id, fun _ => id, fun _ => id, Nat.sub_le _ _, id⟩
  have hk := (hL.knows_of ht).later hl
  have hone := hL.reading.one
  have hread := total_set (f := fun c : Life => c.reading.toNat)
    { c with loop := false, reading := false } ht
  have hsum := total_set (f := fun c : Life => c.loop.toNat)
    { c with loop := false, reading := false } ht
  simp only [hloop, Bool.toNat_true, Bool.toNat_false] at hread hsum
  obtain ⟨h₁, h₂, h₃, h₄, h₅⟩ := hL.signals
  refine ⟨forall_mem_set (fun d hd => (hL.knows d hd).later hl) ?_, ⟨h₁, h₂, h₃, h₄, h₅⟩,
    ⟨by omega, ?_, fun h => ?_⟩,
    hL.writing.frame hr ht rfl (Or.inl rfl) id ⟨rfl, rfl, rfl, rfl⟩ id⟩
  · exact ⟨hk.1, hk.2, hk.3, hk.4, hk.5, hk.6, hk.7, nofun, hk.9⟩
  · have := hL.reading.loops
    show s.loops - 1 = _
    omega
  · rcases hL.reading.readDone h with hm | hall
    · exact Or.inl (hm.set ht id)
    · exact Or.inr (forall_mem_set hall rfl)

lemma waitLoops (hL : Lifecycle s cs) (hr : s.received ≤ s.sent.length) (ht : cs[t]? = some c)
    (hz : s.loops = 0) : Lifecycle s (cs.set t { c with waited := true }) := by
  have hk := hL.knows_of ht
  exact hL.learn hr ht rfl id ⟨rfl, rfl, rfl, rfl, Or.inl rfl, id⟩
    ⟨hk.1, hk.2, hk.3, hk.4, hk.5, fun _ => hz, hk.7, hk.8, hk.9⟩

/-! ### The wire -/

/-- Nobody enters the gate any more once the write side is closed. -/
lemma push (hL : Lifecycle s cs) (hr : s.received ≤ s.sent.length) (hd : s.gate.drained = false)
    (req : Request) (acks : List (Option (Option Err))) :
    Lifecycle { s with sent := s.sent ++ [req], acks } cs := by
  have hl : s.Later { s with sent := s.sent ++ [req], acks } :=
    ⟨id, fun _ => id, fun _ => id, Nat.le_refl _, id⟩
  obtain ⟨h₁, h₂, h₃, h₄, h₅⟩ := hL.signals
  obtain ⟨r₁, r₂, r₃⟩ := hL.reading
  refine ⟨fun d hd => (hL.knows d hd).later hl, ⟨h₁, h₂, h₃, h₄, h₅⟩, ⟨r₁, r₂, r₃⟩,
    ⟨hL.writing.one, fun d hd' hw => ?_, fun h => ?_⟩⟩
  · obtain ⟨hwire, hempty⟩ := hL.writing.wire d hd' hw
    refine ⟨hwire.append hr [req], fun he => ?_⟩
    have := (hempty he).1
    rw [hd] at this
    cases this
  · have := (hL.writing.shut h).1.drained
    rw [hd] at this
    cases this

/-- A step of the writer that moves it on the wire. -/
lemma write (hL : Lifecycle s cs) (ht : cs[t]? = some c) (he : c.entry = .writerLoop)
    (hne : c.phase ≠ .stopped ∨ .closeWrite ∉ s.out) {received : ℕ} {results : List Bool}
    {out : List Output} {phase : WirePhase} {broken : Bool}
    (hout : ∀ o, o ∈ out → o = .closeWrite → o ∈ s.out)
    (hmono : ∀ o ∈ s.out, o ∈ out)
    (hwire : OnWire s.sent received results out phase)
    (hempty : c.sawEmpty = true → s.gate.drained = true ∧ s.sent.length ≤ received) :
    Lifecycle { s with received, results, out } (cs.set t { c with phase, broken }) := by
  have hl : s.Later { s with received, results, out } :=
    ⟨id, fun _ => id, hmono, Nat.le_refl _, id⟩
  have hk := (hL.knows_of ht).later hl
  have hno : .closeWrite ∉ s.out := fun h => hne.elim
    (fun hp => hp ((hL.writing.shut h).2 c (List.mem_of_getElem? ht) he)) fun hno => hno h
  obtain ⟨h₁, h₂, h₃, h₄, h₅⟩ := hL.signals
  refine ⟨forall_mem_set (fun d hd => (hL.knows d hd).later hl) ?_,
    ⟨h₁, h₂, h₃, h₄, fun h => (h₅ h).imp_right (hmono _)⟩,
    hL.reading.frame ht rfl rfl rfl rfl rfl, ⟨?_, ?_, fun h => absurd (hout _ h rfl) hno⟩⟩
  · exact ⟨hk.1, hk.2, hk.3, hk.4, hk.5, hk.6, hk.7, hk.8, fun _ => he⟩
  · rw [total_set_eq ht (by rfl)]
    exact hL.writing.one
  · exact forall_mem_set_of_unique ht (fun hh _ _ hj hd => hL.writing.writer_eq ht hj hh hd)
      (fun _ => he) hL.writing.wire (fun hne => absurd he hne) fun _ _ => ⟨hwire, hempty⟩

lemma pop (hL : Lifecycle s cs) (ht : cs[t]? = some c) {req : Request} (hreq : c.caseReq .pop)
    (hq : s.sent[s.received]? = some req) :
    Lifecycle { s with received := s.received + 1 }
      (cs.set t { c with phase := c.phase.take req.frame }) := by
  obtain ⟨he, hph⟩ := hreq
  obtain ⟨hwire, hempty⟩ := hL.writing.wire c (List.mem_of_getElem? ht) he
  have hlt := (List.getElem?_eq_some_iff.mp hq).1
  refine hL.write ht he (Or.inr fun h => ?_) (fun _ h _ => h) (fun _ => id) (hwire.take hph hq)
    fun h => ⟨(hempty h).1, Nat.le_succ_of_le (hempty h).2⟩
  have := (hL.writing.shut h).1.received
  omega

/-- A `select` takes its default on an empty queue. -/
lemma polled (hL : Lifecycle s cs) (ht : cs[t]? = some c) {cases : List Case}
    (hq : offersPop cases = true → s.sent.length ≤ s.received) :
    Lifecycle s (cs.set t (c.fired cases .default)) := by
  have hk := hL.knows_of ht
  refine ⟨forall_mem_set hL.knows ⟨hk.1, hk.2, hk.3, hk.4, hk.5, hk.6, hk.7, hk.8, hk.9⟩,
    hL.signals,
    hL.reading.frame ht rfl rfl rfl rfl rfl, ⟨?_, ?_, fun h => ?_⟩⟩
  · rw [total_set_eq ht (by rfl)]
    exact hL.writing.one
  · refine forall_mem_set hL.writing.wire fun hw => ?_
    obtain ⟨hwire, hempty⟩ := hL.writing.wire c (List.mem_of_getElem? ht) hw
    refine ⟨hwire, fun he => ?_⟩
    simp only [Life.fired, Bool.or_eq_true, Bool.and_eq_true] at he
    rcases he with he | ⟨hd, ho⟩
    · exact hempty he
    · exact ⟨hk.sawDrained hd, hq ho⟩
  · obtain ⟨hshut, hstop⟩ := hL.writing.shut h
    exact ⟨hshut, forall_mem_set hstop fun hw => hstop c (List.mem_of_getElem? ht) hw⟩

/-- A channel that is closed tells what closed it. -/
lemma saw (hL : Lifecycle s cs) (hr : s.received ≤ s.sent.length) (ht : cs[t]? = some c)
    (cases : List Case) {ch : Signal} (hc : s.closed ch = true) :
    Lifecycle s (cs.set t (c.fired cases (.closed ch))) := by
  have hk := hL.knows_of ht
  cases ch with
  | writeDone =>
    exact hL.learn hr ht rfl id ⟨rfl, rfl, rfl, rfl, Or.inl rfl, id⟩
      ⟨hk.1, fun _ => Or.inr hc, hk.3, hk.4, hk.5, hk.6, hk.7, hk.8, hk.9⟩
  | aborted =>
    exact hL.learn hr ht rfl id ⟨rfl, rfl, rfl, rfl, Or.inl rfl, id⟩
      ⟨hk.1, fun _ => Or.inl (hL.signals.aborted hc), hk.3, hk.4, hk.5, hk.6, hk.7, hk.8, hk.9⟩
  | closing =>
    exact hL.learn hr ht rfl id ⟨rfl, rfl, rfl, rfl, Or.inr rfl, id⟩
      ⟨hk.1, fun _ => hL.signals.closing hc, hk.3, hk.4, hk.5, hk.6, hk.7, hk.8, hk.9⟩
  | readDone =>
    exact hL.learn hr ht rfl id ⟨rfl, rfl, rfl, rfl, Or.inl rfl, id⟩
      ⟨hk.1, hk.2, fun _ => hc, hk.4, hk.5, hk.6, hk.7, hk.8, hk.9⟩
  | _ => exact hL.learn hr ht rfl id (.refl c) hk

lemma fire (hL : Lifecycle s cs) (hr : s.received ≤ s.sent.length) (ht : cs[t]? = some c)
    {cfg : SessionConfig} {cases : List Case} {cse : Case} {x : Choice} {r : Fired}
    (hreq : c.caseReq cse) (hpush : ∀ req, cse = .push req → s.gate.drained = false)
    (hx : s.fire cfg x cse = some (s', r)) : Lifecycle s' (cs.set t (c.fired cases r)) := by
  have hk := hL.knows_of ht
  cases cse with
  | closed ch =>
    obtain ⟨hc, hx⟩ := Option.ite_none_right_eq_some.mp hx
    cases hx
    exact hL.saw hr ht cases hc
  | drained =>
    obtain ⟨hd, hx⟩ := Option.ite_none_right_eq_some.mp hx
    cases hx
    exact hL.learn hr ht rfl id ⟨rfl, rfl, rfl, rfl, Or.inl rfl, id⟩
      ⟨hk.1, hk.2, hk.3, hk.4, hk.5, hk.6, fun _ => hd, hk.8, hk.9⟩
  | push req =>
    obtain ⟨-, hx⟩ := Option.ite_none_right_eq_some.mp hx
    cases hx
    exact (set_of_getElem? ht).symm ▸ hL.push hr (hpush req rfl) req _
  | pop =>
    simp only [Session.fire] at hx
    split at hx
    · rename_i req hq
      cases hx
      exact hL.pop ht hreq hq
    · cases hx
  | ack i =>
    simp only [Session.fire] at hx
    split at hx
    · cases hx
      exact hL.learn hr ht rfl id (.refl c) ⟨hk.1, hk.2, hk.3, hk.4, hk.5, hk.6, hk.7, hk.8, hk.9⟩
    · cases hx
  | ctxDone k =>
    obtain ⟨e, -, hx⟩ := Option.map_eq_some_iff.mp hx
    cases hx
    exact hL.learn hr ht rfl id (.refl c) hk
  | timer =>
    cases hx
    exact hL.learn hr ht rfl id (.refl c) hk
  | slot =>
    obtain ⟨-, hx⟩ := Option.ite_none_right_eq_some.mp hx
    cases hx
    exact hL.learn hr ht rfl id (.refl c) ⟨hk.1, hk.2, hk.3, hk.4, hk.5, hk.6, hk.7, hk.8, hk.9⟩
  | encoder | changedLocal g | changedGlobal g =>
    obtain ⟨-, hx⟩ := Option.ite_none_left_eq_some.mp hx
    cases hx
    exact hL.learn hr ht rfl id (.refl c) ⟨hk.1, hk.2, hk.3, hk.4, hk.5, hk.6, hk.7, hk.8, hk.9⟩

lemma rawWrite (hL : Lifecycle s cs) (ht : cs[t]? = some c) {p : Bytes}
    (hreq : c.req (.rawWrite p)) (n : ℕ) (broken : Bool) :
    Lifecycle { s with out := s.out ++ [Output.bytes (p.take n)] }
      (cs.set t { c with phase := .inside (p.drop (min n p.length)), broken }) := by
  obtain ⟨he, hph, -⟩ := hreq
  obtain ⟨hwire, hempty⟩ := hL.writing.wire c (List.mem_of_getElem? ht) he
  rw [hph] at hwire
  have hdrop : p.drop (min n p.length) = p.drop n := by
    rcases Nat.le_total n p.length with h | h
    · rw [Nat.min_eq_left h]
    · rw [Nat.min_eq_right h, List.drop_length, List.drop_eq_nil_of_le h]
  rw [hdrop]
  refine hL.write ht he (Or.inl (by rw [hph]; nofun)) (fun o ho hc => ?_)
    (fun _ h => List.mem_append_left _ h) (hwire.write n) hempty
  rcases List.mem_append.mp ho with ho | ho
  · exact ho
  · rw [List.mem_singleton, hc] at ho
    cases ho

lemma wrote (hL : Lifecycle s cs) (hr : s.received ≤ s.sent.length) (ht : cs[t]? = some c)
    {ok : Bool} (hreq : c.req (.wrote ok)) :
    Lifecycle { s with results := s.results ++ [ok] }
      (cs.set t { c with phase := if ok then .between else .stopped }) := by
  obtain ⟨he, rest, hph, hrest⟩ := hreq
  obtain ⟨hwire, hempty⟩ := hL.writing.wire c (List.mem_of_getElem? ht) he
  rw [hph] at hwire
  refine hL.write ht he (Or.inl (by rw [hph]; nofun)) (fun _ h _ => h) (fun _ => id) ?_ hempty
  cases ok with
  | true =>
    cases hrest rfl
    exact hwire.finish
  | false => exact hwire.wholeFrames hr

/-- The write side is closed when the gate is drained and the queue is empty. -/
lemma rawCloseWrite (hL : Lifecycle s cs) (hr : s.received ≤ s.sent.length)
    (ht : cs[t]? = some c) (hreq : c.req .rawCloseWrite) :
    Lifecycle { s with out := s.out ++ [Output.closeWrite] }
      (cs.set t { c with phase := .stopped, clean := true }) := by
  obtain ⟨he, hph, -, hsaw⟩ := hreq
  obtain ⟨hwire, hempty⟩ := hL.writing.wire c (List.mem_of_getElem? ht) he
  obtain ⟨hd, hlen⟩ := hempty hsaw
  have hrec : s.received = s.sent.length := Nat.le_antisymm hr hlen
  rw [hph] at hwire
  have hno : .closeWrite ∉ s.out := fun h => by
    have := (hL.writing.shut h).2 c (List.mem_of_getElem? ht) he
    rw [hph] at this
    cases this
  have hl : s.Later { s with out := s.out ++ [Output.closeWrite] } :=
    ⟨id, fun _ => id, fun _ h => List.mem_append_left _ h, Nat.le_refl _, id⟩
  have hk := (hL.knows_of ht).later hl
  have hmem : Output.closeWrite ∈ s.out ++ [Output.closeWrite] := by simp
  obtain ⟨h₁, h₂, h₃, h₄, -⟩ := hL.signals
  refine ⟨forall_mem_set (fun d hd => (hL.knows d hd).later hl) ?_,
    ⟨h₁, h₂, h₃, h₄, fun _ => Or.inr hmem⟩,
    hL.reading.frame ht rfl rfl rfl rfl rfl, ⟨?_, ?_, fun _ => ⟨⟨hd, hrec, ?_, ?_⟩, ?_⟩⟩⟩
  · exact ⟨hk.1, hk.2, hk.3, hk.4, fun _ => hmem, hk.6, hk.7, hk.8, hk.9⟩
  · rw [total_set_eq ht (by rfl)]
    exact hL.writing.one
  · refine forall_mem_set_of_unique ht (fun hh _ _ hj hd => hL.writing.writer_eq ht hj hh hd)
      (fun _ => he) hL.writing.wire (fun hne => absurd he hne) fun _ _ => ⟨?_, hempty⟩
    show WholeFrames s.sent (outBytes (s.out ++ [Output.closeWrite]))
    rw [outBytes_append, show outBytes [Output.closeWrite] = [] from rfl, List.append_nil]
    exact hwire.wholeFrames hr
  · show s.results = _
    rw [hwire.2, hrec]
  · refine ⟨s.out, rfl, hno, ?_⟩
    rw [hwire.1, hrec, List.take_length]
  · exact forall_mem_set_of_unique ht (fun hh _ _ hj hd => hL.writing.writer_eq ht hj hh hd)
      (fun _ => he) hL.writing.wire (fun hne => absurd he hne) fun _ _ => rfl

/-- Every step of a goroutine that keeps to the outline keeps the lifecycle in order. -/
lemma exec (hL : Lifecycle s cs) (hr : s.received ≤ s.sent.length) (ht : cs[t]? = some c)
    {cfg : SessionConfig} {i : SInstr} {x : Choice} {r : i.Resp} (hreq : c.req i)
    (hpush : ∀ cases dflt req, i = .select cases dflt → .push req ∈ cases →
      s.gate.drained = false) (hx : s.exec cfg x i = some (s', r)) :
    c.ans i r ∧ Lifecycle s' (cs.set t (c.upd i r)) := by
  cases hn : i.calm with
  | true =>
    obtain ⟨hlife, hd⟩ := Session.exec_life hn hx
    rw [Life.upd_calm hn]
    refine ⟨?_, hL.learn hr ht hlife hd (.refl c)
      ((hL.knows_of ht).later (Session.later_of_life hlife hd).1)⟩
    cases i <;> trivial
  | false =>
    cases i with
    | select cases dflt =>
      refine ⟨Session.select_from hx, ?_⟩
      obtain ⟨cse, hc, hx⟩ | ⟨-, rfl, rfl, hnone⟩ := Session.select_cases hx
      · exact hL.fire hr ht (hreq cse hc) (fun req h => hpush cases dflt req rfl (h ▸ hc)) hx
      · refine hL.polled ht fun ho => ?_
        have hpop := hnone .pop (Resources.mem_of_offersPop ho)
        simp only [Session.fire] at hpop
        split at hpop
        · cases hpop
        · rename_i hq
          exact List.getElem?_eq_none_iff.mp hq
    | request goal =>
      simp only [Session.exec] at hx
      split at hx <;> cases hx
      · exact ⟨trivial, hL.learn hr ht rfl id (.refl c) (hL.knows_of ht)⟩
      · exact ⟨trivial, hL.request hr ht hreq⟩
    | abortSection reason publish =>
      simp only [Session.exec] at hx
      split at hx <;> cases hx
      · rename_i h
        exact ⟨trivial, hL.abortLost hr ht h⟩
      · exact ⟨trivial, hL.abortWon hr ht hreq _⟩
    | tryTerminal =>
      simp only [Session.exec] at hx
      split at hx <;> cases hx
      · exact ⟨trivial, hL.learn hr ht rfl id (.refl c) (hL.knows_of ht)⟩
      · exact ⟨trivial, hL.setTerminal hr ht hreq⟩
    | setTerminal =>
      cases hx
      exact ⟨trivial, hL.setTerminal hr ht hreq⟩
    | reason =>
      cases hx
      exact ⟨trivial, hL.reason hr ht⟩
    | signal ch =>
      cases hx
      by_cases hch : ch = .readDone
      · subst hch
        exact ⟨trivial, hL.signalRead hr ht hreq⟩
      · have hupd : c.upd (.signal ch) () = c := by cases ch <;> first | rfl | exact absurd rfl hch
        rw [hupd]
        exact ⟨trivial, hL.signal hr ht hch hreq⟩
    | rawWrite p =>
      cases hx
      exact ⟨trivial, hL.rawWrite ht hreq x.n _⟩
    | rawCloseWrite =>
      cases hx
      exact ⟨trivial, hL.rawCloseWrite hr ht hreq⟩
    | wrote ok =>
      cases hx
      exact ⟨trivial, hL.wrote hr ht hreq⟩
    | loopDone =>
      cases hx
      exact ⟨trivial, hL.loopDone hr ht hreq⟩
    | waitLoops =>
      obtain ⟨hz, hx⟩ := Option.ite_none_right_eq_some.mp hx
      cases hx
      exact ⟨trivial, hL.waitLoops hr ht hz⟩
    | callBegin cb =>
      cases hx
      exact ⟨trivial, hL.learn hr ht rfl id (.refl c) (hL.knows_of ht)⟩
    | wsWrite req | wsClose | packetWrite req => exact absurd hreq id
    | _ => cases hn

end Lifecycle

end Ogrenet
