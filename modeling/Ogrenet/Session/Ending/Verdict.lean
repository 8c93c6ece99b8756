import Ogrenet.Session.Ending.Programs

/-!
# One goroutine ends a session

The invariant behind the end of a session: as soon as the end is taken there is exactly one
goroutine that has ended it, whoever knows of the end comes after it, and only it has written the
error.
-/

namespace Ogrenet

open Interleaving Interleaving.Prog

/-- How many times the goroutine has ended the session. -/
def won (kind : SessionKind) (c : SPast) : ℕ := (wins kind c.1 c.2).length

/-- Some goroutine has ended the session for good. -/
def Final (kind : SessionKind) (cs : List SPast) : Prop :=
  ∃ c ∈ cs, settled kind c.1 c.2 = true

/-- Nobody can end the session any more. -/
def Session.taken (kind : SessionKind) (s : Session) : Bool :=
  match kind with
  | .packet => s.once .close != .idle
  | _ => s.terminal || s.goal == .abort

/-- What the past of a goroutine says of the error. -/
structure Testimony (kind : SessionKind) (s : Session) (c : SPast) : Prop where
  quiet : ∀ w ∈ wins kind c.1 c.2, w ≠ .failure → s.err = none
  saw : ∀ e, SawErr kind e c.1 c.2 → s.err = e
  told : ∀ e, ⟨.callBegin (.onClose e), ()⟩ ∈ c.2 → SawErr kind e c.1 c.2
  announced : announced kind c.1 c.2 = true → settled kind c.1 c.2 = true

structure Verdict (kind : SessionKind) (s : Session) (cs : List SPast) : Prop where
  one : total (won kind) cs ≤ 1
  taken : s.taken kind = true ↔ 0 < total (won kind) cs
  finished : kind = .packet → s.once .close = .finished → Final kind cs
  signals : ∀ ch, ch.final = true → s.closed ch = true → Final kind cs
  err : s.err ≠ none → Final kind cs
  knows : ∀ c ∈ cs, knowsEnd kind c = true → Final kind cs
  pasts : ∀ c ∈ cs, Testimony kind s c

section Facts

variable {kind : SessionKind} {s s' : Session} {cs : List SPast} {t : ℕ} {c : SPast}
  {a : Sigma SInstr.Resp}

lemma Final.set (h : Final kind cs) (ht : cs[t]? = some c) :
    Final kind (cs.set t (c.1, a :: c.2)) :=
  exists_mem_set (P := fun d : SPast => settled kind d.1 d.2 = true) ht h fun h => settled_cons h

lemma Final.of_set (ht : cs[t]? = some c) (h : settled kind c.1 (a :: c.2) = true) :
    Final kind (cs.set t (c.1, a :: c.2)) :=
  ⟨_, List.mem_set (List.getElem?_eq_some_iff.mp ht).1 _, h⟩

lemma won_pos : 0 < won kind c ↔ wins kind c.1 c.2 ≠ [] := List.length_pos_iff

lemma won_cons : won kind (c.1, a :: c.2) = (winsAs kind c a).toList.length + won kind c := by
  rw [won, wins, List.length_append]
  rfl

lemma Final.pos (h : Final kind cs) : 0 < total (won kind) cs := by
  obtain ⟨c, hc, hs⟩ := h
  exact Nat.lt_of_lt_of_le (won_pos.mpr (wins_of_settled hs)) (le_total hc)

namespace Verdict

/-- At most one goroutine has ended the session. -/
lemma winner_eq (hV : Verdict kind s cs) (hc : c ∈ cs) {d : SPast} (hd : d ∈ cs)
    (hwc : wins kind c.1 c.2 ≠ []) (hwd : wins kind d.1 d.2 ≠ []) : c = d := by
  obtain ⟨i, hi⟩ := List.mem_iff_getElem?.mp hc
  obtain ⟨j, hj⟩ := List.mem_iff_getElem?.mp hd
  by_cases hij : i = j
  · subst hij
    exact Option.some.inj (hi.symm.trans hj)
  · have hle := add_le_total (f := won kind) hij hi hj
    have hone := hV.one
    have h₁ := won_pos.mpr hwc
    have h₂ := won_pos.mpr hwd
    omega

/-- The goroutine that has ended the session is the one that has settled it. -/
lemma settled_of_final (hV : Verdict kind s cs) (hf : Final kind cs) (hc : c ∈ cs)
    (hw : wins kind c.1 c.2 ≠ []) : settled kind c.1 c.2 = true := by
  obtain ⟨d, hd, hs⟩ := hf
  cases hV.winner_eq hc hd hw (wins_of_settled hs)
  exact hs

/-- With a lifecycle, an end that is taken is settled. -/
lemma final_of_taken (hV : Verdict kind s cs) (hk : kind ≠ .packet) (h : s.taken kind = true) :
    Final kind cs := by
  have hpos := hV.taken.mp h
  by_contra hno
  have hzero : total (won kind) cs = 0 := by
    refine total_eq_zero_iff.mpr fun c hc => ?_
    by_contra hw
    refine hno ⟨c, hc, ?_⟩
    rw [settled_of_not_packet hk]
    simpa using won_pos.mp (Nat.pos_of_ne_zero hw)
  omega

/-- As long as the end is not taken, nobody has ended the session. -/
lemma open_of_not_taken (hV : Verdict kind s cs) (h : s.taken kind = false) :
    total (won kind) cs = 0 ∧ ¬ Final kind cs ∧ s.err = none := by
  have hzero : total (won kind) cs = 0 := by
    by_contra hne
    have := hV.taken.mpr (Nat.pos_of_ne_zero hne)
    rw [h] at this
    cases this
  have hno : ¬ Final kind cs := fun hf => by
    have := hf.pos
    omega
  refine ⟨hzero, hno, ?_⟩
  by_contra hne
  exact hno (hV.err hne)

end Verdict

lemma Testimony.cons (h : Testimony kind s c) (hw : winsAs kind c a = none)
    (hsaw : ∀ e, a = ⟨.err, e⟩ → s.err = e)
    (htold : ∀ e, a = ⟨.callBegin (.onClose e), ()⟩ → SawErr kind e c.1 c.2)
    (hann : a.1.announces = true → wins kind c.1 c.2 ≠ [] → settled kind c.1 c.2 = true) :
    Testimony kind s (c.1, a :: c.2) := by
  refine ⟨?_, ?_, fun e he => ?_, fun ha => settled_cons ?_⟩
  · rw [wins, show winsAs kind (c.1, c.2) a = none from hw]
    exact h.quiet
  · rintro e (⟨ha, -⟩ | he)
    · exact hsaw e ha
    · exact h.saw e he
  · rcases List.mem_cons.mp he with he | he
    · exact Or.inr (htold e he.symm)
    · exact Or.inr (h.told e he)
  · simp only [Ogrenet.announced, Bool.or_eq_true, Bool.and_eq_true, Bool.not_eq_true',
      List.isEmpty_eq_false_iff] at ha
    rcases ha with ha | ⟨ha, hne⟩
    · exact h.announced ha
    · exact hann ha hne

lemma Testimony.of_err (h : Testimony kind s c) (he : s'.err = s.err) : Testimony kind s' c :=
  ⟨fun w hw hf => he.trans (h.quiet w hw hf), fun e hs => he.trans (h.saw e hs), h.told,
    h.announced⟩

namespace Verdict

/-- A step that does not end the session and leaves the error alone. -/
lemma keep (hV : Verdict kind s cs) (ht : cs[t]? = some c) (herr : s'.err = s.err)
    (htaken : s'.taken kind = s.taken kind)
    (honce : kind = .packet → s'.once .close = .finished →
      s.once .close = .finished ∨ Final kind cs)
    (hclosed : ∀ ch, ch.final = true → s'.closed ch = true → s.closed ch = true ∨ Final kind cs)
    (hw : winsAs kind c a = none) (hshow : showsEnd kind a = true → Final kind cs)
    (hsaw : ∀ e, a = ⟨.err, e⟩ → s.err = e)
    (htold : ∀ e, a = ⟨.callBegin (.onClose e), ()⟩ → SawErr kind e c.1 c.2)
    (hann : a.1.announces = true → wins kind c.1 c.2 ≠ [] → settled kind c.1 c.2 = true) :
    Verdict kind s' (cs.set t (c.1, a :: c.2)) := by
  have htotal : total (won kind) (cs.set t (c.1, a :: c.2)) = total (won kind) cs :=
    total_set_eq ht (by rw [won_cons, hw]; exact Nat.zero_add _)
  refine ⟨?_, ?_, fun hk hf => ?_, fun ch hch hc => ?_, fun he => (hV.err (herr ▸ he)).set ht,
    ?_, ?_⟩
  · rw [htotal]
    exact hV.one
  · rw [htotal, ← hV.taken, htaken]
  · exact ((honce hk hf).elim (hV.finished hk) id).set ht
  · exact ((hclosed ch hch hc).elim (hV.signals ch hch) id).set ht
  · refine forall_mem_set (fun d hd hk => (hV.knows d hd hk).set ht) fun hk => ?_
    simp only [knowsEnd, List.any_cons, Bool.or_eq_true] at hk
    rcases hk with hk | hk | hk
    · exact .of_set ht hk
    · exact (hshow hk).set ht
    · refine (hV.knows c (List.mem_of_getElem? ht) ?_).set ht
      rw [knowsEnd, hk, Bool.or_true]
  · exact forall_mem_set (fun d hd => (hV.pasts d hd).of_err herr)
      (((hV.pasts c (List.mem_of_getElem? ht)).cons hw hsaw htold hann).of_err herr)

/-- The step that ends the session. -/
lemma win (hV : Verdict kind s cs) (ht : cs[t]? = some c) {w : Closer}
    (hw : winsAs kind c a = some w) (hno : s.taken kind = false) (htaken : s'.taken kind = true)
    (hclosed : s'.closed = s.closed)
    (hpacket : kind = .packet →
      s'.once .close ≠ .finished ∧ s'.err = s.err ∧ showsEnd kind a = false)
    (hquiet : w ≠ .failure → s'.err = none) : Verdict kind s' (cs.set t (c.1, a :: c.2)) := by
  obtain ⟨hzero, hnot, hnone⟩ := hV.open_of_not_taken hno
  have hmem := List.mem_of_getElem? ht
  have hnowins : ∀ d ∈ cs, wins kind d.1 d.2 = [] := fun d hd =>
    List.length_eq_zero_iff.mp (total_eq_zero_iff.mp hzero d hd)
  have hwins : wins kind c.1 (a :: c.2) = [w] := by
    rw [wins, show winsAs kind (c.1, c.2) a = some w from hw, hnowins c hmem]
    rfl
  have hset := total_set (f := won kind) (c.1, a :: c.2) ht
  rw [hzero, won_cons, hw] at hset
  simp only [Option.toList_some, List.length_singleton] at hset
  -- with a lifecycle the end is settled by the same step
  have hfinal : kind ≠ .packet → Final kind (cs.set t (c.1, a :: c.2)) := fun hk => by
    refine .of_set ht ?_
    rw [settled_of_not_packet hk, hwins]
    rfl
  have hshape : (∀ e, a ≠ ⟨.err, e⟩) ∧ (∀ e, a ≠ ⟨.callBegin (.onClose e), ()⟩) ∧
      a.1.announces = false := by
    refine ⟨?_, ?_, ?_⟩
    · rintro e rfl
      cases hw
    · rintro e rfl
      cases hw
    · obtain ⟨i, r⟩ := a
      cases i with
      | signal ch => cases hw
      | _ => rfl
  refine ⟨by omega, ⟨fun _ => by omega, fun _ => htaken⟩, fun hk hf => absurd hf (hpacket hk).1,
    fun ch hch hc => absurd (hV.signals ch hch (hclosed ▸ hc)) hnot, fun he => ?_, ?_, ?_⟩
  · refine hfinal fun hk => he ?_
    rw [(hpacket hk).2.1, hnone]
  · refine forall_mem_set (fun d hd hk => absurd (hV.knows d hd hk) hnot) fun hk => ?_
    by_cases hkind : kind = .packet
    · simp only [knowsEnd, List.any_cons, (hpacket hkind).2.2, Bool.false_or, Bool.or_eq_true] at hk
      rcases hk with hk | hk
      · exact .of_set ht hk
      · refine absurd (hV.knows c hmem ?_) hnot
        rw [knowsEnd, hk, Bool.or_true]
    · exact hfinal hkind
  · have hsaw : ∀ d ∈ cs, ∀ e, ¬ SawErr kind e d.1 d.2 := fun d hd e he =>
      hnot (hV.knows d hd (knowsEnd_of_sawErr he))
    refine forall_mem_set (fun d hd => ⟨?_, fun e he => absurd he (hsaw d hd e),
      (hV.pasts d hd).told, (hV.pasts d hd).announced⟩) ⟨?_, ?_, ?_, ?_⟩
    · rw [hnowins d hd]
      simp
    · rw [hwins]
      intro w' hw' hf
      cases List.mem_singleton.mp hw'
      exact hquiet hf
    · rintro e (⟨he, -⟩ | he)
      · exact absurd he (hshape.1 e)
      · exact absurd he (hsaw c hmem e)
    · intro e he
      rcases List.mem_cons.mp he with he | he
      · exact absurd he.symm (hshape.2.1 e)
      · exact Or.inr ((hV.pasts c hmem).told e he)
    · intro ha
      rw [Ogrenet.announced, hshape.2.2, Bool.false_and, Bool.or_false] at ha
      exact settled_cons ((hV.pasts c hmem).announced ha)

/-- The winner of `closeOnce` writes the error of a packet connection. -/
lemma publish (hV : Verdict .packet s cs) (ht : cs[t]? = some c) (e : Err)
    (hwins : wins .packet c.1 c.2 = [.failure]) (hs : settled .packet c.1 c.2 = false) :
    Verdict .packet { s with err := some e } (cs.set t (c.1, ⟨.setErr e, ()⟩ :: c.2)) := by
  have hmem := List.mem_of_getElem? ht
  have hne : wins .packet c.1 c.2 ≠ [] := by rw [hwins]; exact nofun
  have hnot : ¬ Final .packet cs := fun hf => by
    have := hV.settled_of_final hf hmem hne
    rw [hs] at this
    cases this
  have hsaw : ∀ d ∈ cs, ∀ e, ¬ SawErr .packet e d.1 d.2 := fun d hd e he =>
    hnot (hV.knows d hd (knowsEnd_of_sawErr he))
  have hfinal : Final .packet (cs.set t (c.1, ⟨.setErr e, ()⟩ :: c.2)) := by
    refine .of_set ht ?_
    rw [settled, hs, hwins]
    rfl
  have htotal : total (won .packet) (cs.set t (c.1, ⟨.setErr e, ()⟩ :: c.2)) =
      total (won .packet) cs := total_set_eq ht (by rw [won_cons]; exact Nat.zero_add _)
  refine ⟨?_, ?_, fun hk hf => absurd (hV.finished hk hf) hnot,
    fun ch hch hc => absurd (hV.signals ch hch hc) hnot, fun _ => hfinal,
    forall_mem_set (fun d hd hk => absurd (hV.knows d hd hk) hnot) fun _ => hfinal, ?_⟩
  · rw [htotal]
    exact hV.one
  · rw [htotal]
    exact hV.taken
  · have hquiet : ∀ d ∈ cs, ∀ w ∈ wins .packet d.1 d.2, w = .failure := fun d hd w hw => by
      have hd' := hV.winner_eq hd hmem (fun h => by rw [h] at hw; cases hw) hne
      rw [hd', hwins] at hw
      exact List.mem_singleton.mp hw
    refine forall_mem_set (fun d hd => ⟨fun w hw hf => absurd (hquiet d hd w hw) hf,
      fun e he => absurd he (hsaw d hd e), (hV.pasts d hd).told, (hV.pasts d hd).announced⟩)
      ⟨fun w hw hf => absurd (hquiet c hmem w hw) hf, ?_, ?_, ?_⟩
    · rintro e' (⟨he, -⟩ | he)
      · cases he
      · exact absurd he (hsaw c hmem e')
    · intro e' he
      rcases List.mem_cons.mp he with he | he
      · cases he
      · exact Or.inr ((hV.pasts c hmem).told e' he)
    · intro ha
      refine settled_cons ((hV.pasts c hmem).announced ?_)
      simpa [Ogrenet.announced, SInstr.announces] using ha

end Verdict

end Facts

/-! ### Steps of the machine -/

/-- The part of the state that tells how a session ends. -/
def Session.ending (s : Session) := (s.err, s.goal, s.terminal, s.closed, s.once)

/-- The step does not write to that part. -/
def SInstr.undecisive : SInstr → Bool
  | .request _ | .abortSection _ _ | .tryTerminal | .setTerminal | .setErr _ | .signal _
  | .onceEnter _ | .onceExit _ => false
  | _ => true

namespace Session

variable {cfg : SessionConfig} {s s' : Session} {x : Choice}

lemma fire_ending {cse : Case} {r : Fired} (h : s.fire cfg x cse = some (s', r)) :
    s'.ending = s.ending := by
  cases cse with
  | ctxDone k =>
    obtain ⟨e, -, h⟩ := Option.map_eq_some_iff.mp h
    cases h
    rfl
  | timer =>
    cases h
    rfl
  | pop | ack i =>
    simp only [fire] at h
    split at h <;> cases h
    rfl
  | closed ch | drained | slot | push req =>
    obtain ⟨-, h⟩ := Option.ite_none_right_eq_some.mp h
    cases h
    rfl
  | encoder | changedLocal g | changedGlobal g =>
    obtain ⟨-, h⟩ := Option.ite_none_left_eq_some.mp h
    cases h
    rfl

lemma select_ending {cases : List Case} {dflt : Bool} {r : Fired}
    (h : s.select cfg x cases dflt = some (s', r)) : s'.ending = s.ending := by
  obtain ⟨c, -, h⟩ | ⟨-, -, rfl, -⟩ := select_cases h
  · exact fire_ending h
  · rfl

lemma exec_ending {i : SInstr} {r : i.Resp} (hi : i.undecisive = true)
    (h : s.exec cfg x i = some (s', r)) : s'.ending = s.ending := by
  cases i with
  | select cases dflt => exact select_ending h
  | releaseSlot =>
    obtain ⟨-, h⟩ := Option.ite_none_left_eq_some.mp h
    cases h
    rfl
  | releaseEncoder | waitLoops =>
    obtain ⟨-, h⟩ := Option.ite_none_right_eq_some.mp h
    cases h
    rfl
  | encode msg | globalRelease n | decodeOne src | wsRead | wsDecode text payload | deferRead e
  | ack i v | wsWrite req | packetWrite req =>
    simp only [exec] at h
    split at h <;> cases h <;> rfl
  | _ => first | (cases h; rfl) | cases hi

end Session

section Exec

variable {kind : SessionKind} {cfg : SessionConfig} {s s' : Session} {cs : List SPast} {t : ℕ}
  {c : SPast} {x : Choice}

lemma Session.taken_of_ending (kind : SessionKind) (h : s'.ending = s.ending) :
    s'.taken kind = s.taken kind := by
  simp only [Session.ending, Prod.mk.injEq] at h
  obtain ⟨-, hgoal, hterm, -, honce⟩ := h
  simp only [Session.taken, hgoal, hterm, honce]

/-- A connection is taken once it is terminal or its goal is an abort. -/
lemma Session.taken_of_ne_packet (s : Session) (hk : kind ≠ .packet) :
    s.taken kind = (s.terminal || s.goal == .abort) := by
  cases kind with
  | packet => exact absurd rfl hk
  | _ => rfl

/-- A step that does not write to how the session ends. -/
lemma Verdict.neutral (hV : Verdict kind s cs) (ht : cs[t]? = some c) {i : SInstr} {r : i.Resp}
    (hi : i.undecisive = true) (hreq : endReq kind i c) (hx : s.exec cfg x i = some (s', r)) :
    Verdict kind s' (cs.set t (c.1, ⟨i, r⟩ :: c.2)) := by
  have hs := Session.exec_ending hi hx
  have htaken := Session.taken_of_ending kind hs
  simp only [Session.ending, Prod.mk.injEq] at hs
  obtain ⟨herr, -, -, hclosed, honce⟩ := hs
  refine hV.keep ht herr htaken (fun _ h => Or.inl (honce ▸ h)) (fun ch _ h => Or.inl (hclosed ▸ h))
    ?_ ?_ ?_ ?_ ?_
  · cases i <;> first | rfl | cases hi
  · cases i with
    | select cases dflt =>
      intro hshow
      cases r with
      | closed ch => exact hV.signals ch hshow (Session.closed_of_select hx)
      | _ => cases hshow
    | abortSection reason publish | tryTerminal | onceEnter o => cases hi
    | _ => exact nofun
  · rintro e he
    cases he
    cases hx
    rfl
  · rintro e he
    cases he
    exact hreq
  · intro ha
    cases i with
    | signal ch => cases hi
    | _ => cases ha

namespace Verdict

lemma request (hV : Verdict kind s cs) (ht : cs[t]? = some c) {goal : CloseGoal}
    {r : Bool × CloseGoal}
    (hreq : goal ≠ .abort) (hx : s.exec cfg x (.request goal) = some (s', r)) :
    Verdict kind s' (cs.set t (c.1, ⟨.request goal, r⟩ :: c.2)) := by
  have hs : s'.err = s.err ∧ s'.taken kind = s.taken kind ∧ s'.once = s.once ∧
      s'.closed = s.closed := by
    simp only [Session.exec] at hx
    split at hx
    · cases hx
      exact ⟨rfl, rfl, rfl, rfl⟩
    · rename_i hlt
      cases hx
      refine ⟨rfl, ?_, rfl, rfl⟩
      -- the goal is below an abort, before and after
      have hold : (s.goal == .abort) = false := by
        cases hg : s.goal with
        | abort =>
          rw [hg] at hlt
          cases goal with
          | abort => exact absurd rfl hreq
          | _ => simp [CloseGoal.rank] at hlt
        | _ => rfl
      have hnew : (goal == .abort) = false := by simpa using hreq
      simp only [Session.taken, hold, hnew]
  obtain ⟨herr, htaken, honce, hclosed⟩ := hs
  exact hV.keep ht herr htaken (fun _ h => Or.inl (honce ▸ h))
    (fun _ _ h => Or.inl (hclosed ▸ h)) rfl
    nofun nofun nofun nofun

lemma abortSection (hV : Verdict kind s cs) (ht : cs[t]? = some c) {reason : AbortReason}
    {publish : Option (Option Err)} {r : Bool} (hreq : endReq kind (.abortSection reason publish) c)
    (hx : s.exec cfg x (.abortSection reason publish) = some (s', r)) :
    Verdict kind s' (cs.set t (c.1, ⟨.abortSection reason publish, r⟩ :: c.2)) := by
  have hk := hreq.1
  simp only [Session.exec] at hx
  split at hx
  · rename_i hover
    cases hx
    exact hV.keep ht rfl rfl (fun _ => Or.inl) (fun _ _ => Or.inl) rfl
      (fun _ => hV.final_of_taken hk ((s.taken_of_ne_packet hk).trans hover)) nofun nofun nofun
  · rename_i hopen
    cases hx
    have hno : s.taken kind = false :=
      (s.taken_of_ne_packet hk).trans (Bool.eq_false_iff.mpr hopen)
    refine hV.win ht rfl hno ?_ rfl (fun h => absurd h hk) fun hf => ?_
    · exact (Session.taken_of_ne_packet _ hk).trans (Bool.or_true _)
    · have hpub := hreq.2 hf
      cases publish with
      | none => exact (hV.open_of_not_taken hno).2.2
      | some e => exact hpub

lemma tryTerminal (hV : Verdict kind s cs) (ht : cs[t]? = some c) {r : Bool} (hk : kind ≠ .packet)
    (hx : s.exec cfg x .tryTerminal = some (s', r)) :
    Verdict kind s' (cs.set t (c.1, ⟨.tryTerminal, r⟩ :: c.2)) := by
  simp only [Session.exec] at hx
  split at hx
  · rename_i hover
    cases hx
    exact hV.keep ht rfl rfl (fun _ => Or.inl) (fun _ _ => Or.inl) rfl
      (fun _ => hV.final_of_taken hk ((s.taken_of_ne_packet hk).trans hover)) nofun nofun nofun
  · rename_i hopen
    cases hx
    have hno : s.taken kind = false :=
      (s.taken_of_ne_packet hk).trans (Bool.eq_false_iff.mpr hopen)
    exact hV.win ht rfl hno (Session.taken_of_ne_packet _ hk) rfl (fun h => absurd h hk)
      fun _ => (hV.open_of_not_taken hno).2.2

lemma setTerminal (hV : Verdict kind s cs) (ht : cs[t]? = some c) (hk : knowsEnd kind c = true) :
    Verdict kind { s with terminal := true } (cs.set t (c.1, ⟨.setTerminal, ()⟩ :: c.2)) := by
  have hpos := hV.taken.mpr (hV.knows c (List.mem_of_getElem? ht) hk).pos
  refine hV.keep ht rfl ?_ (fun _ => Or.inl) (fun _ _ => Or.inl) rfl nofun nofun nofun nofun
  rw [hpos]
  cases kind with
  | packet => exact hpos
  | _ => rfl

lemma signal (hV : Verdict kind s cs) (ht : cs[t]? = some c) {ch : Signal}
    (hreq : endReq kind (.signal ch) c) :
    Verdict kind (s.close ch) (cs.set t (c.1, ⟨.signal ch, ()⟩ :: c.2)) := by
  have hmem := List.mem_of_getElem? ht
  refine hV.keep ht rfl rfl (fun _ => Or.inl) (fun ch' hf hc => ?_) rfl nofun nofun nofun
    fun ha hne => ?_
  · by_cases h : ch' = ch
    · subst h
      exact Or.inr (hV.knows c hmem (hreq.1 hf))
    · exact Or.inl ((Function.update_of_ne h _ _).symm.trans hc)
  · -- whoever has won and announces it has settled the end
    cases ch with
    | readDone =>
      rw [settled_of_not_packet (hreq.2 rfl)]
      simpa using hne
    | closing | aborted | done => exact hV.settled_of_final (hV.knows c hmem (hreq.1 rfl)) hmem hne
    | _ => cases ha

lemma onceEnter (hV : Verdict kind s cs) (ht : cs[t]? = some c) {o : Once} {r : Bool}
    (hx : s.exec cfg x (.onceEnter o) = some (s', r)) :
    endAns kind (.onceEnter o) r c ∧
      Verdict kind s' (cs.set t (c.1, ⟨.onceEnter o, r⟩ :: c.2)) := by
  have hmem := List.mem_of_getElem? ht
  simp only [Session.exec] at hx
  split at hx
  · rename_i hidle
    cases hx
    by_cases hp : kind = .packet ∧ o = .close
    · obtain ⟨rfl, rfl⟩ := hp
      have hno : s.taken .packet = false := by simp [Session.taken, hidle]
      refine ⟨fun _ => ?_, hV.win ht rfl hno ?_ rfl (fun _ => ⟨?_, rfl, rfl⟩) fun _ =>
        (hV.open_of_not_taken hno).2.2⟩
      · exact List.length_eq_zero_iff.mp
          (total_eq_zero_iff.mp (hV.open_of_not_taken hno).1 c hmem)
      · simp [Session.taken]
      · simp
    · have honce : kind = .packet → Function.update s.once o .running .close = s.once .close :=
        fun hk => Function.update_of_ne (fun h => hp ⟨hk, h.symm⟩) _ _
      refine ⟨?_, hV.keep ht rfl ?_ (fun hk h => Or.inl (honce hk ▸ h)) (fun _ _ => Or.inl) ?_ ?_
        nofun nofun nofun⟩
      · cases o with
        | close => exact fun hk => absurd ⟨hk, rfl⟩ hp
        | _ => trivial
      · cases kind with
        | packet => simp only [Session.taken, honce rfl]
        | _ => rfl
      · cases o with
        | close => exact if_neg fun hk => hp ⟨hk, rfl⟩
        | _ => rfl
      · cases o with
        | _ => exact nofun
  · cases hx
  · rename_i hfin
    cases hx
    refine ⟨?_, hV.keep ht rfl rfl (fun _ => Or.inl) (fun _ _ => Or.inl) ?_ ?_ nofun nofun nofun⟩
    · cases o <;> trivial
    · cases o <;> rfl
    · cases o with
      | close => exact fun h => hV.finished (beq_iff_eq.mp h) hfin
      | _ => exact nofun

lemma onceExit (hV : Verdict kind s cs) (ht : cs[t]? = some c) {o : Once}
    (hreq : endReq kind (.onceExit o) c) :
    Verdict kind { s with once := Function.update s.once o .finished }
      (cs.set t (c.1, ⟨.onceExit o, ()⟩ :: c.2)) := by
  have hfinal : kind = .packet → o = .close → Final kind cs := by
    rintro hk rfl
    exact hV.knows c (List.mem_of_getElem? ht) (hreq hk)
  refine hV.keep ht rfl ?_ (fun hk h => ?_) (fun _ _ => Or.inl) rfl nofun nofun nofun nofun
  · cases kind with
    | packet =>
      by_cases ho : o = .close
      · refine Eq.trans ?_ (hV.taken.mpr (hfinal rfl ho).pos).symm
        simp [Session.taken, ho]
      · simp only [Session.taken, Function.update_of_ne (Ne.symm ho)]
    | _ => rfl
  · by_cases ho : o = .close
    · exact Or.inr (hfinal hk ho)
    · exact Or.inl ((Function.update_of_ne (Ne.symm ho) _ _).symm.trans h)

end Verdict

/-- Every step keeps the verdict. -/
lemma Verdict.exec (hV : Verdict kind s cs) (ht : cs[t]? = some c) {i : SInstr} {r : i.Resp}
    (hreq : endReq kind i c) (hx : s.exec cfg x i = some (s', r)) :
    endAns kind i r c ∧ Verdict kind s' (cs.set t (c.1, ⟨i, r⟩ :: c.2)) := by
  cases i with
  | request goal => exact ⟨trivial, hV.request ht hreq hx⟩
  | abortSection reason publish => exact ⟨trivial, hV.abortSection ht hreq hx⟩
  | tryTerminal => exact ⟨trivial, hV.tryTerminal ht hreq hx⟩
  | setTerminal =>
    cases hx
    exact ⟨trivial, hV.setTerminal ht hreq⟩
  | setErr e =>
    obtain ⟨rfl, hwins, hs⟩ := hreq
    cases hx
    exact ⟨trivial, hV.publish ht e hwins hs⟩
  | signal ch =>
    cases hx
    exact ⟨trivial, hV.signal ht hreq⟩
  | onceEnter o => exact hV.onceEnter ht hx
  | onceExit o =>
    cases hx
    exact ⟨trivial, hV.onceExit ht hreq⟩
  | select cases dflt => exact ⟨Session.select_from hx, hV.neutral ht rfl hreq hx⟩
  | _ => exact ⟨trivial, hV.neutral ht rfl hreq hx⟩

end Exec

/-! ### All runs -/

lemma Verdict.start {kind : SessionKind} {s : Session} {cs : List SPast} (hV : Verdict kind s cs)
    (l : SLabel) : Verdict kind s (cs ++ [(l, [])]) := by
  have hfinal : Final kind cs → Final kind (cs ++ [(l, [])]) :=
    fun ⟨c, hc, hs⟩ => ⟨c, List.mem_append_left _ hc, hs⟩
  have htotal : total (won kind) (cs ++ [(l, [])]) = total (won kind) cs := by
    rw [total_append]
    rfl
  refine ⟨?_, ?_, fun hk hf => hfinal (hV.finished hk hf),
    fun ch hch hc => hfinal (hV.signals ch hch hc), fun he => hfinal (hV.err he),
    forall_mem_concat (fun c hc hk => hfinal (hV.knows c hc hk)) nofun,
    forall_mem_concat hV.pasts ⟨nofun, nofun, nofun, nofun⟩⟩
  · rw [htotal]
    exact hV.one
  · rw [htotal]
    exact hV.taken

lemma Verdict.of_ending {kind : SessionKind} {s s' : Session} {cs : List SPast}
    (hV : Verdict kind s cs) (h : s'.ending = s.ending) : Verdict kind s' cs := by
  have htaken := Session.taken_of_ending kind h
  simp only [Session.ending, Prod.mk.injEq] at h
  obtain ⟨herr, -, -, hclosed, honce⟩ := h
  refine ⟨hV.one, ?_, ?_, ?_, ?_, hV.knows, fun c hc => (hV.pasts c hc).of_err herr⟩
  · rw [htaken]
    exact hV.taken
  · rw [honce]
    exact hV.finished
  · rw [hclosed]
    exact hV.signals
  · rw [herr]
    exact hV.err

lemma SessionKind.spawn_ending {kind : SessionKind} {s s' : Session} {l : SLabel}
    (h : kind.spawn s l = some s') : s'.ending = s.ending := by
  obtain ⟨_, rfl⟩ := SessionKind.spawn_eq h
  rfl

lemma Session.env_ending {s s' : Session} {e : SEnv} (h : s.env e = some s') :
    s'.ending = s.ending := by
  obtain ⟨_, _, _, rfl⟩ := Session.env_eq h
  rfl

variable {kind : SessionKind} {cfg : SessionConfig}

lemma verdict_sound :
    Outline.Sound (sessionMachine kind cfg) (endOutline kind) (Verdict kind) fun _ _ => True where
  body l₀ l _ hc := end_body l₀ l hc
  exec p t x th i k s' r _ ht _ hV hreq hx := by
    have hc : ((endOutline kind).ctxs p.threads)[t]? = some ((endOutline kind).ctx th) :=
      Outline.ctxs_getElem? ht
    exact hV.exec hc hreq hx
  spawn p l s' _ hV hs := ⟨rfl, (hV.start l).of_ending (SessionKind.spawn_ending hs)⟩
  env p e s' _ hV hs := hV.of_ending (Session.env_ending hs)

lemma verdict_init :
    (endOutline kind).Holds (Verdict kind) (SProcess.init kind cfg) := by
  refine ⟨?_, fun th hth => ?_⟩
  · have hpasts : ∀ c ∈ (endOutline kind).ctxs (SProcess.init kind cfg).threads, c.2 = [] := by
      intro c hc
      obtain ⟨th, hth, rfl⟩ := List.mem_map.mp hc
      obtain ⟨l, -, rfl⟩ := List.mem_map.mp hth
      rfl
    have hzero :
        total (won kind) ((endOutline kind).ctxs (SProcess.init kind cfg).threads) = 0 := by
      refine total_eq_zero_iff.mpr fun c hc => ?_
      rw [won, hpasts c hc]
      rfl
    refine ⟨by omega, ?_, fun _ h => ?_, fun _ _ h => ?_, fun h => absurd rfl h,
      fun c hc hk => ?_, fun c hc => ?_⟩
    · rw [hzero]
      cases kind <;> simp [Session.taken, SProcess.init, Session.init]
    · cases h
    · cases h
    · rw [knowsEnd, hpasts c hc] at hk
      cases hk
    · obtain ⟨l, log⟩ := c
      cases hpasts _ hc
      refine ⟨fun _ h => ?_, fun _ h => ?_, fun _ h => ?_, fun h => ?_⟩
      all_goals cases h
  · obtain ⟨l, -, rfl⟩ := List.mem_map.mp hth
    exact end_body l l rfl

/-- Every state that is reached has its verdict. -/
lemma verdict_reached {p : SProcess} (h : SessionReaches kind cfg p) :
    (endOutline kind).Holds (Verdict kind) p :=
  verdict_sound.reaches verdict_init h

end Ogrenet
