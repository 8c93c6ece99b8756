import Ogrenet.Session.Ending.Verdict

/-!
# The first terminal cause wins

Of all goroutines that try to end a session one wins. Its error, if it has one, is there before the
end can be observed, never changes again, and is what `OnClose` gets.
-/

namespace Ogrenet

open Interleaving Interleaving.Prog

variable {kind : SessionKind} {cfg : SessionConfig}

/-- When the error changes, the goroutine that changes it has ended the session with a failure and
nobody has announced the end. -/
lemma Verdict.changed {s s' : Session} {cs : List SPast} {t : ℕ} {c : SPast} {x : Choice}
    {i : SInstr} {r : i.Resp} (hV : Verdict kind s cs) (ht : cs[t]? = some c)
    (hreq : endReq kind i c) (hx : s.exec cfg x i = some (s', r)) (hne : s'.err ≠ s.err) :
    s.err = none ∧ ¬ Final kind cs ∧ s'.closed = s.closed ∧ i.announces = false ∧
      wins kind c.1 (⟨i, r⟩ :: c.2) = [.failure] := by
  have hmem := List.mem_of_getElem? ht
  have hsame : i.undecisive = true → s'.err = s.err := fun hi =>
    (Prod.mk.inj (Session.exec_ending hi hx)).1
  cases i with
  | abortSection reason publish =>
    simp only [Session.exec] at hx
    split at hx
    · cases hx
      exact absurd rfl hne
    · rename_i hopen
      cases hx
      have hno : s.taken kind = false :=
        (s.taken_of_ne_packet hreq.1).trans (Bool.eq_false_iff.mpr hopen)
      obtain ⟨hzero, hnot, hnone⟩ := hV.open_of_not_taken hno
      have hwins : wins kind c.1 c.2 = [] :=
        List.length_eq_zero_iff.mp (total_eq_zero_iff.mp hzero c hmem)
      have hfail : Closer.ofReason reason = .failure := by
        by_contra hf
        refine hne ?_
        have hpub := hreq.2 hf
        cases publish with
        | none => rfl
        | some e => exact hpub.trans hnone.symm
      refine ⟨hnone, hnot, rfl, rfl, ?_⟩
      rw [wins, hwins, winsAs, hfail]
      rfl
  | setErr e =>
    obtain ⟨rfl, hwins, hs⟩ := hreq
    cases hx
    have hnot : ¬ Final .packet cs := fun hf => by
      have := hV.settled_of_final hf hmem (by simp [hwins])
      rw [hs] at this
      cases this
    exact ⟨by_contra fun h => hnot (hV.err h), hnot, rfl, rfl, hwins⟩
  | request goal | tryTerminal | onceEnter o =>
    simp only [Session.exec] at hx
    split at hx <;> cases hx <;> exact absurd rfl hne
  | setTerminal | signal ch | onceExit o =>
    cases hx
    exact absurd rfl hne
  | _ => exact absurd (hsame rfl) hne

/-- The step has published the error of the winner before anybody could see the end. -/
structure PublishedFirst (kind : SessionKind) (p : SProcess) (ev : Event SLabel Choice SEnv)
    (q : SProcess) : Prop where
  fresh : p.shared.err = none
  winner : ∃ t x th, ev = .run t x ∧ q.threads[t]? = some th ∧
    wins kind th.entry th.log = [.failure]
  closing : q.shared.closed .closing = false
  aborted : q.shared.closed .aborted = false
  done : q.shared.closed .done = false
  /-- No winner has closed one of these channels or `ReadClosed`. -/
  announced : ∀ th ∈ q.threads, announced kind th.entry th.log = false

/-- The first terminal cause has won, or none has yet. -/
structure SProcess.FirstCauseWins (kind : SessionKind) (cfg : SessionConfig) (p : SProcess) :
    Prop where
  one : total (fun th : SThread => (wins kind th.entry th.log).length) p.threads ≤ 1
  published : ∀ ev q, (sessionMachine kind cfg).step p ev = some q →
    q.shared.err ≠ p.shared.err → PublishedFirst kind p ev q
  stable : ∀ q, (sessionMachine kind cfg).Reaches p q → ∀ e, p.shared.err = some e →
    q.shared.err = some e
  quiet : ∀ th ∈ p.threads, ∀ w ∈ wins kind th.entry th.log, w ≠ .failure →
    ∀ q, (sessionMachine kind cfg).Reaches p q → q.shared.err = none
  onClose : ∀ th ∈ p.threads, ∀ e, ⟨.callBegin (.onClose e), ()⟩ ∈ th.log →
    ∀ q, (sessionMachine kind cfg).Reaches p q → q.shared.err = e

lemma end_ctxs (p : SProcess) :
    (endOutline kind).ctxs p.threads = p.threads.map fun th => (th.entry, th.log) :=
  Outline.past_ctxs p.threads

lemma published_of_step {p q : SProcess} (hp : SessionReaches kind cfg p)
    {ev : Event SLabel Choice SEnv} (hstep : (sessionMachine kind cfg).step p ev = some q)
    (hne : q.shared.err ≠ p.shared.err) : PublishedFirst kind p ev q := by
  obtain ⟨hV, hprogs⟩ := verdict_reached hp
  obtain ⟨t, x, l, i, k, log, s', r, rfl, ht, hx, rfl⟩ | ⟨t, x, l, l', log, rfl, ht, rfl⟩ |
    ⟨l, s', rfl, hs, rfl⟩ | ⟨x, s', rfl, hs, rfl⟩ := Machine.step_cases hstep
  · have hctx : ((endOutline kind).ctxs p.threads)[t]? = some (l, log) := by
      rw [end_ctxs, List.getElem?_map, ht]
      rfl
    have hreq : endReq kind i (l, log) := by
      have := (hprogs _ (List.mem_of_getElem? ht)).1
      rwa [show (endOutline kind).ctx ⟨l, .op i k, log⟩ = (l, log) from Outline.past_ctx _] at this
    obtain ⟨hnone, hnot, hclosed, hann, hwins⟩ := hV.changed hctx hreq hx hne
    have hopen : ∀ ch : Signal, ch.final = true → s'.closed ch = false := fun ch hch => by
      rw [hclosed]
      exact Bool.eq_false_iff.mpr fun hc => hnot (hV.signals ch hch hc)
    have hquiet : ∀ th ∈ p.threads, Ogrenet.announced kind th.entry th.log = false := fun th hth =>
      Bool.eq_false_iff.mpr fun ha => by
        have hmem : (th.entry, th.log) ∈ (endOutline kind).ctxs p.threads := by
          rw [end_ctxs]
          exact List.mem_map_of_mem hth
        exact hnot ⟨_, hmem, (hV.pasts _ hmem).announced ha⟩
    refine ⟨hnone,
      ⟨t, x, _, rfl, List.getElem?_set_self (List.getElem?_eq_some_iff.mp ht).1, hwins⟩,
      hopen _ rfl, hopen _ rfl, hopen _ rfl, forall_mem_set hquiet ?_⟩
    rw [announced, hquiet _ (List.mem_of_getElem? ht), hann]
    rfl
  · exact absurd rfl hne
  · exact absurd (Prod.mk.inj (SessionKind.spawn_ending hs)).1 hne
  · exact absurd (Prod.mk.inj (Session.env_ending hs)).1 hne

lemma err_stable {p q : SProcess} (hp : SessionReaches kind cfg p)
    (hq : (sessionMachine kind cfg).Reaches p q) {e : Err} (he : p.shared.err = some e) :
    q.shared.err = some e := by
  refine (Machine.reaches_induction (P := fun q => SessionReaches kind cfg q ∧
    q.shared.err = some e) (fun p ev q hP hstep => ⟨hP.1.tail hstep, ?_⟩) ⟨hp, he⟩ hq).2
  by_contra hne
  have := (published_of_step hP.1 hstep fun h => hne (h.trans hP.2)).fresh
  rw [hP.2] at this
  cases this

lemma testimony_of_reaches {p : SProcess} (hp : SessionReaches kind cfg p) {th : SThread}
    (hth : th ∈ p.threads) : Testimony kind p.shared (th.entry, th.log) := by
  refine (verdict_reached hp).shared.pasts _ ?_
  rw [end_ctxs]
  exact List.mem_map_of_mem hth

/-- The first terminal cause wins and is stable. -/
theorem first_cause_wins (kind : SessionKind) (cfg : SessionConfig) {p : SProcess}
    (hp : SessionReaches kind cfg p) : p.FirstCauseWins kind cfg := by
  refine ⟨?_, fun ev q => published_of_step hp, fun q hq e => err_stable hp hq, ?_, ?_⟩
  · have hone := (verdict_reached hp).shared.one
    rw [end_ctxs, total_map] at hone
    exact hone
  · intro th hth w hw hf q hq
    obtain ⟨th', hth', hw'⟩ := Machine.exists_past (P := fun c => w ∈ wins kind c.1 c.2)
      (fun l a log h => List.mem_append_right _ h) hq ⟨th, hth, hw⟩
    exact (testimony_of_reaches (Machine.Reaches.trans hp hq) hth').quiet w hw' hf
  · intro th hth e he q hq
    obtain ⟨th', hth', he'⟩ := Machine.exists_past
      (P := fun c => (⟨.callBegin (.onClose e), ()⟩ : Sigma SInstr.Resp) ∈ c.2)
      (fun l a log h => List.mem_cons_of_mem a h) hq ⟨th, hth, he⟩
    have hT := testimony_of_reaches (Machine.Reaches.trans hp hq) hth'
    exact hT.saw e (hT.told e he')

/-- The reader of a stream fails, and `Close` comes too late. -/
def SProcess.lateClose : List (Event SLabel Choice SEnv) :=
  [.run 1 {}, .run 1 {}, .run 1 {}, .run 1 {}, .run 1 { err := some (.plain "reset") }, .run 1 {},
    .run 1 {}, .spawn .close, .run 3 {}, .run 3 {}]

theorem first_cause_wins_lateClose :
    ∃ p : SProcess, SessionReaches .conn .small p ∧ p.shared.err.isSome = true ∧
      p.threads.map (fun th => wins .conn th.entry th.log) = [[], [.failure], [], []] ∧
      p.FirstCauseWins .conn .small := by
  have hrun : ((sessionMachine .conn .small).run (SProcess.init .conn .small)
      SProcess.lateClose).map (fun p => (p.shared.err.isSome,
        p.threads.map fun th => wins .conn th.entry th.log)) =
      some (true, [[], [.failure], [], []]) := by decide
  obtain ⟨p, hp, h⟩ := Option.map_eq_some_iff.mp hrun
  obtain ⟨h₁, h₂⟩ := Prod.mk.inj h
  exact ⟨p, ⟨_, hp⟩, h₁, h₂, first_cause_wins .conn .small ⟨_, hp⟩⟩

end Ogrenet
