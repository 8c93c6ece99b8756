import Ogrenet.Engine.Coverage
import Ogrenet.Engine.Parts

/-!
# A shutdown asks everything in its snapshots to end

Before `Shutdown` waits and before `Shutdown` or `Close` returns, each listener and each session in
the snapshots that the call has taken has been asked to close or to drain. The context of this
outline is what the goroutine has done so far.
-/

namespace Ogrenet

open Interleaving Interleaving.Prog

abbrev ELog := List (Sigma EInstr.Resp)

/-- The snapshot that a step has taken. -/
def snapshotOf : Sigma EInstr.Resp → Option EngineShutdownSet
  | ⟨.startDraining, r⟩ => some r.1
  | ⟨.startAborting _, set⟩ => some set
  | _ => none

/-- The goroutine has entered `Close` of each listener in the set and has asked each session. -/
structure Asked (set : EngineShutdownSet) (log : ELog) : Prop where
  sessions : ∀ kind, ∀ k ∈ set.sessions kind, ⟨.closeSession k, ()⟩ ∈ log
  listeners : ∀ isWS, ∀ j ∈ set.listeners isWS, ∃ b, ⟨.closeOnceEnter j, b⟩ ∈ log

/-- Everything in the snapshots has been asked, except perhaps in the one that is owed. -/
def Owes (owed : Option EngineShutdownSet) (log : ELog) : Prop :=
  ∀ a ∈ log, ∀ set, snapshotOf a = some set → owed = some set ∨ Asked set log

section Logs

variable {set : EngineShutdownSet} {owed : Option EngineShutdownSet} {log log' : ELog}

lemma Asked.mono (h : Asked set log) (hsub : log ⊆ log') : Asked set log' :=
  ⟨fun kind k hk => hsub (h.sessions kind k hk),
    fun isWS j hj => (h.listeners isWS j hj).imp fun _ hb => hsub hb⟩

lemma Owes.cons {a : Sigma EInstr.Resp} (h : Owes owed log) (ha : snapshotOf a = none) :
    Owes owed (a :: log) := by
  intro a' ha' set hset
  rcases List.mem_cons.mp ha' with rfl | ha'
  · rw [ha] at hset
    cases hset
  · exact (h a' ha' set hset).imp_right (·.mono (List.subset_cons_self _ _))

/-- A new snapshot is owed. -/
lemma Owes.snapshot {a : Sigma EInstr.Resp} (h : Owes none log) (ha : snapshotOf a = some set) :
    Owes (some set) (a :: log) := by
  intro a' ha' set' hset
  rcases List.mem_cons.mp ha' with rfl | ha'
  · exact .inl (ha.symm.trans hset)
  · exact .inr (((h a' ha' set' hset).resolve_left nofun).mono (List.subset_cons_self _ _))

lemma Owes.pay (h : Owes (some set) log) (hasked : Asked set log) : Owes none log := by
  intro a ha set' hset
  rcases h a ha set' hset with hset' | hset'
  · cases hset'
    exact .inr hasked
  · exact .inr hset'

end Logs

/-- The calls that stop the engine wait and return with nothing owed. -/
def requestOutline : Outline EInstr EInstr.Resp ELabel EVal (ELabel × ELog) where
  start l := (l, [])
  upd i r c := (c.1, ⟨i, r⟩ :: c.2)
  req i c := c.1.stops → i = .awaitDone → Owes none c.2
  ans _ _ _ := True
  pre l c := c.1.stops → l = c.1 ∧ c.2 = []
  post _ _ c := c.1.stops → Owes none c.2

lemma requestOutline_ctx (t : EThread) : requestOutline.ctx t = (t.entry, t.log) := by
  obtain ⟨l, prog, log⟩ := t
  induction log with
  | nil => rfl
  | cons a log ih =>
    rw [Outline.ctx_cons l prog prog, ih]
    rfl

/-! ### The programs -/

/-- The steps that take no snapshot and do not wait for the engine. -/
def EInstr.incidental : EInstr → Prop
  | .startDraining => False
  | .startAborting _ => False
  | .awaitDone => False
  | _ => True

lemma EInstr.incidental.snapshotOf {i : EInstr} (h : i.incidental) (r : i.Resp) :
    snapshotOf ⟨i, r⟩ = none := by
  cases i <;> first | rfl | exact h.elim

lemma EInstr.incidental.ne_awaitDone {i : EInstr} (h : i.incidental) : i ≠ .awaitDone := by
  rintro rfl
  exact h

section Programs

variable {α : Type} {l : ELabel} {set : EngineShutdownSet} {owed : Option EngineShutdownSet}
  {log : ELog} {Q : α → ELabel × ELog → Prop}

lemma wp_incidental {p : EProg α} (hp : p.Forall EInstr.incidental) (h : Owes owed log)
    (hQ : ∀ a log', log ⊆ log' → Owes owed log' → Q a (l, log')) :
    requestOutline.wp p Q (l, log) := by
  refine Outline.wp_of_within (J := fun c => c.1 = l ∧ log ⊆ c.2 ∧ Owes owed c.2)
    (F := fun _ => True) (hp.imp (fun i hi c hc => ⟨?_, fun r _ => ?_⟩) fun _ => id) ?_
    ⟨rfl, List.Subset.refl _, h⟩
  · exact fun _ hwait => absurd hwait hi.ne_awaitDone
  · exact ⟨hc.1, List.subset_cons_of_subset _ hc.2.1, hc.2.2.cons (hi.snapshotOf r)⟩
  · rintro a ⟨l', log'⟩ - ⟨rfl, hsub, howes⟩
    exact hQ a log' hsub howes

lemma incidental_of {p : EProg α} (hp : p.Forall EInstr.common) :
    p.Forall EInstr.incidental :=
  hp.imp (fun i hi => by cases i <;> trivial) fun _ => id

/-- A listener that is closed has been asked. -/
lemma wp_enterClose {j : ℕ} {k : Bool → EProg α} (hk : ∀ b, (k b).Forall EInstr.incidental)
    (h : Owes owed log)
    (hQ : ∀ a log', log ⊆ log' → Owes owed log' → (∃ b, ⟨.closeOnceEnter j, b⟩ ∈ log') →
      Q a (l, log')) :
    requestOutline.wp (Eng.closeOnceEnter j >>= k) Q (l, log) := by
  refine ⟨fun _ => nofun, fun b _ => ?_⟩
  refine wp_incidental (hk b) (h.cons rfl) fun a log' hsub howes => ?_
  exact hQ a log' (fun _ hx => hsub (List.mem_cons_of_mem _ hx)) howes
    ⟨b, hsub List.mem_cons_self⟩

lemma wp_requestClose {Q : Option Err → ELabel × ELog → Prop} (j : ℕ) (cause : Option Err)
    (h : Owes owed log)
    (hQ : ∀ a log', log ⊆ log' → Owes owed log' → (∃ b, ⟨.closeOnceEnter j, b⟩ ∈ log') →
      Q a (l, log')) :
    requestOutline.wp (initiateClose j cause) Q (l, log) := by
  refine wp_enterClose (fun b => ?_) h hQ
  cases b with
  | false => trivial
  | true =>
    show Forall _ (if _ then _ else _)
    split
    · refine ⟨trivial, fun _ => ⟨trivial, fun _ => ⟨trivial, ?_⟩⟩⟩
      rintro (err | _) <;> exact ⟨trivial, fun _ => trivial⟩
    · refine ⟨trivial, fun _ => ⟨trivial, ?_⟩⟩
      rintro (err | _) <;> exact ⟨trivial, fun _ => trivial⟩

lemma wp_requestCloseWS {Q : Option Err → ELabel × ELog → Prop} (j : ℕ) (h : Owes owed log)
    (hQ : ∀ a log', log ⊆ log' → Owes owed log' → (∃ b, ⟨.closeOnceEnter j, b⟩ ∈ log') →
      Q a (l, log')) :
    requestOutline.wp (closeWSListener j) Q (l, log) := by
  refine wp_enterClose (fun b => ?_) h hQ
  cases b with
  | false => trivial
  | true =>
    refine ⟨trivial, fun _ => ⟨trivial, fun r => ?_⟩⟩
    refine Forall.bind (p := closeAll j) ?_ fun _ => ?_
    · exact incidental_of (common_closeAll j)
    · cases r <;> exact ⟨trivial, fun _ => trivial⟩

lemma wp_requestEach {Q : Option Err → ELabel × ELog → Prop} {close : ℕ → EProg (Option Err)}
    (hclose : ∀ j log (Q : Option Err → ELabel × ELog → Prop), Owes owed log →
      (∀ a log', log ⊆ log' → Owes owed log' → (∃ b, ⟨.closeOnceEnter j, b⟩ ∈ log') →
        Q a (l, log')) → requestOutline.wp (close j) Q (l, log))
    (js : List ℕ) (errs : Option Err) (h : Owes owed log)
    (hQ : ∀ a log', log ⊆ log' → Owes owed log' →
      (∀ j ∈ js, ∃ b, ⟨.closeOnceEnter j, b⟩ ∈ log') → Q a (l, log')) :
    requestOutline.wp (closeEach close js errs) Q (l, log) := by
  induction js generalizing log errs with
  | nil => exact hQ errs log (List.Subset.refl _) h (by simp)
  | cons j js ih =>
    refine (Outline.wp_bind (close j) _ _ _).mpr (hclose j _ _ h fun r log₁ hsub₁ h₁ hj => ?_)
    have hnext (errs : Option Err) : requestOutline.wp (closeEach close js errs) Q (l, log₁) := by
      refine ih errs h₁ fun a log₂ hsub₂ h₂ hjs => hQ a log₂ (List.Subset.trans hsub₁ hsub₂) h₂ ?_
      refine List.forall_mem_cons.mpr ⟨hj.imp fun _ hb => hsub₂ hb, hjs⟩
    cases r <;> exact hnext _

lemma wp_requestSessions {Q : Unit → ELabel × ELog → Prop} (ks : List ℕ) (h : Owes owed log)
    (hQ : ∀ log', log ⊆ log' → Owes owed log' → (∀ k ∈ ks, ⟨.closeSession k, ()⟩ ∈ log') →
      Q () (l, log')) :
    requestOutline.wp (closeSessions ks) Q (l, log) := by
  induction ks generalizing log with
  | nil => exact hQ log (List.Subset.refl _) h (by simp)
  | cons k ks ih =>
    refine ⟨fun _ => nofun, fun _ _ => ih (h.cons rfl) fun log₂ hsub₂ h₂ hks => ?_⟩
    refine hQ log₂ (fun _ hx => hsub₂ (List.mem_cons_of_mem _ hx)) h₂ ?_
    exact List.forall_mem_cons.mpr ⟨hsub₂ List.mem_cons_self, hks⟩

lemma wp_requestSet {Q : Option Err → ELabel × ELog → Prop} (h : Owes owed log)
    (hQ : ∀ a log', Owes owed log' → Asked set log' → Q a (l, log')) :
    requestOutline.wp (closeSet set) Q (l, log) := by
  refine (Outline.wp_bind (closeEach _ set.streamListeners none) _ _ _).mpr
    (wp_requestEach (fun j _ _ => wp_requestClose j none) _ _ h fun errs log₁ _ h₁ hstreams => ?_)
  refine (Outline.wp_bind (closeEach closeWSListener set.wsListeners errs) _ _ _).mpr
    (wp_requestEach (fun j _ _ => wp_requestCloseWS j) _ _ h₁ fun errs log₂ hsub₂ h₂ hws => ?_)
  refine (Outline.wp_bind (closeSessions set.streams) _ _ _).mpr
    (wp_requestSessions _ h₂ fun log₃ hsub₃ h₃ hconns => ?_)
  refine (Outline.wp_bind (closeSessions set.websockets) _ _ _).mpr
    (wp_requestSessions _ h₃ fun log₄ hsub₄ h₄ hwss => ?_)
  refine (Outline.wp_bind (closeSessions set.packets) _ _ _).mpr
    (wp_requestSessions _ h₄ fun log₅ hsub₅ h₅ hpackets => hQ _ log₅ h₅ ⟨?_, ?_⟩)
  · rintro (_ | _ | _) k hk
    · exact hsub₅ (hsub₄ (hconns k hk))
    · exact hsub₅ (hwss k hk)
    · exact hpackets k hk
  · have hsub : log₂ ⊆ log₅ := List.Subset.trans (List.Subset.trans hsub₃ hsub₄) hsub₅
    rintro (_ | _) j hj
    · exact (hstreams j hj).imp fun _ hb => hsub (hsub₂ hb)
    · exact (hws j hj).imp fun _ hb => hsub hb

/-- A snapshot that is asked is owed no longer. -/
lemma wp_paySet {Q : Option Err → ELabel × ELog → Prop} (h : Owes (some set) log)
    (hQ : ∀ a log', Owes none log' → Q a (l, log')) :
    requestOutline.wp (closeSet set) Q (l, log) :=
  wp_requestSet h fun a log' howes hasked => hQ a log' (howes.pay hasked)

lemma wp_snapshotDraining {Q : Option EngineShutdownSet → ELabel × ELog → Prop}
    (h : Owes none log) (hQ : ∀ a log', Owes a log' → Q a (l, log')) :
    requestOutline.wp beginGracefulShutdown Q (l, log) := by
  refine ⟨fun _ => nofun, fun _ _ => ⟨fun _ => nofun, fun st _ => ?_⟩⟩
  have h := (h.cons (a := ⟨.lock, ()⟩) rfl).cons (a := ⟨.getState, st⟩) rfl
  cases st with
  | running =>
    refine ⟨fun _ => nofun, ?_⟩
    rintro ⟨set, leases⟩ -
    have h := h.snapshot (a := ⟨.startDraining, (set, leases)⟩) rfl
    refine (Outline.wp_bind (drainLeases leases) _ _ _).mpr
      (wp_incidental (incidental_of (common_drainLeases leases)) h fun _ log₁ _ h₁ => ?_)
    refine (Outline.wp_bind maybeDoneLocked _ _ _).mpr
      (wp_incidental (incidental_of common_maybeDoneLocked) h₁ fun _ log₂ _ h₂ => ?_)
    exact ⟨fun _ => nofun, fun _ _ => hQ (some set) _ (h₂.cons rfl)⟩
  | _ => exact ⟨fun _ => nofun, fun _ _ => hQ none _ (h.cons rfl)⟩

lemma wp_snapshotAborting {Q : Option EngineShutdownSet → ELabel × ELog → Prop}
    (reason : AbortReason) (h : Owes none log) (hQ : ∀ a log', Owes a log' → Q a (l, log')) :
    requestOutline.wp (beginAbort reason) Q (l, log) := by
  refine ⟨fun _ => nofun, fun _ _ => ⟨fun _ => nofun, fun st _ => ?_⟩⟩
  have h := (h.cons (a := ⟨.lock, ()⟩) rfl).cons (a := ⟨.getState, st⟩) rfl
  have habort : requestOutline.wp (do
      let set ← Eng.startAborting reason
      maybeDoneLocked
      Eng.unlock
      return some set) Q (l, ⟨.getState, st⟩ :: ⟨.lock, ()⟩ :: log) := by
    refine ⟨fun _ => nofun, fun set _ => ?_⟩
    have h := h.snapshot (a := ⟨.startAborting reason, set⟩) rfl
    refine (Outline.wp_bind maybeDoneLocked _ _ _).mpr
      (wp_incidental (incidental_of common_maybeDoneLocked) h fun _ log₁ _ h₁ => ?_)
    exact ⟨fun _ => nofun, fun _ _ => hQ (some set) _ (h₁.cons rfl)⟩
  cases st with
  | running | draining => exact habort
  | aborting | done => exact ⟨fun _ => nofun, fun _ _ => hQ none _ (h.cons rfl)⟩

lemma wp_requestRemaining {Q : Unit → ELabel × ELog → Prop} (reason : AbortReason)
    (h : Owes none log) (hQ : ∀ log', Owes none log' → Q () (l, log')) :
    requestOutline.wp (abortRemaining reason) Q (l, log) := by
  refine (Outline.wp_bind (beginAbort reason) _ _ _).mpr (wp_snapshotAborting reason h ?_)
  rintro (_ | set) log₁ h₁
  · exact hQ log₁ h₁
  · refine (Outline.wp_bind (closeSet set) _ _ _).mpr (wp_paySet h₁ ?_)
    rintro (_ | err) log₂ h₂
    · exact hQ log₂ h₂
    · exact wp_incidental (incidental_of (common_recordShutdownError err)) h₂
        fun _ log₃ _ h₃ => hQ log₃ h₃

lemma wp_requestAll {Q : Unit → ELabel × ELog → Prop} (h : Owes (some set) log)
    (hQ : ∀ log', Owes none log' → Q () (l, log')) :
    requestOutline.wp (requestShutdown set) Q (l, log) := by
  refine (Outline.wp_bind (closeSet set) _ _ _).mpr (wp_paySet h ?_)
  rintro (_ | err) log₁ h₁
  · exact hQ log₁ h₁
  · exact (Outline.wp_bind (recordShutdownError err) _ _ _).mpr
      (wp_incidental (incidental_of (common_recordShutdownError err)) h₁ fun _ log₂ _ h₂ =>
        wp_requestRemaining .failure h₂ hQ)

variable {l₀ : ELabel}

lemma wp_requestAwait (owner : Bool) (h : Owes none log) :
    requestOutline.wp (awaitShutdown owner) (requestOutline.ends l₀) (l, log) := by
  refine ⟨fun _ _ => h, ?_⟩
  rintro (_ | cause) -
  · exact (Outline.wp_bind shutdownResult _ _ _).mpr
      (wp_incidental (incidental_of common_shutdownResult) (h.cons rfl) fun _ _ _ h₁ _ => h₁)
  · show requestOutline.wp (if _ then _ else _) _ _
    split
    · exact (Outline.wp_bind (abortRemaining .caller) _ _ _).mpr
        (wp_requestRemaining .caller (h.cons rfl) fun _ h₁ _ => h₁)
    · exact fun _ => h.cons rfl

lemma wp_requestShutdownEngine (ctxNil : Bool) (h : Owes none log) :
    requestOutline.wp (shutdownEngine ctxNil) (requestOutline.ends l₀) (l, log) := by
  unfold shutdownEngine
  split
  · exact fun _ => h
  · refine ⟨fun _ => nofun, ?_⟩
    rintro (_ | cause) -
    · refine (Outline.wp_bind beginGracefulShutdown _ _ _).mpr
        (wp_snapshotDraining (h.cons rfl) ?_)
      rintro (_ | set) log₁ h₁
      · exact wp_requestAwait false h₁
      · exact (Outline.wp_bind (requestShutdown set) _ _ _).mpr
          (wp_requestAll h₁ fun _ h₂ => wp_requestAwait true h₂)
    · exact fun _ => h.cons rfl

lemma wp_requestCloseEngine (h : Owes none log) :
    requestOutline.wp closeEngine (requestOutline.ends l₀) (l, log) := by
  refine (Outline.wp_bind (beginAbort .explicit) _ _ _).mpr (wp_snapshotAborting .explicit h ?_)
  rintro (_ | set) log₁ h₁
  · exact fun _ => h₁
  · exact (Outline.wp_bind (closeSet set) _ _ _).mpr (wp_paySet h₁ fun _ _ h₂ _ => h₂)

end Programs

/-- The other goroutines take no part. -/
lemma wp_request_of_not_stops {p : EProg ENext} {l₀ : ELabel} {c : ELabel × ELog}
    (hc : ¬ c.1.stops) : requestOutline.wp p (requestOutline.ends l₀) c := by
  refine Outline.wp_of_within (J := fun c => ¬ c.1.stops) (F := fun _ => True)
    (forall_of (fun i c hc => ⟨fun hs => absurd hs hc, fun _ _ => hc⟩) p) ?_ hc
  rintro (l | v) c - hc
  · exact fun hs => absurd hs hc
  · exact fun hs => absurd hs hc

lemma requestOutline_sound (cfg : EngineConfig) :
    requestOutline.Sound (engineMachine cfg) (fun _ _ => True) fun _ _ => True where
  body l₀ l c hc := by
    by_cases hs : c.1.stops
    · obtain ⟨l', log⟩ := c
      obtain ⟨rfl, rfl⟩ := hc hs
      have howes : Owes none [] := by simp [Owes]
      cases l with
      | shutdown ctxNil => exact wp_requestShutdownEngine ctxNil howes
      | close => exact wp_requestCloseEngine howes
      | _ => exact hs.elim
    · exact wp_request_of_not_stops hs
  exec _ _ _ _ _ _ _ _ _ _ _ _ _ _ := ⟨trivial, trivial⟩
  spawn _ _ _ _ _ _ := ⟨fun _ => ⟨rfl, rfl⟩, trivial⟩
  env _ _ _ _ _ _ := trivial

/-- A call that stops the engine, where it waits and where it has returned, has asked everything in
its snapshots. -/
lemma requests_made {cfg : EngineConfig} {p : EProcess} (h : EngineReaches cfg p) {t : EThread}
    (ht : t ∈ p.threads) (hs : t.entry.stops)
    (hprog : (∃ k, t.prog = .op .awaitDone k) ∨ ∃ v, t.prog = .done (.ret v)) :
    Owes none t.log := by
  have hwp := ((requestOutline_sound cfg).reaches ⟨trivial, by simp [EProcess.init]⟩ h).threads t ht
  rw [requestOutline_ctx] at hwp
  rcases hprog with ⟨k, hk⟩ | ⟨v, hv⟩
  · rw [hk] at hwp
    exact hwp.1 hs rfl
  · rw [hv] at hwp
    exact hwp hs

/-! ### Where the snapshots are taken -/

/-- The step takes the engine out of `running` or into `aborting`. -/
def Engine.Stops (e e' : Engine) : Prop :=
  (e.state = .running ∧ e'.state ≠ .running) ∨ (e.state ≠ .aborting ∧ e'.state = .aborting)

lemma EInstr.stops_cases {e e' : Engine} {cs : List Custody} {t : ℕ} {c : Custody} {x : EChoice}
    {i : EInstr} {r : i.Resp} (h : EngineDrained e cs) (hc : cs[t]? = some c) (hreq : c.req i)
    (hx : e.exec x i = some (e', r)) (hstops : e.Stops e') :
    snapshotOf ⟨i, r⟩ = some e.snapshotShutdownSetLocked ∧ c.entry.stops ∧
      e'.sessions = e.sessions ∧ e'.listeners = e.listeners := by
  have hstate := (Engine.exec_writes hx).state
  cases i with
  | startDraining =>
    cases hx
    exact ⟨rfl, hreq.2, rfl, rfl⟩
  | startAborting reason =>
    cases hx
    exact ⟨rfl, hreq.2.2, rfl, rfl⟩
  | setDone =>
    rcases hstops with ⟨hrun, -⟩ | ⟨-, habort⟩
    · exact absurd hrun (h.sawIdle c (List.mem_of_getElem? hc) hreq)
    · rw [hstate] at habort
      cases habort
  | _ =>
    rw [Engine.Stops, hstate] at hstops
    rcases hstops with ⟨hrun, hne⟩ | ⟨hne, habort⟩
    · exact absurd hrun hne
    · exact absurd habort hne

/-- Whoever stops the engine has taken a snapshot of everything that is tracked. -/
lemma snapshot_of_stops {cfg : EngineConfig} {p q : EProcess} {ev : EEvent}
    (hp : EngineReaches cfg p) (hstep : (engineMachine cfg).step p ev = some q)
    (hstops : p.shared.Stops q.shared) :
    ∃ t ∈ q.threads, t.entry.stops ∧ ∃ a log set, t.log = a :: log ∧
      snapshotOf a = some set ∧ set.Covers p.shared ∧ set.Covers q.shared := by
  have hG := drained_holds hp
  obtain ⟨t, x, l, i, k, log, s', r, rfl, ht, hx, rfl⟩ | ⟨t, x, l, l', log, rfl, ht, rfl⟩ |
    ⟨l, s', rfl, hs, rfl⟩ | ⟨x, s', rfl, hs, rfl⟩ := Machine.step_cases hstep
  · obtain ⟨hsnap, hentry, hsessions, hlisteners⟩ := EInstr.stops_cases hG.shared.2
      (Outline.ctxs_getElem? ht) (hG.threads _ (List.mem_of_getElem? ht)).1 hx hstops
    have hcovers := p.shared.covers_snapshot
    refine ⟨⟨l, k r, ⟨i, r⟩ :: log⟩, ?_, ?_, _, log, _, rfl, hsnap, hcovers, ?_⟩
    · exact List.mem_set (List.getElem?_eq_some_iff.mp ht).1 _
    · rwa [engineOutline_ctx_entry] at hentry
    · exact ⟨by rw [hsessions]; exact hcovers.sessions,
        by rw [hlisteners]; exact hcovers.listeners⟩
  · rcases hstops with ⟨hrun, hne⟩ | ⟨hne, habort⟩
    · exact absurd hrun hne
    · exact absurd habort hne
  · obtain ⟨pending, rfl⟩ := Engine.spawn_eq hs
    rcases hstops with ⟨hrun, hne⟩ | ⟨hne, habort⟩
    · exact absurd hrun hne
    · exact absurd habort hne
  · exact x.elim

/-! ### Where `beginGracefulShutdown` has returned -/

/-- The goroutine has begun the graceful shutdown and has left that section of `Engine.mu`. -/
def BegunGraceful (t : EThread) : Prop :=
  ∃ log₁ r log₂, t.log = log₁ ++ ⟨.startDraining, r⟩ :: log₂ ∧ ⟨.unlock, ()⟩ ∈ log₁

lemma Custody.graceful_upd {c : Custody} (i : EInstr) (r : i.Resp)
    (hg : c.graceful = true ∨ i = .startDraining) : (c.upd i r).graceful = true := by
  rcases hg with hg | rfl
  · cases i with
    | adm a => exact (admUpd_same a r c).graceful.trans hg
    | trk j a => exact (trkUpd_same a r c).graceful.trans hg
    | cellSet d m physical => cases r <;> exact hg
    | startDraining => rfl
    | _ => exact hg
  · rfl

lemma graceful_of_mem {t : EThread} {r : EInstr.startDraining.Resp}
    (h : ⟨.startDraining, r⟩ ∈ t.log) : (engineOutline.ctx t).graceful = true := by
  obtain ⟨l, prog, log⟩ := t
  induction log with
  | nil => cases h
  | cons a log ih =>
    rw [Outline.ctx_cons l prog prog]
    refine Custody.graceful_upd a.1 a.2 ?_
    rcases List.mem_cons.mp h with rfl | h
    · exact .inr rfl
    · exact .inl (ih h)

lemma BegunGraceful.graceful {t : EThread} (h : BegunGraceful t) :
    (engineOutline.ctx t).graceful = true := by
  obtain ⟨log₁, r, log₂, hlog, -⟩ := h
  exact graceful_of_mem (r := r) (by simp [hlog])

lemma BegunGraceful.of_cons {l : ELabel} {prog : EProg ENext} {a : Sigma EInstr.Resp}
    {log : ELog} (h : BegunGraceful ⟨l, prog, a :: log⟩) (prog' : EProg ENext) :
    a = ⟨.unlock, ()⟩ ∨ BegunGraceful ⟨l, prog', log⟩ := by
  obtain ⟨log₁, r, log₂, hlog, hunlock⟩ := h
  cases log₁ with
  | nil => cases hunlock
  | cons b log₁ =>
    cases hlog
    rcases List.mem_cons.mp hunlock with rfl | hunlock
    · exact .inl rfl
    · exact .inr ⟨log₁, r, log₂, rfl, hunlock⟩

/-- A step of a goroutine that has begun the graceful shutdown leaves it nothing to drain. -/
lemma EngineDrained.drains_upd {e e' : Engine} {cs : List Custody} {t : ℕ} {c : Custody}
    {x : EChoice}
    {i : EInstr} {r : i.Resp} (h : EngineDrained e cs) (hG : Custodial e cs) (hc : cs[t]? = some c)
    (hreq : c.req i) (hx : e.exec x i = some (e', r)) (hg : c.graceful = true)
    (hd : c.drains = []) : (c.upd i r).drains = [] := by
  refine List.eq_nil_iff_forall_not_mem.mpr fun m hm => ?_
  rcases Custody.upd_drains hx hm with hm | ⟨rfl, -⟩
  · simp [hd] at hm
  · have hne := h.graceful c (List.mem_of_getElem? hc) hg
    exact hG.sections.not_seen_running hc hne hreq.1

/-- A goroutine that has begun the graceful shutdown has nothing left to drain. -/
lemma drains_of_begunGraceful {cfg : EngineConfig} {p : EProcess} (h : EngineReaches cfg p) :
    ∀ t ∈ p.threads, BegunGraceful t → (engineOutline.ctx t).drains = [] := by
  refine (Machine.reaches_induction (P := fun p : EProcess => EngineReaches cfg p ∧
    ∀ t ∈ p.threads, BegunGraceful t → (engineOutline.ctx t).drains = []) ?_
    ⟨.refl _, by simp [EProcess.init]⟩ h).2
  rintro p ev q ⟨hp, hall⟩ hstep
  refine ⟨hp.tail hstep, ?_⟩
  have hG := drained_holds hp
  obtain ⟨t, x, l, i, k, log, s', r, rfl, ht, hx, rfl⟩ | ⟨t, x, l, l', log, rfl, ht, rfl⟩ |
    ⟨l, s', rfl, hs, rfl⟩ | ⟨x, s', rfl, hs, rfl⟩ := Machine.step_cases hstep
  · have hmem := List.mem_of_getElem? ht
    have hc := Outline.ctxs_getElem? (O := engineOutline) ht
    have hreq := (hG.threads _ hmem).1
    refine forall_mem_set hall fun hbegun => ?_
    rcases hbegun.of_cons (.op i k) with heq | hbegun
    · cases heq
      exact hreq.2.2.2
    · exact hG.shared.2.drains_upd hG.shared.1 hc hreq hx hbegun.graceful (hall _ hmem hbegun)
  · have hold := hall _ (List.mem_of_getElem? ht)
    exact forall_mem_set hall hold
  · refine forall_mem_concat hall ?_
    rintro ⟨log₁, r, log₂, hlog, -⟩
    simp at hlog
  · exact x.elim

/-! ### Coverage -/

/-- Shutdown covers every resource of the engine. -/
structure EProcess.Covered (cfg : EngineConfig) (p : EProcess) : Prop where
  /-- The keys of the sets of sessions are those of the maps of leases. -/
  keys : ∀ s ∈ p.shared.sessions, s.tracked = s.lease.isSome
  /-- Nothing is added once the engine has left `running`. -/
  closed : p.shared.state ≠ .running → ∀ q, (engineMachine cfg).Reaches p q →
    q.shared.TracksWithin p.shared
  /-- A step out of `running` or into `aborting` takes a snapshot of all that is tracked. -/
  snapshot : ∀ ev q, (engineMachine cfg).step p ev = some q → p.shared.Stops q.shared →
    ∃ t ∈ q.threads, t.entry.stops ∧ ∃ a log set, t.log = a :: log ∧
      snapshotOf a = some set ∧ set.Covers p.shared ∧ set.Covers q.shared
  /-- Where `Shutdown` waits and where the call has returned, the snapshots have been asked. -/
  asked : ∀ t ∈ p.threads, t.entry.stops →
    ((∃ k, t.prog = .op .awaitDone k) ∨ ∃ v, t.prog = .done (.ret v)) →
    ∀ a ∈ t.log, ∀ set, snapshotOf a = some set → Asked set t.log
  /-- After `beginGracefulShutdown` the leases of all that is tracked are draining. -/
  draining : ∀ t ∈ p.threads, BegunGraceful t → ∀ s ∈ p.shared.sessions, s.tracked = true →
    ∃ l, s.lease = some l ∧ p.shared.adm.stateOf l = some .draining

/-- Every interleaving of the engine's goroutines covers every resource. -/
theorem shutdown_covers (cfg : EngineConfig) (p : EProcess) (hp : EngineReaches cfg p) :
    p.Covered cfg := by
  have hG := drained_holds hp
  have htracked := hG.shared.1.owned.tracked
  refine ⟨htracked, fun hne q hq => tracksWithin_of_reaches hp hne hq,
    fun ev q hstep hstops => snapshot_of_stops hp hstep hstops, ?_, ?_⟩
  · intro t ht hs hprog a ha set hset
    exact (requests_made hp ht hs hprog a ha set hset).resolve_left nofun
  · intro t ht hbegun s hs htr
    obtain ⟨l, hl⟩ := Option.isSome_iff_exists.mp ((htracked s hs).symm.trans htr)
    have hctx : engineOutline.ctx t ∈ engineOutline.ctxs p.threads := List.mem_map_of_mem ht
    refine ⟨l, hl, ?_⟩
    have hmem : l ∈ p.shared.leases := List.mem_filterMap.mpr ⟨s, hs, hl⟩
    refine (hG.shared.2.leases _ hctx hbegun.graceful l hmem).resolve_right fun hdrain => ?_
    rw [drains_of_begunGraceful hp t ht hbegun] at hdrain
    cases hdrain

/-- A TCP connection is dialled, and `Shutdown` goes on until it waits. -/
def EProcess.drainingDialled : List EEvent := List.flatten [
    .spawn (.dial false .tcp) :: List.replicate 19 (.run 0 {}),
    .spawn (.shutdown false) :: List.replicate 9 (.run 1 {})]

theorem shutdown_covers_dialled : ∃ p : EProcess,
    (engineMachine {}).run (EProcess.init {}) EProcess.drainingDialled = some p ∧
      p.shared.state = .draining ∧ (p.shared.sessions.map SessionEntry.tracked) = [true] ∧
      p.shared.adm.ctl.draining = 1 ∧ p.Covered {} := by
  have hrun : (((engineMachine {}).run (EProcess.init {}) EProcess.drainingDialled).map fun p =>
      (p.shared.state, p.shared.sessions.map SessionEntry.tracked, p.shared.adm.ctl.draining)) =
      some (.draining, [true], 1) := by
    decide
  obtain ⟨p, hp, hobs⟩ := Option.map_eq_some_iff.mp hrun
  simp only [Prod.mk.injEq] at hobs
  exact ⟨p, hp, hobs.1, hobs.2.1, hobs.2.2, shutdown_covers {} p ⟨_, hp⟩⟩

end Ogrenet
