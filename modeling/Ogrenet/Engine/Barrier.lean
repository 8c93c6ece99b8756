import Ogrenet.Engine.Done

/-!
# The shutdown barrier

When nothing is left in an engine that is shutting down, somebody has to notice it and close `done`.
The releases of operations, sessions, listeners and activities call `maybeDoneLocked` afterwards.
The releases of HTTP connection leases and those of the dial callbacks do not, and when one of them
is the last thing to happen, `done` stays open.
-/

namespace Ogrenet

open Interleaving Interleaving.Prog

/-- The goroutine has still to evaluate `maybeDoneLocked`, or is about to close `done`. -/
def Custody.Watches (c : Custody) : Prop := c.due = true ∨ c.sawIdle = true

instance (c : Custody) : Decidable c.Watches := inferInstanceAs (Decidable (_ ∨ _))

/-- The barrier is not missed: an idle engine is done, or a goroutine is about to notice. -/
def Engine.Noticed (e : Engine) (cs : List Custody) : Prop :=
  e.Quiet → e.done = true ∨ ∃ c ∈ cs, c.Watches

/-- Only one counted connection is left in an engine that is otherwise quiet. -/
structure Engine.LastConnection (e : Engine) : Prop where
  state : e.state ≠ .running
  activeOps : e.activeOps = 0
  listeners : ∀ j ∈ e.listeners, j.tracked = false
  sessions : ∀ s ∈ e.sessions, s.tracked = false
  connections : e.adm.ctl.opening + e.adm.ctl.active + e.adm.ctl.draining = 1
  activities : e.adm.ctl.handshakes = 0 ∧ e.adm.ctl.upgrades = 0

section Steps

variable {e e' : Engine} {cs : List Custody} {t : ℕ} {c : Custody} {x : EChoice} {i : EInstr}
  {r : i.Resp}

/-- A goroutine stops watching only after it has looked at the engine or closed `done`. -/
lemma Custody.Watches.upd (h : c.Watches) (hreq : c.req i) (hx : e.exec x i = some (e', r)) :
    (c.upd i r).Watches ∨ (i = .checkIdle ∧ e.idle = false) ∨ e'.done = true := by
  cases i with
  | adm a =>
    refine .inl ?_
    rcases h with h | h
    · left
      show (c.admUpd a r).due = true
      unfold admUpd
      split
      case h_2 => split <;> exact h
      all_goals first | exact h | rfl
    · exact .inr ((admUpd_same a r c).sawIdle.trans h)
  | trk j a =>
    refine .inl ?_
    rcases h with h | h
    · left
      show (c.trkUpd a r).due = true
      unfold trkUpd
      split <;> exact h
    · exact .inr ((trkUpd_same a r c).sawIdle.trans h)
  | unlock =>
    obtain ⟨-, hdue, hsaw, -⟩ := hreq
    simp [Watches, hdue, hsaw] at h
  | checkIdle =>
    cases hx
    cases hidle : e.idle with
    | true => exact .inl (.inr rfl)
    | false => exact .inr (.inl ⟨rfl, rfl⟩)
  | closeDone =>
    refine .inr (.inr ?_)
    simp only [Engine.exec] at hx
    split at hx
    · cases hx
      assumption
    · cases hx
      rfl
  | decOps | untrackListener j | untrackSession k | startDraining | startAborting reason =>
    exact .inl (.inl rfl)
  | cellSet d l physical => exact .inl (by cases r <;> exact h)
  | _ => exact .inl h

lemma Engine.ListenersStep.untracked (h : e.ListenersStep e' i)
    (hq : ∀ L ∈ e'.listeners, L.tracked = false) :
    (∃ j, i = .untrackListener j) ∨ ∀ L ∈ e.listeners, L.tracked = false := by
  have hset {j : ℕ} {L₀ L₁ : ListenerEntry} (hL₀ : e.listeners[j]? = some L₀)
      (h : e'.listeners = e.listeners.set j L₁) (ht : L₁.tracked = false → L₀.tracked = false) :
      ∀ L ∈ e.listeners, L.tracked = false := by
    rw [h] at hq
    have hback : (e.listeners.set j L₁).set j L₀ = e.listeners := by
      rw [List.set_set]
      exact set_of_getElem? hL₀
    rw [← hback]
    exact forall_mem_set hq (ht (hq L₁ (List.mem_set (List.getElem?_eq_some_iff.mp hL₀).1 _)))
  cases h with
  | same h => exact .inr (by rwa [h] at hq)
  | write j L₀ L₁ hL₀ h ht => exact .inr (hset hL₀ h fun h₁ => ht ▸ h₁)
  | track j L₀ hL₀ h => exact .inr (hset hL₀ h nofun)
  | untrack j L₀ hL₀ h => exact .inl ⟨j, rfl⟩
  | new scheme h =>
    refine .inr fun L hL => hq L ?_
    rw [h]
    exact List.mem_append_left _ hL

lemma Engine.SessionsStep.untracked (h : e.SessionsStep e' i r)
    (hq : ∀ s ∈ e'.sessions, s.tracked = false) :
    (∃ k, i = .untrackSession k) ∨ ∀ s ∈ e.sessions, s.tracked = false := by
  cases h with
  | same h => exact .inr (by rwa [h] at hq)
  | track kind l k h =>
    refine .inr fun s hs => hq s ?_
    rw [h]
    exact List.mem_append_left _ hs
  | untrack k s₀ hs₀ h => exact .inl ⟨k, rfl⟩
  | finish k s₀ hs₀ hdone h =>
    refine .inr ?_
    rw [h] at hq
    have hback : (e.sessions.set k { s₀ with done := true }).set k s₀ = e.sessions := by
      rw [List.set_set]
      exact set_of_getElem? hs₀
    rw [← hback]
    exact forall_mem_set hq (hq { s₀ with done := true }
      (List.mem_set (List.getElem?_eq_some_iff.mp hs₀).1 _))

lemma AdmissionController.reject_idle (a : AdmissionController) (err : LimitError) :
    (a.reject err).idle = a.idle := by
  unfold reject
  split <;> rfl

lemma AdmissionController.admitOpening_idle {a a' : AdmissionController} {peer : String}
    (h : a.admitOpening peer = .ok a') : a'.idle = false := by
  simp only [admitOpening] at h
  split at h
  · cases h
  · split at h
    · cases h
    · cases h
      unfold addPeer
      split <;> simp [idle]

/-- An admission step after which nothing is counted has ended a connection or an activity, or
nothing was counted before. -/
lemma Admission.idle_of_exec {s s' : Admission} {a : AdmInstr} {ra : a.Resp}
    (hx : s.exec a = some (s', ra)) (hidle : s'.ctl.idle = true) :
    s.ctl.idle = true ∨ (∃ st peer, a = .releaseSection st peer) ∨
      ∃ kind, a = .activitySection kind := by
  cases a with
  | openSection peer listener =>
    simp only [exec] at hx
    split at hx
    · cases hx
      exact .inl ((AdmissionController.reject_idle _ _).symm.trans hidle)
    · rename_i ctl hctl
      cases hx
      rw [show ctl.idle = false from AdmissionController.admitOpening_idle hctl] at hidle
      cases hidle
  | activateSection l | drainSection l =>
    simp only [exec] at hx
    split at hx <;> cases hx
    simp [setLease, AdmissionController.idle, AdmissionController.incr,
      AdmissionController.decr] at hidle
  | acquireActivity kind =>
    simp only [exec] at hx
    split at hx
    · cases hx
      exact .inl ((AdmissionController.reject_idle _ _).symm.trans hidle)
    · cases hx
      cases kind <;> simp [AdmissionController.idle, AdmissionController.setOngoing] at hidle
  | releaseSection st peer => exact .inr (.inl ⟨st, peer, rfl⟩)
  | activitySection kind => exact .inr (.inr ⟨kind, rfl⟩)
  | rejectListener =>
    cases hx
    exact .inl hidle
  | _ =>
    simp only [exec] at hx
    repeat' split at hx
    all_goals cases hx
    all_goals exact .inl hidle

/-- A step after which the engine is quiet makes its goroutine look at the engine, or ends a
connection, or the engine was quiet before. -/
lemma Engine.Quiet.of_exec (hq : e'.Quiet) (hreq : c.req i) (hx : e.exec x i = some (e', r)) :
    e.Quiet ∨ (c.upd i r).Watches ∨ ∃ st peer, i = .adm (.releaseSection st peer) := by
  have hwrites := exec_writes hx
  -- the parts of the condition, each as it was or changed by a step that is watched
  have hstate : (c.upd i r).Watches ∨ e.state ≠ .running := by
    cases i with
    | startDraining | startAborting reason => exact .inl (.inl rfl)
    | setDone => exact .inl (.inr hreq)
    | _ => exact .inr fun h => hq.state (hwrites.state.trans h)
  have hops : (c.upd i r).Watches ∨ e.activeOps = 0 := by
    have h0 := hwrites.activeOps.symm.trans hq.activeOps
    cases i with
    | incOps => cases h0
    | decOps => exact .inl (.inl rfl)
    | _ => exact .inr h0
  have hlisteners : (c.upd i r).Watches ∨ ∀ L ∈ e.listeners, L.tracked = false := by
    rcases (exec_listeners hx).untracked hq.listeners with ⟨j, rfl⟩ | h
    · exact .inl (.inl rfl)
    · exact .inr h
  have hsessions : (c.upd i r).Watches ∨ ∀ s ∈ e.sessions, s.tracked = false := by
    rcases (exec_sessions hx).untracked hq.sessions with ⟨k, rfl⟩ | h
    · exact .inl (.inl rfl)
    · exact .inr h
  have hcounters : ((c.upd i r).Watches ∨ ∃ st peer, i = .adm (.releaseSection st peer)) ∨
      e.adm.ctl.idle = true := by
    rcases exec_ctl hx with ⟨a, rfl⟩ | hctl
    · obtain ⟨b, hb, heq⟩ := Option.map_eq_some_iff.mp hx
      cases heq
      rcases Admission.idle_of_exec hb hq.counters with h | ⟨st, peer, rfl⟩ | ⟨kind, rfl⟩
      · exact .inr h
      · exact .inl (.inr ⟨st, peer, rfl⟩)
      · exact .inl (.inl (.inl rfl))
    · exact .inr (hctl ▸ hq.counters)
  rcases hstate with h | hstate
  · exact .inr (.inl h)
  rcases hops with h | hops
  · exact .inr (.inl h)
  rcases hlisteners with h | hlisteners
  · exact .inr (.inl h)
  rcases hsessions with h | hsessions
  · exact .inr (.inl h)
  rcases hcounters with h | hcounters
  · exact .inr h
  exact .inl ⟨hstate, hops, hlisteners, hsessions, hcounters⟩

/-- The subtraction of the last counted connection is the one that makes the engine quiet. -/
lemma Engine.lastConnection_iff {st : ConnectionLeaseState} {peer : String}
    {ra : EInstr.Resp (.adm (.releaseSection st peer))} (h : Custodial e cs) (hc : cs[t]? = some c)
    (hreq : c.req (.adm (.releaseSection st peer)))
    (hx : e.exec x (.adm (.releaseSection st peer)) = some (e', ra)) :
    e'.Quiet ↔ e.LastConnection := by
  have hhold : (cs.map Custody.hold)[t]? = some c.hold := by rw [List.getElem?_map, hc]; rfl
  obtain ⟨⟨-, old, hr, rfl, rfl⟩, -⟩ := hreq
  have hpos := h.ledger.count_pos_of_releasing hhold hr
  have hidle : ((e.adm.ctl.decr old.state).dropPeer old.peer).idle = true ↔
      e.adm.ctl.opening + e.adm.ctl.active + e.adm.ctl.draining = 1 ∧
        e.adm.ctl.handshakes = 0 ∧ e.adm.ctl.upgrades = 0 := by
    have hdrop (a : AdmissionController) : (a.dropPeer old.peer).idle = a.idle := by
      unfold AdmissionController.dropPeer
      split <;> rfl
    rw [hdrop]
    cases hst : old.state <;> rw [hst] at hpos <;>
      simp only [AdmissionController.count, AdmissionController.decr, AdmissionController.idle,
        Bool.and_eq_true, beq_iff_eq] at hpos ⊢ <;> omega
  cases hx
  constructor
  · rintro ⟨h₁, h₂, h₃, h₄, h₅⟩
    obtain ⟨hconn, hact⟩ := hidle.mp h₅
    exact ⟨h₁, h₂, h₃, h₄, hconn, hact⟩
  · rintro ⟨h₁, h₂, h₃, h₄, hconn, hact⟩
    exact ⟨h₁, h₂, h₃, h₄, hidle.mpr ⟨hconn, hact⟩⟩

/-- The subtraction of a connection does not change who watches. -/
lemma Custody.watches_releaseSection {st : ConnectionLeaseState} {peer : String}
    {ra : EInstr.Resp (.adm (.releaseSection st peer))} :
    (c.upd (.adm (.releaseSection st peer)) ra).Watches ↔ c.Watches := Iff.rfl

end Steps

/-! ### Runs -/

/-- The step subtracts the last counted connection, and nobody is about to look at the engine. -/
def EProcess.Misses (p : EProcess) (ev : EEvent) : Prop :=
  ∃ t x th st peer k, ev = .run t x ∧ p.threads[t]? = some th ∧
    th.prog = .op (.adm (.releaseSection st peer)) k ∧ p.shared.LastConnection ∧
    p.shared.done = false ∧ ∀ c ∈ p.custody, ¬ c.Watches

lemma not_watches_set {cs : List Custody} {t : ℕ} {c c' : Custody} (hc : cs[t]? = some c)
    (h : c'.Watches ↔ c.Watches) : (∀ b ∈ cs.set t c', ¬ b.Watches) ↔ ∀ b ∈ cs, ¬ b.Watches := by
  constructor
  · intro hcs
    have hback : (cs.set t c').set t c = cs := by
      rw [List.set_set]
      exact set_of_getElem? hc
    rw [← hback]
    exact forall_mem_set hcs
      (h.not.mp (hcs c' (List.mem_set (List.getElem?_eq_some_iff.mp hc).1 _)))
  · exact fun hcs => forall_mem_set hcs (h.not.mpr (hcs c (List.mem_of_getElem? hc)))

lemma noticed_exec {p : EProcess} {t : ℕ} {x : EChoice} {th : EThread} {i : EInstr}
    {k : i.Resp → EProg ENext} {e' : Engine} {r : i.Resp} (hok : ¬ p.Misses (.run t x))
    (ht : p.threads[t]? = some th) (hprog : th.prog = .op i k) (hG : Custodial p.shared p.custody)
    (hN : p.shared.Noticed p.custody) (hreq : (engineOutline.ctx th).req i)
    (hx : p.shared.exec x i = some (e', r)) :
    e'.Noticed (p.custody.set t ((engineOutline.ctx th).upd i r)) := by
  have hc := Outline.ctxs_getElem? (O := engineOutline) ht
  have hself := List.mem_set (List.getElem?_eq_some_iff.mp hc).1
    ((engineOutline.ctx th).upd i r)
  intro hq
  rcases hq.of_exec hreq hx with hold | hw | ⟨st, peer, rfl⟩
  · rcases hN hold with hdone | ⟨c₂, hc₂, hw⟩
    · left
      rcases Engine.exec_done hx with ⟨heq, -⟩ | ⟨-, -, hd, -⟩
      · exact heq.trans hdone
      · exact hd
    · obtain ⟨j, hj⟩ := List.mem_iff_getElem?.mp hc₂
      by_cases htj : t = j
      · subst htj
        rw [hc] at hj
        cases hj
        rcases hw.upd hreq hx with hw | ⟨rfl, hidle⟩ | hdone
        · exact .inr ⟨_, hself, hw⟩
        · rw [Engine.quiet_iff.mp hold] at hidle
          cases hidle
        · exact .inl hdone
      · exact .inr ⟨c₂, List.mem_of_getElem? ((List.getElem?_set_ne htj).trans hj), hw⟩
  · exact .inr ⟨_, hself, hw⟩
  · by_contra hno
    rw [not_or, not_exists] at hno
    obtain ⟨hdone, hno⟩ := hno
    refine hok ⟨t, x, th, st, peer, k, rfl, ht, hprog,
      (Engine.lastConnection_iff hG hc hreq hx).mp hq, ?_, ?_⟩
    · rcases Engine.exec_done hx with ⟨heq, -⟩ | ⟨hi, -⟩
      · simpa [heq] using hdone
      · cases hi
    · exact (not_watches_set hc Custody.watches_releaseSection).mp
        fun c hc hw => hno c ⟨hc, hw⟩

lemma noticed_sound (cfg : EngineConfig) :
    engineOutline.Sound (engineMachine cfg) (fun e cs => Custodial e cs ∧ e.Noticed cs)
      fun p ev => ¬ EProcess.Misses p ev where
  body := engineOutline_body cfg
  exec p t x th i k s' r hok ht hprog hG hreq hx := by
    obtain ⟨hans, hcust⟩ := (engineOutline_sound cfg).exec p t x th i k s' r trivial ht hprog hG.1
      hreq hx
    exact ⟨hans, hcust, noticed_exec hok ht hprog hG.1 hG.2 hreq hx⟩
  spawn p l s' _ hG hs := by
    obtain ⟨hpre, hcust⟩ := (engineOutline_sound cfg).spawn p l s' trivial hG.1 hs
    obtain ⟨pending, rfl⟩ := Engine.spawn_eq hs
    refine ⟨hpre, hcust, fun hq => ?_⟩
    obtain ⟨h₁, h₂, h₃, h₄, h₅⟩ := hq
    exact (hG.2 ⟨h₁, h₂, h₃, h₄, h₅⟩).imp id
      fun ⟨c, hc, hw⟩ => ⟨c, List.mem_append_left _ hc, hw⟩
  env p e s' _ _ _ := e.elim

/-- A step that misses the barrier can be made, and leaves an idle engine that nobody looks at. -/
lemma EProcess.Misses.step (cfg : EngineConfig) {p : EProcess} {ev : EEvent}
    (hp : engineOutline.Holds Custodial p) (h : p.Misses ev) :
    ∃ q : EProcess, (engineMachine cfg).step p ev = some q ∧ ¬ q.shared.Noticed q.custody := by
  obtain ⟨t, x, ⟨l, prog, log⟩, st, peer, k, rfl, ht, rfl, hlast, hdone, hno⟩ := h
  have hreq := (hp.threads _ (List.mem_of_getElem? ht)).1
  have hc := Outline.ctxs_getElem? (O := engineOutline) ht
  have hx : p.shared.exec x (.adm (.releaseSection st peer)) = some (_, ()) := rfl
  refine ⟨_, by simp only [Machine.step, ht]; rfl, fun hN => ?_⟩
  rcases hN ((Engine.lastConnection_iff hp.shared hc hreq hx).mpr hlast) with hd | ⟨c, hc', hw⟩
  · rw [show p.shared.done = true from hd] at hdone
    cases hdone
  · rw [EProcess.custody, Outline.ctxs_set] at hc'
    exact (not_watches_set hc Custody.watches_releaseSection).mpr hno c hc' hw

/-- No engine operation is in mid-step: nobody is about to look at the engine. In such a state the
channel `done` of an idle engine has to be closed. -/
def EProcess.Barrier (p : EProcess) : Prop :=
  (∀ c ∈ p.custody, ¬ c.Watches) → p.shared.idle = true → p.shared.done = true

lemma EProcess.barrier_iff {p : EProcess} : p.Barrier ↔ p.shared.Noticed p.custody := by
  unfold Barrier Engine.Noticed
  rw [Engine.quiet_iff]
  constructor
  · intro h hidle
    by_contra hno
    rw [not_or, not_exists] at hno
    exact hno.1 (h (fun c hc hw => hno.2 c ⟨hc, hw⟩) hidle)
  · intro h hno hidle
    exact (h hidle).resolve_right fun ⟨c, hc, hw⟩ => hno c hc hw

/-- Along every run, the shutdown barrier holds in every state exactly when no step subtracts the
last counted connection of an otherwise quiet engine while nobody is about to look at it. -/
theorem barrier_iff_not_misses (cfg : EngineConfig) (es : List EEvent) :
    (∀ es₁ es₂ q, es = es₁ ++ es₂ →
        (engineMachine cfg).run (EProcess.init cfg) es₁ = some q → EProcess.Barrier q) ↔
      ∀ es₁ ev es₂ q, es = es₁ ++ ev :: es₂ →
        (engineMachine cfg).run (EProcess.init cfg) es₁ = some q → ¬ EProcess.Misses q ev := by
  constructor
  · intro h es₁ ev es₂ q hes hq hmiss
    obtain ⟨q', hstep, hnot⟩ := hmiss.step cfg (engine_holds ⟨es₁, hq⟩)
    refine hnot (EProcess.barrier_iff.mp (h (es₁ ++ [ev]) es₂ q' (by simp [hes]) ?_))
    simp [Machine.run_append, hq, Machine.run, hstep]
  · intro h es₁ es₂ q hes hq
    have hinit : engineOutline.Holds (fun e cs => Custodial e cs ∧ e.Noticed cs)
        (EProcess.init cfg) :=
      ⟨⟨custodial_init cfg, fun hq => absurd rfl hq.state⟩, by simp [EProcess.init]⟩
    refine EProcess.barrier_iff.mpr ((noticed_sound cfg).run hinit hq ?_).shared.2
    intro es₃ ev es₄ q' hes' hq'
    exact h es₃ ev (es₄ ++ es₂) q' (by simp [hes, hes']) hq'

/-- A WebSocket listener has a connection. Its end marks the holder released, and while it is on the
way to `lease.release()` the engine is closed, finds nothing to release, and the listener ends. -/
def EProcess.missed : List EEvent := List.flatten [
    .spawn (.listen false .ws false) :: List.replicate 17 (.run 0 {}),
    .spawn (.accept 0) :: List.replicate 13 (.run 1 {}),
    .spawn (.httpConn 0 0) :: List.replicate 5 (.run 2 {}),
    .spawn .close :: List.replicate 11 (.run 3 {}),
    .spawn (.serve 0) :: List.replicate 8 (.run 4 { err := some (.sentinel .serverClosed) }),
    List.replicate 4 (.run 2 {}),
    .spawn (.watchWS 0) :: [.run 5 {}]]

/-- All goroutines of the engine have returned, it is idle, and `done` is open for good. -/
theorem barrier_missed : ∃ p : EProcess,
    (engineMachine {}).run (EProcess.init {}) EProcess.missed = some p ∧
      EProcess.returned p = true ∧ p.shared.idle = true ∧ p.shared.done = false ∧
      ¬ EProcess.Barrier p := by
  have hrun : (((engineMachine {}).run (EProcess.init {}) EProcess.missed).map fun p =>
      (EProcess.returned p, p.shared.idle, p.shared.done,
        (EProcess.custody p).all fun c => decide (¬ c.Watches))) =
      some (true, true, false, true) := by
    decide
  obtain ⟨p, hp, hobs⟩ := Option.map_eq_some_iff.mp hrun
  simp only [Prod.mk.injEq, List.all_eq_true, decide_eq_true_eq] at hobs
  obtain ⟨hret, hidle, hdone, hno⟩ := hobs
  refine ⟨p, hp, hret, hidle, hdone, fun h => ?_⟩
  rw [h hno hidle] at hdone
  cases hdone

end Ogrenet
