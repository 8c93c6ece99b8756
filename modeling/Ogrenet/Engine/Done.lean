import Ogrenet.Engine.Handover

/-!
# Engine.Done is final

Once the channel `done` of an Engine is closed, nothing is tracked, counted or in progress, and no
step of any operation changes that again. The callbacks of WebSocket dials are left out: they
acquire leases without looking at the engine's state, and may still run when the engine is done.
-/

namespace Ogrenet

open Interleaving Interleaving.Prog

/-- Nothing is left in the engine: the condition of `maybeDoneLocked`. -/
structure Engine.Quiet (e : Engine) : Prop where
  state : e.state ≠ .running
  activeOps : e.activeOps = 0
  listeners : ∀ j ∈ e.listeners, j.tracked = false
  sessions : ∀ s ∈ e.sessions, s.tracked = false
  counters : e.adm.ctl.idle = true

lemma Engine.quiet_iff {e : Engine} : e.Quiet ↔ e.idle = true := by
  simp only [idle, Bool.and_eq_true, bne_iff_ne, ne_eq, beq_iff_eq, List.all_eq_true,
    Bool.not_eq_true']
  exact ⟨fun ⟨h₁, h₂, h₃, h₄, h₅⟩ => ⟨⟨⟨⟨h₁, h₂⟩, h₃⟩, h₄⟩, h₅⟩,
    fun ⟨⟨⟨⟨h₁, h₂⟩, h₃⟩, h₄⟩, h₅⟩ => ⟨h₁, h₂, h₃, h₄, h₅⟩⟩

/-- The counters of `admissionController.idle`. -/
lemma AdmissionController.idle_iff {a : AdmissionController} :
    a.idle = true ↔ (∀ st, a.count st = 0) ∧ ∀ kind, a.ongoing kind = 0 := by
  simp only [idle, Bool.and_eq_true, beq_iff_eq]
  constructor
  · rintro ⟨⟨⟨⟨h₁, h₂⟩, h₃⟩, h₄⟩, h₅⟩
    exact ⟨fun st => by cases st <;> first | assumption | rfl,
      fun kind => by cases kind <;> assumption⟩
  · exact fun ⟨hc, ho⟩ => ⟨⟨⟨⟨hc .opening, hc .active⟩, hc .draining⟩, ho .handshake⟩, ho .upgrade⟩

section Steps

variable {e e' : Engine} {cs : List Custody} {t : ℕ} {c : Custody} {x : EChoice} {i : EInstr}
  {r : i.Resp}

/-- A goroutine inside an operation keeps the engine from being done. -/
lemma Engine.Quiet.not_inOp (hq : e.Quiet) (h : Sections e cs) (hc : cs[t]? = some c) :
    c.inOp ≠ true := by
  intro hop
  have hle := le_total_of_getElem? (f := fun c : Custody => c.inOp.toNat) hc
  simp only [hop, h.ops, hq.activeOps, Bool.toNat_true] at hle
  omega

lemma Engine.Quiet.not_running (hq : e.Quiet) (h : Sections e cs) (hc : cs[t]? = some c) :
    c.seen ≠ some .running :=
  fun hseen => hq.state (h.seen c (List.mem_of_getElem? hc) _ hseen)

/-- The admission steps that would move a counter of a quiet engine are out of reach. -/
lemma Engine.Quiet.counters_exec {s' : Admission} {a : AdmInstr} {ra : a.Resp} (hq : e.Quiet)
    (h : Custodial e cs) (hc : cs[t]? = some c) (hreq : c.req (.adm a))
    (hcall : ∀ d tls, c.entry ≠ .dialCallback d tls) (hx : e.adm.exec a = some (s', ra)) :
    s'.ctl.idle = true := by
  have hhold : (cs.map Custody.hold)[t]? = some c.hold := by rw [List.getElem?_map, hc]; rfl
  obtain ⟨hcount, hongoing⟩ := AdmissionController.idle_iff.mp hq.counters
  obtain ⟨hreq, hadm⟩ := hreq
  cases a with
  | openSection peer listener =>
    rcases hadm.2 with hop | hseen | ⟨d, tls, hentry⟩
    · exact absurd hop (hq.not_inOp h.sections hc)
    · exact absurd hseen (hq.not_running h.sections hc)
    · exact absurd hentry (hcall d tls)
  | activateSection l =>
    have hpos := h.ledger.count_pos_of_lock hhold hreq (by simp)
    rw [hcount] at hpos
    cases hpos
  | drainSection l =>
    have hpos := h.ledger.count_pos_of_lock hhold hreq (by simp)
    rw [hcount] at hpos
    cases hpos
  | releaseSection state peer =>
    obtain ⟨-, old, hr, rfl, -⟩ := hreq
    have hpos := h.ledger.count_pos_of_releasing hhold hr
    rw [hcount] at hpos
    cases hpos
  | acquireActivity kind => exact absurd hadm (hq.not_running h.sections hc)
  | activitySection kind =>
    have hpos := h.ledger.ongoing_pos_of_expiring hhold hreq
    rw [hongoing] at hpos
    cases hpos
  | rejectListener =>
    cases hx
    exact hq.counters
  | _ =>
    simp only [Admission.exec] at hx
    repeat' split at hx
    all_goals cases hx
    all_goals exact hq.counters

/-- No step of an operation makes a quiet engine busy again. -/
lemma Engine.Quiet.exec (hq : e.Quiet) (h : Custodial e cs) (hc : cs[t]? = some c)
    (hreq : c.req i) (hcall : ∀ d tls, c.entry ≠ .dialCallback d tls)
    (hx : e.exec x i = some (e', r)) : e'.Quiet := by
  have hrun := hq.not_running h.sections hc
  have hwrites := exec_writes hx
  refine ⟨?_, ?_, fun L' hL' => ?_, ?_, ?_⟩
  · rw [hwrites.state]
    cases i <;> first | exact hq.state | exact nofun
  · rw [hwrites.activeOps]
    cases i with
    | incOps => exact absurd hreq.1 hrun
    | decOps => exact absurd hreq.2 (hq.not_inOp h.sections hc)
    | _ => exact hq.activeOps
  · by_contra ht
    obtain ⟨j, hj⟩ := List.mem_iff_getElem?.mp hL'
    rcases (exec_listeners hx).tracked hj (by simpa using ht) with rfl | ⟨L, hL, htL⟩
    · exact hrun hreq
    · rw [hq.listeners L (List.mem_of_getElem? hL)] at htL
      cases htL
  · cases exec_sessions hx with
    | same hs =>
      rw [hs]
      exact hq.sessions
    | track kind l k hs => exact absurd hreq.1 hrun
    | untrack k s₀ hs₀ hs =>
      rw [hs]
      exact forall_mem_set hq.sessions rfl
    | finish k s₀ hs₀ hdone hs =>
      rw [hs]
      exact forall_mem_set hq.sessions (hq.sessions s₀ (List.mem_of_getElem? hs₀))
  · rcases exec_ctl hx with ⟨a, rfl⟩ | hctl
    · obtain ⟨b, hb, heq⟩ := Option.map_eq_some_iff.mp hx
      cases heq
      exact hq.counters_exec h hc hreq hcall hb
    · rw [hctl]
      exact hq.counters

end Steps

/-! ### The invariant -/

/-- The engine is done only when it is quiet, and `done` is closed once. -/
structure Settled (e : Engine) (cs : List Custody) : Prop where
  sawIdle : ∀ c ∈ cs, c.sawIdle = true → e.Quiet
  quiet : e.state = .done → e.Quiet
  done : e.done = true → e.state = .done
  closes : e.closes = e.done.toNat
  noCallback : ∀ c ∈ cs, ∀ d tls, c.entry ≠ .dialCallback d tls

section Settled

variable {e e' : Engine} {cs : List Custody} {t : ℕ} {c : Custody} {x : EChoice} {i : EInstr}
  {r : i.Resp}

/-- A goroutine that has seen the engine idle has seen it in this step or before. -/
lemma Custody.upd_sawIdle (hx : e.exec x i = some (e', r)) (h : (c.upd i r).sawIdle = true) :
    c.sawIdle = true ∨ (e' = e ∧ e.idle = true) := by
  cases i with
  | adm a => exact .inl ((admUpd_same a r c).sawIdle.symm.trans h)
  | trk j a => exact .inl ((trkUpd_same a r c).sawIdle.symm.trans h)
  | cellSet d l physical => exact .inl (by cases r <;> exact h)
  | checkIdle =>
    cases hx
    exact .inr ⟨rfl, h⟩
  | closeDone => cases h
  | _ => exact .inl h

/-- What a step does to the channel `done`. -/
lemma Engine.exec_done (hx : e.exec x i = some (e', r)) :
    (e'.done = e.done ∧ e'.closes = e.closes) ∨
      (i = .closeDone ∧ e.done = false ∧ e'.done = true ∧ e'.closes = e.closes + 1) := by
  cases i with
  | adm a =>
    obtain ⟨b, -, heq⟩ := Option.map_eq_some_iff.mp hx
    cases heq
    exact .inl ⟨rfl, rfl⟩
  | trk j a =>
    simp only [Engine.exec] at hx
    split at hx
    · cases hx
    · obtain ⟨b, -, heq⟩ := Option.map_eq_some_iff.mp hx
      cases heq
      exact .inl ⟨rfl, rfl⟩
  | closeDone =>
    simp only [Engine.exec] at hx
    split at hx
    · cases hx
      exact .inl ⟨rfl, rfl⟩
    · rename_i hdone
      cases hx
      exact .inr ⟨rfl, by simpa using hdone, rfl, rfl⟩
  | _ =>
    simp only [Engine.exec] at hx
    repeat' split at hx
    all_goals cases hx
    all_goals exact .inl ⟨rfl, rfl⟩

lemma EngineState.eq_done {st : EngineState} (h : EngineState.done.rank ≤ st.rank) :
    st = .done := by
  cases st
  · exact absurd h (by decide)
  · exact absurd h (by decide)
  · exact absurd h (by decide)
  · rfl

/-- The engine's state only moves forward. -/
lemma Engine.rank_exec (h : Sections e cs) (hc : cs[t]? = some c) (hreq : c.req i)
    (hx : e.exec x i = some (e', r)) : e.state.rank ≤ e'.state.rank := by
  have hseen := h.seen c (List.mem_of_getElem? hc)
  rw [(exec_writes hx).state]
  cases i with
  | startDraining =>
    rw [hseen _ hreq.1]
    decide
  | startAborting reason =>
    show e.state.rank ≤ EngineState.aborting.rank
    rcases hreq.2.1 with hs | hs <;> rw [hseen _ hs] <;> decide
  | setDone =>
    show e.state.rank ≤ 3
    cases e.state <;> decide
  | _ => exact Nat.le_refl _

lemma Settled.exec (hs : Settled e cs) (h : Custodial e cs) (hc : cs[t]? = some c)
    (hreq : c.req i) (hx : e.exec x i = some (e', r)) : Settled e' (cs.set t (c.upd i r)) := by
  have hmem := List.mem_of_getElem? hc
  have hquiet (hq : e.Quiet) : e'.Quiet := hq.exec h hc hreq (hs.noCallback c hmem) hx
  have hstate := (Engine.exec_writes hx).state
  refine ⟨?_, fun hdone => ?_, fun hdone => ?_, ?_, ?_⟩
  · refine forall_mem_set (fun c' hc' hsaw => hquiet (hs.sawIdle c' hc' hsaw)) fun hsaw => ?_
    rcases Custody.upd_sawIdle hx hsaw with hsaw | ⟨rfl, hidle⟩
    · exact hquiet (hs.sawIdle c hmem hsaw)
    · exact Engine.quiet_iff.mpr hidle
  · rw [hstate] at hdone
    cases i with
    | setDone => exact hquiet (hs.sawIdle c hmem hreq)
    | startDraining | startAborting reason => cases hdone
    | _ => exact hquiet (hs.quiet hdone)
  · -- the state is done before the channel is closed and never leaves it
    have hrank := Engine.rank_exec h.sections hc hreq hx
    have hold : e.state = .done := by
      rcases Engine.exec_done hx with ⟨heq, -⟩ | ⟨rfl, -⟩
      · exact hs.done (heq ▸ hdone)
      · exact h.sections.seen c hmem _ hreq.2
    exact EngineState.eq_done (hold ▸ hrank)
  · rcases Engine.exec_done hx with ⟨hd, hn⟩ | ⟨-, hd, hd', hn⟩
    · rw [hd, hn, hs.closes]
    · rw [hd', hn, hs.closes, hd]
      rfl
  · refine forall_mem_set hs.noCallback fun d tls hentry => ?_
    exact hs.noCallback c hmem d tls ((Custody.upd_entry i r).symm.trans hentry)

end Settled

/-! ### Runs -/

/-- No callback of a WebSocket dial is started. -/
def NoDialCallback (es : List EEvent) : Prop := ∀ d tls, Event.spawn (.dialCallback d tls) ∉ es

lemma settled_sound (cfg : EngineConfig) :
    engineOutline.Sound (engineMachine cfg) (fun e cs => Custodial e cs ∧ Settled e cs)
      fun _ ev => ∀ d tls, ev ≠ .spawn (.dialCallback d tls) where
  body := engineOutline_body cfg
  exec p t x th i k s' r _ ht hprog hG hreq hx := by
    obtain ⟨hans, hcust⟩ := (engineOutline_sound cfg).exec p t x th i k s' r trivial ht hprog hG.1
      hreq hx
    exact ⟨hans, hcust, hG.2.exec hG.1 (Outline.ctxs_getElem? ht) hreq hx⟩
  spawn p l s' hok hG hs := by
    obtain ⟨hpre, hcust⟩ := (engineOutline_sound cfg).spawn p l s' trivial hG.1 hs
    obtain ⟨pending, rfl⟩ := Engine.spawn_eq hs
    obtain ⟨-, hset⟩ := hG
    have hquiet (hq : p.shared.Quiet) : ({ p.shared with pending } : Engine).Quiet :=
      ⟨hq.state, hq.activeOps, hq.listeners, hq.sessions, hq.counters⟩
    refine ⟨hpre, hcust, forall_mem_concat (fun c hc hsaw => hquiet (hset.sawIdle c hc hsaw)) nofun,
      fun hd => hquiet (hset.quiet hd), hset.done, hset.closes,
      forall_mem_concat hset.noCallback fun d tls hl => ?_⟩
    exact hok d tls (congrArg Event.spawn hl)
  env p e s' _ _ _ := e.elim

lemma settled_init (cfg : EngineConfig) : Settled (Engine.init cfg) [] :=
  ⟨by simp, by simp [Engine.init], by simp [Engine.init], rfl, by simp⟩

/-- A settled engine, with every goroutine inside its outline. -/
abbrev EProcess.Settles (p : EProcess) : Prop :=
  engineOutline.Holds (fun e cs => Custodial e cs ∧ Settled e cs) p

lemma NoDialCallback.allowed {es es₁ es₂ : List EEvent} {ev : EEvent} (hes : NoDialCallback es)
    (h : es = es₁ ++ ev :: es₂) : ∀ d tls, ev ≠ .spawn (.dialCallback d tls) := by
  rintro d tls rfl
  exact hes d tls (by simp [h])

section Runs

variable {cfg : EngineConfig} {p q : EProcess} {es : List EEvent}

lemma EProcess.Settles.run (hp : p.Settles) (h : (engineMachine cfg).run p es = some q)
    (hes : NoDialCallback es) : q.Settles :=
  (settled_sound cfg).run hp h fun _ _ _ _ heq _ => hes.allowed heq

lemma EProcess.settles_init : (EProcess.init cfg).Settles :=
  ⟨⟨custodial_init cfg, settled_init cfg⟩, by simp [EProcess.init]⟩

/-- The engine's state only moves forward, and `done` stays closed. -/
lemma EProcess.Settles.forward (hp : p.Settles) (h : (engineMachine cfg).run p es = some q)
    (hes : NoDialCallback es) : p.shared.state.rank ≤ q.shared.state.rank ∧
      (p.shared.done = true → q.shared.done = true) := by
  refine (settled_sound cfg).run_le (r := fun e e' => e.state.rank ≤ e'.state.rank ∧
    (e.done = true → e'.done = true)) (fun e => ⟨Nat.le_refl _, id⟩)
    (fun e₁ e₂ e₃ h₁ h₂ => ⟨Nat.le_trans h₁.1 h₂.1, h₂.2 ∘ h₁.2⟩) ?_ ?_ (fun _ e => e.elim) hp h
    fun _ _ _ _ heq _ => hes.allowed heq
  · intro e cs t c i x e' a hG hc hreq hx
    refine ⟨Engine.rank_exec hG.1.sections hc hreq hx, fun hdone => ?_⟩
    rcases Engine.exec_done hx with ⟨hd, -⟩ | ⟨-, -, hd, -⟩
    · exact hd.trans hdone
    · exact hd
  · intro e l e' hs
    obtain ⟨pending, rfl⟩ := Engine.spawn_eq hs
    exact ⟨Nat.le_refl _, id⟩

end Runs

/-- `Engine.done` is closed: the engine is done, and nothing is in progress, tracked or counted. -/
structure Engine.AtRest (e : Engine) : Prop where
  state : e.state = .done
  activeOps : e.activeOps = 0
  listeners : ∀ j ∈ e.listeners, j.tracked = false
  sessions : ∀ s ∈ e.sessions, s.tracked = false ∧ s.lease = none
  connections : e.adm.ctl.opening = 0 ∧ e.adm.ctl.active = 0 ∧ e.adm.ctl.draining = 0
  activities : e.adm.ctl.handshakes = 0 ∧ e.adm.ctl.upgrades = 0

lemma EProcess.Settles.atRest {p : EProcess} (hp : p.Settles) (hdone : p.shared.done = true) :
    p.shared.AtRest := by
  obtain ⟨⟨hcust, hset⟩, -⟩ := hp
  have hstate := hset.done hdone
  have hq := hset.quiet hstate
  obtain ⟨hcount, hongoing⟩ := AdmissionController.idle_iff.mp hq.counters
  refine ⟨hstate, hq.activeOps, hq.listeners, fun s hs => ⟨hq.sessions s hs, ?_⟩,
    ⟨hcount .opening, hcount .active, hcount .draining⟩, hongoing .handshake, hongoing .upgrade⟩
  have htracked := hcust.owned.tracked s hs
  rw [hq.sessions s hs] at htracked
  exact Option.not_isSome_iff_eq_none.mp (by rw [← htracked]; decide)

/-- `Engine.Done` never closes early and is final. Along every run in which no callback of a
WebSocket dial is started, a closed `done` means that the engine is at rest, now and after every
further step; the engine's state only moves forward, and `done` is closed at most once. -/
theorem done_final (cfg : EngineConfig) (p q : EProcess) (es es' : List EEvent)
    (hp : (engineMachine cfg).run (EProcess.init cfg) es = some p) (hes : NoDialCallback es)
    (hq : (engineMachine cfg).run p es' = some q) (hes' : NoDialCallback es') :
    (p.shared.done = true → p.shared.AtRest ∧ q.shared.AtRest ∧ q.shared.done = true) ∧
      p.shared.state.rank ≤ q.shared.state.rank ∧ q.shared.closes ≤ 1 := by
  have hps := EProcess.settles_init.run hp hes
  have hqs := hps.run hq hes'
  obtain ⟨hrank, hdone⟩ := hps.forward hq hes'
  refine ⟨fun hd => ⟨hps.atRest hd, hqs.atRest (hdone hd), hdone hd⟩, hrank, ?_⟩
  rw [hqs.shared.2.closes]
  cases q.shared.done <;> decide

/-- A TCP connection is dialled, the engine is closed and the session ends. -/
def EProcess.dialled : List EEvent := List.flatten [
    .spawn (.dial false .tcp) :: List.replicate 19 (.run 0 {}),
    .spawn .close :: List.replicate 6 (.run 1 {}),
    .spawn (.finalizer 0) :: List.replicate 9 (.run 2 {})]

/-- Another dial, which comes too late. -/
def EProcess.late : List EEvent := .spawn (.dial false .tcp) :: List.replicate 4 (.run 3 {})

theorem done_final_dialled : ∃ p q : EProcess,
    (engineMachine {}).run (EProcess.init {}) EProcess.dialled = some p ∧
      (engineMachine {}).run p EProcess.late = some q ∧ p.shared.done = true ∧
      q.shared.AtRest := by
  have hrun : (((engineMachine {}).run (EProcess.init {}) EProcess.dialled).bind fun p =>
      ((engineMachine {}).run p EProcess.late).map fun _ => p.shared.done) = some true := by
    decide
  obtain ⟨p, hp, hrun⟩ := Option.bind_eq_some_iff.mp hrun
  obtain ⟨q, hq, hdone⟩ := Option.map_eq_some_iff.mp hrun
  have h := done_final {} p q _ _ hp (by simp [NoDialCallback, EProcess.dialled]) hq
    (by simp [NoDialCallback, EProcess.late])
  exact ⟨p, q, hp, hq, hdone, (h.1 hdone).2.1⟩

end Ogrenet
