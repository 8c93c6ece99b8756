import Ogrenet.Session.Ownership.Calls
import Ogrenet.Session.Writes

/-!
# Only the owner aborts a graceful close

A graceful close of a stream has two phases, up to the close of the write half and from there to the
end, and each belongs to the call whose request has started it. When the context of a call ends, the
call aborts the session only if the phase in progress is its own, with one exception: `CloseWrite`
does not look again whether the write half has been closed since, and aborts a phase that belongs to
another call or to nobody.
-/

namespace Ogrenet

open Interleaving Interleaving.Prog

variable {cfg : SessionConfig}

/-! ### The invariant -/

/-- What the calls have been told is still so, and for each goal one of them has moved the goal
there. -/
structure Owners (s : Session) (cs : List SPast) : Prop where
  written : ∀ c ∈ cs, FoundWritten c.2 → s.closed .writeDone = true
  done : ∀ c ∈ cs, c.1.role = .waiter → ∀ cause, FoundDone cause c.2 →
    ∃ k, c.1.awaits = some k ∧ s.cause k = some cause
  writeOnly : ∀ c ∈ cs, ∀ ctx, c.1 = .closeWrite ctx → ¬ MovedTo .full c.2
  reached : ∀ c ∈ cs, ∀ goal, MovedTo goal c.2 → goal.rank ≤ s.goal.rank
  one : ∀ goal (t₁ t₂ : ℕ) c₁ c₂, cs[t₁]? = some c₁ → cs[t₂]? = some c₂ → MovedTo goal c₁.2 →
    MovedTo goal c₂.2 → t₁ = t₂

section Steps

variable {s s' : Session} {cs : List SPast} {c : SPast} {t : ℕ} {x : Choice} {i : SInstr}
  {r : i.Resp}

/-- A request is answered with a goal that it moves forward. -/
lemma Session.exec_waitAns (hx : s.exec cfg x i = some (s', r)) : WaitAns i r := by
  intro previous goal h
  cases i with
  | request goal' =>
    obtain ⟨won, previous'⟩ := r
    cases won with
    | false => cases h
    | true =>
      cases h
      obtain ⟨hprev, hwon⟩ := Session.exec_request hx
      rw [show previous = s.goal from hprev]
      exact (hwon rfl).2
  | _ => cases h

lemma SInstr.eq_request_of_moved {goal : CloseGoal}
    (h : (i.moved r).map Prod.snd = some goal) : i = .request goal := by
  cases i with
  | request goal' =>
    obtain ⟨won, previous⟩ := r
    cases won <;> cases h
    rfl
  | _ => cases h

/-- The goal only moves forward. -/
lemma Session.exec_goal (hx : s.exec cfg x i = some (s', r)) : s.goal.rank ≤ s'.goal.rank := by
  rw [(Session.exec_writes hx).goal]
  cases i with
  | request goal =>
    obtain ⟨won, previous⟩ := r
    cases won with
    | false => exact Nat.le_refl _
    | true => exact Nat.le_of_lt ((Session.exec_request hx).2 rfl).2
  | abortSection reason publish =>
    cases r with
    | false => exact Nat.le_refl _
    | true => cases s.goal <;> exact Nat.le_of_ble_eq_true rfl
  | _ => exact Nat.le_refl _

/-- A goal that a step moves to has not been reached before, and is now. -/
lemma Session.exec_moved (hx : s.exec cfg x i = some (s', r)) {goal : CloseGoal}
    (h : (i.moved r).map Prod.snd = some goal) : s.goal.rank < goal.rank ∧ s'.goal = goal := by
  have hw := (Session.exec_writes hx).goal
  cases i with
  | request goal' =>
    obtain ⟨won, previous⟩ := r
    cases won <;> cases h
    exact ⟨((Session.exec_request hx).2 rfl).2, hw⟩
  | _ => cases h

lemma Owners.exec (hG : Owners s cs) (ht : cs[t]? = some c) (hreq : WaitReq i c)
    (hx : s.exec cfg x i = some (s', r)) : Owners s' (cs.set t (c.1, ⟨i, r⟩ :: c.2)) := by
  have hw := Session.exec_writes hx
  have hmem := List.mem_of_getElem? ht
  have hcause : ∀ k, s'.cause k = s.cause k := fun k => by
    simp only [Session.cause, hw.expired]
  constructor
  case written =>
    refine forall_mem_set (fun d hd h => hw.closed_mono (hG.written d hd h)) fun h => ?_
    rcases foundWritten_cons.mp h with h | h
    · cases i with
      | select cases dflt =>
        simp only [SInstr.foundWritten] at h
        split at h
        · exact hw.closed_mono (Session.closed_of_select hx)
        · cases h
      | _ => cases h
    · exact hw.closed_mono (hG.written c hmem h)
  case done =>
    refine forall_mem_set (fun d hd hrole cause h => ?_) fun hrole cause h => ?_
    · simpa only [hcause] using hG.done d hd hrole cause h
    rcases foundDone_cons.mp h with h | h
    · cases i with
      | select cases dflt =>
        simp only [SInstr.foundDone] at h
        split at h
        · cases h
          obtain ⟨k, hk, he⟩ := Session.cause_of_select hx
          exact ⟨k, hreq.own cases dflt rfl hrole k hk, (hcause k).trans he⟩
        · cases h
      | _ => cases h
    · simpa only [hcause] using hG.done c hmem hrole cause h
  case writeOnly =>
    refine forall_mem_set hG.writeOnly fun ctx hctx h => ?_
    rcases movedTo_cons.mp h with h | h
    · exact hreq.full (SInstr.eq_request_of_moved h) ctx hctx
    · exact hG.writeOnly c hmem ctx hctx h
  case reached =>
    have hle := Session.exec_goal hx
    refine forall_mem_set (fun d hd goal h => Nat.le_trans (hG.reached d hd goal h) hle)
      fun goal h => ?_
    rcases movedTo_cons.mp h with h | h
    · exact Nat.le_of_eq (congrArg _ (Session.exec_moved hx h).2.symm)
    · exact Nat.le_trans (hG.reached c hmem goal h) hle
  case one =>
    -- nobody had moved the goal to where this step moves it
    have hfresh : ∀ goal, (i.moved r).map Prod.snd = some goal → ∀ d ∈ cs,
        ¬ MovedTo goal d.2 := fun goal h d hd hd' =>
      absurd (hG.reached d hd goal hd') (Nat.not_le_of_lt (Session.exec_moved hx h).1)
    have hcases : ∀ goal (j : ℕ) d, (cs.set t (c.1, ⟨i, r⟩ :: c.2))[j]? = some d →
        MovedTo goal d.2 → (j = t ∧ (i.moved r).map Prod.snd = some goal) ∨
          ∃ d', cs[j]? = some d' ∧ MovedTo goal d'.2 := fun goal j d hj hd => by
      rcases getElem?_of_set hj with ⟨rfl, rfl⟩ | hj
      · rcases movedTo_cons.mp hd with hd | hd
        · exact .inl ⟨rfl, hd⟩
        · exact .inr ⟨c, ht, hd⟩
      · exact .inr ⟨d, hj, hd⟩
    intro goal t₁ t₂ c₁ c₂ h₁ h₂ hm₁ hm₂
    rcases hcases goal t₁ c₁ h₁ hm₁ with ⟨rfl, hnow⟩ | ⟨d₁, hd₁, hold₁⟩
    · rcases hcases goal t₂ c₂ h₂ hm₂ with ⟨rfl, -⟩ | ⟨d₂, hd₂, hold₂⟩
      · rfl
      · exact absurd hold₂ (hfresh goal hnow d₂ (List.mem_of_getElem? hd₂))
    · rcases hcases goal t₂ c₂ h₂ hm₂ with ⟨rfl, hnow⟩ | ⟨d₂, hd₂, hold₂⟩
      · exact absurd hold₁ (hfresh goal hnow d₁ (List.mem_of_getElem? hd₁))
      · exact hG.one goal t₁ t₂ d₁ d₂ hd₁ hd₂ hold₁ hold₂

lemma not_movedTo_nil (goal : CloseGoal) : ¬ MovedTo goal [] := by simp [MovedTo]

/-- Calls that have done nothing. -/
lemma Owners.fresh (h : ∀ c ∈ cs, c.2 = []) : Owners s cs := by
  have hno : ∀ c ∈ cs, ∀ goal, ¬ MovedTo goal c.2 := fun c hc goal => by
    rw [h c hc]
    exact not_movedTo_nil goal
  refine ⟨fun c hc hf => ?_, fun c hc _ cause hf => ?_, fun c hc _ _ => hno c hc _,
    fun c hc goal hm => absurd hm (hno c hc goal), ?_⟩
  · simp [FoundWritten, h c hc] at hf
  · rw [h c hc] at hf
    exact absurd hf not_foundDone_nil
  · intro goal t₁ t₂ c₁ c₂ h₁ _ hm _
    exact absurd hm (hno c₁ (List.mem_of_getElem? h₁) goal)

lemma Owners.concat (hG : Owners s cs) (l : SLabel) : Owners s (cs ++ [(l, [])]) := by
  refine ⟨forall_mem_concat hG.written fun h => ?_, forall_mem_concat hG.done fun _ cause h => ?_,
    forall_mem_concat hG.writeOnly fun _ _ => not_movedTo_nil _,
    forall_mem_concat hG.reached fun goal h => absurd h (not_movedTo_nil goal), ?_⟩
  · simp [FoundWritten] at h
  · exact absurd h not_foundDone_nil
  · intro goal t₁ t₂ c₁ c₂ h₁ h₂ hm₁ hm₂
    rcases getElem?_of_concat h₁ with h₁ | ⟨-, rfl⟩
    · rcases getElem?_of_concat h₂ with h₂ | ⟨-, rfl⟩
      · exact hG.one goal t₁ t₂ c₁ c₂ h₁ h₂ hm₁ hm₂
      · exact absurd hm₂ (not_movedTo_nil goal)
    · exact absurd hm₁ (not_movedTo_nil goal)

end Steps

lemma owners_sound : Outline.Sound (sessionMachine .conn cfg) waitOutline Owners
    fun _ _ => True where
  body l₀ l c hc := wait_body cfg l hc
  exec p t x th i k s' r _ ht hprog hG hreq hx :=
    ⟨Session.exec_waitAns hx, hG.exec (Outline.ctxs_getElem? ht) hreq hx⟩
  spawn p l s' _ hG hs := by
    obtain ⟨_, rfl⟩ := SessionKind.spawn_eq hs
    have h := hG.concat l
    exact ⟨⟨rfl, fun _ => rfl⟩, h.written, h.done, h.writeOnly, h.reached, h.one⟩
  env p e s' _ hG hs := by
    have hcause : ∀ {k cause}, p.shared.cause k = some cause → s'.cause k = some cause :=
      Session.env_cause hs
    obtain ⟨_, _, _, rfl⟩ := Session.env_eq hs
    exact ⟨hG.written, fun c hc hrole cause h =>
      (hG.done c hc hrole cause h).imp fun k hk => ⟨hk.1, hcause hk.2⟩,
      hG.writeOnly, hG.reached, hG.one⟩

lemma owners_reached {p : SProcess} (hp : SessionReaches .conn cfg p) :
    waitOutline.Holds Owners p := by
  refine owners_sound.reaches ⟨?_, fun th hth => ?_⟩ hp
  · refine .fresh fun c hc => ?_
    obtain ⟨th, hth, rfl⟩ := List.mem_map.mp hc
    obtain ⟨l, -, rfl⟩ := List.mem_map.mp hth
    rfl
  · obtain ⟨l, hl, rfl⟩ := List.mem_map.mp hth
    exact wait_body cfg l ⟨rfl, fun _ => rfl⟩

/-! ### Runs -/

/-- What a call can observe of the lifecycle of a session, and what the code keeps under its
lock. -/
def Session.lifecycle (s : Session) :
    CloseGoal × Bool × AbortReason × Option Err × (Signal → Bool) :=
  (s.goal, s.terminal, s.why, s.err, s.closed)

/-- The request of the goroutine has started the phase in progress: it has moved the goal away from
Running as long as the write half is open, and to Full after that. -/
def OwnsPhase (s : Session) (log : SLog) : Prop :=
  if s.closed .writeDone = true then MovedTo .full log else MovedFrom .running log

instance (s : Session) (log : SLog) : Decidable (OwnsPhase s log) :=
  inferInstanceAs (Decidable (ite _ (∃ a ∈ log, _) (∃ a ∈ log, _)))

/-- The step aborts the session with the reason `abortCaller`. -/
def AbortsForCaller (p q : SProcess) : Prop := p.shared.why ≠ .caller ∧ q.shared.why = .caller

/-- A state of the run. -/
def StateOf (cfg : SessionConfig) (es : List (Event SLabel Choice SEnv)) (p : SProcess) : Prop :=
  ∃ es₁ es₂, es = es₁ ++ es₂ ∧
    (sessionMachine .conn cfg).run (SProcess.init .conn cfg) es₁ = some p

/-- A step of the run. -/
def StepOf (cfg : SessionConfig) (es : List (Event SLabel Choice SEnv)) (p : SProcess)
    (e : Event SLabel Choice SEnv) (q : SProcess) : Prop :=
  ∃ es₁ es₂, es = es₁ ++ e :: es₂ ∧
    (sessionMachine .conn cfg).run (SProcess.init .conn cfg) es₁ = some p ∧
      (sessionMachine .conn cfg).step p e = some q

/-- In the run, only the owner of a graceful phase aborts it for its caller. -/
structure OwnedPhases (cfg : SessionConfig) (es : List (Event SLabel Choice SEnv)) : Prop where
  abort : ∀ p e q, StepOf cfg es p e q → AbortsForCaller p q →
    ∃ t x th, e = .run t x ∧ p.threads[t]? = some th ∧ th.entry.role = .waiter ∧
      OwnsPhase p.shared th.log
  /-- That a context ends changes nothing by itself. -/
  expiry : ∀ p k cause q, StepOf cfg es p (.env (.expire k cause)) q →
    q.shared.lifecycle = p.shared.lifecycle
  /-- Nor does a call that finds its context done, unless it has aborted the session. -/
  others : ∀ p t x q th, StepOf cfg es p (.run t x) q → q.threads[t]? = some th →
    th.entry.role = .waiter → ∀ cause, FoundDone cause th.log → ¬ AbortedForCaller th.log →
      q.shared.lifecycle = p.shared.lifecycle
  /-- It returns the cause, at once or after an attempt to abort the session. -/
  returns : ∀ p, StateOf cfg es p → ∀ th ∈ p.threads, th.entry.role = .waiter → ∀ cause,
    FoundDone cause th.log → (∃ k, th.entry.awaits = some k ∧ p.shared.cause k = some cause) ∧
      (∀ v, th.prog = .done (.ret v) → v = .result (some cause)) ∧
        (AbortedForCaller th.log ∨ th.prog = .done (.ret (.result (some cause))) ∨
          JustFound cause th.log ∧
            ∃ publish k, th.prog = .op (.abortSection .caller publish) k)
  one : ∀ p, StateOf cfg es p → ∀ goal (t₁ t₂ : ℕ) th₁ th₂, p.threads[t₁]? = some th₁ →
    p.threads[t₂]? = some th₂ → MovedTo goal th₁.log → MovedTo goal th₂.log → t₁ = t₂

section Runs

variable {es : List (Event SLabel Choice SEnv)} {p q : SProcess} {t : ℕ} {x : Choice}
  {th : SThread}

/-- The step that aborts the session for a caller, and what the call has done before it. -/
lemma mayAbort_of_step (hp : SessionReaches .conn cfg p)
    (hstep : (sessionMachine .conn cfg).step p (.run t x) = some q)
    (ht : p.threads[t]? = some th) (ha : AbortsForCaller p q) : MayAbort (th.entry, th.log) := by
  obtain ⟨hno, hyes⟩ := ha
  obtain ⟨t', x', l, i, k, log, s', r, he, ht', hx, rfl⟩ | ⟨t', x', l, l', log, he, ht', rfl⟩ |
    ⟨l, s', he, -⟩ | ⟨x', s', he, -⟩ := Machine.step_cases hstep
  · cases he
    cases ht.symm.trans ht'
    have hreq : WaitReq i (l, log) := by
      have := ((owners_reached hp).threads _ (List.mem_of_getElem? ht')).1
      rwa [wait_ctx] at this
    have hwhy := (Session.exec_writes hx).why
    cases i with
    | abortSection reason publish =>
      cases r with
      | false => exact absurd (hwhy.symm.trans hyes) hno
      | true =>
        cases hwhy.symm.trans hyes
        exact hreq.abort publish rfl
    | _ => exact absurd (hwhy.symm.trans hyes) hno
  · exact absurd hyes hno
  · cases he
  · cases he

/-- The call that aborts the session for its caller owns the phase in progress, unless it is
`CloseWrite` and the write half has been closed. -/
lemma ownsPhase_iff_of_mayAbort (hp : SessionReaches .conn cfg p) (hth : th ∈ p.threads)
    (h : MayAbort (th.entry, th.log)) : th.entry.role = .waiter ∧
      (OwnsPhase p.shared th.log ↔
        ∀ ctx, th.entry = .closeWrite ctx → p.shared.closed .writeDone = false) := by
  obtain ⟨hG, -⟩ := owners_reached hp
  have hmem : (th.entry, th.log) ∈ waitOutline.ctxs p.threads := by
    rw [← wait_ctx]
    exact List.mem_map_of_mem hth
  obtain ⟨l, prog, log⟩ := th
  cases l with
  | closeWrite ctx =>
    refine ⟨rfl, ?_⟩
    by_cases hclosed : p.shared.closed .writeDone = true
    · rw [OwnsPhase, if_pos hclosed]
      refine iff_of_false (hG.writeOnly _ hmem ctx rfl) fun hopen => ?_
      exact absurd (hclosed.symm.trans (hopen ctx rfl)) nofun
    · rw [OwnsPhase, if_neg hclosed]
      exact iff_of_true h fun _ _ => Bool.eq_false_iff.mpr hclosed
  | shutdown ctx =>
    refine ⟨rfl, iff_of_true ?_ nofun⟩
    rw [OwnsPhase]
    rcases h with h | ⟨hfull, hwritten⟩
    · split
      · exact h.movedTo
      · exact h.movedFrom
    · rw [if_pos (hG.written _ hmem hwritten)]
      exact hfull
  | _ => exact h.elim

/-- Neither a new goroutine nor the environment gives a reason. -/
lemma eq_run_of_abortsForCaller {e : Event SLabel Choice SEnv}
    (hstep : (sessionMachine .conn cfg).step p e = some q) (ha : AbortsForCaller p q) :
    ∃ t x th, e = .run t x ∧ p.threads[t]? = some th := by
  obtain ⟨hno, hyes⟩ := ha
  obtain ⟨t, x, l, i, k, log, s', r, rfl, ht, -⟩ | ⟨t, x, l, l', log, rfl, ht, -⟩ |
    ⟨l, s', rfl, hs, rfl⟩ | ⟨x, s', rfl, hs, rfl⟩ := Machine.step_cases hstep
  · exact ⟨t, x, _, rfl, ht⟩
  · exact ⟨t, x, _, rfl, ht⟩
  · obtain ⟨_, rfl⟩ := SessionKind.spawn_eq hs
    exact absurd hyes hno
  · obtain ⟨_, _, _, rfl⟩ := Session.env_eq hs
    exact absurd hyes hno

/-- A call that has found its context done leaves the lifecycle alone unless it aborts. -/
lemma lifecycle_of_foundDone (hp : SessionReaches .conn cfg p)
    (hstep : (sessionMachine .conn cfg).step p (.run t x) = some q)
    (ht : q.threads[t]? = some th) (hrole : th.entry.role = .waiter) {cause : Err}
    (hfound : FoundDone cause th.log) (hno : ¬ AbortedForCaller th.log) :
    q.shared.lifecycle = p.shared.lifecycle := by
  obtain ⟨t', x', l, i, k, log, s', r, he, ht', hx, rfl⟩ | ⟨t', x', l, l', log, he, ht', rfl⟩ |
    ⟨l, s', he, -⟩ | ⟨x', s', he, -⟩ := Machine.step_cases hstep
  · cases he
    obtain rfl : th = ⟨l, k r, ⟨i, r⟩ :: log⟩ := by
      rw [List.getElem?_set_self (List.getElem?_eq_some_iff.mp ht').1] at ht
      exact (Option.some.inj ht).symm
    have hreq : WaitReq i (l, log) := by
      have := ((owners_reached hp).threads _ (List.mem_of_getElem? ht')).1
      rwa [wait_ctx] at this
    have hw := Session.exec_writes hx
    have hsame : i.goalAfter r p.shared.goal = p.shared.goal →
        i.terminalAfter r p.shared.terminal = p.shared.terminal →
        i.whyAfter r p.shared.why = p.shared.why → i.errAfter r p.shared.err = p.shared.err →
        i.closedAfter p.shared.closed = p.shared.closed →
        s'.lifecycle = p.shared.lifecycle := fun h₁ h₂ h₃ h₄ h₅ => by
      simp only [Session.lifecycle, hw.goal, hw.terminal, hw.why, hw.err, hw.closed, h₁, h₂, h₃, h₄,
        h₅]
    rcases foundDone_cons.mp hfound with hnow | hbefore
    · cases i with
      | select cases dflt => exact hsame rfl rfl rfl rfl rfl
      | _ => cases hnow
    · rw [abortedForCaller_cons, not_or] at hno
      obtain ⟨-, publish, rfl⟩ := (hreq.after hrole cause hbefore).resolve_left hno.2
      cases r with
      | false => exact hsame rfl rfl rfl rfl rfl
      | true => exact absurd rfl hno.1
  · rfl
  · cases he
  · cases he

lemma returns_of_foundDone (hp : SessionReaches .conn cfg p) (hth : th ∈ p.threads)
    (hrole : th.entry.role = .waiter) {cause : Err} (hfound : FoundDone cause th.log) :
    (∃ k, th.entry.awaits = some k ∧ p.shared.cause k = some cause) ∧
      (∀ v, th.prog = .done (.ret v) → v = .result (some cause)) ∧
        (AbortedForCaller th.log ∨ th.prog = .done (.ret (.result (some cause))) ∨
          JustFound cause th.log ∧
            ∃ publish k, th.prog = .op (.abortSection .caller publish) k) := by
  obtain ⟨hG, hwp⟩ := owners_reached hp
  have hmem : (th.entry, th.log) ∈ waitOutline.ctxs p.threads := by
    rw [← wait_ctx]
    exact List.mem_map_of_mem hth
  have hthread := hwp th hth
  rw [wait_ctx] at hthread
  refine ⟨hG.done _ hmem hrole cause hfound, ?_⟩
  obtain ⟨l, prog, log⟩ := th
  cases prog with
  | op i k =>
    refine ⟨nofun, ?_⟩
    rcases hthread.1.after hrole cause hfound with h | ⟨hjust, publish, rfl⟩
    · exact .inl h
    · exact .inr (.inr ⟨hjust, publish, k, rfl⟩)
  | done n =>
    cases n with
    | goto l' =>
      obtain ⟨hl', hstart⟩ := hthread
      have hnil : log = [] := (Prod.mk.inj (hstart (hl'.trans hrole))).2
      exact absurd (hnil ▸ hfound) not_foundDone_nil
    | ret v =>
      have hv : v = .result (some cause) := hthread hrole cause hfound
      refine ⟨fun v' hv' => ?_, .inr (.inl (by rw [hv]))⟩
      cases hv'
      exact hv

lemma movedTo_unique (hp : SessionReaches .conn cfg p) {goal : CloseGoal} {t₁ t₂ : ℕ}
    {th₁ th₂ : SThread} (h₁ : p.threads[t₁]? = some th₁) (h₂ : p.threads[t₂]? = some th₂)
    (hm₁ : MovedTo goal th₁.log) (hm₂ : MovedTo goal th₂.log) : t₁ = t₂ := by
  refine (owners_reached hp).shared.one goal t₁ t₂ _ _ (Outline.ctxs_getElem? h₁)
    (Outline.ctxs_getElem? h₂) ?_ ?_
  · rwa [wait_ctx]
  · rwa [wait_ctx]

end Runs

/-- In a run only the owner of a graceful phase aborts it for its caller exactly when no
`CloseWrite` aborts the session for its caller after the write half has been closed. -/
theorem ownedPhases_iff (cfg : SessionConfig) (es : List (Event SLabel Choice SEnv)) :
    OwnedPhases cfg es ↔ ∀ p t x q th ctx, StepOf cfg es p (.run t x) q →
      p.threads[t]? = some th → AbortsForCaller p q → th.entry = .closeWrite ctx →
        p.shared.closed .writeDone = false := by
  constructor
  · rintro hO p t x q th ctx hstep ht ha hentry
    obtain ⟨t', x', th', he, ht', -, howns⟩ := hO.abort p _ q hstep ha
    cases he
    cases ht.symm.trans ht'
    obtain ⟨es₁, es₂, -, hrun, hstep⟩ := hstep
    have hp : SessionReaches .conn cfg p := ⟨es₁, hrun⟩
    exact (ownsPhase_iff_of_mayAbort hp (List.mem_of_getElem? ht)
      (mayAbort_of_step hp hstep ht ha)).2.mp howns ctx hentry
  · intro hlate
    refine ⟨fun p e q hof ha => ?_, fun p k cause q hof => ?_, ?_, ?_, ?_⟩
    · obtain ⟨es₁, es₂, -, hrun, hstep⟩ := id hof
      have hp : SessionReaches .conn cfg p := ⟨es₁, hrun⟩
      obtain ⟨t, x, th, rfl, ht⟩ := eq_run_of_abortsForCaller hstep ha
      obtain ⟨hrole, howns⟩ := ownsPhase_iff_of_mayAbort hp (List.mem_of_getElem? ht)
        (mayAbort_of_step hp hstep ht ha)
      exact ⟨t, x, th, rfl, ht, hrole, howns.mpr fun ctx => hlate p t x q th ctx hof ht ha⟩
    · obtain ⟨es₁, es₂, -, -, hstep⟩ := hof
      have henv : (p.shared.env (.expire k cause)).map (Process.mk · p.threads) = some q := hstep
      obtain ⟨s', hs, rfl⟩ := Option.map_eq_some_iff.mp henv
      obtain ⟨_, _, _, rfl⟩ := Session.env_eq hs
      rfl
    · rintro p t x q th ⟨es₁, es₂, -, hrun, hstep⟩ ht hrole cause
      exact lifecycle_of_foundDone ⟨es₁, hrun⟩ hstep ht hrole
    · rintro p ⟨es₁, es₂, -, hrun⟩ th hth hrole cause
      exact returns_of_foundDone ⟨es₁, hrun⟩ hth hrole
    · rintro p ⟨es₁, es₂, -, hrun⟩ goal t₁ t₂ th₁ th₂
      exact movedTo_unique ⟨es₁, hrun⟩

/-- `CloseWrite` has asked for the close of the write half, the writer has closed it, `Shutdown` of
another caller waits for the end, and then the context of the first call ends. -/
def SProcess.lateExpiry : List (Event SLabel Choice SEnv) :=
  [.spawn (.closeWrite (some 0)), .run 3 {}, .run 3 {}, .run 3 {}, .run 3 {},
    .run 0 {}, .run 0 { pick := some 1 }, .run 0 {}, .run 0 { pick := some 2 }, .run 0 {},
    .run 0 {}, .run 0 {}, .run 0 {},
    .spawn (.shutdown (some 1)), .run 4 {}, .run 4 {}, .run 4 {}, .run 4 {}, .run 4 {},
    .run 4 { pick := some 0 }, .env (.expire 0 (.sentinel .canceled)), .run 3 { pick := some 2 }]

/-- The first call aborts the phase that the second one owns. -/
theorem lateExpiry_aborts_other : ∃ (p q : SProcess) (th th' : SThread),
    StepOf .small (SProcess.lateExpiry ++ [Event.run 3 ({} : Choice)]) p (.run 3 {}) q ∧
      p.threads[3]? = some th ∧ ¬ OwnsPhase p.shared th.log ∧
      p.threads[4]? = some th' ∧ OwnsPhase p.shared th'.log ∧ p.shared.cause 1 = none ∧
      AbortsForCaller p q ∧
        ¬ OwnedPhases .small (SProcess.lateExpiry ++ [Event.run 3 ({} : Choice)]) := by
  have hrun : ((sessionMachine .conn .small).run (SProcess.init .conn .small)
      SProcess.lateExpiry).map (fun p => (p.shared.why, p.shared.cause 1,
        p.threads.map fun th => decide (OwnsPhase p.shared th.log))) =
          some (.none, none, [false, false, false, false, true]) := by decide
  have hrun' : ((sessionMachine .conn .small).run (SProcess.init .conn .small)
      (SProcess.lateExpiry ++ [Event.run 3 ({} : Choice)])).map (fun p => p.shared.why) =
        some .caller := by
    decide
  obtain ⟨p, hp, hobs⟩ := Option.map_eq_some_iff.mp hrun
  obtain ⟨q, hq, hwhy'⟩ := Option.map_eq_some_iff.mp hrun'
  simp only [Prod.mk.injEq] at hobs
  obtain ⟨hwhy, hcause, howns⟩ := hobs
  have hown : ∀ t b, [false, false, false, false, true][t]? = some b → ∃ th : SThread,
      p.threads[t]? = some th ∧ decide (OwnsPhase p.shared th.log) = b := fun t b hb => by
    rw [← howns, List.getElem?_map] at hb
    exact Option.map_eq_some_iff.mp hb
  obtain ⟨th, hth, hno⟩ := hown 3 false rfl
  obtain ⟨th', hth', hyes⟩ := hown 4 true rfl
  obtain ⟨p', hp', hstep⟩ := Machine.run_append.mp hq
  cases hp.symm.trans hp'
  obtain ⟨_, hstep, hend⟩ := Option.bind_eq_some_iff.mp hstep
  cases hend
  have hof : StepOf .small (SProcess.lateExpiry ++ [Event.run 3 ({} : Choice)]) p (.run 3 {}) q :=
    ⟨SProcess.lateExpiry, [], rfl, hp, hstep⟩
  have ha : AbortsForCaller p q := ⟨by rw [hwhy]; exact nofun, hwhy'⟩
  refine ⟨p, q, th, th', hof, hth, of_decide_eq_false hno, hth', of_decide_eq_true hyes, hcause,
    ha, fun hO => ?_⟩
  obtain ⟨t, x, th₃, he, hth₃, -, howner⟩ := hO.abort p _ q hof ha
  cases he
  cases hth.symm.trans hth₃
  exact of_decide_eq_false hno howner

end Ogrenet
