import Ogrenet.Engine.Handover

/-!
# Sessions are done before they are released

`finalize` of a `conn`, a `wsSession` and a `packetConn` closes the session's `done` channel and
only then has the engine remove the session, which releases its lease. Whoever sees `done` closed
may still find the connection counted.
-/

namespace Ogrenet

open Interleaving Interleaving.Prog

/-- A session whose `done` is closed is no longer counted: its lease is released. -/
def EProcess.DoneReleased (p : EProcess) : Prop :=
  ∀ s ∈ p.shared.sessions, s.done = true → p.shared.adm.stateOf s.admitted = some .released

/-- The step closes the `done` channel of a session. -/
def EProcess.ClosesDone (p : EProcess) (ev : EEvent) : Prop :=
  ∃ t x th k s f, ev = .run t x ∧ p.threads[t]? = some th ∧
    th.prog = .op (.closeSessionDone k) f ∧ p.shared.sessions[k]? = some s ∧ s.done = false

/-- Only the steps that close a `done` channel make a session done. -/
lemma undone_step {cfg : EngineConfig} {p q : EProcess} {ev : EEvent}
    (hp : ∀ s ∈ p.shared.sessions, s.done = false) (hev : ¬ p.ClosesDone ev)
    (h : (engineMachine cfg).step p ev = some q) : ∀ s ∈ q.shared.sessions, s.done = false := by
  obtain ⟨t, x, l, i, k, log, e', r, rfl, ht, hx, rfl⟩ | ⟨t, x, l, l', log, rfl, ht, rfl⟩ |
    ⟨l, e', rfl, hs, rfl⟩ | ⟨x, e', rfl, hs, rfl⟩ := (engineMachine cfg).step_cases h
  · cases Engine.exec_sessions hx with
    | same hs =>
      show ∀ s ∈ e'.sessions, s.done = false
      rwa [hs]
    | track kind lease n hs =>
      show ∀ s ∈ e'.sessions, s.done = false
      rw [hs]
      intro s hmem
      rcases List.mem_append.mp hmem with hmem | hmem
      · exact hp s hmem
      · cases List.mem_singleton.mp hmem
        rfl
    | untrack n s₀ hs₀ hs =>
      show ∀ s ∈ e'.sessions, s.done = false
      rw [hs]
      exact forall_mem_set hp (hp s₀ (List.mem_of_getElem? hs₀))
    | finish n s₀ hs₀ hdone hs => exact absurd ⟨t, x, _, n, s₀, k, rfl, ht, rfl, hs₀, hdone⟩ hev
  · exact hp
  · obtain ⟨pending, rfl⟩ := Engine.spawn_eq hs
    exact hp
  · exact x.elim

/-- The step that closes `done` can be made, and the lease of the session is not released. -/
lemma EProcess.ClosesDone.step (cfg : EngineConfig) {p : EProcess} {ev : EEvent}
    (hp : engineOutline.Holds Custodial p) (h : p.ClosesDone ev) :
    ∃ q : EProcess, (engineMachine cfg).step p ev = some q ∧ ¬ q.DoneReleased := by
  obtain ⟨t, x, ⟨l, prog, log⟩, k, s, f, rfl, ht, rfl, hs, hdone⟩ := h
  have hO := hp.shared.owned
  have hmem := List.mem_of_getElem? hs
  have hx : p.shared.exec x (.closeSessionDone k) =
      some (p.shared.setSession k { s with done := true }, ()) := by
    simp [Engine.exec, hs, hdone]
  refine ⟨⟨p.shared.setSession k { s with done := true }, _⟩,
    by simp only [Machine.step, ht, engineMachine, hx]; rfl, fun hrel => ?_⟩
  have hreleased := hrel { s with done := true }
    (List.mem_set (List.getElem?_eq_some_iff.mp hs).1 _) rfl
  rcases (hO.mapped s hmem s.admitted (hO.undone s hmem hdone)).2 with hst | hst <;>
    · rw [show p.shared.adm.stateOf s.admitted = _ from hreleased] at hst
      cases hst

/-- Along every run, a closed `done` means in every state that the session's lease is released
exactly when no session closes its `done` at all. -/
theorem doneReleased_iff_not_closesDone (cfg : EngineConfig) (es : List EEvent) :
    (∀ es₁ es₂ q, es = es₁ ++ es₂ →
        (engineMachine cfg).run (EProcess.init cfg) es₁ = some q → EProcess.DoneReleased q) ↔
      ∀ es₁ ev es₂ q, es = es₁ ++ ev :: es₂ →
        (engineMachine cfg).run (EProcess.init cfg) es₁ = some q → ¬ EProcess.ClosesDone q ev := by
  constructor
  · intro h es₁ ev es₂ q hes hq hcloses
    obtain ⟨q', hstep, hnot⟩ := hcloses.step cfg (engine_holds ⟨es₁, hq⟩)
    refine hnot (h (es₁ ++ [ev]) es₂ q' (by simp [hes]) ?_)
    simp [Machine.run_append, hq, Machine.run, hstep]
  · intro h es₁ es₂ q hes hq s hs hdone
    have hundone := Machine.run_induction (P := fun p : EProcess =>
      ∀ s ∈ p.shared.sessions, s.done = false) (fun p ev => ¬ EProcess.ClosesDone p ev)
      (fun _ _ _ hp hev hstep => undone_step hp hev hstep) (by simp [EProcess.init, Engine.init]) hq
      (fun es₃ ev es₄ q' hes' hq' => h es₃ ev (es₄ ++ es₂) q' (by simp [hes, hes']) hq')
    rw [hundone s hs] at hdone
    cases hdone

/-- At most one connection at a time. -/
def EngineConfig.single : EngineConfig := { limits := { maxConnections := 1 } }

/-- A connection is dialled and ends; once its `done` is closed, another one is dialled. -/
def EProcess.redialled : List EEvent := List.flatten [
    .spawn (.dial false .tcp) :: List.replicate 19 (.run 0 {}),
    .spawn (.finalizer 0) :: .run 1 {} :: .spawn (.dial false .tcp) ::
      List.replicate 11 (.run 2 {})]

/-- Whether the last goroutine has returned an error that wraps a sentinel. -/
def EProcess.failedWith (sentinel : Sentinel) (p : EProcess) : Bool :=
  (p.threads.getLast?).any fun t => match t.prog with
    | .done (.ret (.made (.error err))) => err.is sentinel
    | _ => false

/-- The session is done and still counted, and the second dial is rejected because of it. -/
theorem done_not_released : ∃ p : EProcess,
    (engineMachine .single).run (EProcess.init .single) EProcess.redialled = some p ∧
      p.shared.sessions.map SessionEntry.done = [true] ∧
      p.shared.adm.stateOf 0 = some .active ∧ p.shared.adm.ctl.active = 1 ∧
      EProcess.failedWith .resourceExhausted p = true ∧ ¬ EProcess.DoneReleased p := by
  have hrun : (((engineMachine .single).run (EProcess.init .single) EProcess.redialled).map fun p =>
      (p.shared.sessions, p.shared.adm.stateOf 0, p.shared.adm.ctl.active,
        EProcess.failedWith .resourceExhausted p)) =
      some ([⟨.conn, 0, true, some 0, true⟩], some .active, 1, true) := by
    decide
  obtain ⟨p, hp, hobs⟩ := Option.map_eq_some_iff.mp hrun
  simp only [Prod.mk.injEq] at hobs
  obtain ⟨hsessions, hstate, hactive, hfailed⟩ := hobs
  refine ⟨p, hp, by rw [hsessions]; rfl, hstate, hactive, hfailed, fun h => ?_⟩
  have hrel := h ⟨.conn, 0, true, some 0, true⟩ (by simp [hsessions]) rfl
  rw [hstate] at hrel
  cases hrel

end Ogrenet
