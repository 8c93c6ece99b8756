import Ogrenet.Session.Machine

/-!
# What the steps of a session write

One lemma says for each step of a session what it does to the lifecycle, to the error, to the write
state, to the loops and to the connection. The invariants of the developments that follow are read
off from it.
-/

namespace Ogrenet

open Interleaving

namespace SInstr

def goalAfter : (i : SInstr) → i.Resp → CloseGoal → CloseGoal
  | .request goal, (true, _), _ => goal
  | .abortSection _ _, true, _ => .abort
  | _, _, goal => goal

def whyAfter : (i : SInstr) → i.Resp → AbortReason → AbortReason
  | .abortSection why _, true, _ => why
  | _, _, why => why

def terminalAfter : (i : SInstr) → i.Resp → Bool → Bool
  | .tryTerminal, true, _ | .setTerminal, _, _ => true
  | _, _, terminal => terminal

def errAfter : (i : SInstr) → i.Resp → Option Err → Option Err
  | .abortSection _ publish, true, e => publish.getD e
  | .setErr e, _, _ => some e
  | _, _, e => e

def closedAfter : SInstr → (Signal → Bool) → Signal → Bool
  | .signal ch, closed => Function.update closed ch true
  | _, closed => closed

def writeStateAfter : (i : SInstr) → i.Resp → WSWriteState → WSWriteState
  | .writeBegin, _, _ => { active := true }
  | .writeEnd, _, _ => {}
  | .deferRead e, true, w => { w with pendingRead := some (w.pendingRead.getD e) }
  | _, _, w => w

def loopsAfter : SInstr → ℕ → ℕ
  | .loopDone, n => n - 1
  | _, n => n

/-- What the step puts on the connection. -/
def output : (i : SInstr) → i.Resp → List Output
  | .rawWrite p, (n, _) => [.bytes (p.take n)]
  | .rawCloseWrite, _ => [.closeWrite]
  | .wsWrite req, none | .packetWrite req, none => [.message req]
  | .wsClose, _ => [.closeFrame]
  | _, _ => []

/-- What the step records of the write of a request. -/
def recorded : SInstr → List Bool
  | .wrote ok => [ok]
  | _ => []

end SInstr

/-- What a step has written. -/
structure Session.Writes (s : Session) (i : SInstr) (r : i.Resp) (s' : Session) : Prop where
  goal : s'.goal = i.goalAfter r s.goal
  why : s'.why = i.whyAfter r s.why
  terminal : s'.terminal = i.terminalAfter r s.terminal
  err : s'.err = i.errAfter r s.err
  closed : s'.closed = i.closedAfter s.closed
  writeState : s'.writeState = i.writeStateAfter r s.writeState
  loops : s'.loops = i.loopsAfter s.loops
  /-- Only the environment ends contexts. -/
  expired : s'.expired = s.expired
  out : s'.out = s.out ++ i.output r
  results : s'.results = s.results ++ i.recorded

namespace Session

variable {cfg : SessionConfig} {s s' : Session} {x : Choice}

/-- A `select` writes nothing of all this. -/
lemma fire_writes {cse : Case} {r : Fired} (h : s.fire cfg x cse = some (s', r))
    (cases : List Case) (dflt : Bool) : s.Writes (.select cases dflt) r s' := by
  have hsame : s.Writes (.select cases dflt) r s :=
    ⟨rfl, rfl, rfl, rfl, rfl, rfl, rfl, rfl, (List.append_nil _).symm, (List.append_nil _).symm⟩
  cases cse with
  | ctxDone k =>
    obtain ⟨e, -, h⟩ := Option.map_eq_some_iff.mp h
    cases h
    exact hsame
  | timer =>
    cases h
    exact hsame
  | pop | ack i =>
    simp only [fire] at h
    split at h <;> cases h
    exact ⟨rfl, rfl, rfl, rfl, rfl, rfl, rfl, rfl, hsame.out, hsame.results⟩
  | closed ch | drained | slot | push req =>
    obtain ⟨-, h⟩ := Option.ite_none_right_eq_some.mp h
    cases h
    exact ⟨rfl, rfl, rfl, rfl, rfl, rfl, rfl, rfl, hsame.out, hsame.results⟩
  | encoder | changedLocal g | changedGlobal g =>
    obtain ⟨-, h⟩ := Option.ite_none_left_eq_some.mp h
    cases h
    exact ⟨rfl, rfl, rfl, rfl, rfl, rfl, rfl, rfl, hsame.out, hsame.results⟩

lemma exec_writes {i : SInstr} {r : i.Resp} (h : s.exec cfg x i = some (s', r)) :
    s.Writes i r s' := by
  have hout : s.out = s.out ++ [] := (List.append_nil _).symm
  have hres : s.results = s.results ++ [] := (List.append_nil _).symm
  cases i with
  | select cases dflt =>
    obtain ⟨c, -, h⟩ | ⟨-, rfl, rfl, -⟩ := select_cases h
    · exact fire_writes h cases dflt
    · exact ⟨rfl, rfl, rfl, rfl, rfl, rfl, rfl, rfl, hout, hres⟩
  | releaseSlot =>
    obtain ⟨-, h⟩ := Option.ite_none_left_eq_some.mp h
    cases h
    exact ⟨rfl, rfl, rfl, rfl, rfl, rfl, rfl, rfl, hout, hres⟩
  | releaseEncoder | waitLoops =>
    obtain ⟨-, h⟩ := Option.ite_none_right_eq_some.mp h
    cases h
    exact ⟨rfl, rfl, rfl, rfl, rfl, rfl, rfl, rfl, hout, hres⟩
  | encode msg | globalRelease n | onceEnter o | decodeOne src | wsRead | wsDecode text payload
  | ack i v | request goal | abortSection reason publish | tryTerminal =>
    simp only [exec] at h
    split at h <;> cases h <;> exact ⟨rfl, rfl, rfl, rfl, rfl, rfl, rfl, rfl, hout, hres⟩
  | wsWrite req | packetWrite req =>
    simp only [exec] at h
    split at h <;> cases h
    · exact ⟨rfl, rfl, rfl, rfl, rfl, rfl, rfl, rfl, hout, hres⟩
    · exact ⟨rfl, rfl, rfl, rfl, rfl, rfl, rfl, rfl, rfl, hres⟩
  | deferRead e =>
    simp only [exec] at h
    split at h <;> cases h <;> exact ⟨rfl, rfl, rfl, rfl, rfl, rfl, rfl, rfl, hout, hres⟩
  | rawWrite p =>
    cases h
    refine ⟨rfl, rfl, rfl, rfl, rfl, rfl, rfl, rfl, ?_, hres⟩
    show s.out ++ [Output.bytes (p.take x.n)] = s.out ++ [Output.bytes (p.take (min x.n p.length))]
    rw [← List.take_eq_take_min]
  | rawCloseWrite | wsClose =>
    cases h
    exact ⟨rfl, rfl, rfl, rfl, rfl, rfl, rfl, rfl, rfl, hres⟩
  | wrote ok =>
    cases h
    exact ⟨rfl, rfl, rfl, rfl, rfl, rfl, rfl, rfl, hout, rfl⟩
  | _ =>
    cases h
    exact ⟨rfl, rfl, rfl, rfl, rfl, rfl, rfl, rfl, hout, hres⟩

/-- A channel that is closed stays closed. -/
lemma Writes.closed_mono {i : SInstr} {r : i.Resp} (hw : s.Writes i r s') {ch : Signal}
    (h : s.closed ch = true) : s'.closed ch = true := by
  rw [hw.closed]
  cases i with
  | signal ch' =>
    by_cases hch : ch = ch'
    · simp [SInstr.closedAfter, hch]
    · simpa [SInstr.closedAfter, Function.update_of_ne hch] using h
  | _ => exact h

lemma Writes.closed_cases {i : SInstr} {r : i.Resp} (hw : s.Writes i r s') {ch : Signal}
    (h : s'.closed ch = true) : s.closed ch = true ∨ i = .signal ch := by
  rw [hw.closed] at h
  cases i with
  | signal ch' =>
    by_cases hch : ch = ch'
    · exact .inr (hch ▸ rfl)
    · exact .inl (by simpa [SInstr.closedAfter, Function.update_of_ne hch] using h)
  | _ => exact .inl h

/-! ### What the answers of the lifecycle tell -/

/-- A request is answered with the goal so far, and it wins when its own goal is further. -/
lemma exec_request {goal : CloseGoal} {r : Bool × CloseGoal}
    (h : s.exec cfg x (.request goal) = some (s', r)) :
    r.2 = s.goal ∧ (r.1 = true → s.terminal = false ∧ s.goal.rank < goal.rank) := by
  simp only [exec] at h
  split at h <;> rename_i hover <;> cases h
  · exact ⟨rfl, nofun⟩
  · simp only [Bool.or_eq_true, decide_eq_true_eq, not_or, Bool.not_eq_true, Nat.not_le] at hover
    exact ⟨rfl, fun _ => hover⟩

/-- The test with which `abortWith` and `tryMarkTerminal` begin. -/
lemma over_iff (s : Session) : ¬ (s.terminal || s.goal == .abort) = true ↔
    s.terminal = false ∧ s.goal ≠ .abort := by
  simp only [Bool.or_eq_true, beq_iff_eq, not_or, Bool.not_eq_true, ne_eq]

/-- An abort wins exactly when the session has neither been aborted nor finished. -/
lemma exec_abortSection {reason : AbortReason} {publish : Option (Option Err)} {won : Bool}
    (h : s.exec cfg x (.abortSection reason publish) = some (s', won)) :
    won = true ↔ s.terminal = false ∧ s.goal ≠ .abort := by
  rw [← over_iff]
  simp only [exec] at h
  split at h <;> rename_i hover <;> cases h
  · exact iff_of_false nofun (absurd hover)
  · exact iff_of_true rfl hover

end Session

/-- A channel that is closed stays closed in every run. -/
lemma closed_reaches {kind : SessionKind} {cfg : SessionConfig} {p q : SProcess}
    (h : (sessionMachine kind cfg).Reaches p q) {ch : Signal} (hch : p.shared.closed ch = true) :
    q.shared.closed ch = true := by
  refine Machine.reaches_induction (P := fun p : SProcess => p.shared.closed ch = true)
    (fun p ev q hp hstep => ?_) hch h
  obtain ⟨t, x, l, i, k, log, s', r, rfl, -, hx, rfl⟩ | ⟨t, x, l, l', log, rfl, -, rfl⟩ |
    ⟨l, s', rfl, hs, rfl⟩ | ⟨x, s', rfl, hs, rfl⟩ := Machine.step_cases hstep
  · exact (Session.exec_writes hx).closed_mono hp
  · exact hp
  · obtain ⟨_, rfl⟩ := SessionKind.spawn_eq hs
    exact hp
  · obtain ⟨_, _, _, rfl⟩ := Session.env_eq hs
    exact hp

/-- The cause of a context never changes. -/
lemma cause_reaches {kind : SessionKind} {cfg : SessionConfig} {p q : SProcess}
    (h : (sessionMachine kind cfg).Reaches p q) {k : ℕ} {e : Err}
    (hk : p.shared.cause k = some e) : q.shared.cause k = some e := by
  refine Machine.reaches_induction (P := fun p : SProcess => p.shared.cause k = some e)
    (fun p ev q hp hstep => ?_) hk h
  obtain ⟨t, x, l, i, k', log, s', r, rfl, -, hx, rfl⟩ | ⟨t, x, l, l', log, rfl, -, rfl⟩ |
    ⟨l, s', rfl, hs, rfl⟩ | ⟨x, s', rfl, hs, rfl⟩ := Machine.step_cases hstep
  · simpa only [Session.cause, (Session.exec_writes hx).expired] using hp
  · exact hp
  · obtain ⟨_, rfl⟩ := SessionKind.spawn_eq hs
    exact hp
  · exact Session.env_cause hs hp

end Ogrenet
