import Ogrenet.Interleaving.Calls
import Ogrenet.Session.State

/-!
# The send gate on its own

`transport/gate.go`: senders enter the gate and leave it, and anybody may close it. Every method
holds `mu` from its first instruction to its last, so that a call is one step. Both `close` and the
last `leave` may be the one to close `drained`, and closing a channel a second time panics.

The sessions use `SendGate`, which cannot panic and whose count is a natural number. This file keeps
the `int` and the panic of the source, shows that the panic is out of reach, and that the sessions'
gate is the same gate.
-/

namespace Ogrenet

open Interleaving Interleaving.Prog

/-- The fields of `sendGate`, and whether the process has panicked. -/
structure GateState where
  closed : Bool := false
  active : ℤ := 0
  drained : Bool := false
  panicked : Bool := false
  deriving DecidableEq, Repr

namespace GateState

/-- `close(g.drained)`. -/
def closeDrained (g : GateState) : GateState :=
  if g.drained then { g with panicked := true } else { g with drained := true }

def enter (g : GateState) : GateState × Bool :=
  if g.closed then (g, false) else ({ g with active := g.active + 1 }, true)

def leave (g : GateState) : GateState :=
  if g.closed ∧ g.active - 1 = 0 then closeDrained { g with active := g.active - 1 }
  else { g with active := g.active - 1 }

def close (g : GateState) : GateState :=
  if g.closed then g
  else if g.active = 0 then closeDrained { g with closed := true }
  else { g with closed := true }

end GateState

/-- The calls on a gate. -/
inductive GInstr where
  | enter
  | leave
  | close
  deriving DecidableEq, Repr

def GInstr.Resp : GInstr → Type
  | .enter => Bool
  | .leave | .close => Unit

/-- A panic ends the process, so nothing runs after one. -/
def GateState.exec (g : GateState) : (i : GInstr) → Option (GateState × i.Resp)
  | .enter => if g.panicked then none else some g.enter
  | .leave => if g.panicked then none else some (g.leave, ())
  | .close => if g.panicked then none else some (g.close, ())

/-- Who calls the gate: a sender, which leaves if it has entered, or someone who closes it. -/
inductive GLabel where
  | sender
  | closer
  deriving DecidableEq, Repr

def GLabel.body : GLabel → Prog GInstr GInstr.Resp (Next GLabel Unit)
  | .sender => .op .enter fun
    | true => .op .leave fun _ => .done (.ret ())
    | false => .done (.ret ())
  | .closer => .op .close fun _ => .done (.ret ())

def gateMachine : Machine GInstr GInstr.Resp GLabel Unit GateState Unit Empty where
  body := GLabel.body
  exec g i _ := g.exec i
  spawn g _ := some g
  env _ e := e.elim

abbrev GProcess := Process GInstr GInstr.Resp GLabel Unit GateState

def GProcess.init : GProcess := ⟨{}, []⟩

/-! ### Who is inside -/

namespace Gate

/-- The goroutine has entered. -/
def entered (log : List (Sigma GInstr.Resp)) : Bool :=
  log.any fun
    | ⟨.enter, r⟩ => r
    | _ => false

def left (log : List (Sigma GInstr.Resp)) : Bool :=
  log.any fun
    | ⟨.leave, _⟩ => true
    | _ => false

/-- An entered sender that has not left. -/
def inside (c : Outline.Past GLabel GInstr.Resp) : ℕ := (entered c.2 && !left c.2).toNat

end Gate

open Gate

/-- The senders that have entered and not left. -/
def GProcess.senders (p : GProcess) : ℕ := total (fun th => inside (th.entry, th.log)) p.threads

/-- The calls of `enter` that have succeeded. -/
def GProcess.entries (p : GProcess) : ℕ := total (fun th => (entered th.log).toNat) p.threads

/-! ### The invariant -/

/-- A sender enters once, and leaves when it is inside. -/
def gateOutline : Outline GInstr GInstr.Resp GLabel Unit (Outline.Past GLabel GInstr.Resp) :=
  .past
    (fun
      | .enter, c => c.2 = []
      | .leave, c => entered c.2 = true ∧ left c.2 = false
      | .close, _ => True)
    (fun _ _ _ => True) (fun l c => c = (l, [])) fun _ _ => True

/-- The state of a gate that `n` senders are inside. -/
structure GateInv (g : GateState) (n : ℕ) : Prop where
  calm : g.panicked = false
  active : g.active = n
  drained : g.drained = true ↔ g.closed = true ∧ g.active = 0

namespace GateInv

variable {g : GateState} {n : ℕ}

/-- Nobody is inside a gate that is drained. -/
lemma not_drained (h : GateInv g (n + 1)) : g.drained = false := by
  apply Bool.eq_false_iff.mpr
  intro hd
  have hzero := (h.drained.mp hd).2
  rw [h.active] at hzero
  omega

lemma enter (h : GateInv g n) : GateInv g.enter.1 (n + g.enter.2.toNat) := by
  by_cases hclosed : g.closed = true
  · rw [show g.enter = (g, false) by simp [GateState.enter, hclosed]]
    exact h
  · rw [show g.enter = ({ g with active := g.active + 1 }, true) by
      simp [GateState.enter, hclosed]]
    have hdrained : g.drained ≠ true := fun hd => hclosed (h.drained.mp hd).1
    constructor
    · exact h.calm
    · simp [h.active]
    · simp [hclosed, hdrained]

lemma leave (h : GateInv g (n + 1)) : GateInv g.leave n := by
  have hactive := h.active
  have hdrained := h.not_drained
  by_cases hlast : g.closed = true ∧ g.active - 1 = 0
  · rw [show g.leave = { g with active := g.active - 1, drained := true } by
      simp [GateState.leave, GateState.closeDrained, hlast, hdrained]]
    constructor
    · exact h.calm
    · show g.active - 1 = n
      omega
    · simp [hlast.1, hlast.2]
  · rw [show g.leave = { g with active := g.active - 1 } by
      simp only [GateState.leave, hlast, if_false]]
    constructor
    · exact h.calm
    · show g.active - 1 = n
      omega
    · simpa [hdrained] using hlast

/-- A second `close` finds the gate closed, and a first one finds `drained` open. -/
lemma close (h : GateInv g n) : GateInv g.close n := by
  by_cases hclosed : g.closed = true
  · rw [show g.close = g by simp [GateState.close, hclosed]]
    exact h
  · have hdrained : g.drained ≠ true := fun hd => hclosed (h.drained.mp hd).1
    by_cases hzero : g.active = 0
    · rw [show g.close = { g with closed := true, drained := true } by
        simp [GateState.close, GateState.closeDrained, hclosed, hzero, hdrained]]
      constructor
      · exact h.calm
      · exact h.active
      · simp [hzero]
    · rw [show g.close = { g with closed := true } by simp [GateState.close, hclosed, hzero]]
      constructor
      · exact h.calm
      · exact h.active
      · simp [hzero, hdrained]

end GateInv

lemma gate_exec {g g' : GateState} {cs : List (Outline.Past GLabel GInstr.Resp)} {t : ℕ}
    {c : Outline.Past GLabel GInstr.Resp} {i : GInstr} {r : i.Resp}
    (h : GateInv g (total inside cs)) (ht : cs[t]? = some c) (hreq : gateOutline.req i c)
    (hx : g.exec i = some (g', r)) :
    GateInv g' (total inside (cs.set t (gateOutline.upd i r c))) := by
  have hset := total_set (f := inside) (gateOutline.upd i r c) ht
  cases i with
  | enter =>
    obtain ⟨-, hx⟩ := Option.ite_none_left_eq_some.mp hx
    obtain ⟨rfl, rfl⟩ : g.enter.1 = g' ∧ g.enter.2 = r := Prod.ext_iff.mp (Option.some.inj hx)
    have hempty : c.2 = [] := hreq
    have hc : inside c = 0 := by simp [inside, entered, hempty]
    have hc' : inside (gateOutline.upd .enter g.enter.2 c) = g.enter.2.toNat := by
      simp [inside, entered, left, gateOutline, Outline.past, hempty]
    rw [show total inside (cs.set t _) = total inside cs + g.enter.2.toNat by omega]
    exact h.enter
  | leave =>
    obtain ⟨-, hx⟩ := Option.ite_none_left_eq_some.mp hx
    cases hx
    obtain ⟨hent, hleft⟩ : entered c.2 = true ∧ left c.2 = false := hreq
    have hc : inside c = 1 := by simp [inside, hent, hleft]
    have hc' : inside (gateOutline.upd .leave () c) = 0 := by
      simp [inside, left, gateOutline, Outline.past]
    apply GateInv.leave
    rw [show total inside (cs.set t _) + 1 = total inside cs by omega]
    exact h
  | close =>
    obtain ⟨-, hx⟩ := Option.ite_none_left_eq_some.mp hx
    cases hx
    have hc' : inside (gateOutline.upd .close () c) = inside c := by
      simp [inside, entered, left, gateOutline, Outline.past]
    rw [show total inside (cs.set t _) = total inside cs by omega]
    exact h.close

lemma gate_body (l₀ l : GLabel) : gateOutline.wp l.body (gateOutline.ends l₀) (l, []) := by
  cases l with
  | sender =>
    refine ⟨rfl, ?_⟩
    intro r _
    cases r with
    | true =>
      refine ⟨⟨rfl, rfl⟩, ?_⟩
      intro _ _
      trivial
    | false => trivial
  | closer => exact ⟨trivial, fun _ _ => trivial⟩

lemma gate_sound : Outline.Sound gateMachine gateOutline
    (fun g cs => GateInv g (total inside cs)) fun _ _ => True where
  body l₀ l c hc := by
    cases hc
    exact gate_body l₀ l
  exec _ _ _ _ _ _ _ _ _ ht _ hG hreq hx :=
    ⟨trivial, gate_exec hG (Outline.ctxs_getElem? ht) hreq hx⟩
  spawn _ l _ _ hG hs := by
    cases hs
    refine ⟨rfl, ?_⟩
    rw [total_append, total_cons, total_nil]
    exact hG
  env _ e _ _ _ _ := e.elim

lemma gate_reaches {p : GProcess} (h : gateMachine.Reaches GProcess.init p) :
    gateOutline.Holds (fun g cs => GateInv g (total inside cs)) p := by
  refine gate_sound.reaches ⟨?_, fun _ hth => absurd hth List.not_mem_nil⟩ h
  constructor
  · rfl
  · rfl
  · decide

lemma GProcess.inv {p : GProcess} (h : gateMachine.Reaches GProcess.init p) :
    GateInv p.shared p.senders := by
  have hinv := (gate_reaches h).shared
  rw [gateOutline, Outline.past_ctxs, total_map] at hinv
  exact hinv

/-! ### A drained gate -/

lemma GateState.drained_leave {g : GateState} (h : g.drained = true) : g.leave.drained = true := by
  simp only [leave, closeDrained]
  split
  · exact h
  · exact h

lemma GateState.drained_close {g : GateState} (h : g.drained = true) : g.close.drained = true := by
  simp only [close, closeDrained]
  split
  · exact h
  · split
    · exact h
    · exact h

/-- A call on a gate that is drained leaves it drained, and is not an `enter` that succeeds. -/
lemma GateState.exec_drained {g g' : GateState} {i : GInstr} {r : i.Resp} {n : ℕ}
    (h : GateInv g n) (hd : g.drained = true) (hx : g.exec i = some (g', r))
    (log : List (Sigma GInstr.Resp)) :
    g'.drained = true ∧ entered (⟨i, r⟩ :: log) = entered log := by
  cases i with
  | enter =>
    obtain ⟨-, hx⟩ := Option.ite_none_left_eq_some.mp hx
    have hclosed := (h.drained.mp hd).1
    rw [show g.enter = (g, false) by simp [enter, hclosed]] at hx
    cases hx
    exact ⟨hd, rfl⟩
  | leave =>
    obtain ⟨-, hx⟩ := Option.ite_none_left_eq_some.mp hx
    cases hx
    exact ⟨drained_leave hd, rfl⟩
  | close =>
    obtain ⟨-, hx⟩ := Option.ite_none_left_eq_some.mp hx
    cases hx
    exact ⟨drained_close hd, rfl⟩

lemma GProcess.step_drained {p q : GProcess} {e : Event GLabel Unit Empty}
    (hp : gateMachine.Reaches GProcess.init p) (hd : p.shared.drained = true)
    (h : gateMachine.step p e = some q) : q.shared.drained = true ∧ q.entries = p.entries := by
  obtain ⟨t, x, l, i, k, log, s', r, rfl, ht, hx, rfl⟩ | ⟨t, x, l, l', log, rfl, ht, rfl⟩ |
    ⟨l, s', rfl, hs, rfl⟩ | ⟨x, -, -, -, -⟩ := Machine.step_cases h
  · obtain ⟨hd', hent⟩ := GateState.exec_drained (GProcess.inv hp) hd hx log
    exact ⟨hd', total_set_eq ht (congrArg Bool.toNat hent)⟩
  · exact ⟨hd, total_set_eq ht rfl⟩
  · cases hs
    refine ⟨hd, ?_⟩
    simp [entries, entered]
  · exact x.elim

/-- Once `drained` is closed it stays so, and no `enter` succeeds. -/
lemma GProcess.run_drained {p q : GProcess} (hp : gateMachine.Reaches GProcess.init p)
    (hd : p.shared.drained = true) (h : gateMachine.Reaches p q) :
    q.shared.drained = true ∧ q.entries = p.entries := by
  have hall : gateMachine.Reaches GProcess.init q ∧ q.shared.drained = true ∧
      q.entries = p.entries := by
    refine Machine.reaches_induction (P := fun q : GProcess => gateMachine.Reaches GProcess.init q ∧
      q.shared.drained = true ∧ q.entries = p.entries) ?_ ⟨hp, hd, rfl⟩ h
    intro p₁ e p₂ ⟨hp₁, hd₁, hent₁⟩ hstep
    obtain ⟨hd₂, hent₂⟩ := GProcess.step_drained hp₁ hd₁ hstep
    exact ⟨hp₁.tail hstep, hd₂, hent₂.trans hent₁⟩
  exact hall.2

/-- In every run the count is the number of senders inside, `drained` is closed when the gate is
closed and empty, without a panic, and a drained gate lets nobody in. -/
theorem sendGate_quiesces (es es' : List (Event GLabel Unit Empty)) (p q : GProcess)
    (hp : gateMachine.run GProcess.init es = some p) (hq : gateMachine.run p es' = some q) :
    p.shared.panicked = false ∧ p.shared.active = p.senders ∧
      (p.shared.drained = true ↔ p.shared.closed = true ∧ p.shared.active = 0) ∧
        (p.shared.drained = true → q.shared.drained = true ∧ q.entries = p.entries) := by
  have hinv := GProcess.inv ⟨es, hp⟩
  refine ⟨hinv.calm, hinv.active, hinv.drained, ?_⟩
  intro hd
  exact GProcess.run_drained ⟨es, hp⟩ hd ⟨es', hq⟩

/-- The gate is closed while a sender is inside, and that sender is the last to leave. -/
def GProcess.lastLeaves : List (Event GLabel Unit Empty) :=
  [.spawn .sender, .spawn .closer, .run 0 (), .run 1 (), .run 0 ()]

theorem sendGate_quiesces_lastLeaves : ∃ p q : GProcess,
    gateMachine.run GProcess.init GProcess.lastLeaves = some p ∧
      gateMachine.run p [.spawn .sender, .run 2 ()] = some q ∧
        p.shared.drained = true ∧ q.entries = p.entries := by
  have hp : (gateMachine.run GProcess.init GProcess.lastLeaves).map (fun p => p.shared.drained) =
      some true := by decide
  obtain ⟨p, hp, hd⟩ := Option.map_eq_some_iff.mp hp
  have hq : (gateMachine.run GProcess.init (GProcess.lastLeaves ++
      [Event.spawn GLabel.sender, Event.run 2 ()])).isSome = true := by decide
  obtain ⟨q, hq⟩ := Option.isSome_iff_exists.mp hq
  obtain ⟨p', hp', hq⟩ := Machine.run_append.mp hq
  cases hp.symm.trans hp'
  exact ⟨p, q, hp, hq, hd, ((sendGate_quiesces _ _ p q hp hq).2.2.2 hd).2⟩

/-! ### The gate of the sessions -/

/-- The gate as the sessions see it. -/
def GateState.view (g : GateState) : SendGate :=
  { closed := g.closed, active := g.active.toNat, drained := g.drained }

def SendGate.exec (g : SendGate) : (i : GInstr) → SendGate × i.Resp
  | .enter => g.enter
  | .leave => (g.leave, ())
  | .close => (g.close, ())

section View

variable {g : GateState} {n : ℕ}

lemma GateState.view_enter (h : GateInv g n) : g.view.enter = (g.enter.1.view, g.enter.2) := by
  have hactive := h.active
  by_cases hclosed : g.closed = true
  · simp [SendGate.enter, enter, view, hclosed]
  · simp only [SendGate.enter, enter, view, hclosed, Bool.false_eq_true, if_false, Prod.mk.injEq,
      SendGate.mk.injEq, true_and, and_true]
    omega

lemma GateState.view_leave (h : GateInv g (n + 1)) : g.view.leave = g.leave.view := by
  have hactive := h.active
  have hdrained := h.not_drained
  by_cases hlast : g.closed = true ∧ g.active - 1 = 0
  · simp [SendGate.leave, leave, closeDrained, view, hlast, hdrained]
    omega
  · simp [SendGate.leave, leave, view, hlast, hdrained]
    intro hclosed hzero
    apply hlast
    exact ⟨hclosed, by omega⟩

lemma GateState.view_close (h : GateInv g n) : g.view.close = g.close.view := by
  have hactive := h.active
  by_cases hclosed : g.closed = true
  · simp [SendGate.close, close, view, hclosed]
  · have hdrained : g.drained ≠ true := fun hd => hclosed (h.drained.mp hd).1
    by_cases hzero : g.active = 0
    · simp [SendGate.close, close, closeDrained, view, hclosed, hdrained, hzero]
    · simp [SendGate.close, close, view, hclosed, hdrained, hzero]
      omega

end View

/-- Whatever a gate can do in a run, the gate of the sessions does. -/
theorem sendGate_simulates {p : GProcess} (hp : gateMachine.Reaches GProcess.init p) {t : ℕ}
    {l : GLabel} {i : GInstr} {k : i.Resp → Prog GInstr GInstr.Resp (Next GLabel Unit)}
    {log : List (Sigma GInstr.Resp)} (ht : p.threads[t]? = some ⟨l, .op i k, log⟩)
    {g : GateState} {r : i.Resp} (hx : p.shared.exec i = some (g, r)) :
    p.shared.view.exec i = (g.view, r) := by
  have hinv := GProcess.inv hp
  have hreq := ((gate_reaches hp).threads _ (List.mem_of_getElem? ht)).1
  rw [gateOutline, Outline.past_ctx] at hreq
  cases i with
  | enter =>
    obtain ⟨-, hx⟩ := Option.ite_none_left_eq_some.mp hx
    obtain ⟨rfl, rfl⟩ := Prod.ext_iff.mp (Option.some.inj hx)
    exact GateState.view_enter hinv
  | leave =>
    obtain ⟨-, hx⟩ := Option.ite_none_left_eq_some.mp hx
    cases hx
    obtain ⟨hent, hleft⟩ : entered log = true ∧ left log = false := hreq
    have hpos : inside (l, log) ≤ p.senders :=
      le_total_of_getElem? (f := fun th => inside (th.entry, th.log)) ht
    have hone : inside (l, log) = 1 := by simp [inside, hent, hleft]
    obtain ⟨n, hn⟩ : ∃ n, p.senders = n + 1 := ⟨p.senders - 1, by omega⟩
    rw [hn] at hinv
    exact congrArg (·, ()) (GateState.view_leave hinv)
  | close =>
    obtain ⟨-, hx⟩ := Option.ite_none_left_eq_some.mp hx
    cases hx
    exact congrArg (·, ()) (GateState.view_close hinv)

/-- The last sender inside a closed gate is about to leave. -/
def GProcess.leaving : GProcess :=
  ⟨{ closed := true, active := 1 },
    [⟨.sender, .op .leave fun _ => .done (.ret ()), [⟨.enter, true⟩]⟩,
      ⟨.closer, .done (.ret ()), [⟨.close, ()⟩]⟩]⟩

theorem sendGate_simulates_leaving :
    gateMachine.run GProcess.init (GProcess.lastLeaves.take 4) = some GProcess.leaving ∧
      GProcess.leaving.shared.view.exec .leave =
        ({ closed := true, active := 0, drained := true }, ()) :=
  ⟨rfl, sendGate_simulates ⟨GProcess.lastLeaves.take 4, rfl⟩ (t := 0) rfl rfl⟩

end Ogrenet
