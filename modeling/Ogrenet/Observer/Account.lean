import Mathlib.Data.List.Perm.Basic
import Ogrenet.Interleaving.Calls
import Ogrenet.Interleaving.Refusal
import Ogrenet.Observer.Dispatcher

/-!
# Every event is accounted for

An event that `emit` accepts has been observed once, in the order of acceptance, or is still in the
queue or in the hand of the dispatcher. One that it refuses is counted. A panic of the observer does
not end the dispatcher, a second `stop` does no harm, and `emit` never waits.
-/

namespace Ogrenet.Observer

open Interleaving Interleaving.Prog

variable {α : Type}

/-! ### What a goroutine still has to do -/

/-- Where a goroutine is between the instructions that belong together. -/
inductive Duty where
  | idle
  /-- Its event is in the queue. -/
  | sent
  /-- Its event was refused, and `dropped` does not count it yet. -/
  | drop
  /-- It has taken an event that is not observed yet. -/
  | observe
  /-- The observer panicked, and `panics` does not count it yet. -/
  | panic
  | close
  | exit
  /-- It has seen `stopCh` closed. -/
  | ended
  deriving DecidableEq, Repr

/-- Where a goroutine was started, its duty and the event it has taken. -/
structure Desk (α : Type) where
  label : OLabel α
  duty : Duty := .idle
  held : Option α := none

def Desk.upd : (i : OInstr α) → i.Resp → Desk α → Desk α
  | .offer _, true, c => { c with duty := .sent }
  | .offer _, false, c => { c with duty := .drop }
  | .select, .event e, c => { c with duty := .observe, held := some e }
  | .select, .stopped, c => { c with duty := .ended }
  | .observe _, true, c => { c with duty := .panic, held := none }
  | .observe _, false, c => { c with duty := .idle, held := none }
  | .onceEnter, true, c => { c with duty := .close }
  | .closeStop, _, c => { c with duty := .exit }
  | .addDropped, _, c | .addPanics, _, c | .onceExit, _, c => { c with duty := .idle }
  | .onceEnter, false, c | .loadStopped, _, c | .storeStopped, _, c => c

/-- Which goroutine makes an instruction, and with which duty. -/
def Desk.req : OInstr α → Desk α → Prop
  | .loadStopped, c => (∃ e, c.label = .emit e) ∧ c.duty = .idle
  | .offer e, c => c.label = .emit e ∧ c.duty = .idle
  | .addDropped, c => (∃ e, c.label = .emit e) ∧ c.duty = .drop
  | .storeStopped, c => c.label = .stop ∧ c.duty = .idle
  | .onceEnter, c => c.label = .stop ∧ c.duty = .idle
  | .closeStop, c => c.label = .stop ∧ c.duty = .close
  | .onceExit, c => c.label = .stop ∧ c.duty = .exit
  | .select, c => c = ⟨.run, .idle, none⟩
  | .observe e, c => c = ⟨.run, .observe, some e⟩
  | .addPanics, c => c = ⟨.run, .panic, none⟩

/-- A call of `emit` returns whether its event is in the queue, and `run` returns when it has seen
`stopCh` closed. -/
def Desk.post (c : Desk α) : OVal → Prop
  | .emitted ok => (∃ e, c.label = .emit e) ∧ (ok = true ↔ c.duty = .sent)
  | .unit => c.label = .run → c.duty = .ended

def dispatcherOutline : Outline (OInstr α) OInstr.Resp (OLabel α) OVal (Desk α) where
  start l := { label := l }
  upd := Desk.upd
  req := Desk.req
  ans _ _ _ := True
  pre l c := c = { label := l }
  post _ v c := c.post v

lemma emit_outline (e : α) (l₀ : OLabel α) :
    dispatcherOutline.wp (emit e) (dispatcherOutline.ends l₀) { label := .emit e } := by
  refine ⟨⟨⟨e, rfl⟩, rfl⟩, fun stopped _ => ?_⟩
  cases stopped with
  | true => exact ⟨⟨e, rfl⟩, iff_of_false Bool.false_ne_true nofun⟩
  | false =>
    refine ⟨⟨rfl, rfl⟩, fun ok _ => ?_⟩
    cases ok with
    | true => exact ⟨⟨e, rfl⟩, iff_of_true rfl rfl⟩
    | false =>
      refine ⟨⟨⟨e, rfl⟩, rfl⟩, fun _ _ => ?_⟩
      exact ⟨⟨e, rfl⟩, iff_of_false Bool.false_ne_true nofun⟩

lemma stop_outline (l₀ : OLabel α) :
    dispatcherOutline.wp stop (dispatcherOutline.ends l₀) { label := .stop } := by
  refine ⟨⟨rfl, rfl⟩, fun _ _ => ⟨⟨rfl, rfl⟩, fun first _ => ?_⟩⟩
  cases first with
  | true => exact ⟨⟨rfl, rfl⟩, fun _ _ => ⟨⟨rfl, rfl⟩, fun _ _ => nofun⟩⟩
  | false => exact nofun

lemma run_outline (l₀ : OLabel α) :
    dispatcherOutline.wp run (dispatcherOutline.ends l₀) { label := .run } := by
  refine ⟨rfl, fun woken _ => ?_⟩
  cases woken with
  | stopped => exact fun _ => rfl
  | event e =>
    refine ⟨rfl, fun panicked _ => ?_⟩
    cases panicked with
    | true => exact ⟨rfl, fun _ _ => rfl⟩
    | false => exact rfl

/-! ### What a call of `emit` has done -/

/-- The log of a call of `emit` that has returned: its event is in the queue, or it has seen
`stopped`, or it has found the queue full and has counted that. -/
inductive EmitLog (e : α) : Bool → List (Sigma (OInstr.Resp (α := α))) → Prop
  | sent : EmitLog e true [⟨.offer e, true⟩, ⟨.loadStopped, false⟩]
  | stopped : EmitLog e false [⟨.loadStopped, true⟩]
  | full : EmitLog e false [⟨.addDropped, ()⟩, ⟨.offer e, false⟩, ⟨.loadStopped, false⟩]

abbrev OPast (α : Type) := Outline.Past (OLabel α) (OInstr.Resp (α := α))

def emitPre (l : OLabel α) (c : OPast α) : Prop :=
  c.1 = l ∧ ∀ e, l = .emit e → c.2 = []

def emitPost (v : OVal) (c : OPast α) : Prop :=
  ∀ e, c.1 = .emit e → ∀ ok, v = .emitted ok → EmitLog e ok c.2

def emitOutline : Outline (OInstr α) OInstr.Resp (OLabel α) OVal (OPast α) :=
  .past (fun _ _ => True) (fun _ _ _ => True) emitPre emitPost

lemma emitted_outline (l₀ l : OLabel α) {c : OPast α} (hc : emitPre l c) :
    emitOutline.wp l.body (emitOutline.ends l₀) c := by
  obtain ⟨l', log⟩ := c
  obtain ⟨rfl, hlog⟩ := hc
  cases l' with
  | emit e =>
    cases hlog e rfl
    refine Outline.past_step trivial fun stopped => ?_
    cases stopped with
    | true =>
      intro e' he ok hok
      cases he
      cases hok
      exact .stopped
    | false =>
      refine Outline.past_step trivial fun room => ?_
      cases room with
      | true =>
        intro e' he ok hok
        cases he
        cases hok
        exact .sent
      | false =>
        refine Outline.past_step trivial fun _ e' he ok hok => ?_
        cases he
        cases hok
        exact .full
  | stop =>
    refine Outline.past_step trivial fun _ => Outline.past_step trivial fun first => ?_
    cases first with
    | true => exact Outline.past_step trivial fun _ => Outline.past_step trivial fun _ => nofun
    | false => exact nofun
  | run =>
    refine Outline.past_step trivial fun woken => ?_
    cases woken with
    | stopped => exact nofun
    | event e =>
      refine Outline.past_step trivial fun panicked => ?_
      cases panicked with
      | true => exact Outline.past_step trivial fun _ => ⟨rfl, nofun⟩
      | false => exact ⟨rfl, nofun⟩

/-! ### What an instruction does -/

variable {d d' : Dispatcher α} {i : OInstr α} {x : Bool} {r : i.Resp}

inductive Does (d : Dispatcher α) : (i : OInstr α) → Dispatcher α → i.Resp → Prop
  | load : Does d .loadStopped d d.stopped
  | room (e : α) : d.queue.length < d.size →
      Does d (.offer e) { d with queue := d.queue ++ [e], queued := d.queued ++ [e] } true
  | full (e : α) : ¬d.queue.length < d.size →
      Does d (.offer e) { d with refused := d.refused ++ [e] } false
  | drop : Does d .addDropped { d with dropped := d.dropped + 1 } ()
  | store : Does d .storeStopped { d with stopped := true } ()
  | enter : d.stopOnce = .idle → Does d .onceEnter { d with stopOnce := .running } true
  | again : d.stopOnce = .finished → Does d .onceEnter d false
  | close : d.stopCh = false → Does d .closeStop { d with stopCh := true } ()
  | closeTwice : d.stopCh = true → Does d .closeStop { d with panicked := true } ()
  | exit : Does d .onceExit { d with stopOnce := .finished } ()
  | ended : d.stopCh = true → Does d .select d .stopped
  | next (e : α) (es : List α) : d.queue = e :: es →
      Does d .select { d with queue := es } (.event e)
  | observe (e : α) (x : Bool) :
      Does d (.observe e) { d with observed := d.observed ++ [(e, x)] } x
  | panic : Does d .addPanics { d with panics := d.panics + 1 } ()

lemma Dispatcher.act_does (hx : d.act i x = some (d', r)) : Does d i d' r := by
  cases i with
  | loadStopped =>
    cases hx
    exact .load
  | offer e =>
    by_cases hroom : d.queue.length < d.size
    · simp only [act, if_pos hroom] at hx
      cases hx
      exact .room e hroom
    · simp only [act, if_neg hroom] at hx
      cases hx
      exact .full e hroom
  | addDropped =>
    cases hx
    exact .drop
  | storeStopped =>
    cases hx
    exact .store
  | onceEnter =>
    cases honce : d.stopOnce with
    | idle =>
      simp only [act, honce] at hx
      cases hx
      exact .enter honce
    | running => simp [act, honce] at hx
    | finished =>
      simp only [act, honce] at hx
      cases hx
      exact .again honce
  | closeStop =>
    by_cases hclosed : d.stopCh = true
    · simp only [act, if_pos hclosed] at hx
      cases hx
      exact .closeTwice hclosed
    · simp only [act, if_neg hclosed] at hx
      cases hx
      exact .close (Bool.eq_false_iff.mpr hclosed)
  | onceExit =>
    cases hx
    exact .exit
  | select =>
    cases x with
    | true =>
      obtain ⟨hstop, hx⟩ := Option.ite_none_right_eq_some.mp hx
      cases hx
      exact .ended hstop
    | false =>
      cases hqueue : d.queue with
      | nil => simp [act, hqueue] at hx
      | cons e es =>
        simp only [act, hqueue] at hx
        cases hx
        exact .next e es hqueue
  | observe e =>
    cases hx
    exact .observe e x
  | addPanics =>
    cases hx
    exact .panic

/-! ### The counters and the `sync.Once` -/

/-- One goroutine goes from duty `k` to duty `k'`. -/
def Moves (n n' : Duty → ℕ) (k k' : Duty) : Prop :=
  ∀ j, n' j + (decide (k = j)).toNat = n j + (decide (k' = j)).toNat

namespace Moves

variable {n n' : Duty → ℕ} {k k' : Duty}

lemma rest (h : Moves n n' k k') {j : Duty} (hk : k ≠ j) (hk' : k' ≠ j) : n' j = n j := by
  simpa [hk, hk'] using h j

lemma enters (h : Moves n n' k k') (hne : k ≠ k') : n' k' = n k' + 1 := by
  simpa [hne] using h k'

lemma leaves (h : Moves n n' k k') (hne : k ≠ k') : n' k + 1 = n k := by
  simpa [hne.symm] using h k

lemma stays (h : Moves n n' k k) (j : Duty) : n' j = n j := Nat.add_right_cancel (h j)

end Moves

variable {n n' : Duty → ℕ} {c : Desk α}

/-- The channel is closed by whoever is inside the `sync.Once`, of whom there is at most one. -/
structure OnceTally (d : Dispatcher α) (n : Duty → ℕ) : Prop where
  calm : d.panicked = false
  running : n .close + n .exit = (decide (d.stopOnce = .running)).toNat
  stopCh : d.stopCh.toNat = n .exit + (decide (d.stopOnce = .finished)).toNat

namespace OnceTally

lemma congr (h : OnceTally d n) (hp : d'.panicked = d.panicked) (ho : d'.stopOnce = d.stopOnce)
    (hs : d'.stopCh = d.stopCh) (hclose : n' .close = n .close) (hexit : n' .exit = n .exit) :
    OnceTally d' n' where
  calm := hp.trans h.calm
  running := by rw [hclose, hexit, ho, h.running]
  stopCh := by rw [hexit, hs, ho, h.stopCh]

lemma enter (h : OnceTally d n) (hn : Moves n n' .idle .close) (honce : d.stopOnce = .idle) :
    OnceTally { d with stopOnce := .running } n' := by
  have hclose := hn.enters nofun
  have hexit := hn.rest (j := .exit) nofun nofun
  have hrunning := h.running
  have hstopCh := h.stopCh
  simp only [honce, reduceCtorEq, decide_false, Bool.toNat_false] at hrunning hstopCh
  refine ⟨h.calm, ?_, ?_⟩
  · show n' .close + n' .exit = 1
    omega
  · show d.stopCh.toNat = n' .exit + 0
    omega

/-- Where somebody is inside, it is one goroutine, and it has closed the channel if it is about to
leave. -/
lemma inside (h : OnceTally d n) (hpos : 0 < n .close + n .exit) :
    d.stopOnce = .running ∧ n .close + n .exit = 1 ∧ d.stopCh.toNat = n .exit := by
  have hrunning := h.running
  have hstopCh := h.stopCh
  have honce : d.stopOnce = .running := by
    by_contra honce
    simp only [honce, decide_false, Bool.toNat_false] at hrunning
    omega
  simp only [honce, reduceCtorEq, decide_false, decide_true, Bool.toNat_false, Bool.toNat_true,
    Nat.add_zero] at hrunning hstopCh
  exact ⟨honce, hrunning, hstopCh⟩

/-- Nobody has closed the channel before. -/
lemma closes (h : OnceTally d n) (hn : Moves n n' .close .exit) :
    d.stopCh = false ∧ OnceTally { d with stopCh := true } n' := by
  have hclose := hn.leaves nofun
  have hexit := hn.enters nofun
  obtain ⟨honce, hone, hstopCh⟩ := h.inside (by omega)
  refine ⟨Bool.toNat_eq_zero.mp (by omega), h.calm, ?_, ?_⟩
  · show n' .close + n' .exit = (decide (d.stopOnce = .running)).toNat
    rw [← h.running]
    omega
  · show 1 = n' .exit + (decide (d.stopOnce = .finished)).toNat
    simp only [honce, reduceCtorEq, decide_false, Bool.toNat_false]
    omega

lemma leave (h : OnceTally d n) (hn : Moves n n' .exit .idle) :
    OnceTally { d with stopOnce := .finished } n' := by
  have hexit := hn.leaves nofun
  have hclose := hn.rest (j := .close) nofun nofun
  obtain ⟨-, hone, hstopCh⟩ := h.inside (by omega)
  refine ⟨h.calm, ?_, ?_⟩
  · show n' .close + n' .exit = 0
    omega
  · show d.stopCh.toNat = n' .exit + 1
    omega

lemma step (h : OnceTally d n) (hn : Moves n n' c.duty (Desk.upd i r c).duty)
    (hreq : Desk.req i c) (hx : Does d i d' r) : OnceTally d' n' := by
  cases hx with
  | load | store | again => exact h.congr rfl rfl rfl (hn.stays _) (hn.stays _)
  | room e _ | full e | drop =>
    rw [hreq.2] at hn
    exact h.congr rfl rfl rfl (hn.rest nofun nofun) (hn.rest nofun nofun)
  | enter honce =>
    rw [hreq.2] at hn
    exact h.enter hn honce
  | close _ =>
    rw [hreq.2] at hn
    exact (h.closes hn).2
  | closeTwice hclosed =>
    -- the panic is out of reach
    rw [hreq.2] at hn
    rw [(h.closes hn).1] at hclosed
    cases hclosed
  | exit =>
    rw [hreq.2] at hn
    exact h.leave hn
  | ended _ | next e es _ | panic =>
    cases hreq
    exact h.congr rfl rfl rfl (hn.rest nofun nofun) (hn.rest nofun nofun)
  | observe e x =>
    cases hreq
    cases x with
    | true | false => exact h.congr rfl rfl rfl (hn.rest nofun nofun) (hn.rest nofun nofun)

end OnceTally

/-- What the counters leave out is in the hands of goroutines. -/
structure EventTally (d : Dispatcher α) (n : Duty → ℕ) : Prop where
  queued : d.queued.length = n .sent
  dropped : d.refused.length = d.dropped + n .drop
  panics : d.observed.countP (·.2) = d.panics + n .panic

namespace EventTally

lemma congr (h : EventTally d n) (hq : d'.queued = d.queued) (hr : d'.refused = d.refused)
    (hd : d'.dropped = d.dropped) (ho : d'.observed = d.observed) (hp : d'.panics = d.panics)
    (hsent : n' .sent = n .sent) (hdrop : n' .drop = n .drop) (hpanic : n' .panic = n .panic) :
    EventTally d' n' where
  queued := by rw [hq, hsent, h.queued]
  dropped := by rw [hr, hd, hdrop, h.dropped]
  panics := by rw [ho, hp, hpanic, h.panics]

lemma step (h : EventTally d n) (hn : Moves n n' c.duty (Desk.upd i r c).duty)
    (hreq : Desk.req i c) (hx : Does d i d' r) : EventTally d' n' := by
  have hqueued := h.queued
  have hdropped := h.dropped
  have hpanics := h.panics
  cases hx with
  | load | store | again =>
    exact h.congr rfl rfl rfl rfl rfl (hn.stays _) (hn.stays _) (hn.stays _)
  | room e _ =>
    rw [hreq.2] at hn
    have hsent : n' .sent = n .sent + 1 := hn.enters nofun
    refine ⟨?_, hn.rest (j := .drop) nofun nofun ▸ hdropped,
      hn.rest (j := .panic) nofun nofun ▸ hpanics⟩
    rw [List.length_append, List.length_singleton]
    omega
  | full e =>
    rw [hreq.2] at hn
    have hdrop : n' .drop = n .drop + 1 := hn.enters nofun
    refine ⟨hn.rest (j := .sent) nofun nofun ▸ hqueued, ?_,
      hn.rest (j := .panic) nofun nofun ▸ hpanics⟩
    rw [List.length_append, List.length_singleton, hdropped, hdrop, Nat.add_assoc]
  | drop =>
    rw [hreq.2] at hn
    have hdrop := hn.leaves nofun
    refine ⟨hn.rest (j := .sent) nofun nofun ▸ hqueued, ?_,
      hn.rest (j := .panic) nofun nofun ▸ hpanics⟩
    rw [hdropped, ← hdrop, Nat.add_right_comm, Nat.add_assoc]
  | enter _ | close _ | closeTwice _ | exit =>
    rw [hreq.2] at hn
    exact h.congr rfl rfl rfl rfl rfl (hn.rest nofun nofun) (hn.rest nofun nofun)
      (hn.rest nofun nofun)
  | ended _ | next e es _ =>
    cases hreq
    exact h.congr rfl rfl rfl rfl rfl (hn.rest nofun nofun) (hn.rest nofun nofun)
      (hn.rest nofun nofun)
  | observe e x =>
    cases hreq
    cases x with
    | true =>
      have hpanic : n' .panic = n .panic + 1 := hn.enters nofun
      refine ⟨hn.rest (j := .sent) nofun nofun ▸ hqueued,
        hn.rest (j := .drop) nofun nofun ▸ hdropped, ?_⟩
      rw [List.countP_append, List.countP_singleton, if_pos rfl, hpanics, hpanic, Nat.add_assoc]
    | false =>
      refine ⟨hn.rest (j := .sent) nofun nofun ▸ hqueued,
        hn.rest (j := .drop) nofun nofun ▸ hdropped, ?_⟩
      rw [List.countP_append, List.countP_singleton, if_neg Bool.false_ne_true,
        hn.rest (j := .panic) nofun nofun]
      exact hpanics
  | panic =>
    cases hreq
    have hpanic : n' .panic + 1 = n .panic := hn.leaves nofun
    refine ⟨hn.rest (j := .sent) nofun nofun ▸ hqueued,
      hn.rest (j := .drop) nofun nofun ▸ hdropped, ?_⟩
    rw [hpanics, ← hpanic, Nat.add_right_comm, Nat.add_assoc]

end EventTally

/-! ### The order of the events -/

/-- The event of a call of `emit` that has put it into the queue. -/
def Desk.event (c : Desk α) : Option α :=
  match c.label, c.duty with
  | .emit e, .sent => some e
  | _, _ => none

/-- The first goroutine is `run`, and no other one is. Every event that found room is that of a call
of `emit` and has been observed, is in the hand of `run` or is in the queue, in the order of the
queue. -/
structure Lined (d : Dispatcher α) (cs : List (Desk α)) : Prop where
  bounded : d.queue.length ≤ d.size
  named : d.queued.Perm (cs.filterMap Desk.event)
  sole : ∀ t c, cs[t]? = some c → c.label = .run → t = 0
  main : ∃ c, cs[0]? = some c ∧ c.label = .run ∧
    d.queued = d.observed.map Prod.fst ++ c.held.toList ++ d.queue
  ended : ∀ c ∈ cs, c.duty = .ended → d.stopCh = true

lemma Desk.upd_label (i : OInstr α) (r : i.Resp) (c : Desk α) :
    (Desk.upd i r c).label = c.label := by
  cases i with
  | offer e | onceEnter | observe e => cases r with
    | true | false => rfl
  | select => cases r with
    | stopped | event e => rfl
  | loadStopped | storeStopped | addDropped | closeStop | onceExit | addPanics => rfl

lemma Does.bounded (h : d.queue.length ≤ d.size) (hx : Does d i d' r) :
    d'.queue.length ≤ d'.size := by
  cases hx with
  | room e hroom =>
    rw [List.length_append, List.length_singleton]
    exact hroom
  | next e es hqueue =>
    rw [hqueue, List.length_cons] at h
    exact Nat.le_of_succ_le h
  | load | full | drop | store | enter | again | close | closeTwice | exit | ended | observe
  | panic => exact h

/-- What the goroutine of the dispatcher does, it does to the event in its own hand. -/
lemma Does.line_run (hc : c.label = .run) (hreq : Desk.req i c) (hx : Does d i d' r)
    (h : d.queued = d.observed.map Prod.fst ++ c.held.toList ++ d.queue) :
    d'.queued = d'.observed.map Prod.fst ++ (Desk.upd i r c).held.toList ++ d'.queue := by
  cases hx with
  | load | drop =>
    obtain ⟨⟨e, he⟩, -⟩ := hreq
    rw [he] at hc
    cases hc
  | room e _ | full e | store | enter _ | again | close _ | closeTwice _ | exit =>
    rw [hreq.1] at hc
    cases hc
  | ended _ | panic => exact h
  | next e es hqueue =>
    cases hreq
    rw [hqueue] at h
    simpa [Desk.upd] using h
  | observe e x =>
    cases hreq
    cases x with
    | true | false => simpa [Desk.upd] using h

/-- The others only add to the queue. -/
lemma Does.line_other (hc : c.label ≠ .run) (hreq : Desk.req i c) (hx : Does d i d' r)
    {hand : List α} (h : d.queued = d.observed.map Prod.fst ++ hand ++ d.queue) :
    d'.queued = d'.observed.map Prod.fst ++ hand ++ d'.queue := by
  cases hx with
  | room e _ =>
    show d.queued ++ [e] = _ ++ (d.queue ++ [e])
    rw [h, List.append_assoc]
  | load | full | drop | store | enter | again | close | closeTwice | exit => exact h
  | ended | next | observe | panic =>
    rw [hreq] at hc
    exact absurd rfl hc

lemma Does.stopCh (h : d.stopCh = true) (hx : Does d i d' r) : d'.stopCh = true := by
  cases hx with
  | close => rfl
  | load | room | full | drop | store | enter | again | closeTwice | exit | ended | next | observe
  | panic => exact h

lemma Does.ended_stopCh (h : c.duty = .ended → d.stopCh = true) (hx : Does d i d' r)
    (hended : (Desk.upd i r c).duty = .ended) : d'.stopCh = true := by
  cases hx with
  | load | store | again => exact h hended
  | ended hstop => exact hstop
  | observe e x => cases x with
    | true | false => cases hended
  | room | full | drop | enter | close | closeTwice | exit | next | panic => cases hended

/-- What the goroutine gains, all of them gain. -/
lemma filterMap_event_set {cs : List (Desk α)} {t : ℕ} (c' : Desk α) (ht : cs[t]? = some c) :
    (c.event.toList ++ (cs.set t c').filterMap Desk.event).Perm
      (c'.event.toList ++ cs.filterMap Desk.event) := by
  obtain ⟨hlt, rfl⟩ := List.getElem?_eq_some_iff.mp ht
  have hold := (List.getElem_cons_eraseIdx_perm hlt).filterMap Desk.event
  have hnew := (List.set_perm_cons_eraseIdx hlt c').filterMap Desk.event
  have hcons : ∀ c : Desk α, (c :: cs.eraseIdx t).filterMap Desk.event =
      c.event.toList ++ (cs.eraseIdx t).filterMap Desk.event := fun c => by
    cases hc : c.event with
    | none => exact List.filterMap_cons_none hc
    | some e => exact List.filterMap_cons_some hc
  rw [hcons] at hold hnew
  refine (hnew.append_left _).trans (.trans ?_ (hold.append_left _))
  rw [← List.append_assoc, ← List.append_assoc]
  exact List.perm_append_comm.append_right _

/-- An event that goes into the queue is that of the call of `emit` which offers it. -/
lemma Does.named {cs : List (Desk α)} {t : ℕ} (h : d.queued.Perm (cs.filterMap Desk.event))
    (ht : cs[t]? = some c) (hreq : Desk.req i c) (hx : Does d i d' r) :
    d'.queued.Perm ((cs.set t (Desk.upd i r c)).filterMap Desk.event) := by
  have hset := filterMap_event_set (Desk.upd i r c) ht
  have hkeep : (Desk.upd i r c).event = c.event →
      d.queued.Perm ((cs.set t (Desk.upd i r c)).filterMap Desk.event) := fun hsame => by
    rw [hsame] at hset
    exact h.trans ((List.perm_append_left_iff _).mp hset).symm
  have hidle : ∀ c : Desk α, c.duty ≠ .sent → c.event = none := fun c hduty => by
    obtain ⟨l, k, held⟩ := c
    cases l <;> cases k <;> first | rfl | exact absurd rfl hduty
  cases hx with
  | room e _ =>
    have hnone : c.event = none := hidle c (by rw [hreq.2]; nofun)
    have hsome : (Desk.upd (.offer e) true c).event = some e := by
      simp only [Desk.event, Desk.upd, hreq.1]
    rw [hnone, hsome] at hset
    exact (List.perm_append_singleton e _).trans ((h.cons e).trans hset.symm)
  | load | store | again => exact hkeep rfl
  | full e _ | drop | enter _ | close _ | closeTwice _ | exit =>
    have hc : c.event = none := hidle c (by rw [hreq.2]; nofun)
    exact hkeep ((hidle _ fun h => by cases h).trans hc.symm)
  | ended _ | next e es _ | panic =>
    cases hreq
    exact hkeep rfl
  | observe e x =>
    cases hreq
    cases x with
    | true | false => exact hkeep rfl

lemma Lined.step {cs : List (Desk α)} {t : ℕ} (h : Lined d cs) (ht : cs[t]? = some c)
    (hreq : Desk.req i c) (hx : Does d i d' r) : Lined d' (cs.set t (Desk.upd i r c)) := by
  obtain ⟨c₀, hc₀, hrun, hline⟩ := h.main
  refine ⟨hx.bounded h.bounded, hx.named h.named ht hreq, ?_, ?_, ?_⟩
  · intro t' c' ht' hlabel
    rcases getElem?_of_set ht' with ⟨rfl, rfl⟩ | ht'
    · rw [Desk.upd_label] at hlabel
      exact h.sole _ c ht hlabel
    · exact h.sole t' c' ht' hlabel
  · -- either the dispatcher moves, with the event in its own hand, or its hand stays as it is
    by_cases hc : c.label = .run
    · cases h.sole t c ht hc
      cases hc₀.symm.trans ht
      refine ⟨Desk.upd i r c, ?_, (Desk.upd_label i r c).trans hc, hx.line_run hc hreq hline⟩
      rw [List.getElem?_set_self (List.getElem?_eq_some_iff.mp ht).1]
    · have hne : t ≠ 0 := by
        rintro rfl
        cases hc₀.symm.trans ht
        exact hc hrun
      refine ⟨c₀, ?_, hrun, hx.line_other hc hreq hline⟩
      rw [List.getElem?_set_ne hne, hc₀]
  · apply forall_mem_set
    · intro c' hc' hended
      exact hx.stopCh (h.ended c' hc' hended)
    · exact hx.ended_stopCh (h.ended c (List.mem_of_getElem? ht))

/-! ### Every run -/

/-- How many of the goroutines have duty `k`. -/
def having (cs : List (Desk α)) (k : Duty) : ℕ := total (fun c => (decide (c.duty = k)).toNat) cs

lemma having_set {cs : List (Desk α)} {t : ℕ} (c' : Desk α) (ht : cs[t]? = some c) :
    Moves (having cs) (having (cs.set t c')) c.duty c'.duty :=
  fun _ => total_set c' ht

structure DispatcherInv (d : Dispatcher α) (cs : List (Desk α)) : Prop where
  once : OnceTally d (having cs)
  events : EventTally d (having cs)
  line : Lined d cs

lemma DispatcherInv.spawn {cs : List (Desk α)} {l : OLabel α} (h : DispatcherInv d cs)
    (hl : l ≠ .run) : DispatcherInv d (cs ++ [{ label := l }]) := by
  have hsame : ∀ k, k ≠ .idle → having (cs ++ [{ label := l }]) k = having cs k := by
    intro k hk
    simp [having, hk.symm]
  obtain ⟨c₀, hc₀, hmain⟩ := h.line.main
  refine ⟨h.once.congr rfl rfl rfl (hsame _ nofun) (hsame _ nofun),
    h.events.congr rfl rfl rfl rfl rfl (hsame _ nofun) (hsame _ nofun) (hsame _ nofun),
    h.line.bounded, ?_, ?_, ⟨c₀, ?_, hmain⟩, ?_⟩
  · have hnone : Desk.event ({ label := l } : Desk α) = none := by cases l <;> rfl
    rw [List.filterMap_append, List.filterMap_cons_none hnone, List.filterMap_nil, List.append_nil]
    exact h.line.named
  · intro t c ht hc
    rcases getElem?_of_concat ht with ht | ⟨-, rfl⟩
    · exact h.line.sole t c ht hc
    · exact absurd hc hl
  · rw [List.getElem?_append_left (List.getElem?_eq_some_iff.mp hc₀).1, hc₀]
  · exact forall_mem_concat h.line.ended nofun

lemma dispatcher_sound : Outline.Sound (dispatcherMachine (α := α)) dispatcherOutline DispatcherInv
    fun _ _ => True where
  body l₀ l c hc := by
    cases hc
    cases l with
    | emit e => exact emit_outline e l₀
    | stop => exact stop_outline l₀
    | run => exact run_outline l₀
  exec p t x th i k s' r _ ht _ hG hreq hx := by
    obtain ⟨-, hx⟩ := Option.ite_none_left_eq_some.mp hx
    have hdoes := Dispatcher.act_does hx
    have ht := Outline.ctxs_getElem? (O := dispatcherOutline) ht
    have hn := having_set (Desk.upd i r (dispatcherOutline.ctx th)) ht
    exact ⟨trivial, hG.once.step hn hreq hdoes, hG.events.step hn hreq hdoes,
      hG.line.step ht hreq hdoes⟩
  spawn p l s' _ hG hs := by
    cases l with
    | run => cases hs
    | emit e | stop =>
      cases hs
      exact ⟨rfl, hG.spawn nofun⟩
  env _ e _ _ _ _ := e.elim

lemma dispatcher_reaches {size : ℕ} {h : 0 < size} {p : OProcess α}
    (hp : dispatcherMachine.Reaches (OProcess.init size h) p) :
    dispatcherOutline.Holds DispatcherInv p := by
  refine dispatcher_sound.reaches ⟨⟨⟨rfl, rfl, rfl⟩, ⟨rfl, rfl, rfl⟩, ?_⟩, ?_⟩ hp
  · refine ⟨Nat.zero_le _, .refl _, ?_, ⟨_, rfl, rfl, rfl⟩, ?_⟩
    · intro t c ht _
      exact Nat.lt_one_iff.mp (List.getElem?_eq_some_iff.mp ht).1
    · intro c hc
      cases List.mem_singleton.mp hc
      nofun
  · intro th hth
    cases List.mem_singleton.mp hth
    exact run_outline .run

/-- The duty of a goroutine and the event in its hand, read off from what it has done. -/
def deskOf (th : OThread α) : Desk α := dispatcherOutline.ctx th

lemma deskOf_label (th : OThread α) : (deskOf th).label = th.entry := by
  obtain ⟨l, prog, log⟩ := th
  induction log with
  | nil => rfl
  | cons a log ih => exact (Desk.upd_label a.1 a.2 _).trans ih

/-- What holds of a dispatcher at every moment. -/
structure OProcess.Accounts (p : OProcess α) : Prop where
  calm : p.shared.panicked = false
  bounded : p.shared.queue.length ≤ p.shared.size
  /-- No accepted event is lost, doubled or overtaken. -/
  ordered : ∃ th, p.threads[0]? = some th ∧ th.entry = .run ∧
    p.shared.queued = p.shared.observed.map Prod.fst ++ (deskOf th).held.toList ++ p.shared.queue
  /-- The accepted events are those of the calls of `emit` that return `true`. -/
  accepted : p.shared.queued.length = having (p.threads.map deskOf) .sent
  named : p.shared.queued.Perm ((p.threads.map deskOf).filterMap Desk.event)
  /-- A call that returns `true` has put its event into the queue, and one that returns `false` has
  seen `stopped` or is counted. -/
  returned : ∀ th ∈ p.threads, ∀ ok, th.prog = .done (.ret (.emitted ok)) →
    ∃ e, th.entry = .emit e ∧ EmitLog e ok th.log ∧ (ok = true ↔ (deskOf th).duty = .sent)
  dropped : p.shared.refused.length =
    p.shared.dropped + having (p.threads.map deskOf) .drop
  panics : p.shared.observed.countP (·.2) =
    p.shared.panics + having (p.threads.map deskOf) .panic
  /-- Whoever emits can go on, whatever the others do. -/
  ready : ∀ t th e, p.threads[t]? = some th → th.entry = .emit e →
    (∃ v, th.prog = .done (.ret v)) ∨ ∀ x, ∃ q, dispatcherMachine.step p (.run t x) = some q
  /-- Only `stop` ends the goroutine of the dispatcher. -/
  lasting : ∀ th v, p.threads[0]? = some th → th.prog = .done (.ret v) → p.shared.stopCh = true

/-- None of the instructions of `emit` waits. -/
lemma Dispatcher.act_of_emit {e : α} (hc : c.label = .emit e) (hreq : Desk.req i c)
    (d : Dispatcher α) (x : Bool) : ∃ a, d.act i x = some a := by
  cases i with
  | loadStopped | addDropped => exact ⟨_, rfl⟩
  | offer e' =>
    by_cases hroom : d.queue.length < d.size
    · exact ⟨_, if_pos hroom⟩
    · exact ⟨_, if_neg hroom⟩
  | storeStopped | onceEnter | closeStop | onceExit =>
    rw [hreq.1] at hc
    cases hc
  | select | observe _ | addPanics =>
    rw [hreq] at hc
    cases hc

lemma dispatcher_ready {p : OProcess α} (h : dispatcherOutline.Holds DispatcherInv p) {t : ℕ}
    {th : OThread α} {e : α} (ht : p.threads[t]? = some th) (hentry : th.entry = .emit e) :
    (∃ v, th.prog = .done (.ret v)) ∨ ∀ x, ∃ q, dispatcherMachine.step p (.run t x) = some q := by
  have hcalm := h.shared.once.calm
  have hwp := h.threads th (List.mem_of_getElem? ht)
  have hlabel : (dispatcherOutline.ctx th).label = .emit e := (deskOf_label th).trans hentry
  obtain ⟨l, prog, log⟩ := th
  cases prog with
  | done next =>
    cases next with
    | ret v => exact .inl ⟨v, rfl⟩
    | goto l' =>
      right
      intro x
      simp only [Machine.step, ht]
      exact ⟨_, rfl⟩
  | op i k =>
    right
    intro x
    obtain ⟨a, ha⟩ := Dispatcher.act_of_emit hlabel hwp.1 p.shared x
    have hexec : dispatcherMachine.exec p.shared i x = some a := by
      show (if p.shared.panicked then none else p.shared.act i x) = some a
      rw [hcalm, if_neg Bool.false_ne_true, ha]
    simp only [Machine.step, ht, hexec]
    exact ⟨_, rfl⟩

lemma emit_logged {size : ℕ} {h : 0 < size} {p : OProcess α}
    (hp : dispatcherMachine.Reaches (OProcess.init size h) p) {th : OThread α}
    (hth : th ∈ p.threads) {e : α} (hentry : th.entry = .emit e) {ok : Bool}
    (hok : th.prog = .done (.ret (.emitted ok))) : EmitLog e ok th.log := by
  have hsound : Outline.Sound (dispatcherMachine (α := α)) emitOutline (fun _ _ => True)
      (fun _ _ => True) :=
    { body := fun l₀ l _ hc => emitted_outline l₀ l hc
      exec := fun _ _ _ _ _ _ _ _ _ _ _ _ _ _ => ⟨trivial, trivial⟩
      spawn := fun _ _ _ _ _ _ => ⟨⟨rfl, fun _ _ => rfl⟩, trivial⟩
      env := fun _ _ _ _ _ _ => trivial }
  have hinit : emitOutline.Holds (fun _ _ => True) (OProcess.init (α := α) size h) := by
    refine ⟨trivial, fun th hth => ?_⟩
    cases List.mem_singleton.mp hth
    exact emitted_outline .run .run ⟨rfl, nofun⟩
  have hwp := (hsound.reaches hinit hp).threads th hth
  rw [hok, emitOutline, Outline.past_ctx] at hwp
  exact hwp e hentry ok rfl

lemma OProcess.accounts {size : ℕ} {h : 0 < size} {p : OProcess α}
    (hp : dispatcherMachine.Reaches (OProcess.init size h) p) : p.Accounts := by
  have hall := dispatcher_reaches hp
  obtain ⟨honce, hevents, hline⟩ := hall.shared
  have hend : ∀ th ∈ p.threads, ∀ v, th.prog = .done (.ret v) → (deskOf th).post v := by
    intro th hth v hv
    have hwp := hall.threads th hth
    rw [hv] at hwp
    exact hwp
  obtain ⟨c₀, hc₀, hrun, hordered⟩ := hline.main
  obtain ⟨th₀, hth₀, rfl⟩ := Option.map_eq_some_iff.mp
    ((List.getElem?_map (f := dispatcherOutline.ctx)).symm.trans hc₀)
  exact
    { calm := honce.calm
      bounded := hline.bounded
      ordered := ⟨th₀, hth₀, (deskOf_label th₀).symm.trans hrun, hordered⟩
      accepted := hevents.queued
      named := hline.named
      returned := fun th hth ok hok => by
        obtain ⟨⟨e, he⟩, hsent⟩ := hend th hth _ hok
        have hentry := (deskOf_label th).symm.trans he
        exact ⟨e, hentry, emit_logged hp hth hentry hok, hsent⟩
      dropped := hevents.dropped
      panics := hevents.panics
      ready := fun t th e ht hentry => dispatcher_ready hall ht hentry
      lasting := fun th v hth hv => by
        cases hth₀.symm.trans hth
        have hpost := hend th₀ (List.mem_of_getElem? hth) v hv
        cases v with
        | emitted ok =>
          obtain ⟨e, he⟩ := hpost.1
          cases he.symm.trans hrun
        | unit => exact hline.ended _ (List.mem_of_getElem? hc₀) (hpost hrun) }

/-! ### After `stop` -/

def OInstr.isLoad : OInstr α → Bool
  | .loadStopped => true
  | _ => false

/-- What is answered once `stopped` is set. -/
def OInstr.Sees : (i : OInstr α) → i.Resp → Prop
  | .loadStopped, stopped => stopped = true
  | _, _ => True

lemma dispatcher_sets :
    (dispatcherMachine (α := α)).Sets (fun d => d.stopped = true) OInstr.Sees where
  exec {d i x d' r} h hx := by
    obtain ⟨-, hx⟩ := Option.ite_none_left_eq_some.mp hx
    cases Dispatcher.act_does hx with
    | load => exact ⟨h, h⟩
    | store => exact ⟨rfl, trivial⟩
    | room | full | drop | enter | again | close | closeTwice | exit | ended | next | observe
    | panic => exact ⟨h, trivial⟩
  spawn {d l d'} h hs := by
    cases l with
    | run => cases hs
    | emit e | stop =>
      cases hs
      exact h
  env _ he := nomatch he

lemma emit_refuses (d : Dispatcher α) (l : OLabel α) (d' : Dispatcher α)
    (_ : dispatcherMachine.spawn d l = some d') (hl : ∃ e, l = .emit e) :
    (dispatcherMachine.body l).Refuses OInstr.isLoad OInstr.Sees (· = .emitted false) 1 := by
  obtain ⟨e, rfl⟩ := hl
  refine ⟨rfl, Nat.one_pos, ?_⟩
  rintro r rfl
  rfl

/-- The dispatcher accounts for every event, and a call of `emit` that begins after `stop` has set
`stopped` is told so and does nothing. -/
theorem observer_accounts (size : ℕ) (h : 0 < size) (es es' : List (OEvent α)) (p q : OProcess α)
    (hp : dispatcherMachine.run (OProcess.init size h) es = some p)
    (hq : dispatcherMachine.run p es' = some q) :
    p.Accounts ∧ (p.shared.stopped = true → ∀ t th e, p.threads.length ≤ t →
      q.threads[t]? = some th → th.entry = .emit e →
        th.Refused OInstr.isLoad OInstr.Sees (· = .emitted false) 1) := by
  refine ⟨OProcess.accounts ⟨es, hp⟩, fun hstopped t th e hlate ht hentry => ?_⟩
  exact dispatcher_sets.refused emit_refuses hstopped ⟨es', hq⟩ hlate ht ⟨e, hentry⟩

/-- A queue of one: the first event is observed with a panic, the second finds the queue full, and
the third comes after `stop`. -/
def OProcess.crowded : List (OEvent ℕ) :=
  [.spawn (.emit 7), .spawn (.emit 8), .run 1 false, .run 1 false, .run 2 false, .run 2 false,
    .run 2 false, .run 0 false, .run 0 true, .run 0 false, .spawn .stop, .run 3 false]

theorem observer_accounts_crowded : ∃ p q : OProcess ℕ,
    dispatcherMachine.run (OProcess.init 1 Nat.one_pos) OProcess.crowded = some p ∧
      dispatcherMachine.run p [.spawn (.emit 9), .run 4 false] = some q ∧
        p.Accounts ∧ p.shared.observed = [(7, true)] ∧ p.shared.dropped = 1 ∧
          p.shared.panics = 1 ∧ p.shared.stopped = true := by
  have hp : (dispatcherMachine.run (OProcess.init 1 Nat.one_pos) OProcess.crowded).map
      (fun p => (p.shared.observed, p.shared.dropped, p.shared.panics, p.shared.stopped)) =
        some ([(7, true)], 1, 1, true) := by decide
  obtain ⟨p, hp, hd⟩ := Option.map_eq_some_iff.mp hp
  have hq : (dispatcherMachine.run (OProcess.init 1 Nat.one_pos) (OProcess.crowded ++
      [Event.spawn (OLabel.emit 9), Event.run 4 false])).isSome = true := by decide
  obtain ⟨q, hq⟩ := Option.isSome_iff_exists.mp hq
  obtain ⟨p', hp', hq⟩ := Machine.run_append.mp hq
  cases hp.symm.trans hp'
  simp only [Prod.mk.injEq] at hd
  obtain ⟨hobserved, hdropped, hpanics, hstopped⟩ := hd
  exact ⟨p, q, hp, hq, (observer_accounts 1 Nat.one_pos _ _ p q hp hq).1, hobserved, hdropped,
    hpanics, hstopped⟩

end Ogrenet.Observer
