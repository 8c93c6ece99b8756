import Ogrenet.Session.Parts.Steps
import Ogrenet.Session.Resources.Conserved

/-!
# Frames in preparation

`prepareSend` and `prepareTrySend` in `transport/admission.go` hold the one encoder slot of a stream
session from before `Encode` until the frame is charged to the byte budgets. A `Desk` is what a
goroutine has in hand together with how far it is with its frame.
-/

namespace Ogrenet

open Interleaving Interleaving.Prog Ses

/-- How far a call is between taking the encoder slot and giving it back. -/
inductive Encoding where
  | away
  | ready
  | framed (frame : Bytes)
  deriving DecidableEq, Repr

def Encoding.upd : (i : SInstr) → i.Resp → Encoding → Encoding
  | .select _ _, .encoder, _ => .ready
  | .releaseEncoder, _, _ => .away
  | .encode _, .ok frame, _ => .framed frame
  | _, _, e => e

/-- The message that a call of `Send` or `TrySend` was given. -/
def SLabel.message : SLabel → Option Message
  | .send _ msg | .trySend msg => some msg
  | _ => none

/-- `waiting` says that the call has encoded a frame that is not yet charged to the byte budgets,
queued or given up. -/
structure Desk where
  encoding : Encoding := .away
  waiting : Bool := false
  hand : Hand

namespace Desk

variable {cfg : SessionConfig} {d : Desk}

def start (l : SLabel) : Desk := { hand := .start l }

/-- A frame that is longer than the budget is refused at once. A charge to the session's budget does
when there is no budget of the engine to charge. Whoever finds its context done or the session
closing gives up. -/
def waits (cfg : SessionConfig) : (i : SInstr) → i.Resp → Bool → Bool
  | .encode _, .ok frame, _ => decide (frame.length ≤ cfg.maxQueuedBytes)
  | .localSection n, none, w | .localTry n, true, w => w && decide (0 < cfg.globalCharge n)
  | .globalSection _, none, _ | .globalTry _, _, _ => false
  | .localTry _, false, _ | .localRelease _, _, _ => false
  | .select _ _, .ctxDone _, _ | .select _ _, .closed _, _ => false
  | _, _, w => w

def upd (cfg : SessionConfig) (i : SInstr) (r : i.Resp) (d : Desk) : Desk :=
  ⟨d.encoding.upd i r, waits cfg i r d.waiting, d.hand.upd .conn cfg i r⟩

/-- The encoder slots that are held, which are one or none. -/
def encoders (d : Desk) : ℕ := if d.encoding = .away then 0 else 1

def caseReq (cases : List Case) (d : Desk) : Case → Prop
  | .slot => d.encoding = .away ∧ d.hand.own = 0
  | .encoder =>
    d.encoding = .away ∧ d.hand.entry ≠ .writerLoop ∧ d.hand.slots = 1 ∧ d.hand.own = 0
  | .push req => d.encoding = .away ∧ offered cases = some req ∧ d.hand.own = req.bytes ∧
      d.hand.encoded = some req.frame
  | .pop => d.hand.entry = .writerLoop
  | _ => True

/-- Nothing is under way at the desk, and only the writer has charged bytes in hand. -/
structure Rests (d : Desk) : Prop where
  away : d.encoding = .away
  idle : d.waiting = false
  own : d.hand.entry ≠ .writerLoop → d.hand.own = 0

/-- The desk of a goroutine with this role that sends nothing. -/
structure Elsewhere (role : Role) (d : Desk) : Prop extends Rests d where
  outside : d.hand.inGate = false
  writer : role = .writer → d.hand.entry = .writerLoop

def req : SInstr → Desk → Prop
  | .gateEnter, d | .gateLeave, d => d.encoding = .away
  | .select cases _, d => ∀ c ∈ cases, d.caseReq cases c
  | .releaseSlot, d => d.Rests
  | .releaseEncoder, d => d.encoding ≠ .away ∧ d.waiting = false
  | .encode msg, d => d.encoding = .ready ∧ d.hand.own = 0 ∧ d.hand.entry.message = some msg
  | .localSection n, d | .localTry n, d =>
    d.hand.own = 0 ∧ ∃ frame, d.encoding = .framed frame ∧ frame.length = n
  | .localRelease n, d => d.hand.entry ≠ .writerLoop → d.hand.own ≤ n
  | _, _ => True

/-- A call in the middle of `prepareSend`. -/
def preparing (encoding : Encoding) (waiting : Bool) (entry : SLabel) (encoded : Option Bytes)
    (slots own shared : ℕ) : Desk :=
  ⟨encoding, waiting, .sender entry encoded slots own shared⟩

def pre : SLabel → Desk → Prop
  | .acquireLocal a, d => ∃ waiting entry, entry ≠ .writerLoop ∧
      d = preparing (.framed a.frame) waiting entry (some a.frame) 1 0 0
  | .acquireGlobal a, d => ∃ waiting entry, entry ≠ .writerLoop ∧
      d = preparing (.framed a.frame) waiting entry (some a.frame) 1 a.frame.length 0
  | .send ctx msg, d => d = start (.send ctx msg)
  | .trySend msg, d => d = start (.trySend msg)
  | l, d => d.Elsewhere l.role

/-- What holds of a desk whatever the shared state. -/
structure Ok (d : Desk) : Prop where
  writer : d.hand.entry = .writerLoop → d.encoding = .away
  /-- A frame waits for the budgets only while its call holds the encoder slot. -/
  held : d.waiting = true → d.encoding ≠ .away
  /-- Whoever holds the encoder slot holds a frame slot. -/
  slot : d.encoding ≠ .away → d.hand.slots = 1
  frame : ∀ frame, d.encoding = .framed frame → d.hand.encoded = some frame
  /-- The bytes that a call has charged are those of its frame, for which it has a slot. -/
  charge : d.hand.entry ≠ .writerLoop → 0 < d.hand.own →
    d.hand.slots = 1 ∧ ∃ frame, d.hand.encoded = some frame ∧ d.hand.own = frame.length

end Desk

/-- The outline of the encoder slot. -/
def frameOutline (cfg : SessionConfig) : Outline SInstr SInstr.Resp SLabel SVal Desk where
  start := Desk.start
  upd i r d := Desk.upd cfg i r d
  req i d := Desk.req i d
  ans
    | .select cases dflt, r, _ => Fired.From cases dflt r
    | _, _, _ => True
  pre l d := Desk.pre l d
  post _ _ d := d.encoding = .away ∧ d.hand.inGate = false

/-! ### One step of a goroutine -/

namespace Desk

variable {cfg : SessionConfig} {d : Desk}

lemma Rests.ok (h : d.Rests) : d.Ok := by
  constructor
  · exact fun _ => h.away
  · exact fun hw => absurd hw (Bool.eq_false_iff.mp h.idle)
  · exact fun hne => absurd h.away hne
  · intro frame hf
    rw [h.away] at hf
    cases hf
  · intro hne hpos
    rw [h.own hne] at hpos
    exact absurd hpos (Nat.lt_irrefl 0)

lemma Ok.idle (h : d.Ok) (haway : d.encoding = .away) : d.waiting = false :=
  Bool.eq_false_iff.mpr fun hw => h.held hw haway

lemma Ok.fired (h : d.Ok) {cases : List Case} {dflt : Bool} {r : Fired}
    (hreq : d.req (.select cases dflt)) (hr : r.From cases dflt) :
    (d.upd cfg (.select cases dflt) r).Ok := by
  refine hr.all (P := fun r => (d.upd cfg (.select cases dflt) r).Ok) (fun c hc => ?_)
    fun _ => ⟨h.writer, h.held, h.slot, h.frame, h.charge⟩
  have hcase := hreq c hc
  cases c with
  | slot =>
    obtain ⟨haway, hown⟩ := hcase
    exact Rests.ok ⟨haway, h.idle haway, fun _ => hown⟩
  | encoder =>
    obtain ⟨-, hentry, hslots, hown⟩ := hcase
    constructor
    · exact fun hw => absurd hw hentry
    · exact fun _ h => Encoding.noConfusion h
    · exact fun _ => hslots
    · exact fun frame hf => Encoding.noConfusion hf
    · intro _ hpos
      exact absurd hown (Nat.pos_iff_ne_zero.mp hpos)
  | push req =>
    intro i
    obtain ⟨haway, hoff, hown, -⟩ := hcase
    refine Rests.ok ⟨haway, h.idle haway, fun _ => ?_⟩
    show (d.hand.fired cfg cases (.pushed i)).own = 0
    simp [Hand.fired, hoff, hown]
  | pop =>
    intro i req
    have haway := h.writer hcase
    exact Rests.ok ⟨haway, h.idle haway, fun hne => absurd hcase hne⟩
  | ack j =>
    intro v
    cases v with
    | none => exact ⟨h.writer, h.held, h.slot, h.frame, h.charge⟩
    | some e => exact ⟨h.writer, h.held, h.slot, h.frame, h.charge⟩
  | ctxDone _ => exact fun _ => ⟨h.writer, fun h => Bool.noConfusion h, h.slot, h.frame, h.charge⟩
  | timer => exact fun _ => ⟨h.writer, h.held, h.slot, h.frame, h.charge⟩
  | closed _ => exact ⟨h.writer, fun h => Bool.noConfusion h, h.slot, h.frame, h.charge⟩
  | drained | changedLocal _ | changedGlobal _ =>
    exact ⟨h.writer, h.held, h.slot, h.frame, h.charge⟩

/-- A frame that is charged had its slot and is the one that was encoded. -/
lemma Ok.charged (h : d.Ok) {n : ℕ} (hown : d.hand.own = 0) {frame : Bytes}
    (hframe : d.encoding = .framed frame) (hn : frame.length = n) :
    Ok ⟨d.encoding, d.waiting && decide (0 < cfg.globalCharge n),
      { d.hand with own := d.hand.own + n }⟩ := by
  refine ⟨h.writer, fun hw => h.held (Bool.and_eq_true_iff.mp hw).1, h.slot, h.frame,
    fun _ _ => ?_⟩
  have hslot := h.slot (by rw [hframe]; simp)
  refine ⟨hslot, frame, h.frame frame hframe, ?_⟩
  show d.hand.own + n = frame.length
  rw [hown, hn, Nat.zero_add]

/-- Every step that the outline allows keeps a desk in order. -/
lemma Ok.step (h : d.Ok) {i : SInstr} {r : i.Resp} (hreq : d.req i)
    (hr : (frameOutline cfg).ans i r d) : (d.upd cfg i r).Ok := by
  cases i with
  | select cases dflt => exact h.fired hreq hr
  | releaseSlot => exact Rests.ok ⟨hreq.away, hreq.idle, hreq.own⟩
  | releaseEncoder =>
    exact ⟨fun _ => rfl, fun hw => absurd hw (Bool.eq_false_iff.mp hreq.2),
      fun hne => absurd rfl hne,
      fun _ hf => Encoding.noConfusion hf, h.charge⟩
  | encode msg =>
    cases r with
    | error e => exact ⟨h.writer, h.held, h.slot, h.frame, h.charge⟩
    | ok frame =>
      obtain ⟨hready, hown, -⟩ := hreq
      have hslot := h.slot (by rw [hready]; simp)
      constructor
      · intro hw
        have := h.writer hw
        rw [hready] at this
        cases this
      · exact fun _ h => Encoding.noConfusion h
      · exact fun _ => hslot
      · intro f hf
        cases hf
        rfl
      · intro _ hpos
        exact absurd hown (Nat.pos_iff_ne_zero.mp hpos)
  | localSection n =>
    obtain ⟨hown, frame, hframe, hn⟩ := hreq
    cases r with
    | none => exact h.charged hown hframe hn
    | some g => exact ⟨h.writer, h.held, h.slot, h.frame, h.charge⟩
  | localTry n =>
    obtain ⟨hown, frame, hframe, hn⟩ := hreq
    cases r with
    | true => exact h.charged hown hframe hn
    | false => exact ⟨h.writer, fun h => Bool.noConfusion h, h.slot, h.frame, h.charge⟩
  | localRelease n =>
    refine ⟨h.writer, fun h => Bool.noConfusion h, h.slot, h.frame, fun hne hpos => ?_⟩
    have hzero : d.hand.own - n = 0 := Nat.sub_eq_zero_of_le (hreq hne)
    exact absurd hzero (Nat.pos_iff_ne_zero.mp hpos)
  | gateEnter => cases r <;> exact ⟨h.writer, h.held, h.slot, h.frame, h.charge⟩
  | globalTry n =>
    cases r <;> exact ⟨h.writer, fun h => Bool.noConfusion h, h.slot, h.frame, h.charge⟩
  | globalSection n =>
    cases r with
    | none => exact ⟨h.writer, fun h => Bool.noConfusion h, h.slot, h.frame, h.charge⟩
    | some g => exact ⟨h.writer, h.held, h.slot, h.frame, h.charge⟩
  | count c n => cases c <;> exact ⟨h.writer, h.held, h.slot, h.frame, h.charge⟩
  | setWriteDeadline | wsWrite _ | packetWrite _ =>
    cases r <;> exact ⟨h.writer, h.held, h.slot, h.frame, h.charge⟩
  | _ => exact ⟨h.writer, h.held, h.slot, h.frame, h.charge⟩

end Desk

end Ogrenet
