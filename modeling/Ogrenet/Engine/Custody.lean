import Ogrenet.Engine.Leases
import Ogrenet.Engine.Machine

/-!
# What a goroutine of the engine is responsible for

The proof outline of the engine. While it runs, a goroutine may have `Engine.mu`, an operation that
`beginOp` has counted, a connection lease that nobody else has, and the duty to look again whether
the engine is done.

A `Duty` is what a goroutine may keep from one critical section to the next. A `Custody` adds what
it has only inside one.
-/

namespace Ogrenet

open Interleaving Interleaving.Prog

/-- The goroutines other than the dial callbacks and those that finalize a session. -/
def ELabel.plain : ELabel → Prop
  | .dialCallback _ _ => False
  | .finalizer _ => False
  | _ => True

/-- The calls of `Shutdown` and `Close`. -/
def ELabel.stops : ELabel → Prop
  | .shutdown _ => True
  | .close => True
  | _ => False

/-- What a goroutine keeps between critical sections: whether it is inside an operation, the lease
that it has in hand with whether it has activated it, the leases it was given, the
`wsDialAdmission` it has made with whether it has released it, the session whose `done` it has
closed, and whether it has begun the graceful shutdown. -/
structure Duty where
  entry : ELabel
  inOp : Bool := false
  own : Option (ℕ × Bool) := none
  got : List ℕ := []
  dial : Option (ℕ × Bool) := none
  closed : Option ℕ := none
  graceful : Bool := false

/-- Adds the state of the admission functions, `Engine.mu` and the engine's state read under it,
the duty to call `maybeDoneLocked`, a positive answer of its condition, and the leases that are left
to drain. -/
structure Custody extends Duty where
  hold : Hold := {}
  mu : Bool := false
  seen : Option EngineState := none
  due : Bool := false
  sawIdle : Bool := false
  drains : List ℕ := []

/-- A goroutine outside of every critical section. -/
def Duty.rest (d : Duty) : Custody := { toDuty := d }

/-- The goroutine serves neither a WebSocket dial nor the end of a session. -/
structure Duty.Plain (d : Duty) : Prop where
  entry : d.entry.plain
  dial : d.dial = none
  closed : d.closed = none

namespace Custody

/-- The lease in hand. -/
def holds (c : Custody) (l : ℕ) : Prop := c.own.map Prod.fst = some l

instance (c : Custody) (l : ℕ) : Decidable (c.holds l) :=
  inferInstanceAs (Decidable (_ = _))

/-- The duties after an admission step. -/
def admUpd : (i : AdmInstr) → i.Resp → Custody → Custody
  | .openSection _ _, .ok l, c => { c with own := some (l, false), got := l :: c.got }
  | .lockLease l, st, c => if c.holds l then { c with own := some (l, st == .active) } else c
  | .activateSection l, _, c => { c with own := some (l, true) }
  | .unlockLease l, _, c => { c with drains := c.drains.erase l }
  | .drainSection l, _, c => { c with drains := c.drains.erase l }
  | .markReleased _, some _, c => { c with own := none }
  | .activitySection _, _, c => { c with due := true }
  | _, _, c => c

/-- The duties after a step on a tracker. -/
def trkUpd : (i : TrkInstr) → i.Resp → Custody → Custody
  | .register _ _, _, c => { c with own := none }
  | .takeSection _, some (l, _), c => { c with own := some (l, false) }
  | .releaseSection _, some l, c => { c with own := some (l, false) }
  | _, _, c => c

def upd : (i : EInstr) → i.Resp → Custody → Custody
  | .adm i, r, c => { admUpd i r c with hold := Hold.upd i r c.hold }
  | .trk _ i, r, c => trkUpd i r c
  | .lock, _, c => { c with mu := true }
  | .unlock, _, c => { c with mu := false, seen := none }
  | .getState, st, c => { c with seen := some st }
  | .incOps, _, c => { c with inOp := true }
  | .decOps, _, c => { c with inOp := false, due := true }
  | .untrackListener _, _, c => { c with due := true }
  | .trackSession _ _, _, c => { c with own := none }
  | .untrackSession _, r, c => { c with own := r.map fun l => (l, false), due := true }
  | .startDraining, r, c =>
    { c with seen := some .draining, due := true, drains := r.2, graceful := true }
  | .startAborting _, _, c => { c with seen := some .aborting, due := true }
  | .checkIdle, b, c => { c with due := false, sawIdle := b }
  | .setDone, _, c => { c with seen := some .done }
  | .closeDone, _, c => { c with sawIdle := false }
  | .newCell, d, c => { c with dial := some (d, false) }
  | .cellSet _ _ _, true, c => { c with own := none }
  | .cellTake _, r, c => { c with own := r.map fun l => (l, false) }
  | .cellRelease d, r, c => { c with own := r.map fun l => (l, false), dial := some (d, true) }
  | .closeSessionDone k, _, c => { c with closed := some k }
  | _, _, c => c

/-- Leases are opened inside an operation, while the engine is known to run, or by the dial
callbacks. -/
def admReq : AdmInstr → Custody → Prop
  | .openSection _ _, c => c.own = none ∧
    (c.inOp = true ∨ c.seen = some .running ∨ ∃ d tls, c.entry = .dialCallback d tls)
  | .unlockLease l, c => l ∈ c.drains → c.hold.lock = some (l, .draining)
  | .activateSection l, c => c.holds l
  | .drainSection l, c => l ∈ c.drains
  | .markReleased l, c => c.holds l
  | .acquireActivity _, c => c.seen = some .running
  | _, _ => True

def trkReq : TrkInstr → Custody → Prop
  | .register _ l, c => c.holds l ∧ c.Plain
  | .takeSection _, c => c.own = none
  | .releaseSection _, c => c.own = none
  | _, _ => True

def req : EInstr → Custody → Prop
  | .adm i, c => Hold.req i c.hold ∧ c.admReq i
  | .trk _ i, c => c.trkReq i
  | .lock, c => c.mu = false
  | .unlock, c => c.mu = true ∧ c.due = false ∧ c.sawIdle = false ∧ c.drains = []
  | .getState, c => c.mu = true
  | .incOps, c => c.seen = some .running ∧ c.inOp = false
  | .decOps, c => c.mu = true ∧ c.inOp = true
  | .trackListener _, c => c.seen = some .running
  | .untrackListener _, c => c.mu = true
  | .trackSession kind l, c =>
    c.seen = some .running ∧ c.own = some (l, true) ∧ (kind ≠ .webSocket → c.Plain)
  | .untrackSession k, c =>
    c.mu = true ∧ c.own = none ∧ c.closed = some k ∧ c.entry = .finalizer k ∧ c.drains = []
  | .startDraining, c => c.seen = some .running ∧ c.entry.stops
  | .startAborting _, c =>
    c.mu = true ∧ (c.seen = some .running ∨ c.seen = some .draining) ∧ c.entry.stops
  | .checkIdle, c => c.mu = true ∧ c.drains = []
  | .setDone, c => c.sawIdle = true
  | .closeDone, c => c.sawIdle = true ∧ c.seen = some .done
  | .newCell, c => c.dial = none
  | .cellSet d l _, c =>
    c.holds l ∧ c.dial = none ∧ c.closed = none ∧ ∃ tls, c.entry = .dialCallback d tls
  | .cellTake d, c => c.own = none ∧ c.dial = some (d, false)
  | .cellRelease d, c => c.own = none ∧ c.dial = some (d, false)
  | .closeSessionDone k, c => c.own = none ∧ c.closed = none ∧ c.entry = .finalizer k
  | _, _ => True

/-- A lease in the maps is active or draining, one in hand elsewhere opening or active, and neither
is released. -/
def ans : (i : EInstr) → i.Resp → Custody → Prop
  | .adm (.lockLease l), st, c =>
    (l ∈ c.drains → st = .active ∨ st = .draining) ∧
      (c.holds l → c.closed = none → st = .opening ∨ st = .active)
  | .adm (.markReleased _), r, _ => r ≠ none
  | _, _, _ => True

end Custody

/-- A goroutine with nothing in hand, as it is where it starts and between two rounds of a loop. -/
structure Duty.Ready (d : Duty) : Prop where
  inOp : d.inOp = false
  own : d.own = none
  dial : d.dial = none
  closed : d.closed = none

/-- The dial callbacks, the finalizers and the calls that stop the engine have no loops, and start
where they are spawned. -/
def ELabel.entered (entry : ELabel) : ELabel → Prop
  | .dialCallback d tls => entry = .dialCallback d tls
  | .finalizer k => entry = .finalizer k
  | .shutdown ctxNil => entry = .shutdown ctxNil
  | .close => entry = .close
  | _ => entry.plain

/-- A goroutine that has returned has nothing left, and its `wsDialAdmission` is released. -/
structure Duty.Finished (d : Duty) : Prop where
  inOp : d.inOp = false
  own : d.own = none
  dial : ∀ n isOver, d.dial = some (n, isOver) → isOver = true

def engineOutline : Outline EInstr EInstr.Resp ELabel EVal Custody where
  start l := Duty.rest { entry := l }
  upd := Custody.upd
  req := Custody.req
  ans := Custody.ans
  pre l c := ∃ d : Duty, c = d.rest ∧ d.Ready ∧ d.entry.entered l
  post _ _ c := ∃ d : Duty, c = d.rest ∧ d.Finished

end Ogrenet
