import Ogrenet.Interleaving.Prog

/-!
# Admission control

The embedding of `transport/limits.go`: the Engine-wide admission controller, the capacity of each
listener, connection leases and handshake/upgrade leases. Every instruction of `AdmInstr` is one
atomic piece of the source: a section of `admissionController.mu`, a section of
`connectionLease.mu`, or an atomic counter. The functions of the source are programs over these
instructions.

Pointers are indices: a lease, an activity lease and a listener capacity are named by their
position in the lists of `Admission`, which only ever grow.
-/

namespace Ogrenet

open Interleaving Interleaving.Prog

/-- The resource bounds of an Engine; zero means unlimited and negative values are rejected by
`Limits.validate` before an Engine exists. -/
structure Limits where
  maxConnections : ℕ := 0
  maxConnectionsPerPeer : ℕ := 0
  maxConnectionsPerListener : ℕ := 0
  maxConcurrentHandshakes : ℕ := 0
  maxPendingUpgrades : ℕ := 0
  deriving DecidableEq, Repr

inductive LimitKind where
  | connections
  | connectionsPerPeer
  | connectionsPerListener
  | handshakes
  | upgrades
  | queuedBytes
  deriving DecidableEq, Repr

structure LimitError where
  kind : LimitKind
  limit : ℕ
  deriving DecidableEq, Repr

structure ListenerCapacity where
  limit : ℕ
  used : ℕ := 0
  rejected : ℕ := 0
  deriving DecidableEq, Repr

inductive ConnectionLeaseState where
  | opening
  | active
  | draining
  | released
  deriving DecidableEq, Repr

/-- `mu` is whether an `activate` or a `beginDrain` is inside its section of the lease's mutex. The
other sections of that mutex are single steps. -/
structure ConnectionLease where
  peer : String
  listener : Option ℕ
  state : ConnectionLeaseState := .opening
  mu : Bool := false
  deriving DecidableEq, Repr

/-- The two kinds of activity an `activityLease` is taken for. -/
inductive Activity where
  | handshake
  | upgrade
  deriving DecidableEq, Repr

structure ActivityLease where
  kind : Activity
  released : Bool := false
  deriving DecidableEq, Repr

/-- `perPeer` is the Go map: `none` is a missing key. -/
structure AdmissionController where
  limits : Limits
  opening : ℕ := 0
  active : ℕ := 0
  draining : ℕ := 0
  handshakes : ℕ := 0
  upgrades : ℕ := 0
  perPeer : String → Option ℕ := fun _ => none
  rejectedConnections : ℕ := 0
  rejectedPeers : ℕ := 0
  rejectedListeners : ℕ := 0
  rejectedHandshakes : ℕ := 0
  rejectedUpgrades : ℕ := 0

/-- The controller together with everything it has handed out. -/
structure Admission where
  ctl : AdmissionController
  listeners : List ListenerCapacity := []
  leases : List ConnectionLease := []
  activities : List ActivityLease := []

def newAdmissionController (limits : Limits) : AdmissionController := { limits }

def newListenerCapacity (limit : ℕ) : ListenerCapacity := { limit }

namespace AdmissionController

def idle (a : AdmissionController) : Bool :=
  a.opening == 0 && a.active == 0 && a.draining == 0 && a.handshakes == 0 && a.upgrades == 0

/-- The counter of the leases in a state; released leases are not counted. -/
def count (a : AdmissionController) : ConnectionLeaseState → ℕ
  | .opening => a.opening
  | .active => a.active
  | .draining => a.draining
  | .released => 0

/-- `if peer != "" { a.perPeer[peer]++ }`. -/
def addPeer (a : AdmissionController) (peer : String) : AdmissionController :=
  if peer ≠ "" then
    { a with perPeer := Function.update a.perPeer peer (some ((a.perPeer peer).getD 0 + 1)) }
  else a

/-- The locked part of `acquireOpeningWithListener`: the check against the limits, or the count of
one more opening connection. -/
def admitOpening (a : AdmissionController) (peer : String) :
    Except LimitError AdmissionController :=
  if 0 < a.limits.maxConnections ∧ a.limits.maxConnections ≤ a.opening + a.active + a.draining then
    .error ⟨.connections, a.limits.maxConnections⟩
  else if peer ≠ "" ∧ 0 < a.limits.maxConnectionsPerPeer ∧
      a.limits.maxConnectionsPerPeer ≤ (a.perPeer peer).getD 0 then
    .error ⟨.connectionsPerPeer, a.limits.maxConnectionsPerPeer⟩
  else
    .ok ({ a with opening := a.opening + 1 }.addPeer peer)

/-- The rejection counter that goes with the error of `admitOpening`. -/
def reject (a : AdmissionController) (e : LimitError) : AdmissionController :=
  match e.kind with
  | .connections => { a with rejectedConnections := a.rejectedConnections + 1 }
  | .connectionsPerPeer => { a with rejectedPeers := a.rejectedPeers + 1 }
  | .connectionsPerListener => { a with rejectedListeners := a.rejectedListeners + 1 }
  | .handshakes => { a with rejectedHandshakes := a.rejectedHandshakes + 1 }
  | .upgrades => { a with rejectedUpgrades := a.rejectedUpgrades + 1 }
  | .queuedBytes => a

/-- `if x > 0 { x-- }` on the counter of a lease state. -/
def decr (a : AdmissionController) : ConnectionLeaseState → AdmissionController
  | .opening => { a with opening := a.opening - 1 }
  | .active => { a with active := a.active - 1 }
  | .draining => { a with draining := a.draining - 1 }
  | .released => a

def incr (a : AdmissionController) : ConnectionLeaseState → AdmissionController
  | .opening => { a with opening := a.opening + 1 }
  | .active => { a with active := a.active + 1 }
  | .draining => { a with draining := a.draining + 1 }
  | .released => a

/-- The per-peer part of `connectionLease.release`: the key goes with its last connection. -/
def dropPeer (a : AdmissionController) (peer : String) : AdmissionController :=
  if peer ≠ "" then
    { a with
      perPeer := Function.update a.perPeer peer
        (if (a.perPeer peer).getD 0 ≤ 1 then none else some ((a.perPeer peer).getD 0 - 1)) }
  else a

/-- The number of activity leases of a kind that are out. -/
def ongoing (a : AdmissionController) : Activity → ℕ
  | .handshake => a.handshakes
  | .upgrade => a.upgrades

def activityLimit (a : AdmissionController) : Activity → ℕ
  | .handshake => a.limits.maxConcurrentHandshakes
  | .upgrade => a.limits.maxPendingUpgrades

def limitKind : Activity → LimitKind
  | .handshake => .handshakes
  | .upgrade => .upgrades

def setOngoing (a : AdmissionController) (n : ℕ) : Activity → AdmissionController
  | .handshake => { a with handshakes := n }
  | .upgrade => { a with upgrades := n }

@[simp] lemma setOngoing_ongoing (a : AdmissionController) (n : ℕ) (k k' : Activity) :
    (a.setOngoing n k).ongoing k' = if k = k' then n else a.ongoing k' := by
  cases k <;> cases k' <;> rfl

@[simp] lemma setOngoing_activityLimit (a : AdmissionController) (n : ℕ) (k k' : Activity) :
    (a.setOngoing n k).activityLimit k' = a.activityLimit k' := by
  cases k <;> cases k' <;> rfl

end AdmissionController

/-- The atomic steps of the admission code. -/
inductive AdmInstr where
  /-- `listenerCapacity.acquire`. Its load and compare-and-swap loop takes effect at the load that
  finds the listener full or at the swap that succeeds. -/
  | capacityAcquire (j : ℕ)
  /-- `listenerCapacity.release`, likewise. -/
  | capacityRelease (j : ℕ)
  /-- `a.rejectedListeners.Add(1)`. -/
  | rejectListener
  /-- The section of `a.mu` in `acquireOpeningWithListener`, and the lease it returns. -/
  | openSection (peer : String) (listener : Option ℕ)
  /-- `l.mu.Lock()` in `activate` and `beginDrain`, and the read of the state under it. -/
  | lockLease (l : ℕ)
  | unlockLease (l : ℕ)
  /-- The section of `a.mu` in `activate` up to the unlock of `l.mu`. The state is written between
  the two unlocks, where nobody else can look at it. -/
  | activateSection (l : ℕ)
  /-- The same for `beginDrain`. -/
  | drainSection (l : ℕ)
  /-- The section of `l.mu` in `connectionLease.release`: the lease as it was, or `none` when it
  had been released before. -/
  | markReleased (l : ℕ)
  /-- The section of `a.mu` in `connectionLease.release`. -/
  | releaseSection (state : ConnectionLeaseState) (peer : String)
  /-- `acquireHandshake` and `acquireUpgrade`. -/
  | acquireActivity (kind : Activity)
  /-- The compare-and-swap in `activityLease.release`: the kind when it won. -/
  | markActivity (l : ℕ)
  /-- The section of `a.mu` in `activityLease.release`. -/
  | activitySection (kind : Activity)

/-- The answers of the admission steps. -/
@[reducible] def AdmInstr.Resp : AdmInstr → Type
  | .capacityAcquire _ => Except ℕ Unit
  | .openSection _ _ => Except LimitError ℕ
  | .lockLease _ => ConnectionLeaseState
  | .markReleased _ => Option ConnectionLease
  | .acquireActivity _ => Except LimitError ℕ
  | .markActivity _ => Option Activity
  | _ => Unit

abbrev AdmProg := Prog AdmInstr AdmInstr.Resp

namespace Admission

def setLease (s : Admission) (l : ℕ) (lease : ConnectionLease) : Admission :=
  { s with leases := s.leases.set l lease }

def setListener (s : Admission) (j : ℕ) (c : ListenerCapacity) : Admission :=
  { s with listeners := s.listeners.set j c }

@[simp] lemma setLease_leases (s : Admission) (l : ℕ) (lease : ConnectionLease) :
    (s.setLease l lease).leases = s.leases.set l lease := rfl

@[simp] lemma setLease_ctl (s : Admission) (l : ℕ) (lease : ConnectionLease) :
    (s.setLease l lease).ctl = s.ctl := rfl

@[simp] lemma setListener_leases (s : Admission) (j : ℕ) (c : ListenerCapacity) :
    (s.setListener j c).leases = s.leases := rfl

@[simp] lemma setListener_ctl (s : Admission) (j : ℕ) (c : ListenerCapacity) :
    (s.setListener j c).ctl = s.ctl := rfl

/-- The effect of one admission step; `none` when it has to wait for a lease's mutex (or names
something that does not exist). -/
def exec (s : Admission) : (i : AdmInstr) → Option (Admission × i.Resp)
  | .capacityAcquire j =>
    match s.listeners[j]? with
    | none => none
    | some c =>
      if 0 < c.limit ∧ c.limit ≤ c.used then
        some (s.setListener j { c with rejected := c.rejected + 1 }, .error c.limit)
      else some (s.setListener j { c with used := c.used + 1 }, .ok ())
  | .capacityRelease j =>
    match s.listeners[j]? with
    | none => none
    | some c => some (s.setListener j { c with used := c.used - 1 }, ())
  | .rejectListener =>
    some ({ s with ctl := { s.ctl with rejectedListeners := s.ctl.rejectedListeners + 1 } }, ())
  | .openSection peer listener =>
    match s.ctl.admitOpening peer with
    | .error e => some ({ s with ctl := s.ctl.reject e }, .error e)
    | .ok ctl =>
      some ({ s with ctl, leases := s.leases ++ [{ peer, listener }] }, .ok s.leases.length)
  | .lockLease l =>
    match s.leases[l]? with
    | none => none
    | some lease =>
      if lease.mu then none else some (s.setLease l { lease with mu := true }, lease.state)
  | .unlockLease l =>
    match s.leases[l]? with
    | none => none
    | some lease => some (s.setLease l { lease with mu := false }, ())
  | .activateSection l =>
    match s.leases[l]? with
    | none => none
    | some lease =>
      some ({ s with ctl := (s.ctl.decr .opening).incr .active }.setLease l
        { lease with state := .active, mu := false }, ())
  | .drainSection l =>
    match s.leases[l]? with
    | none => none
    | some lease =>
      some ({ s with ctl := (s.ctl.decr .active).incr .draining }.setLease l
        { lease with state := .draining, mu := false }, ())
  | .markReleased l =>
    match s.leases[l]? with
    | none => none
    | some lease =>
      if lease.mu then none
      else if lease.state = .released then some (s, none)
      else some (s.setLease l { lease with state := .released }, some lease)
  | .releaseSection state peer => some ({ s with ctl := (s.ctl.decr state).dropPeer peer }, ())
  | .acquireActivity kind =>
    if 0 < s.ctl.activityLimit kind ∧ s.ctl.activityLimit kind ≤ s.ctl.ongoing kind then
      let e : LimitError := ⟨AdmissionController.limitKind kind, s.ctl.activityLimit kind⟩
      some ({ s with ctl := s.ctl.reject e }, .error e)
    else
      some ({ s with
        ctl := s.ctl.setOngoing (s.ctl.ongoing kind + 1) kind
        activities := s.activities ++ [{ kind }] }, .ok s.activities.length)
  | .markActivity l =>
    match s.activities[l]? with
    | none => none
    | some a =>
      if a.released then some (s, none)
      else some ({ s with activities := s.activities.set l { a with released := true } },
        some a.kind)
  | .activitySection kind =>
    some ({ s with ctl := s.ctl.setOngoing (s.ctl.ongoing kind - 1) kind }, ())

end Admission

/-! ### The steps as programs -/

namespace Adm

def capacityAcquire (j : ℕ) : AdmProg (Except ℕ Unit) := perform (AdmInstr.capacityAcquire j)

def capacityRelease (j : ℕ) : AdmProg Unit := perform (AdmInstr.capacityRelease j)

def rejectListener : AdmProg Unit := perform AdmInstr.rejectListener

def openSection (peer : String) (listener : Option ℕ) : AdmProg (Except LimitError ℕ) :=
  perform (AdmInstr.openSection peer listener)

def lockLease (l : ℕ) : AdmProg ConnectionLeaseState := perform (AdmInstr.lockLease l)

def unlockLease (l : ℕ) : AdmProg Unit := perform (AdmInstr.unlockLease l)

def activateSection (l : ℕ) : AdmProg Unit := perform (AdmInstr.activateSection l)

def drainSection (l : ℕ) : AdmProg Unit := perform (AdmInstr.drainSection l)

def markReleased (l : ℕ) : AdmProg (Option ConnectionLease) := perform (AdmInstr.markReleased l)

def releaseSection (state : ConnectionLeaseState) (peer : String) : AdmProg Unit :=
  perform (AdmInstr.releaseSection state peer)

def acquireActivity (kind : Activity) : AdmProg (Except LimitError ℕ) :=
  perform (AdmInstr.acquireActivity kind)

def markActivity (l : ℕ) : AdmProg (Option Activity) := perform (AdmInstr.markActivity l)

def activitySection (kind : Activity) : AdmProg Unit := perform (AdmInstr.activitySection kind)

end Adm

open Adm

/-! ### The functions of the source -/

/-- `listener.release()`, which does nothing on a nil listener. -/
def listenerRelease : Option ℕ → AdmProg Unit
  | none => pure ()
  | some j => capacityRelease j

/-- The part of `acquireOpeningWithListener` after the listener has been charged. -/
def acquireCharged (peer : String) (listener : Option ℕ) : AdmProg (Except LimitError ℕ) := do
  match ← openSection peer listener with
  | .ok lease => pure (.ok lease)
  | .error e =>
    listenerRelease listener
    pure (.error e)

def acquireOpeningWithListener (peer : String) (listener : Option ℕ) :
    AdmProg (Except LimitError ℕ) := do
  match listener with
  | none => acquireCharged peer none
  | some j =>
    match ← capacityAcquire j with
    | .ok _ => acquireCharged peer (some j)
    | .error limit =>
      rejectListener
      pure (.error ⟨.connectionsPerListener, limit⟩)

def acquireOpening (peer : String) : AdmProg (Except LimitError ℕ) :=
  acquireOpeningWithListener peer none

namespace ConnectionLease

def activate (l : ℕ) : AdmProg Bool := do
  match ← lockLease l with
  | .active =>
    unlockLease l
    pure true
  | .draining | .released =>
    unlockLease l
    pure false
  | .opening =>
    activateSection l
    pure true

def beginDrain (l : ℕ) : AdmProg Bool := do
  match ← lockLease l with
  | .active =>
    drainSection l
    pure true
  | _ =>
    unlockLease l
    pure false

def release (l : ℕ) : AdmProg Unit := do
  match ← markReleased l with
  | none => pure ()
  | some old =>
    releaseSection old.state old.peer
    listenerRelease old.listener

end ConnectionLease

def acquireConnection (peer : String) : AdmProg (Except LimitError ℕ) := do
  match ← acquireOpening peer with
  | .error e => pure (.error e)
  | .ok lease =>
    let _ ← ConnectionLease.activate lease
    pure (.ok lease)

def acquireHandshake : AdmProg (Except LimitError ℕ) := acquireActivity .handshake

def acquireUpgrade : AdmProg (Except LimitError ℕ) := acquireActivity .upgrade

def ActivityLease.release (l : ℕ) : AdmProg Bool := do
  match ← markActivity l with
  | none => pure false
  | some kind =>
    activitySection kind
    pure true

end Ogrenet
