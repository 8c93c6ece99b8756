import Mathlib.Data.List.AList
import Ogrenet.Interleaving.Prog

/-!
# Leases of HTTP connections

The embedding of `httpConnLease` and `httpConnTracker` in `transport/websocket_server_admission.go`.
A connection that an HTTP listener has accepted holds its admission lease through an
`httpConnLease`, a holder, until the upgrade handler takes the lease over or the connection ends.

A step is a section of `httpConnLease.mu` or of `httpConnTracker.mu`. Holders are named by their
position in the list of all holders a tracker has made, and connections by numbers.
-/

namespace Ogrenet

open Interleaving Interleaving.Prog

inductive HTTPConnLeaseState where
  | held
  | transferred
  | released
  deriving DecidableEq, Repr

structure HTTPConnLease where
  lease : ℕ
  physical : ℕ
  state : HTTPConnLeaseState := .held
  deriving DecidableEq, Repr

/-- How often the holder has the lease. -/
def HTTPConnLease.holds (l : ℕ) (h : HTTPConnLease) : ℕ :=
  if h.state = .held ∧ h.lease = l then 1 else 0

/-- `leases` takes a connection to its holder and `byLease` a holder to its connection. -/
structure HTTPConnTracker where
  holders : List HTTPConnLease := []
  leases : AList fun _ : ℕ => ℕ := ∅
  byLease : AList fun _ : ℕ => ℕ := ∅

/-- The atomic steps on a tracker and its holders. -/
inductive TrkInstr where
  | register (conn lease : ℕ)
  | lookup (conn : ℕ)
  | rebind (oldConn newConn : ℕ)
  | detachHolder (h : ℕ)
  /-- The section of `t.mu` in `closeAll`: the holders that are registered. -/
  | all
  /-- The section of `l.mu` in `takeWithPhysical`. -/
  | takeSection (h : ℕ)
  /-- The section of `l.mu` in `release`. -/
  | releaseSection (h : ℕ)
  deriving DecidableEq, Repr

/-- The answers of the tracker's steps. -/
@[reducible] def TrkInstr.Resp : TrkInstr → Type
  | .register _ _ => ℕ
  | .lookup _ => Option ℕ
  | .rebind _ _ => Bool
  | .detachHolder _ => Unit
  | .all => List ℕ
  | .takeSection _ => Option (ℕ × ℕ)
  | .releaseSection _ => Option ℕ

abbrev TrkProg := Prog TrkInstr TrkInstr.Resp

namespace HTTPConnTracker

/-- Moves the holder `h`, if it is still held, to another state. -/
def move (t : HTTPConnTracker) (h : ℕ) (holder : HTTPConnLease) (state : HTTPConnLeaseState) :
    HTTPConnTracker :=
  { t with holders := t.holders.set h { holder with state } }

/-- The effect of one step; `none` when it names a holder that does not exist. -/
def exec (t : HTTPConnTracker) : (i : TrkInstr) → Option (HTTPConnTracker × i.Resp)
  | .register conn lease =>
    let h := t.holders.length
    some ({ holders := t.holders ++ [{ lease, physical := conn }]
            leases := t.leases.insert conn h
            byLease := t.byLease.insert h conn }, h)
  | .lookup conn => some (t, t.leases.lookup conn)
  | .rebind oldConn newConn =>
    match t.leases.lookup oldConn with
    | none => some (t, false)
    | some h =>
      some ({ t with
        leases := (t.leases.erase oldConn).insert newConn h
        byLease := t.byLease.insert h newConn }, true)
  | .detachHolder h =>
    match t.byLease.lookup h with
    | none => some (t, ())
    | some conn =>
      some ({ t with byLease := t.byLease.erase h, leases := t.leases.erase conn }, ())
  | .all => some (t, t.leases.entries.map Sigma.snd)
  | .takeSection h =>
    match t.holders[h]? with
    | none => none
    | some holder =>
      if holder.state = .held then
        some (t.move h holder .transferred, some (holder.lease, holder.physical))
      else some (t, none)
  | .releaseSection h =>
    match t.holders[h]? with
    | none => none
    | some holder =>
      if holder.state = .held then some (t.move h holder .released, some holder.lease)
      else some (t, none)

end HTTPConnTracker

/-! ### The functions of the source -/

namespace Trk

def register (conn lease : ℕ) : TrkProg ℕ := perform (TrkInstr.register conn lease)

def lookup (conn : ℕ) : TrkProg (Option ℕ) := perform (TrkInstr.lookup conn)

def rebind (oldConn newConn : ℕ) : TrkProg Bool := perform (TrkInstr.rebind oldConn newConn)

def detachHolder (h : ℕ) : TrkProg Unit := perform (TrkInstr.detachHolder h)

def all : TrkProg (List ℕ) := perform TrkInstr.all

def takeSection (h : ℕ) : TrkProg (Option (ℕ × ℕ)) := perform (TrkInstr.takeSection h)

def releaseSection (h : ℕ) : TrkProg (Option ℕ) := perform (TrkInstr.releaseSection h)

end Trk

open Trk

/-- `takeWithPhysical`, which gives nothing on a nil holder. -/
def HTTPConnLease.takeWithPhysical : Option ℕ → TrkProg (Option (ℕ × ℕ))
  | none => pure none
  | some h => do
    match ← takeSection h with
    | none => return none
    | some taken =>
      detachHolder h
      return some taken

/-- `httpConnLease.release` up to its last statement `lease.release()`: the lease that is left to
release. -/
def HTTPConnLease.release (h : ℕ) : TrkProg (Option ℕ) := do
  match ← releaseSection h with
  | none => return none
  | some lease =>
    detachHolder h
    return some lease

/-- `releaseConn`, likewise. -/
def HTTPConnTracker.releaseConn (conn : ℕ) : TrkProg (Option ℕ) := do
  match ← lookup conn with
  | none => return none
  | some h => HTTPConnLease.release h

end Ogrenet
