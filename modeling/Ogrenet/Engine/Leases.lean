import Ogrenet.Admission.Steps

/-!
# What admission steps do to a lease

Each admission step writes the state of one lease at most, and the ledger says what it was before.
-/

namespace Ogrenet

open Interleaving

namespace Admission

def stateOf (s : Admission) (l : ℕ) : Option ConnectionLeaseState :=
  (s.leases[l]?).map ConnectionLease.state

/-- One for a lease that is not released. -/
def live (s : Admission) (l : ℕ) : ℕ :=
  match s.stateOf l with
  | none | some .released => 0
  | some _ => 1

end Admission

namespace AdmInstr

/-- The lease that the step hands out. -/
def opens : (i : AdmInstr) → i.Resp → Option ℕ
  | .openSection _ _, .ok l => some l
  | _, _ => none

/-- The lease that the step marks released. -/
def frees : (i : AdmInstr) → i.Resp → Option ℕ
  | .markReleased l, some _ => some l
  | _, _ => none

/-- The lease whose state the step writes, and the new state. -/
def writes : (i : AdmInstr) → i.Resp → Option (ℕ × ConnectionLeaseState)
  | .openSection _ _, .ok l => some (l, .opening)
  | .activateSection l, _ => some (l, .active)
  | .drainSection l, _ => some (l, .draining)
  | .markReleased l, some _ => some (l, .released)
  | _, _ => none

end AdmInstr

variable {s s' : Admission}

lemma Admission.stateOf_setLease {l : ℕ} {lease lease' : ConnectionLease}
    (hl : s.leases[l]? = some lease) :
    (s.setLease l lease').stateOf = Function.update s.stateOf l (some lease'.state) := by
  have hlt : l < s.leases.length := (List.getElem?_eq_some_iff.mp hl).1
  funext i
  by_cases hi : i = l
  · subst hi
    simp [stateOf, List.getElem?_set_self hlt]
  · simp [stateOf, Function.update_of_ne hi, List.getElem?_set_ne (Ne.symm hi)]

lemma Admission.stateOf_append {lease : ConnectionLease} (hs : s'.leases = s.leases ++ [lease]) :
    s'.stateOf = Function.update s.stateOf s.leases.length (some lease.state) := by
  funext i
  rcases Nat.lt_trichotomy i s.leases.length with hi | hi | hi
  · simp [stateOf, hs, Function.update_of_ne (Nat.ne_of_lt hi), List.getElem?_append_left hi]
  · subst hi
    simp [stateOf, hs]
  · rw [Function.update_of_ne (Nat.ne_of_gt hi)]
    have hlen : (s.leases ++ [lease]).length ≤ i := by
      rw [List.length_append, List.length_singleton]
      exact hi
    simp only [stateOf, hs, List.getElem?_eq_none hlen, List.getElem?_eq_none (Nat.le_of_lt hi)]

/-- A step writes what `writes` says, and a write of the mutex leaves the state. -/
lemma Admission.stateOf_exec {i : AdmInstr} {r : i.Resp} (h : s.exec i = some (s', r)) :
    s'.stateOf = match i.writes r with
      | none => s.stateOf
      | some (l, st) => Function.update s.stateOf l (some st) := by
  have hsame {l : ℕ} {lease : ConnectionLease} {b : Bool} (hl : s.leases[l]? = some lease) :
      (s.setLease l { lease with mu := b }).stateOf = s.stateOf := by
    rw [stateOf_setLease hl]
    refine Function.update_eq_self_iff.mpr ?_
    simp [stateOf, hl]
  cases i with
  | capacityAcquire j =>
    simp only [exec] at h
    split at h
    · cases h
    · split at h <;> cases h <;> rfl
  | capacityRelease j =>
    simp only [exec] at h
    split at h <;> cases h
    rfl
  | rejectListener =>
    cases h
    rfl
  | openSection peer listener =>
    simp only [exec] at h
    split at h
    · cases h
      rfl
    · cases h
      exact @stateOf_append _ _ { peer, listener } rfl
  | lockLease l =>
    simp only [exec] at h
    split at h
    · cases h
    · rename_i hl
      split at h <;> cases h
      exact hsame hl
  | unlockLease l =>
    simp only [exec] at h
    split at h <;> cases h
    rename_i hl
    exact hsame hl
  | activateSection l =>
    simp only [exec] at h
    split at h <;> cases h
    rename_i hl
    exact stateOf_setLease (s := { s with ctl := _ }) hl
  | drainSection l =>
    simp only [exec] at h
    split at h <;> cases h
    rename_i hl
    exact stateOf_setLease (s := { s with ctl := _ }) hl
  | markReleased l =>
    simp only [exec] at h
    split at h
    · cases h
    · rename_i hl
      split at h
      · cases h
      · split at h <;> cases h
        · rfl
        · exact stateOf_setLease hl
  | releaseSection state peer =>
    cases h
    rfl
  | acquireActivity kind =>
    simp only [exec] at h
    split at h <;> cases h <;> rfl
  | markActivity l =>
    simp only [exec] at h
    split at h
    · cases h
    · split at h <;> cases h <;> rfl
  | activitySection kind =>
    cases h
    rfl

end Ogrenet
