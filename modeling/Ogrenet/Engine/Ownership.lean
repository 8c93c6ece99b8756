import Ogrenet.Engine.Sections

/-!
# Who has a lease

Every lease that is not released is in exactly one place: in the hands of one goroutine, in the map
of leases of one session, in one holder of an HTTP listener or in one `wsDialAdmission`.
-/

namespace Ogrenet

open Interleaving Interleaving.Prog

/-! ### Places -/

/-- One for the lease that is there. -/
def ifOne (o : Option ℕ) (l : ℕ) : ℕ := if o = some l then 1 else 0

def SessionEntry.holds (l : ℕ) (s : SessionEntry) : ℕ := if s.lease = some l then 1 else 0

def ListenerEntry.holds (l : ℕ) (j : ListenerEntry) : ℕ :=
  total (HTTPConnLease.holds l) j.tracker.holders

def WSDialAdmission.holds (l : ℕ) (d : WSDialAdmission) : ℕ := if d.lease = some l then 1 else 0

/-- The number of places outside of the goroutines that have the lease. -/
def Engine.held (e : Engine) (l : ℕ) : ℕ :=
  total (SessionEntry.holds l) e.sessions + total (ListenerEntry.holds l) e.listeners +
    total (WSDialAdmission.holds l) e.cells

def Custody.owns (l : ℕ) (c : Custody) : ℕ := if c.holds l then 1 else 0

section Places

variable {e : Engine} {l : ℕ}

lemma Engine.held_setSession {k : ℕ} {s : SessionEntry} (s' : SessionEntry)
    (h : e.sessions[k]? = some s) :
    (e.setSession k s').held l + s.holds l = e.held l + s'.holds l := by
  have := total_set (f := SessionEntry.holds l) s' h
  simp only [held, setSession]
  omega

lemma Engine.held_setListener {j : ℕ} {L : ListenerEntry} (L' : ListenerEntry)
    (h : e.listeners[j]? = some L) :
    (e.setListener j L').held l + L.holds l = e.held l + L'.holds l := by
  have := total_set (f := ListenerEntry.holds l) L' h
  simp only [held, setListener]
  omega

lemma Engine.held_setListener_eq {j : ℕ} {L L' : ListenerEntry} (h : e.listeners[j]? = some L)
    (hL : L'.tracker = L.tracker) : (e.setListener j L').held l = e.held l := by
  have hset := held_setListener (l := l) L' h
  rw [ListenerEntry.holds, ListenerEntry.holds, hL] at hset
  omega

lemma Engine.held_setCell {d : ℕ} {a : WSDialAdmission} (a' : WSDialAdmission)
    (h : e.cells[d]? = some a) : (e.setCell d a').held l + a.holds l = e.held l + a'.holds l := by
  have := total_set (f := WSDialAdmission.holds l) a' h
  simp only [held, setCell]
  omega

/-- A cell that is emptied gives its lease away. -/
lemma Engine.held_setCell_none {d : ℕ} {a : WSDialAdmission} (isOver : Bool)
    (h : e.cells[d]? = some a) :
    (e.setCell d { a with lease := none, physical := none, isOver }).held l + ifOne a.lease l =
      e.held l :=
  held_setCell { a with lease := none, physical := none, isOver } h

end Places

/-! ### Hand-overs -/

namespace EInstr

/-- The lease that the step hands out. -/
def opens : (i : EInstr) → i.Resp → Option ℕ
  | .adm i, r => i.opens r
  | _, _ => none

/-- The lease that the step marks released. -/
def frees : (i : EInstr) → i.Resp → Option ℕ
  | .adm i, r => i.frees r
  | _, _ => none

end EInstr

lemma Custody.owns_eq (l : ℕ) (c : Custody) : c.owns l = ifOne (c.own.map Prod.fst) l := rfl

section HandOver

variable {e e' : Engine} {c : Custody} {l : ℕ}

/-- An admission step moves leases between the controller and the goroutine. -/
lemma Custody.owns_adm {i : AdmInstr} {r : i.Resp} (hreq : c.admReq i) :
    (c.upd (.adm i) r).owns l + ifOne (i.frees r) l = c.owns l + ifOne (i.opens r) l := by
  simp only [owns_eq, upd]
  cases i with
  | openSection peer listener =>
    obtain ⟨hown, -⟩ := hreq
    cases r <;> simp [admUpd, AdmInstr.frees, AdmInstr.opens, ifOne, hown]
  | lockLease m =>
    simp only [admUpd, AdmInstr.frees, AdmInstr.opens]
    split
    · rename_i hm
      rw [hm]
      rfl
    · rfl
  | activateSection m =>
    rw [show c.own.map Prod.fst = some m from hreq]
    rfl
  | markReleased m =>
    cases r with
    | none => rfl
    | some old =>
      rw [show c.own.map Prod.fst = some m from hreq]
      exact Nat.add_comm _ _
  | _ => rfl

/-- A step on a tracker moves leases between a holder and the goroutine. -/
lemma Custody.owns_trk {tr tr' : HTTPConnTracker} {j : ℕ} {i : TrkInstr} {r : i.Resp}
    (hreq : c.trkReq i) (hx : tr.exec i = some (tr', r)) :
    total (HTTPConnLease.holds l) tr'.holders + (c.upd (.trk j i) r).owns l =
      total (HTTPConnLease.holds l) tr.holders + c.owns l := by
  simp only [owns_eq, upd]
  -- both sections that move a holder out of `Held`
  have hmove {h : ℕ} {holder : HTTPConnLease} {st : HTTPConnLeaseState}
      (hh : tr.holders[h]? = some holder) (hheld : holder.state = .held) (hst : st ≠ .held) :
      total (HTTPConnLease.holds l) (tr.move h holder st).holders + ifOne (some holder.lease) l =
        total (HTTPConnLease.holds l) tr.holders := by
    have hset := total_set (f := HTTPConnLease.holds l) { holder with state := st } hh
    simp only [HTTPConnLease.holds, hheld, hst, false_and, if_false, true_and] at hset
    simpa [ifOne, HTTPConnTracker.move] using hset
  cases i with
  | register conn m =>
    cases hx
    simp only [total_append, total_cons, total_nil, trkUpd]
    rw [show c.own.map Prod.fst = some m from hreq.1]
    simp [HTTPConnLease.holds, ifOne]
  | takeSection h | releaseSection h =>
    simp only [HTTPConnTracker.exec] at hx
    split at hx
    · cases hx
    · rename_i holder hh
      split at hx
      · rename_i hheld
        cases hx
        rw [show c.own = none from hreq]
        exact hmove hh hheld (by simp)
      · cases hx
        rfl
  | rebind oldConn newConn =>
    simp only [HTTPConnTracker.exec] at hx
    split at hx <;> cases hx <;> rfl
  | detachHolder h =>
    simp only [HTTPConnTracker.exec] at hx
    split at hx <;> cases hx <;> rfl
  | lookup conn | all =>
    cases hx
    rfl

/-- A step moves leases between the places, the hands of its goroutine and the controller. -/
lemma Engine.held_exec {x : EChoice} {i : EInstr} {r : i.Resp} (hreq : c.req i)
    (hx : e.exec x i = some (e', r)) :
    e'.held l + (c.upd i r).owns l + ifOne (i.frees r) l =
      e.held l + c.owns l + ifOne (i.opens r) l := by
  cases i with
  | adm i =>
    have howns := Custody.owns_adm (l := l) (r := r) hreq.2
    obtain ⟨a, -, ha⟩ := Option.map_eq_some_iff.mp hx
    cases ha
    have hheld : ({ e with adm := a.1 } : Engine).held l = e.held l := rfl
    simp only [EInstr.frees, EInstr.opens]
    omega
  | trk j i =>
    simp only [Engine.exec] at hx
    split at hx
    · cases hx
    · rename_i L hL
      obtain ⟨a, ha, heq⟩ := Option.map_eq_some_iff.mp hx
      cases heq
      have howns := Custody.owns_trk (l := l) (j := j) hreq ha
      have hset := held_setListener (l := l) { L with tracker := a.1 } hL
      simp only [ListenerEntry.holds] at hset
      simp only [EInstr.frees, EInstr.opens]
      omega
  | trackSession kind m =>
    cases hx
    rw [Custody.owns_eq, Custody.owns_eq, show c.own = _ from hreq.2.1]
    simp only [held, total_append, total_cons, total_nil]
    simp [SessionEntry.holds, ifOne, Custody.upd, EInstr.frees, EInstr.opens]
    omega
  | untrackSession k =>
    simp only [Engine.exec] at hx
    split at hx <;> cases hx
    rename_i s hs
    have hset := held_setSession (l := l) { s with tracked := false, lease := none } hs
    rw [Custody.owns_eq, Custody.owns_eq, show c.own = none from hreq.2.1]
    simp only [SessionEntry.holds] at hset
    cases hl : s.lease <;>
      simp_all [ifOne, Custody.upd, EInstr.frees, EInstr.opens]
  | newListener scheme =>
    cases hx
    simp only [held, total_append, total_cons, total_nil]
    rfl
  | newCell =>
    cases hx
    simp only [held, total_append, total_cons, total_nil]
    rfl
  | cellSet d m physical =>
    simp only [Engine.exec] at hx
    split at hx
    · cases hx
    · rename_i a ha
      split at hx
      · cases hx
        rfl
      · rename_i hfree
        cases hx
        have hset := held_setCell (l := l) { a with lease := some m, physical := some physical } ha
        rw [Custody.owns_eq, Custody.owns_eq, show c.own.map Prod.fst = some m from hreq.1]
        simp only [WSDialAdmission.holds] at hset
        cases hl : a.lease <;>
          simp_all [ifOne, Custody.upd, EInstr.frees, EInstr.opens]
  | cellTake d | cellRelease d =>
    simp only [Engine.exec] at hx
    split at hx <;> cases hx
    rename_i a ha
    have howns : ifOne ((a.lease.map fun l => (l, false)).map Prod.fst) l = ifOne a.lease l := by
      cases a.lease <;> rfl
    rw [Custody.owns_eq, Custody.owns_eq, show c.own = none from hreq.1]
    show _ + ifOne ((a.lease.map fun l => (l, false)).map Prod.fst) l + 0 = _
    rw [howns]
    exact held_setCell_none _ ha
  | closeSessionDone k =>
    simp only [Engine.exec] at hx
    split at hx
    · cases hx
    · rename_i s hs
      split at hx <;> cases hx
      have hset := held_setSession (l := l) { s with done := true } hs
      exact congrArg (· + c.owns l) (Nat.add_right_cancel hset)
  | _ =>
    simp only [Engine.exec] at hx
    repeat' split at hx
    all_goals cases hx
    all_goals first
      | rfl
      | (apply congrArg (· + c.owns l)
         apply held_setListener_eq
         · assumption
         · rfl)

/-! ### The states of leases -/

variable {s s' : Admission}

lemma Admission.stateOf_length : s.stateOf s.leases.length = none := by simp [stateOf]

/-- What a step that writes the state of a lease finds. -/
inductive LeaseWrite (s : Admission) (c : Custody) (l : ℕ) : ConnectionLeaseState → Prop
  | opened (h : s.stateOf l = none) : LeaseWrite s c l .opening
  | activated (h : s.stateOf l = some .opening) (hc : c.holds l) : LeaseWrite s c l .active
  | drained (h : s.stateOf l = some .active) (hc : l ∈ c.drains) : LeaseWrite s c l .draining
  | released {old : ConnectionLeaseState} (h : s.stateOf l = some old) (hold : old ≠ .released)
      (hc : c.holds l) : LeaseWrite s c l .released

lemma leaseWrite_of_exec {cs : List Custody} {t : ℕ} {i : AdmInstr} {r : i.Resp}
    {st : ConnectionLeaseState} (hL : Ledger s (cs.map Custody.hold)) (hc : cs[t]? = some c)
    (hreq : c.req (.adm i)) (hx : s.exec i = some (s', r)) (hw : i.writes r = some (l, st)) :
    LeaseWrite s c l st := by
  have hhold : (cs.map Custody.hold)[t]? = some c.hold := by rw [List.getElem?_map, hc]; rfl
  obtain ⟨hreq, hadm⟩ := hreq
  cases i with
  | openSection peer listener =>
    simp only [Admission.exec] at hx
    split at hx
    · cases hx
      cases hw
    · cases hx
      cases hw
      exact .opened Admission.stateOf_length
  | activateSection m =>
    cases hw
    obtain ⟨lease, hl, hs⟩ := hL.mutexes.locked _ (List.mem_of_getElem? hhold) _ _ hreq
    exact .activated (by rw [Admission.stateOf, hl, Option.map_some, hs]) hadm
  | drainSection m =>
    cases hw
    obtain ⟨lease, hl, hs⟩ := hL.mutexes.locked _ (List.mem_of_getElem? hhold) _ _ hreq
    exact .drained (by rw [Admission.stateOf, hl, Option.map_some, hs]) hadm
  | markReleased m =>
    simp only [Admission.exec] at hx
    split at hx
    · cases hx
    · rename_i lease hl
      split at hx
      · cases hx
      · split at hx
        · cases hx
          cases hw
        · rename_i hst
          cases hx
          cases hw
          exact .released (by rw [Admission.stateOf, hl, Option.map_some]) hst hadm
  | _ => cases hw

lemma AdmInstr.opens_eq (i : AdmInstr) (r : i.Resp) : i.opens r = match i.writes r with
    | some (l, .opening) => some l
    | _ => none := by
  cases i with
  | openSection peer listener => cases r <;> rfl
  | markReleased m => cases r <;> rfl
  | _ => rfl

lemma AdmInstr.frees_eq (i : AdmInstr) (r : i.Resp) : i.frees r = match i.writes r with
    | some (l, .released) => some l
    | _ => none := by
  cases i with
  | openSection peer listener => cases r <;> rfl
  | markReleased m => cases r <;> rfl
  | _ => rfl

/-- A lease is alive from the step that hands it out to the one that marks it released. -/
lemma Admission.live_exec {cs : List Custody} {t : ℕ} {i : AdmInstr} {r : i.Resp}
    (hL : Ledger s (cs.map Custody.hold)) (hc : cs[t]? = some c) (hreq : c.req (.adm i))
    (hx : s.exec i = some (s', r)) :
    s'.live l + ifOne (i.frees r) l = s.live l + ifOne (i.opens r) l := by
  have hst := stateOf_exec hx
  rw [AdmInstr.frees_eq, AdmInstr.opens_eq]
  cases hw : i.writes r with
  | none =>
    rw [hw] at hst
    simp only [live, hst]
  | some w =>
    obtain ⟨m, st⟩ := w
    rw [hw] at hst
    by_cases hlm : l = m
    · subst hlm
      have hwrite := leaseWrite_of_exec hL hc hreq hx hw
      simp only [live, hst, Function.update_self]
      cases hwrite with
      | opened h => simp [h, ifOne]
      | activated h _ => simp [h]
      | drained h _ => simp [h]
      | @released old h hold _ => cases old <;> simp_all [ifOne]
    · have hne : m ≠ l := fun h => hlm h.symm
      simp only [live, hst, Function.update_of_ne hlm]
      cases st <;> simp [ifOne, hne]

end HandOver

/-! ### The invariant -/

structure Owned (e : Engine) (cs : List Custody) : Prop where
  owners : ∀ l, total (Custody.owns l) cs + e.held l = e.adm.live l
  /-- A lease that was activated stays active in hand. -/
  active : ∀ c ∈ cs, ∀ l, c.own = some (l, true) → e.adm.stateOf l = some .active
  tracked : ∀ s ∈ e.sessions, s.tracked = s.lease.isSome
  mapped : ∀ s ∈ e.sessions, ∀ l, s.lease = some l →
    l = s.admitted ∧ (e.adm.stateOf l = some .active ∨ e.adm.stateOf l = some .draining)
  undone : ∀ s ∈ e.sessions, s.done = false → s.lease = some s.admitted
  closed : ∀ c ∈ cs, ∀ k, c.closed = some k → ∃ s, e.sessions[k]? = some s ∧ s.done = true
  drains : ∀ c ∈ cs, ∀ l ∈ c.drains, l ∈ e.leases
  /-- Draining begins in the maps and ends in the hands of the goroutine that removes the
  session. -/
  draining : ∀ l, e.adm.stateOf l = some .draining →
    l ∈ e.leases ∨ ∃ c ∈ cs, c.holds l ∧ c.closed ≠ none

namespace Owned

variable {e e' : Engine} {cs : List Custody} {t : ℕ} {c : Custody} {l : ℕ}

lemma live_le_one (s : Admission) (l : ℕ) : s.live l ≤ 1 := by
  unfold Admission.live
  split <;> decide

lemma holds_pos (h : c.holds l) : c.owns l = 1 := if_pos h

/-- Two goroutines do not have the same lease. -/
lemma alone (h : Owned e cs) (hc : cs[t]? = some c) (hl : c.holds l) {t' : ℕ} {c' : Custody}
    (hc' : cs[t']? = some c') (hl' : c'.holds l) : t = t' := by
  by_contra hne
  have hle := add_le_total (f := Custody.owns l) hne hc hc'
  rw [holds_pos hl, holds_pos hl'] at hle
  have howners := h.owners l
  have hlive := live_le_one e.adm l
  omega

/-- A lease in hand is in no map. -/
lemma not_mapped (h : Owned e cs) (hc : c ∈ cs) (hl : c.holds l) : l ∉ e.leases := by
  intro hmem
  obtain ⟨s, hs, hsl⟩ := List.mem_filterMap.mp hmem
  have hle := le_total (f := Custody.owns l) hc
  have hle' := le_total (f := SessionEntry.holds l) hs
  rw [holds_pos hl] at hle
  rw [SessionEntry.holds, if_pos hsl] at hle'
  have howners := h.owners l
  have hlive := live_le_one e.adm l
  simp only [Engine.held] at howners
  omega

/-- A lease in hand is not released. -/
lemma stateOf_hand (h : Owned e cs) (hc : c ∈ cs) (hl : c.holds l) :
    ∃ st, e.adm.stateOf l = some st ∧ st ≠ .released := by
  have hle := le_total (f := Custody.owns l) hc
  rw [holds_pos hl] at hle
  have hlive := h.owners l
  have hpos : 0 < e.adm.live l := by omega
  unfold Admission.live at hpos
  split at hpos
  · cases hpos
  · cases hpos
  · rename_i st hne hst
    exact ⟨st, hst, hne⟩

end Owned

end Ogrenet
