import Ogrenet.Bimap.Inverse
import Ogrenet.Engine.Tracker
import Ogrenet.Interleaving.Outline

/-!
# One owner for the lease of an HTTP connection

Any number of calls of `register`, `rebind`, `takeWithPhysical`, `release`, `releaseConn` and
`closeAll` run on one `httpConnTracker`. Its two maps stay inverse to each other, the lease of a
registered connection is handed over or released but once, and a holder that has left `held` has
left the maps when the call that moved it goes on.
-/

namespace Ogrenet

open Interleaving Interleaving.Prog

/-! ### The machine -/

/-- A step on the tracker, or the call `lease.release()`. -/
inductive HolderInstr where
  | trk (i : TrkInstr)
  | release (lease : ℕ)

@[reducible] def HolderInstr.Resp : HolderInstr → Type
  | .trk i => i.Resp
  | .release _ => Unit

abbrev HolderProg := Prog HolderInstr HolderInstr.Resp

/-- The calls, with a holder or nil where they are methods of a holder. `connState` calls
`releaseConn` when the connection is closed. -/
inductive HolderCall where
  | register (conn lease : ℕ)
  | rebind (oldConn newConn : ℕ)
  | takeWithPhysical (h : Option ℕ)
  | release (h : Option ℕ)
  | releaseConn (conn : ℕ)
  | closeAll

inductive HolderVal where
  | unit
  | holder (h : ℕ)
  | rebound (ok : Bool)
  | taken (r : Option (ℕ × ℕ))

abbrev HolderNext := Next HolderCall HolderVal

namespace Holder

def trk {α : Type} (p : TrkProg α) : HolderProg α := p.lift HolderInstr.trk fun _ r => r

def releaseLease : Option ℕ → HolderProg Unit
  | none => return ()
  | some lease => perform (HolderInstr.release lease)

def release (h : ℕ) : HolderProg Unit := do
  let lease ← trk (HTTPConnLease.release h)
  releaseLease lease

def releaseConn (conn : ℕ) : HolderProg Unit := do
  let lease ← trk (HTTPConnTracker.releaseConn conn)
  releaseLease lease

/-- The loop of `closeAll`. -/
def releaseAll : List ℕ → HolderProg Unit
  | [] => return ()
  | h :: hs => do
    release h
    releaseAll hs

def closeAll : HolderProg Unit := do
  let all ← trk Trk.all
  releaseAll all

end Holder

def HolderCall.body : HolderCall → HolderProg HolderNext
  | .register conn lease => do
    let h ← Holder.trk (Trk.register conn lease)
    return .ret (.holder h)
  | .rebind oldConn newConn => do
    let ok ← Holder.trk (Trk.rebind oldConn newConn)
    return .ret (.rebound ok)
  | .takeWithPhysical h => do
    let r ← Holder.trk (HTTPConnLease.takeWithPhysical h)
    return .ret (.taken r)
  | .release none => return .ret .unit
  | .release (some h) => do
    Holder.release h
    return .ret .unit
  | .releaseConn conn => do
    Holder.releaseConn conn
    return .ret .unit
  | .closeAll => do
    Holder.closeAll
    return .ret .unit

/-- A tracker with the connections that were given to `register` and `rebind`. -/
structure HolderState where
  tracker : HTTPConnTracker := {}
  conns : List ℕ := []

namespace HolderState

def exec (s : HolderState) : (i : HolderInstr) → Option (HolderState × i.Resp)
  | .trk i => (s.tracker.exec i).map fun a => ({ s with tracker := a.1 }, a.2)
  | .release _ => some (s, ())

/-- Connections are registered once, and rebound to new ones; holders come from `register`. -/
def spawn (s : HolderState) : HolderCall → Option HolderState
  | .register conn _ => if conn ∈ s.conns then none else some { s with conns := conn :: s.conns }
  | .rebind _ newConn =>
    if newConn ∈ s.conns then none else some { s with conns := newConn :: s.conns }
  | .takeWithPhysical (some h) | .release (some h) =>
    if h < s.tracker.holders.length then some s else none
  | _ => some s

end HolderState

def holderMachine :
    Machine HolderInstr HolderInstr.Resp HolderCall HolderVal HolderState Unit Empty where
  body := HolderCall.body
  exec s i _ := s.exec i
  spawn := HolderState.spawn
  env s _ := some s

abbrev HolderThread := Thread HolderInstr HolderInstr.Resp HolderCall HolderVal

abbrev HolderProcess := Process HolderInstr HolderInstr.Resp HolderCall HolderVal HolderState

/-! ### What the calls have done -/

abbrev HolderStep := Sigma HolderInstr.Resp

namespace HolderStep

/-- How often the step registers the lease. -/
def registers (l : ℕ) : HolderStep → ℕ
  | ⟨.trk (.register _ m), _⟩ => if m = l then 1 else 0
  | _ => 0

/-- How often the step hands the lease to a caller of `takeWithPhysical`. -/
def hands (l : ℕ) : HolderStep → ℕ
  | ⟨.trk (.takeSection _), some (m, _)⟩ => if m = l then 1 else 0
  | _ => 0

def releases (l : ℕ) : HolderStep → ℕ
  | ⟨.release m, _⟩ => if m = l then 1 else 0
  | _ => 0

/-- How often the step moves the holder out of `held`. -/
def moves (h : ℕ) : HolderStep → ℕ
  | ⟨.trk (.takeSection n), some _⟩ => if n = h then 1 else 0
  | ⟨.trk (.releaseSection n), some _⟩ => if n = h then 1 else 0
  | _ => 0

/-- How often the step takes the lease from its holder for the call to release it. -/
def freed (l : ℕ) : HolderStep → ℕ
  | ⟨.trk (.releaseSection _), some m⟩ => if m = l then 1 else 0
  | _ => 0

end HolderStep

/-- What a call has in hand: the holder that it has moved and not yet taken off the maps, the lease
that it still has to release, and the connection that it has not yet put into the maps. -/
structure HolderCtx where
  moving : Option ℕ := none
  freeing : Option ℕ := none
  claim : Option ℕ := none
  log : List HolderStep := []

namespace HolderCtx

def effect (c : HolderCtx) : HolderStep → HolderCtx
  | ⟨.trk (.register _ _), _⟩ => { c with claim := none }
  | ⟨.trk (.rebind _ _), _⟩ => { c with claim := none }
  | ⟨.trk (.takeSection h), some _⟩ => { c with moving := some h }
  | ⟨.trk (.releaseSection h), some lease⟩ => { c with moving := some h, freeing := some lease }
  | ⟨.trk (.detachHolder _), _⟩ => { c with moving := none }
  | ⟨.release _, _⟩ => { c with freeing := none }
  | _ => c

def upd (i : HolderInstr) (r : i.Resp) (c : HolderCtx) : HolderCtx :=
  { c.effect ⟨i, r⟩ with log := ⟨i, r⟩ :: c.log }

/-- A holder that was moved is taken off the maps next. -/
def req : HolderInstr → HolderCtx → Prop
  | .trk (.register conn _), c => c.moving = none ∧ c.claim = some conn
  | .trk (.rebind _ newConn), c => c.moving = none ∧ c.claim = some newConn
  | .trk (.detachHolder h), c => c.moving = some h
  | .trk (.lookup _), c => c.moving = none
  | .trk .all, c => c.moving = none
  | .trk (.takeSection _), c => c.moving = none ∧ c.freeing = none
  | .trk (.releaseSection _), c => c.moving = none ∧ c.freeing = none
  | .release l, c => c.moving = none ∧ c.freeing = some l

end HolderCtx

/-- The connection that a step puts into the maps. -/
def HolderInstr.places : HolderInstr → Option ℕ
  | .trk (.register conn _) => some conn
  | .trk (.rebind _ newConn) => some newConn
  | _ => none

/-- The connection that a call puts into the maps. -/
def HolderCall.claim : HolderCall → Option ℕ
  | .register conn _ => some conn
  | .rebind _ newConn => some newConn
  | _ => none

def holderOutline :
    Outline HolderInstr HolderInstr.Resp HolderCall HolderVal HolderCtx where
  start l := { claim := l.claim }
  upd := HolderCtx.upd
  req := HolderCtx.req
  ans _ _ _ := True
  pre l c := c = { claim := l.claim }
  post _ _ c := c.moving = none ∧ c.freeing = none

lemma holderOutline_ctx_log (t : HolderThread) : (holderOutline.ctx t).log = t.log := by
  obtain ⟨l, prog, log⟩ := t
  induction log with
  | nil => rfl
  | cons a log ih =>
    rw [Outline.ctx_cons l prog prog]
    exact congrArg (a :: ·) ih

section Programs

variable {c : HolderCtx}

/-- Nothing is in hand. -/
def HolderCtx.Free (c : HolderCtx) : Prop := c.moving = none ∧ c.freeing = none

lemma wp_releaseSection {Q : Unit → HolderCtx → Prop} (h : ℕ) (hc : c.Free)
    (hQ : ∀ c', HolderCtx.Free c' → Q () c') :
    holderOutline.wp (Holder.release h) Q c := by
  refine ⟨hc, ?_⟩
  rintro (_ | lease) -
  · exact hQ _ hc
  · exact ⟨rfl, fun _ _ => ⟨⟨rfl, rfl⟩, fun _ _ => hQ _ ⟨rfl, rfl⟩⟩⟩

lemma wp_releaseAll {Q : Unit → HolderCtx → Prop} (hs : List ℕ) (hc : c.Free)
    (hQ : ∀ c', HolderCtx.Free c' → Q () c') : holderOutline.wp (Holder.releaseAll hs) Q c := by
  induction hs generalizing c with
  | nil => exact hQ c hc
  | cons h hs ih =>
    exact (Outline.wp_bind (Holder.release h) _ _ _).mpr
      (wp_releaseSection h hc fun _ hc' => ih hc')

lemma holderOutline_body (l₀ l : HolderCall) (c : HolderCtx) (hc : holderOutline.pre l c) :
    holderOutline.wp l.body (holderOutline.ends l₀) c := by
  subst hc
  have hfree : HolderCtx.Free { claim := l.claim } := ⟨rfl, rfl⟩
  cases l with
  | register conn lease => exact ⟨⟨rfl, rfl⟩, fun _ _ => hfree⟩
  | rebind oldConn newConn => exact ⟨⟨rfl, rfl⟩, fun _ _ => hfree⟩
  | takeWithPhysical h =>
    cases h with
    | none => exact hfree
    | some h =>
      refine ⟨hfree, ?_⟩
      rintro (_ | taken) -
      · exact hfree
      · exact ⟨rfl, fun _ _ => hfree⟩
  | release h =>
    cases h with
    | none => exact hfree
    | some h =>
      exact (Outline.wp_bind (Holder.release h) _ _ _).mpr
        (wp_releaseSection h hfree fun _ hc' => hc')
  | releaseConn conn =>
    refine ⟨rfl, ?_⟩
    rintro (_ | h) -
    · exact hfree
    · exact (Outline.wp_bind (Holder.release h) _ _ _).mpr
        (wp_releaseSection h hfree fun _ hc' => hc')
  | closeAll =>
    refine (Outline.wp_bind Holder.closeAll _ _ _).mpr ⟨rfl, fun all _ => ?_⟩
    exact wp_releaseAll all hfree fun _ hc' => hc'

end Programs

/-! ### The invariant -/

namespace HolderCtx

def claims (conn : ℕ) (c : HolderCtx) : ℕ := if c.claim = some conn then 1 else 0

def frees (l : ℕ) (c : HolderCtx) : ℕ := if c.freeing = some l then 1 else 0

def count (f : HolderStep → ℕ) (c : HolderCtx) : ℕ := total f c.log

lemma count_upd (f : HolderStep → ℕ) (i : HolderInstr) (r : i.Resp) (c : HolderCtx) :
    (c.upd i r).count f = f ⟨i, r⟩ + c.count f := total_cons _ _ _

end HolderCtx

open HolderCtx HolderStep

/-- The maps are inverse and the accounts of holders, connections and leases are in order. -/
structure HoldersKept (s : HolderState) (cs : List HolderCtx) : Prop where
  inverse : Bimap.Inverse s.tracker.leases s.tracker.byLease
  exist : ∀ h conn, s.tracker.byLease.lookup h = some conn → h < s.tracker.holders.length
  /-- A connection is waiting for one call or in the maps, but not both. -/
  fresh : ∀ conn, total (claims conn) cs + (s.tracker.leases.lookup conn).isSome.toNat ≤
    if conn ∈ s.conns then 1 else 0
  /-- A holder that is not held is in the maps only until the call that moved it takes it off. -/
  moved : ∀ (h : ℕ) holder, s.tracker.holders[h]? = some holder → holder.state ≠ .held →
    s.tracker.byLease.lookup h = none ∨ ∃ c ∈ cs, c.moving = some h
  moving : ∀ c ∈ cs, ∀ h, c.moving = some h → 1 ≤ c.count (moves h)
  moves : ∀ h, total (count (moves h)) cs =
    ((s.tracker.holders[h]?).any (·.state != .held)).toNat
  /-- A lease is where it was registered, in the hands of a call, handed over or released. -/
  leases : ∀ l, total (count (hands l)) cs + total (count (releases l)) cs + total (frees l) cs +
    total (HTTPConnLease.holds l) s.tracker.holders = total (count (registers l)) cs

namespace HoldersKept

variable {s s' : HolderState} {cs : List HolderCtx} {t : ℕ} {c : HolderCtx} {i : HolderInstr}
  {r : i.Resp}

lemma count_set (f : HolderStep → ℕ) (hc : cs[t]? = some c) :
    total (count f) (cs.set t (c.upd i r)) = f ⟨i, r⟩ + total (count f) cs := by
  have := total_set (f := count f) (c.upd i r) hc
  rw [count_upd] at this
  omega

/-- The connection that a call is about to put into the maps is not there. -/
lemma lookup_claim (h : HoldersKept s cs) (hc : cs[t]? = some c) {conn : ℕ}
    (hclaim : c.claim = some conn) : s.tracker.leases.lookup conn = none := by
  have hle := h.fresh conn
  have hone := le_total_of_getElem? (f := claims conn) hc
  rw [claims, if_pos hclaim] at hone
  cases hlook : s.tracker.leases.lookup conn with
  | none => rfl
  | some m =>
    rw [hlook, Option.isSome_some, Bool.toNat_true] at hle
    split at hle <;> omega

lemma lookup_length (h : HoldersKept s cs) :
    s.tracker.byLease.lookup s.tracker.holders.length = none := by
  cases hlook : s.tracker.byLease.lookup s.tracker.holders.length with
  | none => rfl
  | some conn => exact absurd (h.exist _ _ hlook) (Nat.lt_irrefl _)

lemma conns_exec (hx : s.exec i = some (s', r)) : s'.conns = s.conns := by
  cases i with
  | release l =>
    cases hx
    rfl
  | trk i =>
    obtain ⟨a, -, heq⟩ := Option.map_eq_some_iff.mp hx
    cases heq
    rfl

lemma inverse_exec (h : HoldersKept s cs) (hc : cs[t]? = some c) (hreq : c.req i)
    (hx : s.exec i = some (s', r)) :
    Bimap.Inverse s'.tracker.leases s'.tracker.byLease := by
  cases i with
  | release l =>
    cases hx
    exact h.inverse
  | trk i =>
    obtain ⟨a, ha, heq⟩ := Option.map_eq_some_iff.mp hx
    cases heq
    cases i with
    | register conn lease =>
      cases ha
      exact h.inverse.insert (h.lookup_claim hc hreq.2) h.lookup_length
    | rebind oldConn newConn =>
      simp only [HTTPConnTracker.exec] at ha
      split at ha <;> cases ha
      · exact h.inverse
      · exact h.inverse.rebind (by assumption) (h.lookup_claim hc hreq.2)
    | detachHolder n =>
      simp only [HTTPConnTracker.exec] at ha
      split at ha <;> cases ha
      · exact h.inverse
      · exact h.inverse.erase (by assumption)
    | _ =>
      simp only [HTTPConnTracker.exec] at ha
      repeat' split at ha
      all_goals cases ha
      all_goals exact h.inverse

lemma exist_exec (h : HoldersKept s cs) (hx : s.exec i = some (s', r)) (n conn : ℕ)
    (hn : s'.tracker.byLease.lookup n = some conn) : n < s'.tracker.holders.length := by
  cases i with
  | release l =>
    cases hx
    exact h.exist n conn hn
  | trk i =>
    obtain ⟨a, ha, heq⟩ := Option.map_eq_some_iff.mp hx
    cases heq
    cases i with
    | register conn' lease =>
      cases ha
      rw [List.length_append]
      by_cases hlen : n = s.tracker.holders.length
      · subst hlen
        exact Nat.lt_succ_self _
      · rw [AList.lookup_insert_ne hlen] at hn
        exact Nat.lt_succ_of_lt (h.exist n conn hn)
    | rebind oldConn newConn =>
      simp only [HTTPConnTracker.exec] at ha
      split at ha <;> cases ha
      · exact h.exist n conn hn
      · rename_i m hm
        by_cases hnm : n = m
        · subst hnm
          exact h.exist n oldConn ((h.inverse oldConn n).mp hm)
        · exact h.exist n conn (by rwa [AList.lookup_insert_ne hnm] at hn)
    | detachHolder m =>
      simp only [HTTPConnTracker.exec] at ha
      split at ha <;> cases ha
      · exact h.exist n conn hn
      · by_cases hnm : n = m
        · subst hnm
          rw [AList.lookup_erase] at hn
          cases hn
        · exact h.exist n conn (by rwa [AList.lookup_erase_ne hnm] at hn)
    | _ =>
      simp only [HTTPConnTracker.exec] at ha
      repeat' split at ha
      all_goals cases ha
      all_goals simpa [HTTPConnTracker.move] using h.exist n conn hn

lemma claims_upd (hreq : c.req i) (conn : ℕ) :
    claims conn c = claims conn (c.upd i r) + if i.places = some conn then 1 else 0 := by
  have hfree {o : Option ℕ} (ho : c.claim = o) :
      claims conn c = 0 + if o = some conn then 1 else 0 := by
    rw [claims, ho, Nat.zero_add]
  cases i with
  | release l => rfl
  | trk i =>
    cases i with
    | register conn' lease => exact hfree hreq.2
    | rebind oldConn newConn => exact hfree hreq.2
    | takeSection n | releaseSection n => cases r <;> rfl
    | _ => rfl

lemma places_exec (hx : s.exec i = some (s', r)) (conn : ℕ) :
    (s'.tracker.leases.lookup conn).isSome.toNat ≤
      (s.tracker.leases.lookup conn).isSome.toNat + if i.places = some conn then 1 else 0 := by
  cases i with
  | release l =>
    cases hx
    exact Nat.le_add_right _ _
  | trk i =>
    obtain ⟨a, ha, heq⟩ := Option.map_eq_some_iff.mp hx
    cases heq
    cases i with
    | register conn' lease =>
      cases ha
      by_cases hconn : conn = conn'
      · subst hconn
        simp [HolderInstr.places]
      · simp [AList.lookup_insert_ne hconn]
    | rebind oldConn newConn =>
      simp only [HTTPConnTracker.exec] at ha
      split at ha <;> cases ha
      · exact Nat.le_add_right _ _
      · by_cases hconn : conn = newConn
        · subst hconn
          simp [HolderInstr.places]
        · by_cases hold : conn = oldConn
          · subst hold
            simp [AList.lookup_insert_ne hconn, AList.lookup_erase]
          · simp [AList.lookup_insert_ne hconn, AList.lookup_erase_ne hold]
    | detachHolder n =>
      simp only [HTTPConnTracker.exec] at ha
      split at ha <;> cases ha
      · exact Nat.le_add_right _ _
      · rename_i conn' hconn'
        by_cases hconn : conn = conn'
        · subst hconn
          simp [AList.lookup_erase]
        · simp [AList.lookup_erase_ne hconn]
    | _ =>
      simp only [HTTPConnTracker.exec] at ha
      repeat' split at ha
      all_goals cases ha
      all_goals exact Nat.le_add_right _ _

lemma fresh_exec (h : HoldersKept s cs) (hc : cs[t]? = some c) (hreq : c.req i)
    (hx : s.exec i = some (s', r)) (conn : ℕ) :
    total (claims conn) (cs.set t (c.upd i r)) + (s'.tracker.leases.lookup conn).isSome.toNat ≤
      if conn ∈ s'.conns then 1 else 0 := by
  have hle := h.fresh conn
  have htot := total_set (f := claims conn) (c.upd i r) hc
  have hclaims := claims_upd (r := r) hreq conn
  have hplaces := places_exec hx conn
  rw [conns_exec hx]
  omega

/-- What a step does to the holders. -/
inductive HoldersStep (tr tr' : HTTPConnTracker) : HolderStep → Prop
  | same {a : HolderStep} (h : tr'.holders = tr.holders) (hmoves : ∀ n, a.moves n = 0)
      (hhands : ∀ l, a.hands l = 0) (hregisters : ∀ l, a.registers l = 0)
      (hfreed : ∀ l, a.freed l = 0) : HoldersStep tr tr' a
  | register (conn lease h : ℕ)
      (hh : tr'.holders = tr.holders ++ [{ lease := lease, physical := conn }]) :
      HoldersStep tr tr' ⟨.trk (.register conn lease), h⟩
  | take (n : ℕ) (holder : HTTPConnLease) (hn : tr.holders[n]? = some holder)
      (hheld : holder.state = .held)
      (h : tr'.holders = tr.holders.set n { holder with state := .transferred }) :
      HoldersStep tr tr' ⟨.trk (.takeSection n), some (holder.lease, holder.physical)⟩
  | release (n : ℕ) (holder : HTTPConnLease) (hn : tr.holders[n]? = some holder)
      (hheld : holder.state = .held)
      (h : tr'.holders = tr.holders.set n { holder with state := .released }) :
      HoldersStep tr tr' ⟨.trk (.releaseSection n), some holder.lease⟩

lemma exec_holders (hx : s.exec i = some (s', r)) : HoldersStep s.tracker s'.tracker ⟨i, r⟩ := by
  cases i with
  | release l =>
    cases hx
    exact .same rfl (fun _ => rfl) (fun _ => rfl) (fun _ => rfl) fun _ => rfl
  | trk i =>
    obtain ⟨a, ha, heq⟩ := Option.map_eq_some_iff.mp hx
    cases heq
    cases i with
    | register conn lease =>
      cases ha
      exact .register conn lease _ rfl
    | takeSection n =>
      simp only [HTTPConnTracker.exec] at ha
      split at ha
      · cases ha
      · split at ha <;> cases ha
        · exact .take n _ (by assumption) (by assumption) rfl
        · exact .same rfl (fun _ => rfl) (fun _ => rfl) (fun _ => rfl) fun _ => rfl
    | releaseSection n =>
      simp only [HTTPConnTracker.exec] at ha
      split at ha
      · cases ha
      · split at ha <;> cases ha
        · exact .release n _ (by assumption) (by assumption) rfl
        · exact .same rfl (fun _ => rfl) (fun _ => rfl) (fun _ => rfl) fun _ => rfl
    | _ =>
      simp only [HTTPConnTracker.exec] at ha
      repeat' split at ha
      all_goals cases ha
      all_goals exact .same rfl (fun _ => rfl) (fun _ => rfl) (fun _ => rfl) fun _ => rfl

lemma moves_exec (h : HoldersKept s cs) (hc : cs[t]? = some c) (hx : s.exec i = some (s', r))
    (n : ℕ) : total (count (HolderStep.moves n)) (cs.set t (c.upd i r)) =
      ((s'.tracker.holders[n]?).any (·.state != .held)).toNat := by
  rw [count_set _ hc, h.moves n]
  -- the holder that leaves `held`
  have hset {m : ℕ} {holder : HTTPConnLease} {st : HTTPConnLeaseState}
      (hm : s.tracker.holders[m]? = some holder) (hheld : holder.state = .held) (hst : st ≠ .held) :
      (if m = n then 1 else 0) + ((s.tracker.holders[n]?).any (·.state != .held)).toNat =
        (((s.tracker.holders.set m { holder with state := st })[n]?).any
          (·.state != .held)).toNat := by
    by_cases hmn : m = n
    · subst hmn
      rw [List.getElem?_set_self (List.getElem?_eq_some_iff.mp hm).1, hm]
      simp [hheld, bne_iff_ne.mpr hst]
    · rw [List.getElem?_set_ne hmn, if_neg hmn, Nat.zero_add]
  cases exec_holders hx with
  | same hh hmoves => rw [hmoves, hh, Nat.zero_add]
  | register conn lease m hh =>
    rw [hh]
    refine (Nat.zero_add _).trans ?_
    rcases Nat.lt_trichotomy n s.tracker.holders.length with hn | rfl | hn
    · rw [List.getElem?_append_left hn]
    · simp
    · rw [List.getElem?_eq_none (Nat.le_of_lt hn),
        List.getElem?_eq_none (by simpa using Nat.succ_le_of_lt hn)]
  | take m holder hm hheld hh =>
    rw [hh]
    exact hset hm hheld nofun
  | release m holder hm hheld hh =>
    rw [hh]
    exact hset hm hheld nofun

lemma moving_upd {n : ℕ} (hn : (c.upd i r).moving = some n) :
    c.moving = some n ∨ HolderStep.moves n ⟨i, r⟩ = 1 := by
  cases i with
  | release l => exact .inl hn
  | trk i =>
    cases i with
    | takeSection m | releaseSection m =>
      cases r with
      | none => exact .inl hn
      | some a =>
        cases hn
        exact .inr (if_pos rfl)
    | detachHolder m => cases hn
    | _ => exact .inl hn

lemma moving_exec (h : HoldersKept s cs) (hc : cs[t]? = some c) :
    ∀ c' ∈ cs.set t (c.upd i r), ∀ n, c'.moving = some n → 1 ≤ c'.count (HolderStep.moves n) := by
  refine forall_mem_set h.moving fun n hn => ?_
  rw [count_upd]
  rcases moving_upd hn with hn | hone
  · exact Nat.le_add_left_of_le (h.moving c (List.mem_of_getElem? hc) n hn)
  · rw [hone]
    exact Nat.le_add_right _ _

lemma moved_exec (h : HoldersKept s cs) (hc : cs[t]? = some c) (hreq : c.req i)
    (hx : s.exec i = some (s', r)) (n : ℕ) (holder : HTTPConnLease)
    (hn : s'.tracker.holders[n]? = some holder) (hst : holder.state ≠ .held) :
    s'.tracker.byLease.lookup n = none ∨ ∃ c' ∈ cs.set t (c.upd i r), c'.moving = some n := by
  -- the call that has moved a holder is another one
  have hother (hfree : c.moving ≠ some n) (hex : ∃ c ∈ cs, c.moving = some n) :
      ∃ c' ∈ cs.set t (c.upd i r), c'.moving = some n :=
    exists_mem_set hc hex fun hm => absurd hm hfree
  have hself (hmove : (c.upd i r).moving = some n) :
      ∃ c' ∈ cs.set t (c.upd i r), c'.moving = some n :=
    ⟨_, List.mem_set (List.getElem?_eq_some_iff.mp hc).1 _, hmove⟩
  have hnone (hm : c.moving = none) : c.moving ≠ some n := by rw [hm]; exact nofun
  cases i with
  | release l =>
    cases hx
    exact (h.moved n holder hn hst).imp_right (hother (hnone hreq.1))
  | trk i =>
    obtain ⟨a, ha, heq⟩ := Option.map_eq_some_iff.mp hx
    cases heq
    cases i with
    | register conn lease =>
      cases ha
      rcases getElem?_of_concat hn with hn | ⟨-, rfl⟩
      · rw [AList.lookup_insert_ne (Nat.ne_of_lt (List.getElem?_eq_some_iff.mp hn).1)]
        exact (h.moved n holder hn hst).imp_right (hother (hnone hreq.1))
      · exact absurd rfl hst
    | rebind oldConn newConn =>
      simp only [HTTPConnTracker.exec] at ha
      split at ha <;> cases ha
      · exact (h.moved n holder hn hst).imp_right (hother (hnone hreq.1))
      · rename_i m hm
        have hold := (h.moved n holder hn hst).imp_right (hother (hnone hreq.1))
        by_cases hnm : n = m
        · subst hnm
          rw [(h.inverse oldConn n).mp hm] at hold
          exact .inr (hold.resolve_left nofun)
        · rwa [AList.lookup_insert_ne hnm]
    | detachHolder m =>
      by_cases hnm : n = m
      · subst hnm
        simp only [HTTPConnTracker.exec] at ha
        split at ha <;> cases ha
        · exact .inl (by assumption)
        · exact .inl (AList.lookup_erase _ _)
      · have hfree : c.moving ≠ some n := by
          rw [show c.moving = some m from hreq]
          simpa using Ne.symm hnm
        simp only [HTTPConnTracker.exec] at ha
        split at ha <;> cases ha
        · exact (h.moved n holder hn hst).imp_right (hother hfree)
        · rw [AList.lookup_erase_ne hnm]
          exact (h.moved n holder hn hst).imp_right (hother hfree)
    | takeSection m | releaseSection m =>
      simp only [HTTPConnTracker.exec] at ha
      split at ha
      · cases ha
      · split at ha <;> cases ha
        · rcases getElem?_of_set hn with ⟨rfl, -⟩ | hn
          · exact .inr (hself rfl)
          · exact (h.moved n holder hn hst).imp_right (hother (hnone hreq.1))
        · exact (h.moved n holder hn hst).imp_right (hother (hnone hreq.1))
    | lookup m | all =>
      cases ha
      exact (h.moved n holder hn hst).imp_right (hother (hnone hreq))

/-- A lease is in the hands of the call from the section of `release` to `lease.release()`. -/
lemma frees_upd (hreq : c.req i) (l : ℕ) :
    frees l (c.upd i r) + releases l ⟨i, r⟩ = frees l c + freed l ⟨i, r⟩ := by
  cases i with
  | release m =>
    obtain ⟨-, hm⟩ := hreq
    show 0 + (if m = l then 1 else 0) = (if c.freeing = some l then 1 else 0) + 0
    simp [hm]
  | trk i =>
    cases i with
    | takeSection m => cases r <;> rfl
    | releaseSection m =>
      cases r with
      | none => rfl
      | some lease =>
        rw [show frees l c = 0 from if_neg (by rw [hreq.2]; exact nofun), Nat.zero_add]
        show (if some lease = some l then 1 else 0) = if lease = l then 1 else 0
        simp
    | _ => rfl

lemma leases_exec (h : HoldersKept s cs) (hc : cs[t]? = some c) (hreq : c.req i)
    (hx : s.exec i = some (s', r)) (l : ℕ) :
    total (count (hands l)) (cs.set t (c.upd i r)) +
        total (count (releases l)) (cs.set t (c.upd i r)) +
        total (frees l) (cs.set t (c.upd i r)) +
        total (HTTPConnLease.holds l) s'.tracker.holders =
      total (count (registers l)) (cs.set t (c.upd i r)) := by
  have hold := h.leases l
  have hfrees := total_set (f := frees l) (c.upd i r) hc
  have hupd := frees_upd (r := r) hreq l
  rw [count_set _ hc, count_set _ hc, count_set _ hc]
  -- a holder that leaves `held` gives its lease away
  have hset {m : ℕ} {holder : HTTPConnLease} {st : HTTPConnLeaseState}
      (hm : s.tracker.holders[m]? = some holder) (hheld : holder.state = .held) (hst : st ≠ .held) :
      total (HTTPConnLease.holds l) (s.tracker.holders.set m { holder with state := st }) +
          (if holder.lease = l then 1 else 0) =
            total (HTTPConnLease.holds l) s.tracker.holders := by
    have htot := total_set (f := HTTPConnLease.holds l) { holder with state := st } hm
    simpa [HTTPConnLease.holds, hheld, hst] using htot
  cases exec_holders hx with
  | same hh hmoves hhands hregisters hfreed =>
    rw [hh, hhands, hregisters]
    rw [hfreed] at hupd
    omega
  | register conn lease n hh =>
    rw [hh, total_append, total_cons, total_nil]
    have hnew : HTTPConnLease.holds l { lease, physical := conn } =
        registers l ⟨.trk (.register conn lease), n⟩ := by
      simp [HTTPConnLease.holds, registers]
    simp only [hands, releases, freed] at hupd ⊢
    omega
  | take n holder hn hheld hh =>
    rw [hh]
    have hgone := @hset _ _ .transferred hn hheld nofun
    simp only [hands, releases, registers, freed] at hupd ⊢
    omega
  | release n holder hn hheld hh =>
    rw [hh]
    have hgone := @hset _ _ .released hn hheld nofun
    simp only [hands, releases, registers, freed] at hupd ⊢
    omega

lemma exec (h : HoldersKept s cs) (hc : cs[t]? = some c) (hreq : c.req i)
    (hx : s.exec i = some (s', r)) : HoldersKept s' (cs.set t (c.upd i r)) :=
  ⟨h.inverse_exec hc hreq hx, h.exist_exec hx, h.fresh_exec hc hreq hx, h.moved_exec hc hreq hx,
    h.moving_exec hc, h.moves_exec hc hx, h.leases_exec hc hreq hx⟩

/-- A call brings at most one connection that nobody has used. -/
lemma spawn_eq {l : HolderCall} (hs : s.spawn l = some s') :
    s'.tracker = s.tracker ∧ ((l.claim = none ∧ s'.conns = s.conns) ∨
      ∃ conn, l.claim = some conn ∧ conn ∉ s.conns ∧ s'.conns = conn :: s.conns) := by
  cases l with
  | register conn lease | rebind oldConn conn =>
    simp only [HolderState.spawn] at hs
    split at hs <;> cases hs
    exact ⟨rfl, .inr ⟨conn, rfl, by assumption, rfl⟩⟩
  | takeWithPhysical h | release h =>
    cases h with
    | none =>
      cases hs
      exact ⟨rfl, .inl ⟨rfl, rfl⟩⟩
    | some h =>
      simp only [HolderState.spawn] at hs
      split at hs <;> cases hs
      exact ⟨rfl, .inl ⟨rfl, rfl⟩⟩
  | releaseConn conn | closeAll =>
    cases hs
    exact ⟨rfl, .inl ⟨rfl, rfl⟩⟩

lemma spawn {l : HolderCall} (h : HoldersKept s cs) (hs : s.spawn l = some s') :
    HoldersKept s' (cs ++ [{ claim := l.claim }]) := by
  obtain ⟨htr, hconns⟩ := spawn_eq hs
  have hcount (f : HolderStep → ℕ) :
      total (count f) (cs ++ [{ claim := l.claim }]) = total (count f) cs := by
    simp [count]
  refine ⟨htr ▸ h.inverse, htr ▸ h.exist, fun conn => ?_, fun n holder hn hst => ?_,
    forall_mem_concat h.moving nofun, fun n => ?_, fun l' => ?_⟩
  · have hle := h.fresh conn
    rw [htr, total_append, total_cons, total_nil]
    rcases hconns with ⟨hnone, heq⟩ | ⟨conn', hsome, hnot, heq⟩
    · rw [heq, claims, hnone]
      simpa using hle
    · rw [heq, claims, hsome]
      by_cases hconn : conn = conn'
      · subst hconn
        rw [if_neg hnot] at hle
        simp only [if_true, List.mem_cons_self]
        omega
      · simpa [hconn, Ne.symm hconn] using hle
  · rw [htr] at hn ⊢
    exact (h.moved n holder hn hst).imp_right fun ⟨c, hc, hm⟩ => ⟨c, List.mem_append_left _ hc, hm⟩
  · rw [hcount, htr, h.moves n]
  · rw [hcount, hcount, hcount, htr, total_append, ← h.leases l']
    simp [frees]

end HoldersKept

lemma holderOutline_sound : holderOutline.Sound holderMachine HoldersKept fun _ _ => True where
  body := holderOutline_body
  exec _ _ _ _ _ _ _ _ _ ht _ hG hreq hx := ⟨trivial, hG.exec (Outline.ctxs_getElem? ht) hreq hx⟩
  spawn _ _ _ _ hG hs := ⟨rfl, hG.spawn hs⟩
  env _ e _ _ _ _ := e.elim

/-! ### One owner -/

/-- A new tracker. -/
def HolderProcess.init : HolderProcess := ⟨{}, []⟩

/-- How often the calls have made a kind of step. -/
def HolderProcess.count (p : HolderProcess) (f : HolderStep → ℕ) : ℕ :=
  total (fun t => total f t.log) p.threads

/-- The tracker has no entry for the holder. -/
structure HTTPConnTracker.Detached (tr : HTTPConnTracker) (h : ℕ) : Prop where
  byLease : tr.byLease.lookup h = none
  leases : ∀ conn, tr.leases.lookup conn ≠ some h

/-- The lease of each registered connection has one owner. -/
structure HolderProcess.OneOwner (p : HolderProcess) : Prop where
  inverse : Bimap.Inverse p.shared.tracker.leases p.shared.tracker.byLease
  /-- A lease is handed over or released no more often than it was registered. -/
  once : ∀ l, p.count (hands l) + p.count (releases l) ≤ p.count (registers l)
  /-- Only one call moves a holder out of `held`. -/
  mover : ∀ h, p.count (moves h) ≤ 1
  /-- The holder leaves the maps in the next step of the call that has moved it. -/
  detached : ∀ t ∈ p.threads, ∀ a ∈ t.log, ∀ h, moves h a = 1 →
    (∃ k, t.prog = .op (.trk (.detachHolder h)) k) ∨ p.shared.tracker.Detached h

/-- A holder that was moved has left the maps, unless the call that has moved it is in between. -/
lemma HoldersKept.detached_or_moving {s : HolderState} {cs : List HolderCtx} {c : HolderCtx}
    {h : ℕ} (hG : HoldersKept s cs) (hc : c ∈ cs) (hone : 1 ≤ c.count (HolderStep.moves h)) :
    s.tracker.Detached h ∨ c.moving = some h := by
  have hmoves := hG.moves h
  obtain ⟨j, hj⟩ := List.mem_iff_getElem?.mp hc
  have hle := le_total (f := count (HolderStep.moves h)) hc
  have hbound := Bool.toNat_le ((s.tracker.holders[h]?).any (·.state != .held))
  have hany : (s.tracker.holders[h]?).any (·.state != .held) = true := by
    by_contra hno
    rw [Bool.not_eq_true] at hno
    rw [hno, Bool.toNat_false] at hmoves
    omega
  obtain ⟨holder, hholder, hst⟩ := (Option.any_eq_true _ _).mp hany
  rcases hG.moved h holder hholder (by simpa using hst) with hnone | ⟨c', hc', hm⟩
  · refine .inl ⟨hnone, fun conn hconn => ?_⟩
    rw [(hG.inverse conn h).mp hconn] at hnone
    cases hnone
  · obtain ⟨j', hj'⟩ := List.mem_iff_getElem?.mp hc'
    by_cases hjj : j = j'
    · subst hjj
      cases hj.symm.trans hj'
      exact .inr hm
    · have htwo := add_le_total (f := count (HolderStep.moves h)) hjj hj hj'
      have hone' := hG.moving c' hc' h hm
      omega

lemma HolderProcess.count_eq (p : HolderProcess) (f : HolderStep → ℕ) :
    total (HolderCtx.count f) (holderOutline.ctxs p.threads) = p.count f := by
  rw [Outline.ctxs, total_map]
  exact total_congr fun t _ => by rw [HolderCtx.count, holderOutline_ctx_log]

/-- A call that has moved a holder and not yet taken it off the maps is about to do so. -/
lemma detach_of_moving {t : HolderThread} {h : ℕ}
    (hwp : holderOutline.wp t.prog (holderOutline.ends t.entry) (holderOutline.ctx t))
    (hm : (holderOutline.ctx t).moving = some h) :
    ∃ k, t.prog = .op (.trk (.detachHolder h)) k := by
  obtain ⟨l, prog, log⟩ := t
  have hne : (holderOutline.ctx ⟨l, prog, log⟩).moving ≠ none := by
    rw [hm]
    exact nofun
  cases prog with
  | done a =>
    cases a with
    | goto l' => exact absurd (congrArg HolderCtx.moving hwp) hne
    | ret v => exact absurd hwp.1 hne
  | op i k =>
    cases i with
    | release m => exact absurd hwp.1.1 hne
    | trk i =>
      cases i with
      | detachHolder m =>
        cases hm.symm.trans hwp.1
        exact ⟨k, rfl⟩
      | lookup | all => exact absurd hwp.1 hne
      | _ => exact absurd hwp.1.1 hne

theorem holders_oneOwner (p : HolderProcess) (hp : holderMachine.Reaches HolderProcess.init p) :
    p.OneOwner := by
  have hinit : holderOutline.Holds HoldersKept HolderProcess.init := by
    refine ⟨⟨Bimap.Inverse.empty, ?_, ?_, ?_, ?_, ?_, ?_⟩, ?_⟩ <;>
      simp [HolderProcess.init, Outline.ctxs]
  obtain ⟨hG, hthreads⟩ := holderOutline_sound.reaches hinit hp
  have hmoves (h : ℕ) := (p.count_eq (moves h)).symm.trans (hG.moves h)
  refine ⟨hG.inverse, fun l => ?_, fun h => ?_, fun t ht a ha h hah => ?_⟩
  · have hl := hG.leases l
    rw [p.count_eq, p.count_eq, p.count_eq] at hl
    omega
  · rw [hmoves h]
    exact Bool.toNat_le _
  · have hctx : holderOutline.ctx t ∈ holderOutline.ctxs p.threads := List.mem_map_of_mem ht
    have hone : 1 ≤ (holderOutline.ctx t).count (moves h) := by
      rw [HolderCtx.count, holderOutline_ctx_log, ← hah]
      exact le_total ha
    refine (hG.detached_or_moving hctx hone).symm.imp_left fun hm => ?_
    exact detach_of_moving (hthreads t ht) hm

/-- A connection is rebound after its lease was taken and before the holder is taken off. -/
def HolderProcess.rebound : List (Event HolderCall Unit Empty) :=
  [.spawn (.register 0 7), .run 0 (), .spawn (.takeWithPhysical (some 0)), .run 1 (),
    .spawn (.rebind 0 1), .run 2 (), .run 1 (), .spawn (.releaseConn 1), .run 3 ()]

theorem holders_oneOwner_rebound : ∃ p : HolderProcess,
    holderMachine.run HolderProcess.init HolderProcess.rebound = some p ∧
      p.count (hands 7) = 1 ∧ p.count (releases 7) = 0 ∧ p.OneOwner := by
  have hrun : ((holderMachine.run HolderProcess.init HolderProcess.rebound).map fun p =>
      (HolderProcess.count p (hands 7), HolderProcess.count p (releases 7))) = some (1, 0) := by
    decide
  obtain ⟨p, hp, hobs⟩ := Option.map_eq_some_iff.mp hrun
  simp only [Prod.mk.injEq] at hobs
  exact ⟨p, hp, hobs.1, hobs.2, holders_oneOwner p ⟨_, hp⟩⟩

end Ogrenet
