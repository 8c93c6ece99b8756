import Ogrenet.Admission.Properties
import Ogrenet.Engine.Goroutines

/-!
# The engine's mutex, its operations and its accounts

`Engine.mu` is held by one goroutine at most, what that goroutine has read under it stays true while
it holds it, `activeOps` counts the goroutines inside an operation, and the admission accounts
balance.
-/

namespace Ogrenet

open Interleaving Interleaving.Prog

/-! ### What the steps write -/

namespace EInstr

def muAfter : EInstr → Bool → Bool
  | .lock, _ => true
  | .unlock, _ => false
  | _, b => b

def stateAfter : EInstr → EngineState → EngineState
  | .startDraining, _ => .draining
  | .startAborting _, _ => .aborting
  | .setDone, _ => .done
  | _, st => st

def opsAfter : EInstr → ℕ → ℕ
  | .incOps, n => n + 1
  | .decOps, n => n - 1
  | _, n => n

end EInstr

/-- A step writes the fields under `Engine.mu` as its kind says. -/
structure Engine.Writes (e e' : Engine) (i : EInstr) : Prop where
  mu : e'.mu = i.muAfter e.mu
  state : e'.state = i.stateAfter e.state
  activeOps : e'.activeOps = i.opsAfter e.activeOps

lemma Engine.exec_writes {e e' : Engine} {x : EChoice} {i : EInstr} {r : i.Resp}
    (h : e.exec x i = some (e', r)) : e.Writes e' i := by
  cases i with
  | adm i =>
    obtain ⟨a, -, ha⟩ := Option.map_eq_some_iff.mp h
    cases ha
    exact ⟨rfl, rfl, rfl⟩
  | trk j i =>
    simp only [Engine.exec] at h
    split at h
    · cases h
    · obtain ⟨a, -, ha⟩ := Option.map_eq_some_iff.mp h
      cases ha
      exact ⟨rfl, rfl, rfl⟩
  | _ =>
    simp only [Engine.exec] at h
    repeat' split at h
    all_goals cases h
    all_goals exact ⟨rfl, rfl, rfl⟩

/-- What a step may do to the listeners. -/
inductive Engine.ListenersStep (e e' : Engine) : EInstr → Prop
  | same {i : EInstr} (h : e'.listeners = e.listeners) : ListenersStep e e' i
  | write {i : EInstr} (j : ℕ) (L L' : ListenerEntry) (hL : e.listeners[j]? = some L)
      (h : e'.listeners = e.listeners.set j L') (ht : L'.tracked = L.tracked) :
      ListenersStep e e' i
  | track (j : ℕ) (L : ListenerEntry) (hL : e.listeners[j]? = some L)
      (h : e'.listeners = e.listeners.set j { L with tracked := true }) :
      ListenersStep e e' (.trackListener j)
  | untrack (j : ℕ) (L : ListenerEntry) (hL : e.listeners[j]? = some L)
      (h : e'.listeners = e.listeners.set j { L with tracked := false }) :
      ListenersStep e e' (.untrackListener j)
  | new (scheme : Scheme) (h : e'.listeners = e.listeners ++ [{ scheme := scheme }]) :
      ListenersStep e e' (.newListener scheme)

lemma Engine.exec_listeners {e e' : Engine} {x : EChoice} {i : EInstr} {r : i.Resp}
    (h : e.exec x i = some (e', r)) : e.ListenersStep e' i := by
  cases i with
  | adm i =>
    obtain ⟨a, -, ha⟩ := Option.map_eq_some_iff.mp h
    cases ha
    exact .same rfl
  | trk j i =>
    simp only [Engine.exec] at h
    split at h
    · cases h
    · rename_i L hL
      obtain ⟨a, -, ha⟩ := Option.map_eq_some_iff.mp h
      cases ha
      exact .write j L { L with tracker := a.1 } hL rfl rfl
  | trackListener j =>
    simp only [Engine.exec] at h
    split at h <;> cases h
    exact .track j _ (by assumption) rfl
  | untrackListener j =>
    simp only [Engine.exec] at h
    split at h <;> cases h
    exact .untrack j _ (by assumption) rfl
  | newListener scheme =>
    cases h
    exact .new scheme rfl
  | _ =>
    simp only [Engine.exec] at h
    repeat' split at h
    all_goals cases h
    all_goals first
      | exact .same rfl
      | (apply ListenersStep.write <;> first | assumption | rfl)

/-- Only the step that tracks a listener makes it tracked. -/
lemma Engine.ListenersStep.tracked {e e' : Engine} {i : EInstr} (h : e.ListenersStep e' i) {j : ℕ}
    {L' : ListenerEntry} (hL' : e'.listeners[j]? = some L') (ht : L'.tracked = true) :
    i = .trackListener j ∨ ∃ L, e.listeners[j]? = some L ∧ L.tracked = true := by
  cases h with
  | same h => exact .inr ⟨L', by rwa [← h], ht⟩
  | write j' L₀ L₁ hL₀ h ht₁ =>
    rcases getElem?_of_set (h ▸ hL') with ⟨rfl, rfl⟩ | hold
    · exact .inr ⟨L₀, hL₀, ht₁ ▸ ht⟩
    · exact .inr ⟨L', hold, ht⟩
  | track j' L₀ hL₀ h =>
    rcases getElem?_of_set (h ▸ hL') with ⟨rfl, -⟩ | hold
    · exact .inl rfl
    · exact .inr ⟨L', hold, ht⟩
  | untrack j' L₀ hL₀ h =>
    rcases getElem?_of_set (h ▸ hL') with ⟨rfl, rfl⟩ | hold
    · cases ht
    · exact .inr ⟨L', hold, ht⟩
  | new scheme h =>
    rcases getElem?_of_concat (h ▸ hL') with hold | ⟨-, rfl⟩
    · exact .inr ⟨L', hold, ht⟩
    · cases ht

/-- Only admission steps touch the controller. -/
lemma Engine.exec_ctl {e e' : Engine} {x : EChoice} {i : EInstr} {r : i.Resp}
    (h : e.exec x i = some (e', r)) : (∃ a, i = .adm a) ∨ e'.adm.ctl = e.adm.ctl := by
  cases i with
  | adm i => exact .inl ⟨i, rfl⟩
  | trk j i =>
    simp only [Engine.exec] at h
    split at h
    · cases h
    · obtain ⟨a, -, ha⟩ := Option.map_eq_some_iff.mp h
      cases ha
      exact .inr rfl
  | _ =>
    simp only [Engine.exec] at h
    repeat' split at h
    all_goals cases h
    all_goals exact .inr rfl

namespace Custody

variable {c : Custody}

/-- What the admission steps and the steps on trackers leave alone. -/
structure SameSection (c c' : Custody) : Prop where
  entry : c'.entry = c.entry
  inOp : c'.inOp = c.inOp
  dial : c'.dial = c.dial
  closed : c'.closed = c.closed
  graceful : c'.graceful = c.graceful
  mu : c'.mu = c.mu
  seen : c'.seen = c.seen
  sawIdle : c'.sawIdle = c.sawIdle

lemma admUpd_same (i : AdmInstr) (r : i.Resp) (c : Custody) : c.SameSection (c.admUpd i r) := by
  unfold admUpd
  split
  case h_2 =>
    split <;> exact ⟨rfl, rfl, rfl, rfl, rfl, rfl, rfl, rfl⟩
  all_goals exact ⟨rfl, rfl, rfl, rfl, rfl, rfl, rfl, rfl⟩

lemma trkUpd_same (i : TrkInstr) (r : i.Resp) (c : Custody) : c.SameSection (c.trkUpd i r) := by
  unfold trkUpd
  split <;> exact ⟨rfl, rfl, rfl, rfl, rfl, rfl, rfl, rfl⟩

lemma trkUpd_hold (i : TrkInstr) (r : i.Resp) (c : Custody) : (c.trkUpd i r).hold = c.hold := by
  unfold trkUpd
  split <;> rfl

lemma trkUpd_drains (i : TrkInstr) (r : i.Resp) (c : Custody) :
    (c.trkUpd i r).drains = c.drains := by
  unfold trkUpd
  split <;> rfl

lemma upd_entry (i : EInstr) (r : i.Resp) : (c.upd i r).entry = c.entry := by
  cases i with
  | adm a => exact (admUpd_same a r c).entry
  | trk j a => exact (trkUpd_same a r c).entry
  | cellSet d l physical => cases r <;> rfl
  | _ => rfl

lemma upd_mu (i : EInstr) (r : i.Resp) : (c.upd i r).mu = i.muAfter c.mu := by
  cases i with
  | adm i => exact (admUpd_same i r c).mu
  | trk j i => exact (trkUpd_same i r c).mu
  | cellSet d l physical => cases r <;> rfl
  | _ => rfl

lemma upd_inOp {i : EInstr} {r : i.Resp} (hreq : c.req i) {n : ℕ} (hn : c.inOp.toNat ≤ n) :
    i.opsAfter n + c.inOp.toNat = n + (c.upd i r).inOp.toNat := by
  cases i with
  | adm i => rw [show (c.upd (.adm i) r).inOp = _ from (admUpd_same i r c).inOp]; rfl
  | trk j i => rw [show (c.upd (.trk j i) r).inOp = _ from (trkUpd_same i r c).inOp]; rfl
  | cellSet d l physical => cases r <;> rfl
  | incOps =>
    rw [hreq.2]
    rfl
  | decOps =>
    rw [hreq.2] at hn ⊢
    exact Nat.sub_add_cancel hn
  | _ => rfl

/-- What a goroutine knows only while it has `Engine.mu`. -/
def Inside (c : Custody) : Prop := c.mu = false → c.seen = none ∧ c.sawIdle = false ∧ c.drains = []

lemma Inside.mu_of_seen {st : EngineState} (h : c.Inside) (hseen : c.seen = some st) :
    c.mu = true := by
  by_contra hmu
  rw [(h (by simpa using hmu)).1] at hseen
  cases hseen

lemma Inside.mu_of_sawIdle (h : c.Inside) (hsaw : c.sawIdle = true) : c.mu = true := by
  by_contra hmu
  rw [(h (by simpa using hmu)).2.1] at hsaw
  cases hsaw

lemma inside_of_mu (h : c.mu = true) : c.Inside := fun h' => by rw [h] at h'; cases h'

lemma Inside.upd {i : EInstr} {r : i.Resp} (h : c.Inside) (hreq : c.req i) :
    (c.upd i r).Inside := by
  cases i with
  | adm i =>
    intro hmu
    obtain ⟨hseen, hsaw, hdrains⟩ := h ((admUpd_same i r c).mu.symm.trans hmu)
    refine ⟨(admUpd_same i r c).seen.trans hseen, (admUpd_same i r c).sawIdle.trans hsaw, ?_⟩
    show (c.admUpd i r).drains = []
    unfold admUpd
    split
    case h_2 => split <;> exact hdrains
    all_goals simp [hdrains]
  | trk j i =>
    intro hmu
    obtain ⟨hseen, hsaw, hdrains⟩ := h ((trkUpd_same i r c).mu.symm.trans hmu)
    exact ⟨(trkUpd_same i r c).seen.trans hseen, (trkUpd_same i r c).sawIdle.trans hsaw,
      (trkUpd_drains i r c).trans hdrains⟩
  | lock => exact inside_of_mu rfl
  | unlock => exact fun _ => ⟨rfl, hreq.2.2.1, hreq.2.2.2⟩
  | getState => exact inside_of_mu hreq
  | startDraining => exact inside_of_mu (h.mu_of_seen hreq.1)
  | startAborting reason => exact inside_of_mu hreq.1
  | checkIdle => exact inside_of_mu hreq.1
  | setDone => exact inside_of_mu (h.mu_of_sawIdle hreq)
  | closeDone => exact inside_of_mu (h.mu_of_sawIdle hreq.1)
  | cellSet d l physical => cases r <;> exact h
  | _ => exact h

end Custody

/-! ### The invariant -/

structure Sections (e : Engine) (cs : List Custody) : Prop where
  mutex : total (fun c => c.mu.toNat) cs = e.mu.toNat
  inside : ∀ c ∈ cs, c.Inside
  seen : ∀ c ∈ cs, ∀ st, c.seen = some st → e.state = st
  ops : total (fun c => c.inOp.toNat) cs = e.activeOps

namespace Sections

variable {e e' : Engine} {cs : List Custody} {t : ℕ} {c : Custody}

/-- One goroutine at most has `Engine.mu`. -/
lemma alone (h : Sections e cs) (hc : cs[t]? = some c) (hmu : c.mu = true) {t' : ℕ} {c' : Custody}
    (hc' : cs[t']? = some c') (hmu' : c'.mu = true) : t = t' := by
  by_contra hne
  have hle := add_le_total (f := fun c : Custody => c.mu.toNat) hne hc hc'
  have hone : e.mu.toNat ≤ 1 := by cases e.mu <;> decide
  simp only [hmu, hmu', h.mutex, Bool.toNat_true] at hle
  omega

lemma mu_eq (h : Sections e cs) (hc : cs[t]? = some c) (hmu : c.mu = true) : e.mu = true := by
  have hle := le_total_of_getElem? (f := fun c : Custody => c.mu.toNat) hc
  simp only [hmu, h.mutex, Bool.toNat_true] at hle
  cases hm : e.mu
  · simp [hm] at hle
  · rfl

/-- A step that writes the state of the engine is made by the goroutine that has `Engine.mu`. -/
lemma mu_of_stateAfter (h : Sections e cs) (hc : cs[t]? = some c) {i : EInstr} (hreq : c.req i)
    (hne : i.stateAfter e.state ≠ e.state) : c.mu = true := by
  have hin := h.inside c (List.mem_of_getElem? hc)
  cases i with
  | startDraining => exact hin.mu_of_seen hreq.1
  | startAborting reason => exact hreq.1
  | setDone => exact hin.mu_of_sawIdle hreq
  | _ => exact absurd rfl hne

lemma mutex_exec (h : Sections e cs) (hc : cs[t]? = some c) {x : EChoice} {i : EInstr}
    {r : i.Resp} (hreq : c.req i) (hx : e.exec x i = some (e', r)) :
    total (fun c => c.mu.toNat) (cs.set t (c.upd i r)) = e'.mu.toNat := by
  have hset := total_set (f := fun c : Custody => c.mu.toNat) (c.upd i r) hc
  have hmu : (c.upd i r).mu = i.muAfter c.mu := Custody.upd_mu i r
  have he := (Engine.exec_writes hx).mu
  simp only [h.mutex, hmu] at hset
  rw [he]
  cases i with
  | lock =>
    have hfree : e.mu = false := by
      simp only [Engine.exec] at hx
      split at hx
      · cases hx
      · simp_all
    rw [show c.mu = false from hreq, hfree] at hset
    exact hset
  | unlock =>
    rw [h.mu_eq hc hreq.1, show c.mu = true from hreq.1] at hset
    exact Nat.add_right_cancel hset
  | _ => exact Nat.add_right_cancel hset

lemma seen_exec (h : Sections e cs) (hc : cs[t]? = some c) {x : EChoice} {i : EInstr} {r : i.Resp}
    (hreq : c.req i) (hx : e.exec x i = some (e', r)) :
    ∀ c' ∈ cs.set t (c.upd i r), ∀ st, c'.seen = some st → e'.state = st := by
  have hstate := (Engine.exec_writes hx).state
  intro c' hc' st hst
  obtain ⟨j, hj⟩ := List.mem_iff_getElem?.mp hc'
  by_cases htj : t = j
  · subst htj
    rw [List.getElem?_set_self (List.getElem?_eq_some_iff.mp hc).1] at hj
    cases hj
    have hold := h.seen c (List.mem_of_getElem? hc) st
    rw [hstate]
    cases i with
    | adm i => exact hold ((Custody.admUpd_same i r c).seen.symm.trans hst)
    | trk j i => exact hold ((Custody.trkUpd_same i r c).seen.symm.trans hst)
    | cellSet d l physical => cases r <;> exact hold hst
    | unlock => cases hst
    | getState =>
      cases hx
      cases hst
      rfl
    | startDraining | startAborting _ | setDone =>
      cases hst
      rfl
    | _ => exact hold hst
  · rw [List.getElem?_set_ne htj] at hj
    have hold := h.seen c' (List.mem_of_getElem? hj) st hst
    have hmu' := (h.inside c' (List.mem_of_getElem? hj)).mu_of_seen hst
    by_contra hne
    refine htj (h.alone hc (h.mu_of_stateAfter hc hreq fun heq => hne ?_) hj hmu')
    rw [hstate, heq, hold]

/-- Every step keeps the sections. -/
lemma exec (h : Sections e cs) (hc : cs[t]? = some c) {x : EChoice} {i : EInstr} {r : i.Resp}
    (hreq : c.req i) (hx : e.exec x i = some (e', r)) : Sections e' (cs.set t (c.upd i r)) where
  mutex := h.mutex_exec hc hreq hx
  inside := forall_mem_set h.inside ((h.inside c (List.mem_of_getElem? hc)).upd hreq)
  seen := h.seen_exec hc hreq hx
  ops := by
    have hset := total_set (f := fun c : Custody => c.inOp.toNat) (c.upd i r) hc
    have hle := le_total_of_getElem? (f := fun c : Custody => c.inOp.toNat) hc
    rw [h.ops] at hset hle
    have hops := Custody.upd_inOp (r := r) hreq hle
    rw [(Engine.exec_writes hx).activeOps]
    omega

end Sections

/-! ### Accounts -/

section Accounts

variable {e e' : Engine} {cs : List Custody} {t : ℕ} {c : Custody}

/-- Every step keeps the admission accounts balanced. -/
lemma ledger_exec (h : Ledger e.adm (cs.map Custody.hold)) (hc : cs[t]? = some c) {x : EChoice}
    {i : EInstr} {r : i.Resp} (hreq : c.req i) (hx : e.exec x i = some (e', r)) :
    Ledger e'.adm ((cs.set t (c.upd i r)).map Custody.hold) := by
  have hhold : (cs.map Custody.hold)[t]? = some c.hold := by rw [List.getElem?_map, hc]; rfl
  rw [List.map_set]
  -- other steps leave the holdings of the goroutine as they are
  have hsame (hu : (c.upd i r).hold = c.hold) :
      (cs.map Custody.hold).set t (c.upd i r).hold = cs.map Custody.hold := by
    rw [hu]
    exact set_of_getElem? hhold
  cases i with
  | adm i =>
    obtain ⟨a, ha, heq⟩ := Option.map_eq_some_iff.mp hx
    cases heq
    exact h.exec hhold hreq.1 ha
  | trk j i =>
    rw [hsame (Custody.trkUpd_hold i r c)]
    simp only [Engine.exec] at hx
    split at hx
    · cases hx
    · obtain ⟨a, -, ha⟩ := Option.map_eq_some_iff.mp hx
      cases ha
      exact h
  | newListener scheme =>
    rw [hsame rfl]
    cases hx
    exact h.newListener _
  | cellSet d l physical =>
    rw [hsame (by cases r <;> rfl)]
    simp only [Engine.exec] at hx
    repeat' split at hx
    all_goals cases hx
    all_goals exact h
  | _ =>
    rw [hsame rfl]
    simp only [Engine.exec] at hx
    repeat' split at hx
    all_goals cases hx
    all_goals exact h

end Accounts

end Ogrenet
