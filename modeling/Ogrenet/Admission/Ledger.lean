import Ogrenet.Admission.Basic
import Ogrenet.Interleaving.Total
import Ogrenet.Interleaving.Outline

/-!
# The admission ledger

What a goroutine holds of the admission accounts while it is inside one of the functions of
`transport/limits.go` (`Hold`), and the ledger that balances the counters against the leases and
these holdings. The lemmas below say what each kind of change does to one part of the ledger.
-/

namespace Ogrenet

open Interleaving Interleaving.Prog Adm

/-- What a goroutine holds in the middle of an admission function: a unit of a listener's capacity
that no lease has, a lease it has marked released but not subtracted yet, the mutex of a lease with
the state it read under it, and an activity lease it has marked but not subtracted yet. -/
structure Hold where
  token : Option ℕ := none
  releasing : Option ConnectionLease := none
  lock : Option (ℕ × ConnectionLeaseState) := none
  expiring : Option Activity := none
  deriving DecidableEq, Repr

namespace Hold

/-- The holdings after a step and its answer. -/
def upd : (i : AdmInstr) → i.Resp → Hold → Hold
  | .capacityAcquire j, .ok _, c => { c with token := some j }
  | .capacityRelease _, _, c => { c with token := none }
  | .openSection _ _, .ok _, c => { c with token := none }
  | .lockLease l, st, c => { c with lock := some (l, st) }
  | .unlockLease _, _, c => { c with lock := none }
  | .activateSection _, _, c => { c with lock := none }
  | .drainSection _, _, c => { c with lock := none }
  | .markReleased _, some old, c => { c with releasing := some old }
  | .releaseSection _ _, _, c =>
    { c with releasing := none, token := c.releasing.bind ConnectionLease.listener }
  | .markActivity _, some kind, c => { c with expiring := some kind }
  | .activitySection _, _, c => { c with expiring := none }
  | _, _, c => c

/-- What a goroutine must hold to issue a step. -/
def req : AdmInstr → Hold → Prop
  | .capacityAcquire _, c => c.token = none
  | .capacityRelease j, c => c.token = some j
  | .openSection _ listener, c => c.token = listener
  | .lockLease _, c => c.lock = none
  | .unlockLease l, c => ∃ st, c.lock = some (l, st)
  | .activateSection l, c => c.lock = some (l, .opening)
  | .drainSection l, c => c.lock = some (l, .active)
  | .markReleased _, c => c.releasing = none ∧ c.token = none ∧ c.lock = none
  | .releaseSection state peer, c =>
    c.token = none ∧ ∃ old, c.releasing = some old ∧ old.state = state ∧ old.peer = peer
  | .markActivity _, c => c.expiring = none
  | .activitySection kind, c => c.expiring = some kind
  | _, _ => True

/-- The weight of the lease that is being released. -/
def releasingW (f : ConnectionLease → ℕ) (c : Hold) : ℕ := c.releasing.elim 0 f

def tokenOf (j : ℕ) (c : Hold) : ℕ := if c.token = some j then 1 else 0

def lockOn (l : ℕ) (c : Hold) : ℕ := if c.lock.map Prod.fst = some l then 1 else 0

def expiringOf (kind : Activity) (c : Hold) : ℕ := if c.expiring = some kind then 1 else 0

end Hold

/-! ### Weights of leases -/

namespace ConnectionLease

/-- A weight counts leases by what `release` subtracts for them: nothing once they are released,
and never by their mutex. -/
structure IsWeight (f : ConnectionLease → ℕ) : Prop where
  released : ∀ l, l.state = .released → f l = 0
  mu : ∀ l b, f { l with mu := b } = f l

def inState (st : ConnectionLeaseState) (l : ConnectionLease) : ℕ := if l.state = st then 1 else 0

/-- One for an unreleased lease of the peer; the empty key stands for no peer address. -/
def ofPeer (p : String) (l : ConnectionLease) : ℕ :=
  if l.state ≠ .released ∧ l.peer = p ∧ p ≠ "" then 1 else 0

/-- One for an unreleased lease of the listener. -/
def ofListener (j : ℕ) (l : ConnectionLease) : ℕ :=
  if l.state ≠ .released ∧ l.listener = some j then 1 else 0

lemma isWeight_inState {st : ConnectionLeaseState} (h : st ≠ .released) : IsWeight (inState st) :=
  ⟨fun l hl => by simp [inState, hl, h.symm], fun _ _ => rfl⟩

lemma isWeight_ofPeer (p : String) : IsWeight (ofPeer p) :=
  ⟨fun l hl => by simp [ofPeer, hl], fun _ _ => rfl⟩

lemma isWeight_ofListener (j : ℕ) : IsWeight (ofListener j) :=
  ⟨fun l hl => by simp [ofListener, hl], fun _ _ => rfl⟩

end ConnectionLease

/-- The weight of all leases that are out, one in the middle of its release still counting. -/
def weigh (f : ConnectionLease → ℕ) (leases : List ConnectionLease) (cs : List Hold) : ℕ :=
  total f leases + total (Hold.releasingW f) cs

section Weigh

variable {f : ConnectionLease → ℕ} {leases : List ConnectionLease} {cs : List Hold} {t l : ℕ}
  {c c' : Hold} {lease lease' : ConnectionLease}

lemma weigh_hold (hc : cs[t]? = some c) (h : c'.releasing = c.releasing) :
    weigh f leases (cs.set t c') = weigh f leases cs := by
  rw [weigh, weigh, total_set_eq hc (by rw [Hold.releasingW, Hold.releasingW, h])]

lemma weigh_set (lease' : ConnectionLease) (f : ConnectionLease → ℕ) (cs : List Hold)
    (hl : leases[l]? = some lease) :
    weigh f (leases.set l lease') cs + f lease = weigh f leases cs + f lease' := by
  have := total_set (f := f) lease' hl
  rw [weigh, weigh]
  omega

lemma weigh_append : weigh f (leases ++ [lease]) cs = weigh f leases cs + f lease := by
  simp only [weigh, total_append, total_cons, total_nil]
  omega

/-- Marking a lease released moves its weight from the leases to the goroutine. -/
lemma weigh_mark (hf : ConnectionLease.IsWeight f) (hl : leases[l]? = some lease)
    (hc : cs[t]? = some c) (hr : c.releasing = none) (hr' : c'.releasing = some lease)
    (hs : lease'.state = .released) :
    weigh f (leases.set l lease') (cs.set t c') = weigh f leases cs := by
  have h₁ := total_set (f := f) lease' hl
  have h₂ := total_set (f := Hold.releasingW f) c' hc
  rw [show Hold.releasingW f c' = _ from by rw [Hold.releasingW, hr'],
    show Hold.releasingW f c = _ from by rw [Hold.releasingW, hr], Option.elim_none,
    Option.elim_some] at h₂
  have := hf.released lease' hs
  rw [weigh, weigh]
  omega

/-- The subtraction of a released lease takes its weight off. -/
lemma weigh_subtract (hc : cs[t]? = some c) (hr : c.releasing = some lease)
    (hr' : c'.releasing = none) :
    weigh f leases (cs.set t c') + f lease = weigh f leases cs := by
  have h₂ := total_set (f := Hold.releasingW f) c' hc
  rw [show Hold.releasingW f c' = _ from by rw [Hold.releasingW, hr'],
    show Hold.releasingW f c = _ from by rw [Hold.releasingW, hr], Option.elim_none,
    Option.elim_some] at h₂
  rw [weigh, weigh]
  omega

end Weigh

/-- The map entry for a count: a key is present exactly when something is counted under it. -/
def entry : ℕ → Option ℕ
  | 0 => none
  | n + 1 => some (n + 1)

@[simp] lemma entry_getD (n : ℕ) : (entry n).getD 0 = n := by cases n <;> rfl

/-- The controller counts what the weights `w` say, and keeps to its limits. -/
structure Counts (a : AdmissionController) (w : (ConnectionLease → ℕ) → ℕ) : Prop where
  count : ∀ st, st ≠ .released → a.count st = w (ConnectionLease.inState st)
  perPeer : ∀ p, a.perPeer p = entry (w (ConnectionLease.ofPeer p))
  maxConnections : 0 < a.limits.maxConnections →
    a.opening + a.active + a.draining ≤ a.limits.maxConnections
  maxPerPeer : 0 < a.limits.maxConnectionsPerPeer →
    ∀ p, (a.perPeer p).getD 0 ≤ a.limits.maxConnectionsPerPeer

/-- Each listener is charged for its leases and for the units `tok` held outside any lease. -/
structure Capacities (ls : List ListenerCapacity) (w : (ConnectionLease → ℕ) → ℕ) (tok : ℕ → ℕ) :
    Prop where
  used : ∀ (j : ℕ) (cap : ListenerCapacity), ls[j]? = some cap →
    cap.used = w (ConnectionLease.ofListener j) + tok j
  max : ∀ (j : ℕ) (cap : ListenerCapacity), ls[j]? = some cap → 0 < cap.limit →
    cap.used ≤ cap.limit
  unknown : ∀ j, ls.length ≤ j → w (ConnectionLease.ofListener j) + tok j = 0

def ActivityLease.live (k : Activity) (a : ActivityLease) : ℕ :=
  if a.kind = k ∧ a.released = false then 1 else 0

/-- The activity counters count the live activity leases and those marked but not subtracted. -/
structure Ongoing (a : AdmissionController) (acts : List ActivityLease) (cs : List Hold) :
    Prop where
  ongoing : ∀ k, a.ongoing k =
    total (ActivityLease.live k) acts + total (Hold.expiringOf k) cs
  max : ∀ k, 0 < a.activityLimit k → a.ongoing k ≤ a.activityLimit k

/-- The mutex of a lease is held by one goroutine at most, and the state that goroutine read under
it is still the state of the lease. -/
structure Mutexes (leases : List ConnectionLease) (cs : List Hold) : Prop where
  mutex : ∀ (l : ℕ) (lease : ConnectionLease), leases[l]? = some lease →
    total (Hold.lockOn l) cs = lease.mu.toNat
  locked : ∀ c ∈ cs, ∀ l st, c.lock = some (l, st) →
    ∃ lease, leases[l]? = some lease ∧ lease.state = st

/-- The accounts balance: every counter of the controller and of the listeners is the number of
leases behind it, and every limit that is set is respected. -/
structure Ledger (s : Admission) (cs : List Hold) : Prop where
  counts : Counts s.ctl fun f => weigh f s.leases cs
  capacities : Capacities s.listeners (fun f => weigh f s.leases cs)
    fun j => total (Hold.tokenOf j) cs
  ongoing : Ongoing s.ctl s.activities cs
  mutexes : Mutexes s.leases cs
  live : ∀ c ∈ cs, ∀ old, c.releasing = some old → old.state ≠ .released

/-- The counters that a step decrements are positive, so that its `if x > 0` is taken. -/
def AdmInstr.Unclamped (s : Admission) : AdmInstr → Prop
  | .capacityRelease j =>
    ∀ cap : ListenerCapacity, s.listeners[j]? = some cap → 0 < cap.used
  | .activateSection _ => 0 < s.ctl.opening
  | .drainSection _ => 0 < s.ctl.active
  | .releaseSection state peer =>
    0 < s.ctl.count state ∧ (peer ≠ "" → 0 < (s.ctl.perPeer peer).getD 0)
  | .activitySection kind => 0 < s.ctl.ongoing kind
  | _ => True

/-- The order of the states of a lease. -/
def ConnectionLeaseState.rank : ConnectionLeaseState → ℕ
  | .opening => 0
  | .active => 1
  | .draining => 2
  | .released => 3

lemma ConnectionLeaseState.rank_le_released (st : ConnectionLeaseState) :
    st.rank ≤ ConnectionLeaseState.released.rank := by
  cases st <;> decide

/-- Every lease of `s` is still there in `s'`, for the same peer and listener and no earlier in its
life. -/
def Admission.Forward (s s' : Admission) : Prop :=
  ∀ (l : ℕ) (lease : ConnectionLease), s.leases[l]? = some lease →
    ∃ lease' : ConnectionLease, s'.leases[l]? = some lease' ∧
      lease.state.rank ≤ lease'.state.rank ∧ lease'.peer = lease.peer ∧
      lease'.listener = lease.listener

namespace Admission.Forward

variable {s s' s'' : Admission}

lemma of_leases (h : s'.leases = s.leases) : s.Forward s' :=
  fun _ lease hl => ⟨lease, by rw [h]; exact hl, Nat.le_refl _, rfl, rfl⟩

lemma trans (h : s.Forward s') (h' : s'.Forward s'') : s.Forward s'' := by
  intro l lease hl
  obtain ⟨lease', hl', hr, hp, hj⟩ := h l lease hl
  obtain ⟨lease'', hl'', hr', hp', hj'⟩ := h' l lease' hl'
  exact ⟨lease'', hl'', Nat.le_trans hr hr', hp'.trans hp, hj'.trans hj⟩

lemma set {l : ℕ} {lease lease' : ConnectionLease} (hl : s.leases[l]? = some lease)
    (hs : s'.leases = s.leases.set l lease') (hr : lease.state.rank ≤ lease'.state.rank)
    (hp : lease'.peer = lease.peer) (hj : lease'.listener = lease.listener) : s.Forward s' := by
  intro i old hi
  by_cases hil : i = l
  · subst hil
    rw [hl] at hi
    cases hi
    exact ⟨lease', by rw [hs, List.getElem?_set_self (List.getElem?_eq_some_iff.mp hl).1], hr, hp,
      hj⟩
  · exact ⟨old, by rw [hs, List.getElem?_set_ne (Ne.symm hil)]; exact hi, Nat.le_refl _, rfl, rfl⟩

lemma append {lease : ConnectionLease} (hs : s'.leases = s.leases ++ [lease]) : s.Forward s' := by
  intro i old hi
  refine ⟨old, ?_, Nat.le_refl _, rfl, rfl⟩
  rw [hs, List.getElem?_append_left (List.getElem?_eq_some_iff.mp hi).1]
  exact hi

end Admission.Forward

/-! ### Frames: what a step leaves alone stays balanced -/

section Frames

variable {a a' : AdmissionController} {w w' : (ConnectionLease → ℕ) → ℕ} {tok tok' : ℕ → ℕ}
  {cs : List Hold} {t : ℕ} {c c' : Hold}

/-- The controller fields the connection counts look at are the same. -/
structure AdmissionController.SameCounts (a a' : AdmissionController) : Prop where
  limits : a'.limits = a.limits
  opening : a'.opening = a.opening
  active : a'.active = a.active
  draining : a'.draining = a.draining
  perPeer : a'.perPeer = a.perPeer

lemma AdmissionController.SameCounts.refl : a.SameCounts a := ⟨rfl, rfl, rfl, rfl, rfl⟩

lemma Counts.frame (h : Counts a w) (ha : a.SameCounts a')
    (hw : ∀ f, ConnectionLease.IsWeight f → w' f = w f) : Counts a' w' := by
  obtain ⟨h₁, h₂, h₃, h₄, h₅⟩ := ha
  refine ⟨fun st hst => ?_, fun p => ?_, ?_, ?_⟩
  · rw [hw _ (ConnectionLease.isWeight_inState hst), ← h.count st hst]
    cases st <;> simp [AdmissionController.count, h₂, h₃, h₄]
  · rw [hw _ (ConnectionLease.isWeight_ofPeer p), ← h.perPeer p, h₅]
  · rw [h₁, h₂, h₃, h₄]
    exact h.maxConnections
  · rw [h₁, h₅]
    exact h.maxPerPeer

lemma AdmissionController.addPeer_perPeer {peer p : String} {n : ℕ} (h : a.perPeer p = entry n) :
    (a.addPeer peer).perPeer p = entry (n + if peer = p ∧ p ≠ "" then 1 else 0) := by
  unfold addPeer
  by_cases hp : peer = p
  · subst hp
    by_cases hne : peer = ""
    · simp [hne, ← h]
    · simp only [hne, ne_eq, not_false_eq_true, if_true, Function.update_self, h, entry_getD,
        and_self]
      rfl
  · have hzero : (if peer = p ∧ p ≠ "" then 1 else 0) = 0 := if_neg fun hc => hp hc.1
    have hn : a.perPeer p = entry (n + 0) := h
    rw [hzero, ← hn]
    split_ifs with hne
    · exact Function.update_of_ne (Ne.symm hp) _ _
    · rfl

lemma AdmissionController.dropPeer_perPeer {peer p : String} {n : ℕ}
    (h : a.perPeer p = entry (n + if peer = p ∧ p ≠ "" then 1 else 0)) :
    (a.dropPeer peer).perPeer p = entry n := by
  unfold dropPeer
  by_cases hp : peer = p
  · subst hp
    by_cases hne : peer = ""
    · simpa [hne] using h
    · cases n <;> simp_all [entry]
  · rw [if_neg fun hc => hp hc.1, Nat.add_zero] at h
    rw [← h]
    by_cases hne : peer ≠ ""
    · rw [if_pos hne]
      exact Function.update_of_ne (Ne.symm hp) _ _
    · rw [if_neg hne]

lemma AdmissionController.admitOpening_frame {peer : String} (h : a.admitOpening peer = .ok a') :
    a'.limits = a.limits ∧ ∀ k, a'.ongoing k = a.ongoing k := by
  simp only [AdmissionController.admitOpening, AdmissionController.addPeer] at h
  split_ifs at h <;> cases h <;> exact ⟨rfl, fun k => by cases k <;> rfl⟩

/-- One more opening connection. -/
lemma Counts.opened {peer : String} {new : ConnectionLease} (h : Counts a w)
    (ha : a.admitOpening peer = .ok a') (hs : new.state = .opening) (hp : new.peer = peer)
    (hw : ∀ f, w' f = w f + f new) : Counts a' w' := by
  simp only [AdmissionController.admitOpening] at ha
  split_ifs at ha with hmax hpeer
  cases ha
  have hcount : ({ a with opening := a.opening + 1 }.addPeer peer).limits = a.limits ∧
      ({ a with opening := a.opening + 1 }.addPeer peer).opening = a.opening + 1 ∧
      ({ a with opening := a.opening + 1 }.addPeer peer).active = a.active ∧
      ({ a with opening := a.opening + 1 }.addPeer peer).draining = a.draining := by
    unfold AdmissionController.addPeer
    split_ifs <;> exact ⟨rfl, rfl, rfl, rfl⟩
  have hentry : ∀ p, ({ a with opening := a.opening + 1 }.addPeer peer).perPeer p =
      entry (w (ConnectionLease.ofPeer p) + if peer = p ∧ p ≠ "" then 1 else 0) :=
    fun p => AdmissionController.addPeer_perPeer (h.perPeer p)
  obtain ⟨hlim, hop, hac, hdr⟩ := hcount
  refine ⟨fun st hst => ?_, fun p => ?_, fun hl => ?_, fun hl p => ?_⟩
  · have := h.count st hst
    rw [hw, ← this]
    cases st <;> simp_all [AdmissionController.count, ConnectionLease.inState]
  · rw [hentry, hw]
    simp [ConnectionLease.ofPeer, hs, hp]
  · rw [hlim] at hl ⊢
    omega
  · rw [hlim] at hl ⊢
    have hold := h.maxPerPeer hl p
    rw [hentry, entry_getD]
    rw [h.perPeer, entry_getD] at hold hpeer
    split_ifs with hc
    · obtain ⟨rfl, hne⟩ := hc
      have hlt : ¬a.limits.maxConnectionsPerPeer ≤ w (ConnectionLease.ofPeer peer) :=
        fun hle => hpeer ⟨hne, hl, hle⟩
      omega
    · omega

/-- A lease moves from one state to the next. -/
lemma Counts.move {old : ConnectionLease} (new : ConnectionLease) (h : Counts a w)
    (hn : new.state ≠ old.state) (ho : old.state ≠ .released) (hn' : new.state ≠ .released)
    (hp : new.peer = old.peer) (hw : ∀ f, w' f + f old = w f + f new) :
    Counts ((a.decr old.state).incr new.state) w' := by
  have hin : ∀ st, w' (ConnectionLease.inState st) + (if old.state = st then 1 else 0) =
      w (ConnectionLease.inState st) + (if new.state = st then 1 else 0) := fun st => hw _
  have hpeer : ∀ p, w' (ConnectionLease.ofPeer p) = w (ConnectionLease.ofPeer p) := by
    intro p
    have := hw (ConnectionLease.ofPeer p)
    rw [show ConnectionLease.ofPeer p new = ConnectionLease.ofPeer p old from by
      simp [ConnectionLease.ofPeer, ho, hn', hp]] at this
    omega
  have h₁ := h.count .opening (by simp)
  have h₂ := h.count .active (by simp)
  have h₃ := h.count .draining (by simp)
  have h₄ := hin .opening
  have h₅ := hin .active
  have h₆ := hin .draining
  have hmax := h.maxConnections
  simp only [AdmissionController.count] at h₁ h₂ h₃
  cases hold : old.state <;> cases hnew : new.state <;> simp only [hold, hnew] at *
  all_goals first | contradiction | skip
  all_goals
    simp only [reduceCtorEq, if_true, if_false] at h₄ h₅ h₆
    refine ⟨fun st hst => ?_, fun p => by rw [hpeer]; exact h.perPeer p, fun hl => ?_,
      h.maxPerPeer⟩
    · cases st <;> simp only [AdmissionController.count, AdmissionController.decr,
        AdmissionController.incr] <;> first | omega | contradiction
    · have := hmax hl
      simp only [AdmissionController.decr, AdmissionController.incr]
      omega

lemma AdmissionController.decr_dropPeer_frame (a : AdmissionController)
    (st : ConnectionLeaseState) (peer : String) :
    ((a.decr st).dropPeer peer).limits = a.limits ∧
      ∀ k, ((a.decr st).dropPeer peer).ongoing k = a.ongoing k := by
  unfold dropPeer
  split_ifs <;> cases st <;> exact ⟨rfl, fun k => by cases k <;> rfl⟩

/-- A lease that was marked released is taken off the counters. -/
lemma Counts.drop {old : ConnectionLease} (h : Counts a w) (ho : old.state ≠ .released)
    (hw : ∀ f, w' f + f old = w f) : Counts ((a.decr old.state).dropPeer old.peer) w' := by
  have hin : ∀ st, w' (ConnectionLease.inState st) + (if old.state = st then 1 else 0) =
      w (ConnectionLease.inState st) := fun st => hw _
  have hcount : ∀ b : AdmissionController, (b.dropPeer old.peer).limits = b.limits ∧
      (b.dropPeer old.peer).opening = b.opening ∧ (b.dropPeer old.peer).active = b.active ∧
      (b.dropPeer old.peer).draining = b.draining := by
    intro b
    unfold AdmissionController.dropPeer
    split_ifs <;> exact ⟨rfl, rfl, rfl, rfl⟩
  have hentry : ∀ p, ((a.decr old.state).dropPeer old.peer).perPeer p =
      entry (w' (ConnectionLease.ofPeer p)) := by
    intro p
    apply AdmissionController.dropPeer_perPeer
    have : w' (ConnectionLease.ofPeer p) + ConnectionLease.ofPeer p old = _ := hw _
    rw [ConnectionLease.ofPeer] at this
    rw [show (a.decr old.state).perPeer = a.perPeer from by cases old.state <;> rfl, h.perPeer,
      ← this]
    simp [ho]
  obtain ⟨hl, hop, hac, hdr⟩ := hcount (a.decr old.state)
  have hlim : (a.decr old.state).limits = a.limits := by cases old.state <;> rfl
  have hdecr : ∀ st, st ≠ .released →
      (a.decr old.state).count st = w' (ConnectionLease.inState st) := by
    intro st hst
    have h₁ := h.count st hst
    have h₂ := hin st
    cases hold : old.state <;> cases st <;>
      simp_all [AdmissionController.count, AdmissionController.decr] <;> omega
  refine ⟨fun st hst => ?_, hentry, fun hm => ?_, fun hm p => ?_⟩
  · rw [← hdecr st hst]
    cases st <;> simp only [AdmissionController.count, hop, hac, hdr]
  · rw [hl, hlim] at hm ⊢
    have hmax := h.maxConnections hm
    rw [hop, hac, hdr]
    cases old.state <;> simp only [AdmissionController.decr] <;> omega
  · rw [hl, hlim] at hm ⊢
    rw [hentry, entry_getD]
    have hle := h.maxPerPeer hm p
    rw [h.perPeer, entry_getD] at hle
    have hsum : w' (ConnectionLease.ofPeer p) + ConnectionLease.ofPeer p old = _ := hw _
    omega

/-- What each listener is charged for may pass between leases and goroutines. -/
lemma Capacities.pass {ls : List ListenerCapacity} (h : Capacities ls w tok)
    (hsum : ∀ j, w' (ConnectionLease.ofListener j) + tok' j =
      w (ConnectionLease.ofListener j) + tok j) : Capacities ls w' tok' :=
  ⟨fun j cap hj => by rw [hsum]; exact h.used j cap hj, h.max,
    fun j hj => by rw [hsum]; exact h.unknown j hj⟩

lemma Capacities.frame {ls : List ListenerCapacity} (h : Capacities ls w tok)
    (hw : ∀ f, ConnectionLease.IsWeight f → w' f = w f) (ht : ∀ j, tok' j = tok j) :
    Capacities ls w' tok' :=
  h.pass fun j => by rw [hw _ (ConnectionLease.isWeight_ofListener j), ht]

/-- One listener is charged anew, the others as before. -/
lemma Capacities.set {ls : List ListenerCapacity} {j : ℕ} {cap cap' : ListenerCapacity}
    (h : Capacities ls w tok) (hj : ls[j]? = some cap)
    (hu : cap'.used = w' (ConnectionLease.ofListener j) + tok' j)
    (hm : 0 < cap'.limit → cap'.used ≤ cap'.limit)
    (ho : ∀ i, i ≠ j → w' (ConnectionLease.ofListener i) + tok' i =
      w (ConnectionLease.ofListener i) + tok i) : Capacities (ls.set j cap') w' tok' := by
  have hlt : j < ls.length := (List.getElem?_eq_some_iff.mp hj).1
  refine ⟨fun i d hi => ?_, fun i d hi => ?_, fun i hi => ?_⟩
  · by_cases hij : i = j
    · subst hij
      rw [List.getElem?_set_self hlt] at hi
      cases hi
      exact hu
    · rw [List.getElem?_set_ne (Ne.symm hij)] at hi
      rw [ho i hij]
      exact h.used i d hi
  · by_cases hij : i = j
    · subst hij
      rw [List.getElem?_set_self hlt] at hi
      cases hi
      exact hm
    · rw [List.getElem?_set_ne (Ne.symm hij)] at hi
      exact h.max i d hi
  · rw [List.length_set] at hi
    rw [ho i (by omega)]
    exact h.unknown i hi

lemma Ongoing.frame {acts : List ActivityLease} (h : Ongoing a acts cs)
    (ho : ∀ k, a'.ongoing k = a.ongoing k) (hl : a'.limits = a.limits) (hc : cs[t]? = some c)
    (he : c'.expiring = c.expiring) : Ongoing a' acts (cs.set t c') := by
  refine ⟨fun k => ?_, fun k => ?_⟩
  · rw [total_set_eq hc (by rw [Hold.expiringOf, Hold.expiringOf, he]), ho]
    exact h.ongoing k
  · have : a'.activityLimit k = a.activityLimit k := by
      cases k <;> simp [AdmissionController.activityLimit, hl]
    rw [this, ho]
    exact h.max k

lemma Mutexes.hold {leases : List ConnectionLease} (h : Mutexes leases cs) (hc : cs[t]? = some c)
    (hl : c'.lock = c.lock) : Mutexes leases (cs.set t c') := by
  refine ⟨fun l lease hlease => ?_, fun d hd l st hlock => ?_⟩
  · rw [total_set_eq hc (by rw [Hold.lockOn, Hold.lockOn, hl])]
    exact h.mutex l lease hlease
  · rcases List.mem_or_eq_of_mem_set hd with hd | rfl
    · exact h.locked d hd l st hlock
    · exact h.locked c (List.mem_of_getElem? hc) l st (hl ▸ hlock)

/-- No goroutine but `t` has the mutex of the lease. -/
lemma lock_unique {l : ℕ} {d : Hold} {i : ℕ} (hc : cs[t]? = some c)
    (h : total (Hold.lockOn l) cs ≤ Hold.lockOn l c) (hi : i ≠ t) (hd : cs[i]? = some d) :
    d.lock.map Prod.fst ≠ some l := by
  intro hl
  have := add_le_total (f := Hold.lockOn l) hi hd hc
  rw [show Hold.lockOn l d = 1 from if_pos hl] at this
  omega

/-- A goroutine takes, gives back or does not touch the mutex of the lease it writes. -/
lemma Mutexes.set {leases : List ConnectionLease} {l : ℕ} {lease lease' : ConnectionLease}
    (h : Mutexes leases cs) (hc : cs[t]? = some c) (hl : leases[l]? = some lease)
    (hmu : lease'.mu.toNat + Hold.lockOn l c = lease.mu.toNat + Hold.lockOn l c')
    (hother : ∀ i, i ≠ l → Hold.lockOn i c' = Hold.lockOn i c)
    (hst : lease'.state = lease.state ∨ lease.mu.toNat ≤ Hold.lockOn l c)
    (hnew : ∀ i st, c'.lock = some (i, st) → i = l ∧ lease'.state = st) :
    Mutexes (leases.set l lease') (cs.set t c') := by
  have hlt : l < leases.length := (List.getElem?_eq_some_iff.mp hl).1
  have hlt' : t < cs.length := (List.getElem?_eq_some_iff.mp hc).1
  refine ⟨fun i d hi => ?_, fun d hd i st hlock => ?_⟩
  · have htot := total_set (f := Hold.lockOn i) c' hc
    by_cases hil : i = l
    · subst hil
      rw [List.getElem?_set_self hlt] at hi
      cases hi
      have := h.mutex i lease hl
      omega
    · rw [List.getElem?_set_ne (Ne.symm hil)] at hi
      have := h.mutex i d hi
      have := hother i hil
      omega
  · obtain ⟨k, hk⟩ := List.mem_iff_getElem?.mp hd
    by_cases hkt : k = t
    · subst hkt
      rw [List.getElem?_set_self hlt'] at hk
      cases hk
      obtain ⟨rfl, hst'⟩ := hnew i st hlock
      exact ⟨lease', List.getElem?_set_self hlt, hst'⟩
    · rw [List.getElem?_set_ne (Ne.symm hkt)] at hk
      obtain ⟨old, hold, hst'⟩ := h.locked d (List.mem_of_getElem? hk) i st hlock
      by_cases hil : i = l
      · -- another goroutine is inside the mutex, so the state was not written
        subst hil
        rw [hl] at hold
        cases hold
        rcases hst with hst | hst
        · exact ⟨lease', List.getElem?_set_self hlt, hst.trans hst'⟩
        · rw [← h.mutex i lease hl] at hst
          exact absurd (by rw [hlock]; rfl) (lock_unique hc hst hkt hk)
      · exact ⟨old, by rw [List.getElem?_set_ne (Ne.symm hil)]; exact hold, hst'⟩

lemma Mutexes.append {leases : List ConnectionLease} {new : ConnectionLease}
    (h : Mutexes leases cs) (hnew : new.mu = false) : Mutexes (leases ++ [new]) cs := by
  refine ⟨fun i d hi => ?_, fun d hd i st hlock => ?_⟩
  · by_cases hlt : i < leases.length
    · rw [List.getElem?_append_left hlt] at hi
      exact h.mutex i d hi
    · -- nobody has the mutex of a lease that did not exist
      obtain rfl : d = new := by
        rw [List.getElem?_append_right (Nat.not_lt.mp hlt)] at hi
        exact (List.mem_singleton.mp (List.mem_of_getElem? hi))
      rw [hnew, Bool.toNat_false, total_eq_zero_iff]
      intro e he
      refine if_neg fun hl => ?_
      obtain ⟨⟨i', st⟩, hlock, rfl⟩ := Option.map_eq_some_iff.mp hl
      obtain ⟨old, hold, -⟩ := h.locked e he _ st hlock
      exact hlt (List.getElem?_eq_some_iff.mp hold).1
  · obtain ⟨old, hold, hst⟩ := h.locked d hd i st hlock
    exact ⟨old, by rw [List.getElem?_append_left (List.getElem?_eq_some_iff.mp hold).1]; exact hold,
      hst⟩

lemma live_hold (h : ∀ c ∈ cs, ∀ old, c.releasing = some old → old.state ≠ .released)
    (hc : cs[t]? = some c) (hr : c'.releasing = c.releasing) :
    ∀ d ∈ cs.set t c', ∀ old, d.releasing = some old → old.state ≠ .released := by
  intro d hd old hold
  rcases List.mem_or_eq_of_mem_set hd with hd | rfl
  · exact h d hd old hold
  · exact h c (List.mem_of_getElem? hc) old (hr ▸ hold)

lemma total_tokenOf (j : ℕ) (c' : Hold) (hc : cs[t]? = some c) :
    total (Hold.tokenOf j) (cs.set t c') + (if c.token = some j then 1 else 0) =
      total (Hold.tokenOf j) cs + (if c'.token = some j then 1 else 0) :=
  total_set (f := Hold.tokenOf j) c' hc

lemma total_expiringOf (k : Activity) (c' : Hold) (hc : cs[t]? = some c) :
    total (Hold.expiringOf k) (cs.set t c') + (if c.expiring = some k then 1 else 0) =
      total (Hold.expiringOf k) cs + (if c'.expiring = some k then 1 else 0) :=
  total_set (f := Hold.expiringOf k) c' hc

end Frames

end Ogrenet
