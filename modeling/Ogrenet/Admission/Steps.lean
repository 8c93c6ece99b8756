import Ogrenet.Admission.Ledger

/-!
# Admission steps against the ledger

Every admission step of a goroutine that holds what the step needs keeps the ledger balanced
(`Ledger.exec`), never has to clamp a counter (`Ledger.unclamped`) and moves leases forward only
(`Ledger.forward`).
-/

namespace Ogrenet

open Interleaving

namespace Ledger

variable {s s' : Admission} {cs : List Hold} {t : ℕ} {c : Hold}

/-- A step that moves no account and changes nothing the goroutine holds. -/
lemma idle_step {a' : AdmissionController} (hG : Ledger s cs) (ha : s.ctl.SameCounts a')
    (ho : ∀ k, a'.ongoing k = s.ctl.ongoing k) (hc : cs[t]? = some c) :
    Ledger { s with ctl := a' } (cs.set t c) := by
  have hset := set_of_getElem? hc
  refine ⟨?_, ?_, hG.ongoing.frame ho ha.limits hc rfl, ?_, ?_⟩
  · rw [hset]
    exact hG.counts.frame ha fun _ _ => rfl
  · rw [hset]
    exact hG.capacities
  · rw [hset]
    exact hG.mutexes
  · rw [hset]
    exact hG.live

/-- A step on a listener's capacity, for a goroutine that takes or gives back one unit of it. -/
lemma capacity_step {j : ℕ} {cap cap' : ListenerCapacity} {c' : Hold} (hc : cs[t]? = some c)
    (hG : Ledger s cs) (hj : s.listeners[j]? = some cap)
    (hr : c'.releasing = c.releasing) (hl : c'.lock = c.lock) (he : c'.expiring = c.expiring)
    (hu : cap'.used + (if c.token = some j then 1 else 0) =
      cap.used + (if c'.token = some j then 1 else 0))
    (hm : 0 < cap'.limit → cap'.used ≤ cap'.limit)
    (ho : ∀ i, i ≠ j → (c'.token = some i ↔ c.token = some i)) :
    Ledger (s.setListener j cap') (cs.set t c') := by
  have hw : ∀ f, weigh f s.leases (cs.set t c') = weigh f s.leases cs := fun f => weigh_hold hc hr
  refine ⟨hG.counts.frame .refl fun f _ => hw f, ?_, hG.ongoing.frame (fun _ => rfl) rfl hc he,
    hG.mutexes.hold hc hl, live_hold hG.live hc hr⟩
  refine hG.capacities.set hj ?_ hm fun i hi => ?_
  · have h₁ := hG.capacities.used j cap hj
    have h₂ := total_tokenOf j c' hc
    simp only [Admission.setListener_leases, hw]
    omega
  · have h₂ := total_tokenOf i c' hc
    simp only [ho i hi] at h₂
    simp only [Admission.setListener_leases, hw]
    omega

/-- A goroutine that starts with nothing in hand changes no account. -/
lemma spawn (hG : Ledger s cs) : Ledger s (cs ++ [({} : Hold)]) := by
  have hw : ∀ f, weigh f s.leases (cs ++ [({} : Hold)]) = weigh f s.leases cs := fun f => by
    simp [weigh, Hold.releasingW]
  refine ⟨hG.counts.frame .refl fun f _ => hw f, hG.capacities.frame (fun f _ => hw f) fun j => ?_,
    ⟨fun k => ?_, hG.ongoing.max⟩, ⟨fun l lease hl => ?_, fun c hc l st hlock => ?_⟩,
    fun c hc old hold => ?_⟩
  · simp [Hold.tokenOf]
  · simpa [Hold.expiringOf] using hG.ongoing.ongoing k
  · simpa [Hold.lockOn] using hG.mutexes.mutex l lease hl
  · rcases List.mem_append.mp hc with hc | hc
    · exact hG.mutexes.locked c hc l st hlock
    · cases List.mem_singleton.mp hc
      cases hlock
  · rcases List.mem_append.mp hc with hc | hc
    · exact hG.live c hc old hold
    · cases List.mem_singleton.mp hc
      cases hold

/-- A new listener starts with nothing charged. -/
lemma newListener (limit : ℕ) (hG : Ledger s cs) :
    Ledger { s with listeners := s.listeners ++ [newListenerCapacity limit] } cs := by
  refine ⟨hG.counts, ⟨fun j cap hj => ?_, fun j cap hj => ?_, fun j hj => ?_⟩, hG.ongoing,
    hG.mutexes, hG.live⟩
  · by_cases hlt : j < s.listeners.length
    · rw [List.getElem?_append_left hlt] at hj
      exact hG.capacities.used j cap hj
    · rw [List.getElem?_append_right (Nat.not_lt.mp hlt)] at hj
      cases List.mem_singleton.mp (List.mem_of_getElem? hj)
      exact (hG.capacities.unknown j (Nat.not_lt.mp hlt)).symm
  · by_cases hlt : j < s.listeners.length
    · rw [List.getElem?_append_left hlt] at hj
      exact hG.capacities.max j cap hj
    · rw [List.getElem?_append_right (Nat.not_lt.mp hlt)] at hj
      cases List.mem_singleton.mp (List.mem_of_getElem? hj)
      exact fun _ => Nat.zero_le _
  · rw [List.length_append] at hj
    exact hG.capacities.unknown j (by omega)

lemma mu_of_lock {l : ℕ} {st : ConnectionLeaseState} {lease : ConnectionLease}
    (hc : cs[t]? = some c) (hG : Ledger s cs) (hlock : c.lock = some (l, st))
    (hl : s.leases[l]? = some lease) : lease.mu = true := by
  have hle := le_total_of_getElem? (f := Hold.lockOn l) hc
  rw [hG.mutexes.mutex l lease hl, Hold.lockOn, if_pos (by rw [hlock]; rfl)] at hle
  cases hmu : lease.mu
  · simp [hmu] at hle
  · rfl

lemma state_of_lock {l : ℕ} {st : ConnectionLeaseState} {lease : ConnectionLease}
    (hc : cs[t]? = some c) (hG : Ledger s cs) (hlock : c.lock = some (l, st))
    (hl : s.leases[l]? = some lease) : lease.state = st := by
  obtain ⟨old, hold, hst⟩ := hG.mutexes.locked c (List.mem_of_getElem? hc) l st hlock
  rw [hl] at hold
  cases hold
  exact hst

lemma capacityAcquire {j : ℕ} {r : Except ℕ Unit} (hc : cs[t]? = some c) (hG : Ledger s cs)
    (ht : c.token = none) (hx : s.exec (.capacityAcquire j) = some (s', r)) :
    Ledger s' (cs.set t (Hold.upd (.capacityAcquire j) r c)) := by
  simp only [Admission.exec] at hx
  split at hx
  · cases hx
  rename_i cap hj
  split at hx
  · -- the listener is full: only its rejection counter moves
    cases hx
    exact hG.capacity_step hc hj rfl rfl rfl rfl (hG.capacities.max j cap hj) fun _ _ => Iff.rfl
  · rename_i hfull
    cases hx
    refine hG.capacity_step hc hj rfl rfl rfl ?_ (fun hl => ?_) fun i hi => ?_
    · simp [Hold.upd, ht]
    · have := hG.capacities.max j cap hj
      simp only at hl ⊢
      omega
    · simp [Hold.upd, ht, Ne.symm hi]

lemma capacityRelease {j : ℕ} {r : Unit} (hc : cs[t]? = some c) (hG : Ledger s cs)
    (ht : c.token = some j) (hx : s.exec (.capacityRelease j) = some (s', r)) :
    Ledger s' (cs.set t (Hold.upd (.capacityRelease j) r c)) := by
  simp only [Admission.exec] at hx
  split at hx
  · cases hx
  rename_i cap hj
  cases hx
  -- the unit this goroutine holds is one of those the listener counts
  have hpos : 1 ≤ cap.used := by
    have h₁ := hG.capacities.used j cap hj
    have h₂ := le_total_of_getElem? (f := Hold.tokenOf j) hc
    rw [Hold.tokenOf, if_pos ht] at h₂
    omega
  refine hG.capacity_step hc hj rfl rfl rfl ?_ (fun hl => ?_) fun i hi => ?_
  · simp only [Hold.upd, ht, if_true, reduceCtorEq, if_false]
    omega
  · have := hG.capacities.max j cap hj hl
    simp only
    omega
  · simp [Hold.upd, ht, Ne.symm hi]

lemma rejectListener {r : Unit} (hc : cs[t]? = some c) (hG : Ledger s cs)
    (hx : s.exec .rejectListener = some (s', r)) :
    Ledger s' (cs.set t (Hold.upd .rejectListener r c)) := by
  cases hx
  exact hG.idle_step ⟨rfl, rfl, rfl, rfl, rfl⟩ (fun k => by cases k <;> rfl) hc

lemma openSection {peer : String} {listener : Option ℕ} {r : Except LimitError ℕ}
    (hc : cs[t]? = some c) (hG : Ledger s cs) (ht : c.token = listener)
    (hx : s.exec (.openSection peer listener) = some (s', r)) :
    Ledger s' (cs.set t (Hold.upd (.openSection peer listener) r c)) := by
  simp only [Admission.exec] at hx
  split at hx
  · rename_i e he
    cases hx
    refine hG.idle_step ?_ (fun k => ?_) hc
    · cases e with | mk kind _ => cases kind <;> exact ⟨rfl, rfl, rfl, rfl, rfl⟩
    · cases e with | mk kind _ => cases kind <;> cases k <;> rfl
  · rename_i ctl hctl
    cases hx
    have hw : ∀ f, weigh f (s.leases ++ [({ peer, listener } : ConnectionLease)])
        (cs.set t { c with token := none }) =
        weigh f s.leases cs + f { peer, listener } := by
      intro f
      have hhold : weigh f s.leases (cs.set t { c with token := none }) = weigh f s.leases cs :=
        weigh_hold hc rfl
      rw [weigh_append, hhold]
    have hlim : ctl.limits = s.ctl.limits ∧ ∀ k, ctl.ongoing k = s.ctl.ongoing k :=
      AdmissionController.admitOpening_frame hctl
    refine ⟨hG.counts.opened hctl rfl rfl hw, hG.capacities.pass fun j => ?_,
      hG.ongoing.frame hlim.2 hlim.1 hc rfl, (hG.mutexes.append rfl).hold hc rfl,
      live_hold hG.live hc rfl⟩
    -- the unit of capacity passes from the goroutine to the lease
    have htok := total_tokenOf j { c with token := none } hc
    simp only [ht, reduceCtorEq, if_false] at htok
    have hnew : ConnectionLease.ofListener j { peer, listener } =
        if listener = some j then 1 else 0 := by simp [ConnectionLease.ofListener]
    simp only [Hold.upd, hw, hnew]
    omega

/-- A step that takes or gives back the mutex of a lease and moves nothing else. -/
lemma mutex_step {l : ℕ} {lease : ConnectionLease} {b : Bool} {c' : Hold} (hc : cs[t]? = some c)
    (hG : Ledger s cs) (hl : s.leases[l]? = some lease) (hr : c'.releasing = c.releasing)
    (ht : c'.token = c.token) (he : c'.expiring = c.expiring)
    (hm : Mutexes (s.leases.set l { lease with mu := b }) (cs.set t c')) :
    Ledger (s.setLease l { lease with mu := b }) (cs.set t c') := by
  have hw : ∀ f, ConnectionLease.IsWeight f →
      weigh f (s.leases.set l { lease with mu := b }) (cs.set t c') = weigh f s.leases cs := by
    intro f hf
    have hset := weigh_set { lease with mu := b } f (cs.set t c') hl
    have hhold : weigh f s.leases (cs.set t c') = weigh f s.leases cs := weigh_hold hc hr
    have hmu : f { lease with mu := b } = f lease := hf.mu lease b
    omega
  refine ⟨hG.counts.frame .refl hw, hG.capacities.frame hw fun j => ?_,
    hG.ongoing.frame (fun _ => rfl) rfl hc he, hm, live_hold hG.live hc hr⟩
  exact total_set_eq hc (by rw [Hold.tokenOf, Hold.tokenOf, ht])

lemma lockLease {l : ℕ} {r : ConnectionLeaseState} (hc : cs[t]? = some c) (hG : Ledger s cs)
    (hlock : c.lock = none) (hx : s.exec (.lockLease l) = some (s', r)) :
    Ledger s' (cs.set t (Hold.upd (.lockLease l) r c)) := by
  simp only [Admission.exec] at hx
  split at hx
  · cases hx
  rename_i lease hl
  split at hx
  · cases hx
  rename_i hmu
  cases hx
  refine hG.mutex_step hc hl rfl rfl rfl (hG.mutexes.set hc hl ?_ ?_ (Or.inl rfl) ?_)
  · simp [Hold.upd, Hold.lockOn, hlock, Bool.eq_false_iff.mpr hmu]
  · intro i hi
    simp [Hold.upd, Hold.lockOn, hlock, Ne.symm hi]
  · rintro i st ⟨⟩
    exact ⟨rfl, rfl⟩

lemma unlockLease {l : ℕ} {r : Unit} (hc : cs[t]? = some c) (hG : Ledger s cs)
    (hlock : ∃ st, c.lock = some (l, st)) (hx : s.exec (.unlockLease l) = some (s', r)) :
    Ledger s' (cs.set t (Hold.upd (.unlockLease l) r c)) := by
  obtain ⟨st, hlock⟩ := hlock
  simp only [Admission.exec] at hx
  split at hx
  · cases hx
  rename_i lease hl
  cases hx
  have hmu := hG.mu_of_lock hc hlock hl
  refine hG.mutex_step hc hl rfl rfl rfl (hG.mutexes.set hc hl ?_ ?_ (Or.inl rfl) ?_)
  · simp [Hold.upd, Hold.lockOn, hlock, hmu]
  · intro i hi
    simp [Hold.upd, Hold.lockOn, hlock, Ne.symm hi]
  · rintro i st ⟨⟩

/-- A lease moves on under its mutex. -/
lemma move_step {l : ℕ} {lease : ConnectionLease} (st : ConnectionLeaseState)
    (hc : cs[t]? = some c) (hG : Ledger s cs) (hlock : c.lock = some (l, lease.state))
    (hl : s.leases[l]? = some lease) (hold : lease.state ≠ .released) (hnew : st ≠ .released)
    (hne : st ≠ lease.state) :
    Ledger ({ s with ctl := (s.ctl.decr lease.state).incr st }.setLease l
      { lease with state := st, mu := false }) (cs.set t { c with lock := none }) := by
  have hmu := hG.mu_of_lock hc hlock hl
  have hw : ∀ f, weigh f (s.leases.set l { lease with state := st, mu := false })
      (cs.set t { c with lock := none }) + f lease =
      weigh f s.leases cs + f { lease with state := st, mu := false } := by
    intro f
    have hhold : weigh f s.leases (cs.set t { c with lock := none }) = weigh f s.leases cs :=
      weigh_hold hc rfl
    rw [weigh_set _ f _ hl, hhold]
  have hmove : Counts ((s.ctl.decr lease.state).incr st) _ :=
    Counts.move { lease with state := st, mu := false } hG.counts hne hold hnew rfl hw
  refine ⟨hmove, hG.capacities.pass fun j => ?_,
    hG.ongoing.frame (fun k => ?_) ?_ hc rfl, hG.mutexes.set hc hl ?_ ?_ (Or.inr ?_) ?_,
    live_hold hG.live hc rfl⟩
  · have htok := total_tokenOf j { c with lock := none } hc
    have hof := hw (ConnectionLease.ofListener j)
    simp only [ConnectionLease.ofListener, hold, hnew, ne_eq, not_false_eq_true] at hof
    simp only [Admission.setLease_leases] at htok ⊢
    omega
  · cases k <;> cases hs : lease.state <;> cases st <;> rfl
  · cases hs : lease.state <;> cases st <;> rfl
  · simp [Hold.lockOn, hlock, hmu]
  · intro i hi
    simp [Hold.lockOn, hlock, Ne.symm hi]
  · simp [Hold.lockOn, hlock, hmu]
  · rintro i st ⟨⟩

lemma activateSection {l : ℕ} {r : Unit} (hc : cs[t]? = some c) (hG : Ledger s cs)
    (hlock : c.lock = some (l, .opening)) (hx : s.exec (.activateSection l) = some (s', r)) :
    Ledger s' (cs.set t (Hold.upd (.activateSection l) r c)) := by
  simp only [Admission.exec] at hx
  split at hx
  · cases hx
  rename_i lease hl
  cases hx
  have hst := hG.state_of_lock hc hlock hl
  have := hG.move_step .active hc (hst ▸ hlock) hl (by simp [hst]) (by simp) (by simp [hst])
  rwa [hst] at this

lemma drainSection {l : ℕ} {r : Unit} (hc : cs[t]? = some c) (hG : Ledger s cs)
    (hlock : c.lock = some (l, .active)) (hx : s.exec (.drainSection l) = some (s', r)) :
    Ledger s' (cs.set t (Hold.upd (.drainSection l) r c)) := by
  simp only [Admission.exec] at hx
  split at hx
  · cases hx
  rename_i lease hl
  cases hx
  have hst := hG.state_of_lock hc hlock hl
  have := hG.move_step .draining hc (hst ▸ hlock) hl (by simp [hst]) (by simp)
    (by simp [hst])
  rwa [hst] at this

lemma markReleased {l : ℕ} {r : Option ConnectionLease} (hc : cs[t]? = some c) (hG : Ledger s cs)
    (hreq : c.releasing = none ∧ c.token = none ∧ c.lock = none)
    (hx : s.exec (.markReleased l) = some (s', r)) :
    Ledger s' (cs.set t (Hold.upd (.markReleased l) r c)) := by
  obtain ⟨hr, htok, hlock⟩ := hreq
  simp only [Admission.exec] at hx
  split at hx
  · cases hx
  rename_i lease hl
  split at hx
  · cases hx
  rename_i hmu
  split at hx
  · cases hx
    exact hG.idle_step .refl (fun _ => rfl) hc
  rename_i hst
  cases hx
  have hw : ∀ f, ConnectionLease.IsWeight f →
      weigh f (s.leases.set l { lease with state := .released })
        (cs.set t { c with releasing := some lease }) = weigh f s.leases cs :=
    fun f hf => weigh_mark hf hl hc hr rfl rfl
  refine ⟨hG.counts.frame .refl hw,
    hG.capacities.frame hw fun j => total_set_eq hc rfl,
    hG.ongoing.frame (fun _ => rfl) rfl hc rfl, hG.mutexes.set hc hl ?_ ?_ (Or.inr ?_) ?_, ?_⟩
  · rfl
  · exact fun _ _ => rfl
  · simp [Bool.eq_false_iff.mpr hmu]
  · intro i st h
    rw [Hold.upd, hlock] at h
    cases h
  · intro d hd old hold
    rcases List.mem_or_eq_of_mem_set hd with hd | rfl
    · exact hG.live d hd old hold
    · cases hold
      exact hst

lemma releaseSection {state : ConnectionLeaseState} {peer : String} {r : Unit}
    (hc : cs[t]? = some c) (hG : Ledger s cs)
    (hreq : c.token = none ∧ ∃ old, c.releasing = some old ∧ old.state = state ∧ old.peer = peer)
    (hx : s.exec (.releaseSection state peer) = some (s', r)) :
    Ledger s' (cs.set t (Hold.upd (.releaseSection state peer) r c)) := by
  obtain ⟨htok, old, hr, rfl, rfl⟩ := hreq
  cases hx
  have hlive := hG.live c (List.mem_of_getElem? hc) old hr
  simp only [Hold.upd, hr, Option.bind_some]
  have hw : ∀ f, weigh f s.leases (cs.set t
      { c with releasing := none, token := old.listener }) + f old = weigh f s.leases cs :=
    fun f => weigh_subtract hc hr rfl
  have hframe := AdmissionController.decr_dropPeer_frame s.ctl old.state old.peer
  refine ⟨hG.counts.drop hlive hw, hG.capacities.pass fun j => ?_,
    hG.ongoing.frame hframe.2 hframe.1 hc rfl, hG.mutexes.hold hc rfl, ?_⟩
  · -- the unit of capacity passes from the lease to the goroutine
    have htok' := total_tokenOf j { c with releasing := none, token := old.listener } hc
    have hof := hw (ConnectionLease.ofListener j)
    simp only [htok, reduceCtorEq, if_false] at htok'
    rw [show ConnectionLease.ofListener j old = if old.listener = some j then 1 else 0 from by
      simp [ConnectionLease.ofListener, hlive]] at hof
    simp only
    omega
  · intro d hd e he
    rcases List.mem_or_eq_of_mem_set hd with hd | rfl
    · exact hG.live d hd e he
    · cases he

lemma acquireActivity {kind : Activity} {r : Except LimitError ℕ} (hc : cs[t]? = some c)
    (hG : Ledger s cs) (hx : s.exec (.acquireActivity kind) = some (s', r)) :
    Ledger s' (cs.set t (Hold.upd (.acquireActivity kind) r c)) := by
  simp only [Admission.exec] at hx
  split at hx
  · cases hx
    refine hG.idle_step ?_ (fun k => ?_) hc
    · cases kind <;> exact ⟨rfl, rfl, rfl, rfl, rfl⟩
    · cases kind <;> cases k <;> rfl
  rename_i hlim
  cases hx
  have hset := set_of_getElem? hc
  rw [show Hold.upd (.acquireActivity kind) (.ok s.activities.length) c = c from rfl, hset]
  refine ⟨hG.counts.frame ?_ fun _ _ => rfl, hG.capacities, ⟨fun k => ?_, fun k hk => ?_⟩,
    hG.mutexes, hG.live⟩
  · cases kind <;> exact ⟨rfl, rfl, rfl, rfl, rfl⟩
  · have := hG.ongoing.ongoing k
    simp only [AdmissionController.setOngoing_ongoing, total_append, total_cons, total_nil,
      ActivityLease.live, and_true]
    split_ifs with h
    · subst h
      omega
    · omega
  · rw [AdmissionController.setOngoing_activityLimit] at hk ⊢
    have := hG.ongoing.max k hk
    simp only [AdmissionController.setOngoing_ongoing]
    split_ifs with h
    · subst h
      omega
    · omega

lemma markActivity {l : ℕ} {r : Option Activity} (hc : cs[t]? = some c) (hG : Ledger s cs)
    (he : c.expiring = none) (hx : s.exec (.markActivity l) = some (s', r)) :
    Ledger s' (cs.set t (Hold.upd (.markActivity l) r c)) := by
  simp only [Admission.exec] at hx
  split at hx
  · cases hx
  rename_i act hact
  split at hx
  · cases hx
    exact hG.idle_step .refl (fun _ => rfl) hc
  rename_i hrel
  cases hx
  have hw : ∀ f, weigh f s.leases (cs.set t { c with expiring := some act.kind }) =
      weigh f s.leases cs := fun f => weigh_hold hc rfl
  refine ⟨hG.counts.frame .refl fun f _ => hw f,
    hG.capacities.frame (fun f _ => hw f) fun j => total_set_eq hc rfl,
    ⟨fun k => ?_, hG.ongoing.max⟩, hG.mutexes.hold hc rfl, live_hold hG.live hc rfl⟩
  have h₁ := total_set (f := ActivityLease.live k) { act with released := true } hact
  have h₂ := total_expiringOf k { c with expiring := some act.kind } hc
  have h₃ := hG.ongoing.ongoing k
  simp only [ActivityLease.live, hrel, he, Option.some.injEq, reduceCtorEq, and_true, and_false,
    if_false] at h₁ h₂ h₃
  simp only [Hold.upd]
  omega

lemma activitySection {kind : Activity} {r : Unit} (hc : cs[t]? = some c) (hG : Ledger s cs)
    (he : c.expiring = some kind) (hx : s.exec (.activitySection kind) = some (s', r)) :
    Ledger s' (cs.set t (Hold.upd (.activitySection kind) r c)) := by
  cases hx
  have hw : ∀ f, weigh f s.leases (cs.set t { c with expiring := none }) =
      weigh f s.leases cs := fun f => weigh_hold hc rfl
  refine ⟨hG.counts.frame ?_ fun f _ => hw f,
    hG.capacities.frame (fun f _ => hw f) fun j => total_set_eq hc rfl,
    ⟨fun k => ?_, fun k hk => ?_⟩, hG.mutexes.hold hc rfl, live_hold hG.live hc rfl⟩
  · cases kind <;> exact ⟨rfl, rfl, rfl, rfl, rfl⟩
  · have h₁ := total_expiringOf k { c with expiring := none } hc
    have h₂ := hG.ongoing.ongoing k
    simp only [he, Option.some.injEq, reduceCtorEq, if_false] at h₁
    simp only [AdmissionController.setOngoing_ongoing, Hold.upd]
    split_ifs at h₁ ⊢ with h
    · subst h
      omega
    · omega
  · rw [AdmissionController.setOngoing_activityLimit] at hk ⊢
    have := hG.ongoing.max k hk
    simp only [AdmissionController.setOngoing_ongoing]
    split_ifs with h
    · subst h
      omega
    · omega

/-- Every admission step of a goroutine that holds what the step needs keeps the accounts
balanced. -/
lemma exec {i : AdmInstr} {r : i.Resp} (hc : cs[t]? = some c) (hG : Ledger s cs)
    (hreq : Hold.req i c) (hx : s.exec i = some (s', r)) :
    Ledger s' (cs.set t (Hold.upd i r c)) := by
  cases i with
  | capacityAcquire j => exact hG.capacityAcquire hc hreq hx
  | capacityRelease j => exact hG.capacityRelease hc hreq hx
  | rejectListener => exact hG.rejectListener hc hx
  | openSection peer listener => exact hG.openSection hc hreq hx
  | lockLease l => exact hG.lockLease hc hreq hx
  | unlockLease l => exact hG.unlockLease hc hreq hx
  | activateSection l => exact hG.activateSection hc hreq hx
  | drainSection l => exact hG.drainSection hc hreq hx
  | markReleased l => exact hG.markReleased hc hreq hx
  | releaseSection state peer => exact hG.releaseSection hc hreq hx
  | acquireActivity kind => exact hG.acquireActivity hc hx
  | markActivity l => exact hG.markActivity hc hreq hx
  | activitySection kind => exact hG.activitySection hc hreq hx

/-! ### No clamp hides a decrement -/

/-- Whoever holds a lease in mid-release is counted. -/
lemma count_pos_of_releasing {old : ConnectionLease} (hc : cs[t]? = some c) (hG : Ledger s cs)
    (hr : c.releasing = some old) : 0 < s.ctl.count old.state := by
  have hlive := hG.live c (List.mem_of_getElem? hc) old hr
  have hle := le_total_of_getElem? (f := Hold.releasingW (ConnectionLease.inState old.state)) hc
  rw [show Hold.releasingW (ConnectionLease.inState old.state) c = 1 from by
    simp [Hold.releasingW, hr, ConnectionLease.inState]] at hle
  rw [hG.counts.count _ hlive, weigh]
  omega

lemma peer_pos_of_releasing {old : ConnectionLease} (hc : cs[t]? = some c) (hG : Ledger s cs)
    (hr : c.releasing = some old) (hp : old.peer ≠ "") : 0 < (s.ctl.perPeer old.peer).getD 0 := by
  have hlive := hG.live c (List.mem_of_getElem? hc) old hr
  have hle := le_total_of_getElem? (f := Hold.releasingW (ConnectionLease.ofPeer old.peer)) hc
  rw [show Hold.releasingW (ConnectionLease.ofPeer old.peer) c = 1 from by
    simp [Hold.releasingW, hr, ConnectionLease.ofPeer, hlive, hp]] at hle
  rw [hG.counts.perPeer, entry_getD, weigh]
  omega

/-- A lease whose state was read under its mutex is counted in that state. -/
lemma count_pos_of_lock {l : ℕ} {st : ConnectionLeaseState} (hc : cs[t]? = some c)
    (hG : Ledger s cs) (hlock : c.lock = some (l, st)) (hst : st ≠ .released) :
    0 < s.ctl.count st := by
  obtain ⟨lease, hl, hs⟩ := hG.mutexes.locked c (List.mem_of_getElem? hc) l st hlock
  have hle := le_total_of_getElem? (f := ConnectionLease.inState st) hl
  rw [ConnectionLease.inState, if_pos hs] at hle
  rw [hG.counts.count st hst, weigh]
  omega

lemma used_pos_of_token {j : ℕ} {cap : ListenerCapacity} (hc : cs[t]? = some c)
    (hG : Ledger s cs) (ht : c.token = some j) (hj : s.listeners[j]? = some cap) :
    0 < cap.used := by
  have hused := hG.capacities.used j cap hj
  have hle := le_total_of_getElem? (f := Hold.tokenOf j) hc
  rw [Hold.tokenOf, if_pos ht] at hle
  omega

lemma ongoing_pos_of_expiring {kind : Activity} (hc : cs[t]? = some c) (hG : Ledger s cs)
    (he : c.expiring = some kind) : 0 < s.ctl.ongoing kind := by
  have hle := le_total_of_getElem? (f := Hold.expiringOf kind) hc
  rw [Hold.expiringOf, if_pos he] at hle
  rw [hG.ongoing.ongoing]
  omega

/-- No decrement is suppressed by its clamp. -/
lemma unclamped {i : AdmInstr} (hc : cs[t]? = some c) (hG : Ledger s cs) (hreq : Hold.req i c) :
    i.Unclamped s := by
  cases i with
  | capacityRelease j => exact fun cap hj => hG.used_pos_of_token hc hreq hj
  | activateSection l => exact hG.count_pos_of_lock hc hreq (by simp)
  | drainSection l => exact hG.count_pos_of_lock hc hreq (by simp)
  | releaseSection state peer =>
    obtain ⟨-, old, hr, rfl, rfl⟩ := hreq
    exact ⟨hG.count_pos_of_releasing hc hr, hG.peer_pos_of_releasing hc hr⟩
  | activitySection kind => exact hG.ongoing_pos_of_expiring hc hreq
  | _ => trivial

/-! ### Leases only move forward -/

/-- A step writes a lease only to move it on. -/
lemma forward {i : AdmInstr} {r : i.Resp} (hc : cs[t]? = some c) (hG : Ledger s cs)
    (hreq : Hold.req i c) (hx : s.exec i = some (s', r)) : s.Forward s' := by
  cases i with
  | capacityAcquire j | capacityRelease j =>
    simp only [Admission.exec] at hx
    split at hx
    · cases hx
    · first
      | cases hx
        exact .of_leases rfl
      | split at hx <;> cases hx <;> exact .of_leases rfl
  | rejectListener | releaseSection state peer | activitySection kind =>
    cases hx
    exact .of_leases rfl
  | openSection peer listener =>
    simp only [Admission.exec] at hx
    split at hx <;> cases hx
    · exact .of_leases rfl
    · exact .append rfl
  | lockLease l =>
    simp only [Admission.exec] at hx
    split at hx
    · cases hx
    rename_i lease hl
    split at hx <;> cases hx
    exact .set hl rfl (Nat.le_refl _) rfl rfl
  | unlockLease l =>
    simp only [Admission.exec] at hx
    split at hx <;> cases hx
    rename_i hl
    exact .set hl rfl (Nat.le_refl _) rfl rfl
  | activateSection l =>
    simp only [Admission.exec] at hx
    split at hx <;> cases hx
    rename_i lease hl
    exact .set hl rfl (by rw [hG.state_of_lock hc hreq hl]; exact Nat.le_succ _) rfl rfl
  | drainSection l =>
    simp only [Admission.exec] at hx
    split at hx <;> cases hx
    rename_i lease hl
    exact .set hl rfl (by rw [hG.state_of_lock hc hreq hl]; exact Nat.le_succ _) rfl rfl
  | markReleased l =>
    simp only [Admission.exec] at hx
    split at hx
    · cases hx
    rename_i lease hl
    split at hx
    · cases hx
    split at hx <;> cases hx
    · exact .of_leases rfl
    · exact .set hl rfl (ConnectionLeaseState.rank_le_released _) rfl rfl
  | acquireActivity kind =>
    simp only [Admission.exec] at hx
    split at hx <;> cases hx <;> exact .of_leases rfl
  | markActivity l =>
    simp only [Admission.exec] at hx
    split at hx
    · cases hx
    split at hx <;> cases hx <;> exact .of_leases rfl

end Ledger

end Ogrenet
