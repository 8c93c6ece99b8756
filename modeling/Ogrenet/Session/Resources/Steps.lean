import Ogrenet.Session.Resources.Invariant

/-!
# The resources of a session, step by step

One lemma for each step that touches a resource, and `Resources.exec` for all of them.
-/

namespace Ogrenet

open Interleaving Interleaving.Prog

/-! ### The gate and the budgets alone -/

namespace SendGate

lemma close_active (g : SendGate) : g.close.active = g.active := by
  simp only [close]
  split <;> rfl

lemma close_drained {g : SendGate} (h : g.drained = (g.closed && g.active == 0)) :
    g.close.drained = (g.close.closed && g.close.active == 0) := by
  simp only [close]
  split
  · exact h
  · rename_i hc
    simp only [Bool.not_eq_true] at hc
    simp [h, hc]

lemma drained_close {g : SendGate} (h : g.drained = true) : g.close.drained = true := by
  simp only [close]
  split
  · exact h
  · simp [h]

lemma leave_drained {g : SendGate} (h : g.drained = (g.closed && g.active == 0))
    (hg : 0 < g.active) : g.leave.drained = (g.leave.closed && g.leave.active == 0) := by
  have hne : (g.active == 0) = false := by simp; omega
  simp [leave, h, hne]

end SendGate

namespace ByteQuota

lemma release_used (q : ByteQuota) (n : ℕ) : (q.release n).used = q.used - n := by
  simp only [release]
  split
  · omega
  · rfl

lemma release_limit (q : ByteQuota) (n : ℕ) : (q.release n).limit = q.limit := by
  simp only [release]
  split <;> rfl

lemma acquireSection_none {q : ByteQuota} {n : ℕ} (h : (q.acquireSection n).2 = none) :
    (q.acquireSection n).1.used = q.used + n := by
  simp only [acquireSection] at h ⊢
  split
  · rfl
  · rename_i hn
    rw [if_neg hn] at h
    split at h <;> cases h

lemma acquireSection_some {q : ByteQuota} {n g : ℕ} (h : (q.acquireSection n).2 = some g) :
    (q.acquireSection n).1.used = q.used := by
  simp only [acquireSection] at h ⊢
  split
  · rename_i hn
    rw [if_pos hn] at h
    cases h
  · split <;> rfl

lemma acquireSection_limit (q : ByteQuota) (n : ℕ) : (q.acquireSection n).1.limit = q.limit := by
  simp only [acquireSection]
  split
  · rfl
  · split <;> rfl

lemma tryAcquire_used (q : ByteQuota) (n : ℕ) :
    (q.tryAcquire n).1.used = q.used + if (q.tryAcquire n).2 then n else 0 := by
  simp only [tryAcquire]
  split <;> rfl

lemma tryAcquire_limit (q : ByteQuota) (n : ℕ) : (q.tryAcquire n).1.limit = q.limit := by
  simp only [tryAcquire]
  split <;> rfl

end ByteQuota

/-! ### Steps -/

namespace Resources

variable {kind : SessionKind} {cfg : SessionConfig} {s s' : Session} {cs : List Hand} {t : ℕ}
  {h : Hand}

lemma of_view (hR : Resources kind cfg s cs) (hv : s'.view = s.view) :
    Resources kind cfg s' cs := by
  simp only [Session.view, Prod.mk.injEq] at hv
  obtain ⟨h₁, h₂, h₃, h₄, h₅, h₆, h₇, h₈, h₉, h₁₀, h₁₁, h₁₂, h₁₃⟩ := hv
  refine ⟨hR.hands, ?_, ?_, ?_, ?_, ?_, ?_, ?_⟩
  · rw [Session.queue, h₁, h₂, h₃, h₄, h₆, h₇, h₈]
    exact hR.budgets
  · rw [h₁, h₃, h₉, h₁₂]
    exact hR.knows
  · rw [h₃, h₄]
    exact hR.received_le
  · rw [h₄, h₉]
    exact hR.results_le
  · rw [h₁, h₃, h₄, h₉]
    exact hR.consumed
  · rw [h₃, h₅, h₉, h₁₀, h₁₁]
    exact hR.records
  · rw [h₁₂, h₁₃]
    exact hR.loops

/-- The gate is left open only to those inside, so it drains when the last of them leaves. -/
lemma not_drained (hR : Resources kind cfg s cs) (ht : cs[t]? = some h) (hg : h.inGate = true) :
    0 < s.gate.active ∧ s.gate.drained = false := by
  have hle := le_total_of_getElem? (f := fun h : Hand => h.inGate.toNat) ht
  have hactive := hR.budgets.active
  simp only [hg, Bool.toNat_true] at hle
  have hpos : 0 < s.gate.active := by omega
  refine ⟨hpos, ?_⟩
  rw [hR.budgets.drained, Bool.and_eq_false_iff]
  right
  simp
  omega

lemma gateClose (hR : Resources kind cfg s cs) :
    Resources kind cfg { s with gate := s.gate.close } cs where
  hands := hR.hands
  budgets := ⟨by rw [SendGate.close_active]; exact hR.budgets.active,
    SendGate.close_drained hR.budgets.drained, hR.budgets.slots, hR.budgets.own,
    hR.budgets.shared, hR.budgets.limit⟩
  knows d hd := (hR.knows d hd).mono List.prefix_rfl List.prefix_rfl SendGate.drained_close
    (Nat.le_refl _)
  received_le := hR.received_le
  results_le := hR.results_le
  consumed d hd hw :=
    have hc := hR.consumed d hd hw
    ⟨hc.indices, hc.reqs, hc.result_eq,
      fun he => ⟨SendGate.drained_close (hc.empty he).1, (hc.empty he).2⟩⟩
  records := hR.records
  loops := hR.loops

/-- `h'` differs from `h` in what is held and in nothing that is recorded. -/
structure Alike (cfg : SessionConfig) (s : Session) (h h' : Hand) : Prop where
  entry : h'.entry = h.entry
  loop : h'.loop = h.loop
  knows : h.Knows cfg s.sent s.results s.gate.drained s.loops →
    h'.Knows cfg s.sent s.results s.gate.drained s.loops
  consumed : h.Consumed s.sent s.received s.results s.gate.drained →
    h'.Consumed s.sent s.received s.results s.gate.drained

/-- A step that moves resources, acks or counters and leaves the queue alone. -/
lemma hold (hR : Resources kind cfg s cs) (ht : cs[t]? = some h) {h' : Hand} {gate : SendGate}
    {slots : ℕ} {quota global : ByteQuota} {acks : List (Option (Option Err))}
    {counters : Counter → ℕ} (ha : Alike cfg s h h') (hok : h'.Ok cfg)
    (hd : s.gate.drained = true → gate.drained = true)
    (hb : Budgets cfg gate slots s.queue quota global s.others (cs.set t h'))
    (hr : Records kind s.sent acks s.results (counters .bytesTX) (counters .messagesTX)
      (cs.set t h')) :
    Resources kind cfg { s with gate, slots, quota, global, acks, counters } (cs.set t h') where
  hands := forall_mem_set hR.hands hok
  budgets := hb
  knows :=
    have hmono := fun d (hk : Hand.Knows cfg s.sent s.results s.gate.drained s.loops d) =>
      hk.mono List.prefix_rfl List.prefix_rfl hd (Nat.le_refl _)
    forall_mem_set (fun d hd => hmono d (hR.knows d hd))
      (hmono h' (ha.knows (hR.knows h (List.mem_of_getElem? ht))))
  received_le := hR.received_le
  results_le := hR.results_le
  consumed :=
    have hmono := fun d (hc : Hand.Consumed s.sent s.received s.results s.gate.drained d) =>
      Hand.Consumed.mk hc.indices hc.reqs hc.result_eq
        fun he => ⟨hd (hc.empty he).1, (hc.empty he).2⟩
    consumed_set hR.loops ht hR.consumed ha.entry (fun _ => hmono)
      fun _ hc => hmono h' (ha.consumed hc)
  records := hr
  loops := hR.loops.set ht ha.entry (by rw [ha.loop]) hR.loops.done

lemma ok (hR : Resources kind cfg s cs) (ht : cs[t]? = some h) : h.Ok cfg :=
  hR.hands h (List.mem_of_getElem? ht)

/-- A goroutine inside the gate is not the writer. -/
lemma sender_of_inGate (hR : Resources kind cfg s cs) (ht : cs[t]? = some h)
    (hg : h.inGate = true) : h.entry ≠ .writerLoop ∧ h.spent = [] ∧ h.Counted := by
  have hne : h.entry ≠ .writerLoop := fun hw => by
    have := (hR.ok ht).gate hw
    rw [hg] at this
    cases this
  exact ⟨hne, (hR.ok ht).sender hne⟩

lemma gateEnter (hR : Resources kind cfg s cs) (ht : cs[t]? = some h)
    (hreq : h.req kind cfg .gateEnter) :
    Resources kind cfg { s with gate := s.gate.enter.1 }
      (cs.set t (h.upd kind cfg .gateEnter s.gate.enter.2)) := by
  obtain ⟨hg, hne⟩ := hreq
  cases hc : s.gate.closed with
  | true =>
    have he : s.gate.enter = (s.gate, false) := by simp [SendGate.enter, hc]
    rw [he]
    exact (set_of_getElem? ht).symm ▸ hR
  | false =>
    have he : s.gate.enter = ({ s.gate with active := s.gate.active + 1 }, true) := by
      simp [SendGate.enter, hc]
    have hdr : s.gate.drained = false := by rw [hR.budgets.drained, hc, Bool.false_and]
    rw [he]
    refine hR.hold ht ?_ ?_ id ?_ (hR.records.set ht rfl rfl)
    · exact ⟨rfl, rfl, fun hk => ⟨hk.1, hk.2, hk.3, hk.4⟩,
        fun hc => ⟨hc.1, hc.2, hc.3, hc.4⟩⟩
    · exact .of_sender hne ((hR.ok ht).sender hne) nofun (hR.ok ht).one
    · refine hR.budgets.step ht ?_ ?_ rfl rfl rfl rfl
      · simp only [Hand.upd, hg, Bool.toNat_false, Bool.toNat_true]
      · simp only [hdr, hc, Bool.false_and]

lemma gateLeave (hR : Resources kind cfg s cs) (ht : cs[t]? = some h)
    (hreq : h.req kind cfg .gateLeave) :
    Resources kind cfg { s with gate := s.gate.leave }
      (cs.set t (h.upd kind cfg .gateLeave ())) := by
  obtain ⟨hg, hfree⟩ := hreq
  obtain ⟨hne, hsp⟩ := hR.sender_of_inGate ht hg
  obtain ⟨hpos, hdr⟩ := hR.not_drained ht hg
  refine hR.hold ht ?_ (.of_sender hne hsp (fun _ => hfree) (hR.ok ht).one) ?_ ?_
    (hR.records.set ht rfl rfl)
  · exact ⟨rfl, rfl, fun hk => ⟨hk.1, hk.2, hk.3, hk.4⟩,
      fun hc => ⟨hc.1, hc.2, hc.3, hc.4⟩⟩
  · simp [hdr]
  · refine hR.budgets.step ht ?_ (SendGate.leave_drained hR.budgets.drained hpos) rfl rfl rfl rfl
    simp only [SendGate.leave, Hand.upd, hg, Bool.toNat_false, Bool.toNat_true]
    omega

/-- A sender inside the gate takes slots or bytes. -/
lemma take (hR : Resources kind cfg s cs) (ht : cs[t]? = some h) (hg : h.inGate = true)
    (a b c : ℕ) {quota global : ByteQuota} (hone : h.slots + a ≤ 1)
    (hown : quota.used = s.quota.used + b)
    (hshared : global.used = s.global.used + c) (hlimit : global.limit = s.global.limit) :
    Resources kind cfg { s with slots := s.slots + a, quota, global }
      (cs.set t { h with slots := h.slots + a, own := h.own + b, shared := h.shared + c }) := by
  obtain ⟨hne, hsp⟩ := hR.sender_of_inGate ht hg
  refine hR.hold ht ?_ (.of_sender hne hsp (fun hg' => ?_) hone) id ?_
    (hR.records.set ht rfl rfl)
  · exact ⟨rfl, rfl, fun hk => ⟨hk.1, hk.2, hk.3, hk.4⟩,
      fun hc => ⟨hc.1, hc.2, hc.3, hc.4⟩⟩
  · rw [show h.inGate = false from hg'] at hg
    cases hg
  · exact hR.budgets.step ht rfl hR.budgets.drained (by dsimp only; omega) (by dsimp only; omega)
      (by dsimp only; omega) hlimit

lemma localSection (hR : Resources kind cfg s cs) (ht : cs[t]? = some h) (n : ℕ)
    (hg : h.inGate = true) :
    Resources kind cfg { s with quota := (s.quota.acquireSection n).1 }
      (cs.set t (h.upd kind cfg (.localSection n) (s.quota.acquireSection n).2)) := by
  cases hq : (s.quota.acquireSection n).2 with
  | none => exact hR.take ht hg 0 n 0 (hR.ok ht).one (ByteQuota.acquireSection_none hq) rfl rfl
  | some g => exact hR.take ht hg 0 0 0 (hR.ok ht).one (ByteQuota.acquireSection_some hq) rfl rfl

lemma localTry (hR : Resources kind cfg s cs) (ht : cs[t]? = some h) (n : ℕ)
    (hg : h.inGate = true) :
    Resources kind cfg { s with quota := (s.quota.tryAcquire n).1 }
      (cs.set t (h.upd kind cfg (.localTry n) (s.quota.tryAcquire n).2)) := by
  have hu := s.quota.tryAcquire_used n
  cases hq : (s.quota.tryAcquire n).2 with
  | true =>
    rw [hq, if_pos rfl] at hu
    exact hR.take ht hg 0 n 0 (hR.ok ht).one hu rfl rfl
  | false =>
    rw [hq, if_neg (by decide)] at hu
    exact hR.take ht hg 0 0 0 (hR.ok ht).one hu rfl rfl

lemma globalSection (hR : Resources kind cfg s cs) (ht : cs[t]? = some h) (n : ℕ)
    (hg : h.inGate = true) :
    Resources kind cfg { s with global := (s.global.acquireSection n).1 }
      (cs.set t (h.upd kind cfg (.globalSection n) (s.global.acquireSection n).2)) := by
  have hl := s.global.acquireSection_limit n
  cases hq : (s.global.acquireSection n).2 with
  | none => exact hR.take ht hg 0 0 n (hR.ok ht).one rfl (ByteQuota.acquireSection_none hq) hl
  | some g => exact hR.take ht hg 0 0 0 (hR.ok ht).one rfl (ByteQuota.acquireSection_some hq) hl

lemma globalTry (hR : Resources kind cfg s cs) (ht : cs[t]? = some h) (n : ℕ)
    (hg : h.inGate = true) :
    Resources kind cfg { s with global := (s.global.tryAcquire n).1 }
      (cs.set t (h.upd kind cfg (.globalTry n) (s.global.tryAcquire n).2)) := by
  have hl := s.global.tryAcquire_limit n
  have hu := s.global.tryAcquire_used n
  cases hq : (s.global.tryAcquire n).2 with
  | true =>
    rw [hq, if_pos rfl] at hu
    exact hR.take ht hg 0 0 n (hR.ok ht).one rfl hu hl
  | false =>
    rw [hq, if_neg (by decide)] at hu
    exact hR.take ht hg 0 0 0 (hR.ok ht).one rfl hu hl

/-- A goroutine gives back slots or bytes, and the writer books them on the request in hand. -/
lemma give (hR : Resources kind cfg s cs) (ht : cs[t]? = some h) (a b c : ℕ)
    {quota global : ByteQuota} (ha : a ≤ h.slots) (hb : b ≤ h.own) (hc : c ≤ h.shared)
    (hown : quota.used = s.quota.used - b) (hshared : global.used = s.global.used - c)
    (hlimit : global.limit = s.global.limit) :
    Resources kind cfg { s with slots := s.slots - a, quota, global }
      (cs.set t ({ h with slots := h.slots - a, own := h.own - b, shared := h.shared - c }.settle
        fun e => { e with slots := e.slots + a, own := e.own + b, shared := e.shared + c })) := by
  have h₁ := le_total_of_getElem? (f := Hand.slots) ht
  have h₂ := le_total_of_getElem? (f := Hand.own) ht
  have h₃ := le_total_of_getElem? (f := Hand.shared) ht
  obtain ⟨-, -, h₄, h₅, h₆, -⟩ := hR.budgets
  refine hR.hold ht ?_ ?_ id ?_ (hR.records.set ht rfl rfl)
  · exact ⟨rfl, rfl, fun hk => ⟨hk.1, hk.2, hk.3, hk.4⟩,
      fun hc => hc.settle rfl rfl fun e => ⟨rfl, rfl, rfl⟩⟩
  · refine (hR.ok ht).settle rfl rfl rfl rfl rfl (fun _ => rfl) (fun e => ?_) (fun e => ?_)
      (fun e => ?_) (fun e he => ((hR.ok ht).spending e he).2.2.2) ?_ (fun hc _ => hc) ?_
      (Nat.sub_le _ _)
    · dsimp only [Hand.settle]
      omega
    · dsimp only [Hand.settle]
      omega
    · dsimp only [Hand.settle]
      omega
    · rintro ⟨hs, ho, hsh⟩
      exact ⟨by simp only [Hand.settle, hs, Nat.zero_sub],
        by simp only [Hand.settle, ho, Nat.zero_sub],
        by simp only [Hand.settle, hsh, Nat.zero_sub]⟩
    · intro _ _ hacked e he
      simp only [Hand.settle, List.head?_modifyHead, Option.mem_def, Option.map_eq_some_iff] at he
      obtain ⟨d, hd, rfl⟩ := he
      exact ⟨(hacked d hd).acks, (hacked d hd).recorded⟩
  · exact hR.budgets.step ht rfl hR.budgets.drained (by dsimp only [Hand.settle]; omega)
      (by dsimp only [Hand.settle]; omega) (by dsimp only [Hand.settle]; omega) hlimit

lemma releaseSlot (hR : Resources kind cfg s cs) (ht : cs[t]? = some h)
    (hreq : 0 < h.slots) :
    Resources kind cfg { s with slots := s.slots - 1 }
      (cs.set t (h.upd kind cfg .releaseSlot ())) :=
  hR.give ht 1 0 0 hreq (Nat.zero_le _) (Nat.zero_le _) rfl rfl rfl

lemma localRelease (hR : Resources kind cfg s cs) (ht : cs[t]? = some h) {n : ℕ}
    (hreq : n ≤ h.own) :
    Resources kind cfg { s with quota := s.quota.release n }
      (cs.set t (h.upd kind cfg (.localRelease n) ())) :=
  hR.give ht 0 n 0 (Nat.zero_le _) hreq (Nat.zero_le _) (s.quota.release_used n) rfl rfl

/-- Without an engine-wide limit nothing is charged there and nothing is given back. -/
lemma globalRelease (hR : Resources kind cfg s cs) (ht : cs[t]? = some h) {n : ℕ} {x : Choice}
    {r : Unit} (hreq : cfg.globalCharge n ≤ h.shared)
    (hx : s.exec cfg x (.globalRelease n) = some (s', r)) :
    Resources kind cfg s' (cs.set t (h.upd kind cfg (.globalRelease n) r)) := by
  simp only [Session.exec, hR.budgets.limit] at hx
  split at hx
  · rename_i hz
    cases hx
    have hcharge : cfg.globalCharge n = 0 := if_pos hz
    simp only [Hand.upd, hcharge]
    exact hR.give ht 0 0 0 (Nat.zero_le _) (Nat.zero_le _) (Nat.zero_le _) rfl rfl rfl
  · rename_i hz
    cases hx
    have hcharge : cfg.globalCharge n = n := if_neg hz
    simp only [Hand.upd, hcharge]
    rw [hcharge] at hreq
    exact hR.give ht 0 0 n (Nat.zero_le _) (Nat.zero_le _) hreq rfl (s.global.release_used n)
      (s.global.release_limit n)

lemma encode (hR : Resources kind cfg s cs) (ht : cs[t]? = some h) (hreq : h.pushed = none)
    (msg : Message) (r : Except Err Bytes) :
    Resources kind cfg s (cs.set t (h.upd kind cfg (.encode msg) r)) := by
  cases r with
  | error e => exact (set_of_getElem? ht).symm ▸ hR
  | ok frame =>
    have hok := hR.ok ht
    refine hR.hold ht ⟨rfl, rfl, fun hk => ⟨fun i req hp => ?_, hk.2, hk.3, hk.4⟩,
        fun hc => ⟨hc.1, hc.2, hc.3, hc.4⟩⟩ ⟨hok.1, hok.2, hok.3, hok.4, hok.5, hok.6, hok.7⟩ id
      (hR.budgets.set ht rfl rfl rfl rfl) (hR.records.set ht rfl rfl)
    exact absurd (hreq.symm.trans hp) nofun

lemma countBytes (hR : Resources kind cfg s cs) (ht : cs[t]? = some h) {n : ℕ}
    (hreq : n ≤ h.owedBytes) :
    Resources kind cfg
      { s with counters := Function.update s.counters .bytesTX (s.counters .bytesTX + n) }
      (cs.set t (h.upd kind cfg (.count .bytesTX n) ())) := by
  have hok := hR.ok ht
  have hset := total_set (f := Hand.owedBytes) (h.upd kind cfg (.count .bytesTX n) ()) ht
  have hbytes := hR.records.bytes
  refine hR.hold ht ⟨rfl, rfl, fun hk => ⟨hk.1, hk.2, hk.3, hk.4⟩,
      fun hc => ⟨hc.1, hc.2, hc.3, hc.4⟩⟩ (hok.recount (Nat.sub_le _ _) (Nat.le_refl _)) id
    (hR.budgets.set ht rfl rfl rfl rfl) ⟨hR.records.acks_length, hR.records.acked, ?_, ?_⟩
  · simp only [Hand.upd, Function.update_self] at hset ⊢
    omega
  · rw [total_set_eq ht (by rfl), Function.update_of_ne (by decide)]
    exact hR.records.messages

lemma countMessages (hR : Resources kind cfg s cs) (ht : cs[t]? = some h) {n : ℕ}
    (hreq : n ≤ h.owedMessages) :
    Resources kind cfg
      { s with counters := Function.update s.counters .messagesTX (s.counters .messagesTX + n) }
      (cs.set t (h.upd kind cfg (.count .messagesTX n) ())) := by
  have hok := hR.ok ht
  have hset := total_set (f := Hand.owedMessages) (h.upd kind cfg (.count .messagesTX n) ()) ht
  have hmessages := hR.records.messages
  refine hR.hold ht ⟨rfl, rfl, fun hk => ⟨hk.1, hk.2, hk.3, hk.4⟩,
      fun hc => ⟨hc.1, hc.2, hc.3, hc.4⟩⟩ (hok.recount (Nat.le_refl _) (Nat.sub_le _ _)) id
    (hR.budgets.set ht rfl rfl rfl rfl) ⟨hR.records.acks_length, hR.records.acked, ?_, ?_⟩
  · rw [total_set_eq ht (by rfl), Function.update_of_ne (by decide)]
    exact hR.records.bytes
  · simp only [Hand.upd, Function.update_self] at hset ⊢
    omega

/-- An ack is sent once for a request, and it is nil only after a successful write. -/
lemma ack (hR : Resources kind cfg s cs) (ht : cs[t]? = some h) {i : ℕ} {v : Option Err}
    (hreq : h.req kind cfg (.ack i v)) :
    Resources kind cfg { s with acks := s.acks.set i (some v) }
      (cs.set t (h.upd kind cfg (.ack i v) ())) := by
  obtain ⟨hw, hloop, e, es, hsp, hi, hacks, hask, hv⟩ := hreq
  have hres := (hR.consumed h (List.mem_of_getElem? ht) hw).result_eq e (by simp [hsp])
  refine hR.hold ht ⟨rfl, rfl, fun hk => ⟨hk.1, hk.2, hk.3, hk.4⟩,
      fun hc => hc.settle rfl rfl fun e => ⟨rfl, rfl, rfl⟩⟩ ?_ id
    (hR.budgets.set ht rfl rfl rfl rfl) ⟨?_, fun j hj => ?_, ?_, ?_⟩
  · refine (hR.ok ht).settle rfl rfl rfl rfl rfl (fun _ => rfl) (fun _ => rfl) (fun _ => rfl)
      (fun _ => rfl) (fun d hd => ?_) id (fun hc _ => hc) (fun _ hl => ?_) (Nat.le_refl _)
    · rw [hsp] at hd
      cases hd
      simp [hacks, Request.acks, hask]
    · rw [hloop] at hl
      cases hl
  · rw [List.length_set]
    exact hR.records.acks_length
  · rw [List.getElem?_set] at hj
    split at hj
    · rename_i hij
      split at hj
      · cases hj
        rw [← hij, ← hi, hres, hv rfl]
      · cases hj
    · exact hR.records.acked j hj
  · rw [total_set_eq ht (by rfl)]
    exact hR.records.bytes
  · rw [total_set_eq ht (by rfl)]
    exact hR.records.messages

/-- What calls on the connection returned is kept until it is recorded. -/
lemma called (hR : Resources kind cfg s cs) (ht : cs[t]? = some h) (failed : Bool) :
    Resources kind cfg s (cs.set t { h with failed }) := by
  have hok := hR.ok ht
  exact hR.hold ht
    ⟨rfl, rfl, fun hk => ⟨hk.1, hk.2, hk.3, hk.4⟩, fun hc => ⟨hc.1, hc.2, hc.3, hc.4⟩⟩
    ⟨hok.1, hok.2, hok.3, hok.4, hok.5, hok.6, hok.7⟩ id (hR.budgets.set ht rfl rfl rfl rfl)
    (hR.records.set ht rfl rfl)

lemma attempted (hR : Resources kind cfg s cs) (ht : cs[t]? = some h) (hloop : h.loop = true)
    (delivered : Option Request) (failed : Bool) :
    Resources kind cfg s (cs.set t { h with delivered, failed }.attempt) := by
  refine hR.hold ht ⟨rfl, rfl, fun hk => ⟨hk.1, hk.2, hk.3, hk.4⟩,
      fun hc => hc.settle rfl rfl fun e => ⟨rfl, rfl, rfl⟩⟩ ?_ id
    (hR.budgets.set ht rfl rfl rfl rfl) (hR.records.set ht rfl rfl)
  refine (hR.ok ht).settle rfl rfl rfl rfl rfl (fun _ => rfl) (fun _ => rfl) (fun _ => rfl)
    (fun _ => rfl) (fun d hd => ((hR.ok ht).spending d hd).2.2.2) id (fun hc _ => hc)
    (fun _ hl => ?_) (Nat.le_refl _)
  rw [hloop] at hl
  cases hl

/-- The result of a write is recorded for the request in hand, and the counters then lag behind. -/
lemma wrote (hR : Resources kind cfg s cs) (ht : cs[t]? = some h) {ok : Bool}
    (hreq : h.req kind cfg (.wrote ok)) :
    Resources kind cfg { s with results := s.results ++ [ok] }
      (cs.set t (h.upd kind cfg (.wrote ok) ())) := by
  obtain ⟨hw, hloop, ⟨hb, hm⟩, e, es, hsp, hnone, hes, -, -⟩ := hreq
  have hc := hR.consumed h (List.mem_of_getElem? ht) hw
  obtain ⟨hrec, hlen⟩ := hc.in_hand hsp hnone hes
  have hsent : s.sent[s.results.length]? = some e.req := by
    rw [hlen]
    exact hc.reqs e (by simp [hsp])
  have hpre : s.results <+: s.results ++ [ok] := List.prefix_append _ _
  refine ⟨forall_mem_set hR.hands ?_, hR.budgets.set ht rfl rfl rfl rfl, ?_, hR.received_le, ?_,
    ?_, ⟨hR.records.acks_length, fun i hi => ?_, ?_, ?_⟩,
    hR.loops.set ht rfl rfl hR.loops.done⟩
  · refine (hR.ok ht).settle rfl rfl rfl rfl rfl (fun _ => rfl) (fun _ => rfl) (fun _ => rfl)
      (fun _ => rfl) (fun d hd => ((hR.ok ht).spending d hd).2.2.2) id (fun _ hor => ?_)
      (fun _ hl => ?_) (Nat.le_refl _)
    · rcases hor with hne | hl
      · exact absurd hw hne
      · rw [hloop] at hl
        cases hl
    · rw [hloop] at hl
      cases hl
  · have hmono := fun d hd => (hR.knows d hd).mono List.prefix_rfl hpre id (Nat.le_refl _)
    have hk := hmono h (List.mem_of_getElem? ht)
    exact forall_mem_set hmono ⟨hk.1, hk.2, hk.3, hk.4⟩
  · simp only [List.length_append, List.length_singleton]
    omega
  · refine consumed_set hR.loops ht hR.consumed rfl (fun hne => absurd hw hne) fun _ hc => ?_
    have hin : ∀ d ∈ es, (s.results ++ [ok])[d.index]? = d.result := fun d hd => by
      have hd' := hc.result_eq d (by simp [hsp, hd])
      cases hr : d.result with
      | none => exact absurd hr (hes d hd)
      | some b => exact getElem?_mono hpre (hd'.trans hr)
    refine ⟨?_, ?_, ?_, hc.empty⟩
    · simpa [Hand.upd, Hand.settle, hsp] using hc.indices
    · simpa [Hand.upd, Hand.settle, hsp] using hc.reqs
    · simp only [Hand.upd, Hand.settle, hsp, List.modifyHead_cons, List.forall_mem_cons]
      refine ⟨?_, hin⟩
      rw [← hlen, List.getElem?_concat_length]
  · exact getElem?_mono hpre (hR.records.acked i hi)
  · have hset := total_set (f := Hand.owedBytes) (h.upd kind cfg (.wrote ok) ()) ht
    have hbytes := hR.records.bytes
    rw [writtenOf_concat hsent, total_append]
    cases ok <;> simp [Hand.upd, Hand.settle, hsp, hb] at hset ⊢ <;> omega
  · have hset := total_set (f := Hand.owedMessages) (h.upd kind cfg (.wrote ok) ()) ht
    have hmessages := hR.records.messages
    rw [writtenOf_concat hsent, List.length_append]
    cases ok <;> simp [Hand.upd, Hand.settle, hsp, hm] at hset ⊢ <;> omega

/-! ### The loops -/

lemma loopDone (hR : Resources kind cfg s cs) (ht : cs[t]? = some h)
    (hreq : h.req kind cfg .loopDone) :
    Resources kind cfg { s with loops := s.loops - 1 }
      (cs.set t (h.upd kind cfg .loopDone ())) := by
  obtain ⟨hloop, hend⟩ := hreq
  have hok := hR.ok ht
  have hle := le_total_of_getElem? (f := fun h : Hand => h.loop.toNat) ht
  have hloops := hR.loops.loops
  simp only [hloop, Bool.toNat_true] at hle
  have hmono := fun d hd =>
    (hR.knows d hd).mono List.prefix_rfl List.prefix_rfl id (Nat.sub_le s.loops 1)
  have hk := hmono h (List.mem_of_getElem? ht)
  refine ⟨forall_mem_set hR.hands ⟨hok.1, hok.2, fun hw _ => hend hw, hok.4, hok.5, hok.6, hok.7⟩,
    hR.budgets.set ht rfl rfl rfl rfl, forall_mem_set hmono ⟨hk.1, hk.2, hk.3, hk.4⟩,
    hR.received_le, hR.results_le,
    consumed_set hR.loops ht hR.consumed rfl (fun _ _ => id) fun _ hc => ⟨hc.1, hc.2, hc.3, hc.4⟩,
    hR.records.set ht rfl rfl, hR.loops.set ht rfl ?_ fun hd => ?_⟩
  · simp only [Hand.upd, hloop, Bool.toNat_true, Bool.toNat_false]
    omega
  · have := hR.loops.done hd
    omega

lemma waitLoops (hR : Resources kind cfg s cs) (ht : cs[t]? = some h) (hz : s.loops = 0) :
    Resources kind cfg s (cs.set t (h.upd kind cfg .waitLoops ())) := by
  have hok := hR.ok ht
  exact hR.hold ht ⟨rfl, rfl, fun hk => ⟨hk.1, hk.2, hk.3, fun _ => hz⟩,
      fun hc => ⟨hc.1, hc.2, hc.3, hc.4⟩⟩ ⟨hok.1, hok.2, hok.3, hok.4, hok.5, hok.6, hok.7⟩ id
    (hR.budgets.set ht rfl rfl rfl rfl) (hR.records.set ht rfl rfl)

lemma signalDone (hR : Resources kind cfg s cs) (ht : cs[t]? = some h) (hreq : h.waited = true) :
    Resources kind cfg (s.close .done) cs :=
  ⟨hR.hands, hR.budgets, hR.knows, hR.received_le, hR.results_le, hR.consumed, hR.records,
    ⟨hR.loops.one, hR.loops.loops, fun _ => (hR.knows h (List.mem_of_getElem? ht)).waited hreq⟩⟩

/-! ### The cases of a `select` -/

lemma drained (hR : Resources kind cfg s cs) (ht : cs[t]? = some h) (cases : List Case)
    (hd : s.gate.drained = true) :
    Resources kind cfg s (cs.set t (h.fired cfg cases .drained)) := by
  have hok := hR.ok ht
  exact hR.hold ht ⟨rfl, rfl, fun hk => ⟨hk.1, hk.2, fun _ => hd, hk.4⟩,
      fun hc => ⟨hc.1, hc.2, hc.3, hc.4⟩⟩ ⟨hok.1, hok.2, hok.3, hok.4, hok.5, hok.6, hok.7⟩ id
    (hR.budgets.set ht rfl rfl rfl rfl) (hR.records.set ht rfl rfl)

/-- The ack is taken out of its channel; a nil one confirms the write. -/
lemma acked (hR : Resources kind cfg s cs) (ht : cs[t]? = some h) {cases : List Case} {i : ℕ}
    {v : Option Err} (hreq : ∃ req, h.pushed = some (i, req)) (hv : s.acks[i]? = some (some v)) :
    Resources kind cfg { s with acks := s.acks.set i none }
      (cs.set t (h.fired cfg cases (.acked v))) := by
  have hok := hR.ok ht
  obtain ⟨req, hp⟩ := hreq
  have hrec : ∀ h', h'.owedBytes = h.owedBytes → h'.owedMessages = h.owedMessages →
      Records kind s.sent (s.acks.set i none) s.results (s.counters .bytesTX)
        (s.counters .messagesTX) (cs.set t h') := fun h' hb hm => by
    refine ⟨?_, fun j hj => ?_, ?_, ?_⟩
    · rw [List.length_set]
      exact hR.records.acks_length
    · rw [List.getElem?_set] at hj
      split at hj
      · split at hj <;> cases hj
      · exact hR.records.acked j hj
    · rw [total_set_eq ht hb]
      exact hR.records.bytes
    · rw [total_set_eq ht hm]
      exact hR.records.messages
  cases v with
  | none =>
    refine hR.hold ht ⟨rfl, rfl, fun hk => ⟨hk.1, fun j hj => ?_, hk.3, hk.4⟩,
        fun hc => ⟨hc.1, hc.2, hc.3, hc.4⟩⟩ ⟨hok.1, hok.2, hok.3, hok.4, hok.5, hok.6, hok.7⟩ id
      (hR.budgets.set ht rfl rfl rfl rfl) (hrec _ rfl rfl)
    simp only [Hand.fired, hp, Option.map_some, Option.some.injEq] at hj
    subst hj
    exact hR.records.acked i hv
  | some e =>
    exact hR.hold ht ⟨rfl, rfl, id, id⟩ hok id (hR.budgets.set ht rfl rfl rfl rfl) (hrec _ rfl rfl)

/-- A request put on the queue takes its slot and its bytes along. -/
lemma push (hR : Resources kind cfg s cs) (ht : cs[t]? = some h) {cases : List Case}
    {req : Request} (hreq : h.caseReq cfg cases (.push req)) :
    Resources kind cfg { s with sent := s.sent ++ [req], acks := s.acks ++ [none] }
      (cs.set t (h.fired cfg cases (.pushed s.sent.length))) := by
  obtain ⟨hg, hoff, hslot, hown, hshared, hcarry⟩ := hreq
  obtain ⟨hne, hsp⟩ := hR.sender_of_inGate ht hg
  obtain ⟨-, hdr⟩ := hR.not_drained ht hg
  have hpre : s.sent <+: s.sent ++ [req] := List.prefix_append _ _
  have hqueue : (s.sent ++ [req]).drop s.received = s.queue ++ [req] :=
    List.drop_append_of_le_length hR.received_le
  simp only [Hand.fired, hoff]
  have hmono := fun d hd => (hR.knows d hd).mono hpre List.prefix_rfl id (Nat.le_refl _)
  refine ⟨forall_mem_set hR.hands ?_, ?_, forall_mem_set hmono ?_, ?_, hR.results_le, ?_,
    ⟨?_, fun i hi => ?_, ?_, ?_⟩, hR.loops.set ht rfl rfl hR.loops.done⟩
  · refine .of_sender hne hsp (fun hg' => ?_)
      (Nat.le_trans (Nat.sub_le _ _) (hR.ok ht).one)
    rw [show h.inGate = false from hg'] at hg
    cases hg
  · rw [Session.queue, hqueue]
    refine hR.budgets.step ht rfl hR.budgets.drained ?_ ?_ ?_ rfl
    · simp only [List.length_append, List.length_singleton]
      omega
    · simp only [total_append, total_cons, total_nil]
      omega
    · simp only [total_append, total_cons, total_nil]
      omega
  · have hk := hmono h (List.mem_of_getElem? ht)
    refine ⟨fun i r hp => ?_, hk.2, hk.3, hk.4⟩
    cases hp
    exact ⟨List.getElem?_concat_length, hcarry⟩
  · rw [List.length_append]
    exact Nat.le_add_right_of_le hR.received_le
  · refine consumed_set hR.loops ht hR.consumed rfl (fun _ d hc => ?_) fun hw => absurd hw hne
    refine ⟨hc.indices, fun e he => getElem?_mono hpre (hc.reqs e he), hc.result_eq,
      fun he => ?_⟩
    -- nobody enters a queue that the writer has seen drained
    rw [(hc.empty he).1] at hdr
    cases hdr
  · simp only [List.length_append, List.length_singleton, hR.records.acks_length]
  · refine hR.records.acked i ?_
    rw [List.getElem?_append] at hi
    split at hi
    · exact hi
    · simp [List.getElem?_singleton] at hi
  · rw [writtenOf_append (Nat.le_trans hR.results_le hR.received_le), total_set_eq ht (by rfl)]
    exact hR.records.bytes
  · rw [writtenOf_append (Nat.le_trans hR.results_le hR.received_le), total_set_eq ht (by rfl)]
    exact hR.records.messages

/-- The writer takes the next request off the queue once the one before is settled. -/
lemma pop (hR : Resources kind cfg s cs) (ht : cs[t]? = some h) {cases : List Case}
    {req : Request} (hreq : h.caseReq cfg cases .pop) (hq : s.sent[s.received]? = some req) :
    Resources kind cfg { s with received := s.received + 1 }
      (cs.set t (h.fired cfg cases (.popped s.received req))) := by
  obtain ⟨hw, hloop, hfree, hacked⟩ := hreq
  have hok := hR.ok ht
  have hlt := (List.getElem?_eq_some_iff.mp hq).1
  have hqueue : s.queue = req :: s.sent.drop (s.received + 1) := by
    rw [Session.queue, List.drop_eq_getElem_cons hlt, (List.getElem?_eq_some_iff.mp hq).2]
  have hk := hR.knows h (List.mem_of_getElem? ht)
  refine ⟨forall_mem_set hR.hands ?_, ?_, forall_mem_set hR.knows ⟨hk.1, hk.2, hk.3, hk.4⟩, hlt,
    Nat.le_succ_of_le hR.results_le, ?_, hR.records.set ht rfl rfl,
    hR.loops.set ht rfl rfl hR.loops.done⟩
  · obtain ⟨hs, ho, hsh⟩ := hfree
    refine ⟨fun _ hne => absurd hw hne, hok.gate, fun _ hl => ?_, fun e he => ?_, fun e he => ?_,
      fun hne => absurd hw hne, by simp [Hand.fired, hs]⟩
    · rw [show h.loop = false from hl] at hloop
      cases hloop
    · cases he
      simp [Hand.fired, hs, ho, hsh]
    · -- the request before it was settled when the hands became empty
      cases hsp : h.spent with
      | nil =>
        simp only [Hand.fired, hsp, List.tail_cons] at he
        cases he
      | cons d ds =>
        simp only [Hand.fired, hsp, List.tail_cons, List.mem_cons] at he
        rcases he with rfl | he
        · obtain ⟨h₁, h₂, h₃, -⟩ := hok.spending e (by simp [hsp])
          rw [hs] at h₁
          rw [ho] at h₂
          rw [hsh] at h₃
          exact ⟨hacked e (by simp [hsp]), h₁, h₂, h₃⟩
        · exact hok.settled e (by rw [hsp]; exact he)
  · have hb := hR.budgets
    rw [hqueue] at hb
    refine hb.step ht rfl hb.drained ?_ ?_ ?_ rfl
    · simp only [Session.queue, Hand.fired, List.length_cons]
      omega
    · simp only [Session.queue, Hand.fired, total_cons]
      omega
    · simp only [Session.queue, Hand.fired, total_cons]
      omega
  · refine consumed_set hR.loops ht hR.consumed rfl (fun hne => absurd hw hne) fun _ hc => ?_
    refine ⟨?_, ?_, ?_, fun he => ?_⟩
    · rw [List.range_succ, List.reverse_append, ← hc.indices]
      rfl
    · exact List.forall_mem_cons.mpr ⟨hq, hc.reqs⟩
    · exact List.forall_mem_cons.mpr ⟨List.getElem?_eq_none_iff.mpr hR.results_le, hc.result_eq⟩
    · have := (hc.empty he).2
      omega

/-- A `select` takes its default on an empty queue. -/
lemma polled (hR : Resources kind cfg s cs) (ht : cs[t]? = some h) {cases : List Case}
    (hq : offersPop cases = true → s.sent.length ≤ s.received) :
    Resources kind cfg s (cs.set t (h.fired cfg cases .default)) := by
  have hok := hR.ok ht
  have hk := hR.knows h (List.mem_of_getElem? ht)
  refine hR.hold ht ⟨rfl, rfl, fun hk => ⟨hk.1, hk.2, hk.3, hk.4⟩,
      fun hc => ⟨hc.1, hc.2, hc.3, fun he => ?_⟩⟩
    ⟨hok.1, hok.2, fun hw hl => ?_, hok.4, hok.5, hok.6, hok.7⟩ id
    (hR.budgets.set ht rfl rfl rfl rfl) (hR.records.set ht rfl rfl)
  · simp only [Hand.fired, Bool.or_eq_true, Bool.and_eq_true] at he
    rcases he with he | ⟨hd, ho⟩
    · exact hc.empty he
    · exact ⟨hk.drained hd, hq ho⟩
  · obtain ⟨h₁, h₂, h₃⟩ := hok.ended hw hl
    exact ⟨by simp [Hand.fired, h₁], h₂, h₃⟩

lemma mem_of_offersPop {cases : List Case} (h : offersPop cases = true) : .pop ∈ cases := by
  induction cases with
  | nil => cases h
  | cons c cs ih =>
    cases c with
    | pop => simp
    | _ => exact List.mem_cons_of_mem _ (ih h)

lemma fire (hR : Resources kind cfg s cs) (ht : cs[t]? = some h) {cases : List Case} {c : Case}
    {x : Choice} {r : Fired} (hreq : h.caseReq cfg cases c)
    (hx : s.fire cfg x c = some (s', r)) :
    Resources kind cfg s' (cs.set t (h.fired cfg cases r)) := by
  cases c with
  | drained =>
    obtain ⟨hd, hx⟩ := Option.ite_none_right_eq_some.mp hx
    cases hx
    exact hR.drained ht cases hd
  | slot =>
    obtain ⟨-, hx⟩ := Option.ite_none_right_eq_some.mp hx
    cases hx
    exact hR.take ht hreq.1 1 0 0 (by simp [hreq.2]) rfl rfl rfl
  | push req =>
    obtain ⟨-, hx⟩ := Option.ite_none_right_eq_some.mp hx
    cases hx
    exact hR.push ht hreq
  | pop =>
    simp only [Session.fire] at hx
    split at hx
    · rename_i req hq
      cases hx
      exact hR.pop ht hreq hq
    · cases hx
  | ack i =>
    simp only [Session.fire] at hx
    split at hx
    · rename_i v hv
      cases hx
      exact hR.acked ht hreq hv
    · cases hx
  | ctxDone k =>
    have hv := Session.fire_view rfl hx
    obtain ⟨e, -, hx⟩ := Option.map_eq_some_iff.mp hx
    cases hx
    exact (set_of_getElem? ht).symm ▸ hR.of_view hv
  | closed ch =>
    have hv := Session.fire_view rfl hx
    obtain ⟨-, hx⟩ := Option.ite_none_right_eq_some.mp hx
    cases hx
    exact (set_of_getElem? ht).symm ▸ hR.of_view hv
  | timer =>
    cases hx
    exact (set_of_getElem? ht).symm ▸ hR
  | encoder | changedLocal g | changedGlobal g =>
    have hv := Session.fire_view rfl hx
    obtain ⟨-, hx⟩ := Option.ite_none_left_eq_some.mp hx
    cases hx
    exact (set_of_getElem? ht).symm ▸ hR.of_view hv

/-- Every step of a goroutine that holds what the step needs keeps the resources in order. -/
lemma exec (hR : Resources kind cfg s cs) (ht : cs[t]? = some h) {i : SInstr} {x : Choice}
    {r : i.Resp} (hreq : h.req kind cfg i) (hx : s.exec cfg x i = some (s', r)) :
    (resourceOutline kind cfg).ans i r h ∧
      Resources kind cfg s' (cs.set t (h.upd kind cfg i r)) := by
  have hans : (resourceOutline kind cfg).ans i r h := by
    cases i with
    | select cases dflt => exact Session.select_from hx
    | _ => trivial
  refine ⟨hans, ?_⟩
  cases hn : i.neutral with
  | true =>
    rw [Hand.upd_neutral hn h hans, set_of_getElem? ht]
    by_cases hg : i = .gateClose
    · subst hg
      cases hx
      exact hR.gateClose
    · exact hR.of_view (Session.exec_view hn hg hx)
  | false =>
    cases i with
    | gateEnter =>
      cases hx
      exact hR.gateEnter ht hreq
    | gateLeave =>
      cases hx
      exact hR.gateLeave ht hreq
    | releaseSlot =>
      obtain ⟨-, hx⟩ := Option.ite_none_left_eq_some.mp hx
      cases hx
      exact hR.releaseSlot ht hreq
    | encode msg =>
      have hs : s' = s := by
        simp only [Session.exec] at hx
        split at hx <;> cases hx <;> rfl
      rw [hs]
      exact hR.encode ht hreq msg r
    | localSection n =>
      cases hx
      exact hR.localSection ht n hreq
    | localTry n =>
      cases hx
      exact hR.localTry ht n hreq
    | localRelease n =>
      cases hx
      exact hR.localRelease ht hreq
    | globalSection n =>
      cases hx
      exact hR.globalSection ht n hreq
    | globalTry n =>
      cases hx
      exact hR.globalTry ht n hreq
    | globalRelease n => exact hR.globalRelease ht hreq hx
    | setWriteDeadline =>
      cases hx
      cases x.err with
      | none => exact (set_of_getElem? ht).symm ▸ hR
      | some e => exact hR.called ht true
    | rawWrite p =>
      have hR' : Resources kind cfg s' cs := hR.of_view (by cases hx; rfl)
      exact hR'.attempted ht hreq.2 h.delivered _
    | wsWrite req =>
      have hR' := hR.of_view (Session.exec_view_write (.inl hx))
      cases r with
      | none => exact hR'.attempted ht hreq.2 (some req) h.failed
      | some e => exact hR'.attempted ht hreq.2 h.delivered true
    | packetWrite req =>
      have hR' := hR.of_view (Session.exec_view_write (.inr hx))
      cases r with
      | none => exact hR'.attempted ht hreq.2 (some req) h.failed
      | some e => exact hR'.attempted ht hreq.2 h.delivered true
    | wrote ok =>
      cases hx
      exact hR.wrote ht hreq
    | count c n =>
      cases hx
      cases c with
      | bytesTX => exact hR.countBytes ht hreq
      | messagesTX => exact hR.countMessages ht hreq
      | _ => cases hn
    | ack i v =>
      simp only [Session.exec] at hx
      split at hx
      · cases hx
        exact hR.ack ht hreq
      · cases hx
    | loopDone =>
      cases hx
      exact hR.loopDone ht hreq
    | waitLoops =>
      obtain ⟨hz, hx⟩ := Option.ite_none_right_eq_some.mp hx
      cases hx
      exact hR.waitLoops ht hz
    | signal ch =>
      cases ch with
      | done =>
        cases hx
        exact (set_of_getElem? ht).symm ▸ hR.signalDone ht hreq
      | _ => cases hn
    | select cases dflt =>
      obtain ⟨c, hc, hx⟩ | ⟨-, rfl, rfl, hnone⟩ := Session.select_cases hx
      · exact hR.fire ht (hreq c hc) hx
      · refine hR.polled ht fun ho => ?_
        have hpop := hnone .pop (mem_of_offersPop ho)
        simp only [Session.fire] at hpop
        split at hpop
        · cases hpop
        · rename_i hq
          exact List.getElem?_eq_none_iff.mp hq
    | _ => cases hn

end Resources

end Ogrenet
