import Ogrenet.Epoll.Poller

/-!
# Closing the poller

Only a `Wait` that holds `waiting` drains the eventfd, and once `closed` is set no round of it
passes the check under the read lock. What `Close` has written therefore stays for a `Wait` that is
in `epoll_wait`, and the write lock is not waited for in vain. The lock and the flag keep every
system call before the descriptors are closed.
-/

namespace Ogrenet.Epoll

open Interleaving
open Outline (past_step times times_cons total_times_set)

abbrev ELog := List (Sigma EInstr.Resp)

abbrev EPast := Outline.Past ELabel EInstr.Resp

/-! ### What a goroutine has done -/

/-- What the goroutine has done of the protocol of the guard. -/
abbrev hold : ELog → Grip := Grip.past EInstr.act

lemma hold_cons {log : ELog} {h : Grip} (hhold : hold log = h) (i : EInstr) (r : i.Resp) :
    hold (⟨i, r⟩ :: log) = h.act (i.act r) := by
  rw [← hhold]
  rfl

/-- The goroutine holds `waiting`. -/
def waits : ELog → Bool
  | [] => false
  | ⟨.casWaiting, won⟩ :: log => won || waits log
  | ⟨.storeWaiting, _⟩ :: _ => false
  | _ :: log => waits log

/-- A round of `Wait` has passed its check of `closed`, and `epoll_wait` has not returned. -/
def polls : ELog → Bool
  | [] => false
  | ⟨.loadClosed, false⟩ :: log => (hold log).reading && waits log
  | ⟨.epollWait _ _, _⟩ :: _ => false
  | _ :: log => polls log

/-- The goroutine has written to the eventfd, or found its counter at the greatest value. -/
def signals : ELog → Bool
  | [] => false
  | ⟨.write, none⟩ :: _ => true
  | ⟨.write, some e⟩ :: log => e == eagain || signals log
  | _ :: log => signals log

def EInstr.isClose (d : Descriptor) : EInstr → Bool
  | .close d' => d' == d
  | _ => false

/-- How often a log has closed a descriptor. -/
abbrev closes (d : Descriptor) : ELog → ℕ := times (EInstr.isClose d)

/-! ### The outline of the calls -/

def pollerReq (i : EInstr) (c : EPast) : Prop :=
  (∀ r, (hold c.2).May (i.act r)) ∧
    match i with
    | .casWaiting => waits c.2 = false
    | .storeWaiting | .read => waits c.2 = true ∧ polls c.2 = false
    | .epollWait _ _ => polls c.2 = true
    | .write => c.1 = .close → (hold c.2).owner = true
    | .close .wake => (hold c.2).released = true ∧ closes .wake c.2 = 0
    | _ => True

def pollerPre : ELabel → EPast → Prop
  | .polling _ _, c =>
    hold c.2 = {} ∧ waits c.2 = true ∧ polls c.2 = false
  | .draining _ _ _ _, c =>
    hold c.2 = { reading := true, fresh := true } ∧ waits c.2 = true ∧ polls c.2 = false
  | .waking, c =>
    hold c.2 = { reading := true, fresh := true } ∧ c.1 ≠ .close
  | .closing, c => hold c.2 = { owner := true } ∧ closes .wake c.2 = 0 ∧ c.1 = .close
  | l, c => c = (l, [])

def pollerOutline : Outline EInstr EInstr.Resp ELabel EVal EPast :=
  .past pollerReq (fun _ _ _ => True) pollerPre fun _ _ => True

section Programs

variable {l l₀ : ELabel} {log : ELog}

lemma wp_unlocked (err : Option Err) (hreading : (hold log).reading = true) :
    pollerOutline.wp (unlocked err) (pollerOutline.ends l₀) (l, log) :=
  past_step ⟨fun _ => hreading, trivial⟩ fun _ => trivial

/-- The read lock and the check of `closed` before a call's own work `k`. -/
lemma wp_checked (k : EProg ENext)
    (hk : pollerOutline.wp k (pollerOutline.ends l₀)
      (l, [⟨.loadClosed, false⟩, ⟨.rlock, ()⟩])) :
    pollerOutline.wp (do
      rlock
      match ← loadClosed with
      | true => unlocked errClosed
      | false => k) (pollerOutline.ends l₀) (l, []) := by
  refine past_step ⟨fun _ => rfl, trivial⟩ fun _ =>
    past_step ⟨fun _ => trivial, trivial⟩ ?_
  rintro (_ | _)
  · exact hk
  · exact past_step ⟨fun _ => rfl, trivial⟩ fun _ => trivial

lemma wp_ctl (op : CtlOp) (fd : ℤ) (events : UInt32) (data : UInt64) :
    pollerOutline.wp (ctl op fd events data) (pollerOutline.ends l₀) (l, []) := by
  rw [ctl]
  split
  · trivial
  · refine wp_checked _ (past_step ⟨fun _ => .inl rfl, trivial⟩ ?_)
    rintro (_ | e) <;> exact wp_unlocked _ rfl

lemma wp_del (fd : ℤ) : pollerOutline.wp (del fd) (pollerOutline.ends l₀) (l, []) := by
  refine wp_checked _ (past_step ⟨fun _ => .inl rfl, trivial⟩ ?_)
  rintro (_ | e) <;> exact wp_unlocked _ rfl

lemma wp_wake (hl : l ≠ .close) : pollerOutline.wp wake (pollerOutline.ends l₀) (l, []) :=
  wp_checked _ ⟨rfl, hl⟩

lemma wp_signalWake {again : ELabel} {k : Option Errno → EProg ENext}
    (hreq : pollerReq .write (l, log)) (hagain : ∀ r, pollerPre again (l, ⟨.write, r⟩ :: log))
    (hk : ∀ r e, pollerOutline.wp (k e) (pollerOutline.ends l₀) (l, ⟨.write, r⟩ :: log)) :
    pollerOutline.wp (signalWake again k) (pollerOutline.ends l₀) (l, log) := by
  refine past_step hreq ?_
  rintro (_ | e)
  · exact hk none none
  · show pollerOutline.wp (if _ then _ else if _ then _ else _) _ _
    split
    · exact hk (some e) none
    · split
      · exact hagain (some e)
      · exact hk (some e) (some e)

lemma wp_waking (hl : l ≠ .close) (hhold : hold log = { reading := true, fresh := true }) :
    pollerOutline.wp waking (pollerOutline.ends l₀) (l, log) := by
  refine wp_signalWake ⟨fun _ => .inl (by rw [hhold]), fun h => absurd h hl⟩
    (fun r => ⟨hhold, hl⟩) fun r e => ?_
  cases e with
  | some e => exact wp_unlocked _ (congrArg Grip.reading hhold)
  | none => exact wp_unlocked _ (congrArg Grip.reading hhold)

lemma wp_left (out : List Event) (err : Option Err) (hwaits : waits log = true)
    (hpolls : polls log = false) :
    pollerOutline.wp (left out err) (pollerOutline.ends l₀) (l, log) :=
  past_step ⟨fun _ => trivial, hwaits, hpolls⟩ fun _ => trivial

lemma wp_wait (n : ℕ) (timeout : Int64) :
    pollerOutline.wp (wait n timeout) (pollerOutline.ends l₀) (l, []) := by
  rw [wait]
  split
  · trivial
  · refine past_step ⟨fun _ => trivial, trivial⟩ ?_
    rintro (_ | _)
    · refine past_step ⟨fun _ => trivial, rfl⟩ ?_
      rintro (_ | _)
      · trivial
      · exact ⟨rfl, rfl, rfl⟩
    · trivial

lemma wp_waited (n : ℕ) (timeout : Int64) (r : Except Errno (List Event))
    (hhold : hold log = { reading := true, fresh := true }) (hwaits : waits log = true)
    (hpolls : polls log = false) :
    pollerOutline.wp (waited n timeout r) (pollerOutline.ends l₀) (l, log) := by
  refine past_step ⟨fun _ => congrArg Grip.reading hhold, trivial⟩ fun _ => ?_
  have hhold' : hold (⟨.runlock, ()⟩ :: log) = {} := hold_cons hhold _ _
  refine past_step ⟨fun _ => trivial, trivial⟩ ?_
  rintro (_ | _)
  · have hpre : pollerPre (.polling n timeout)
        (l, ⟨.loadClosed, false⟩ :: ⟨.runlock, ()⟩ :: log) :=
      ⟨hold_cons hhold' _ _, hwaits, by rw [polls, hhold']; rfl⟩
    cases r with
    | ok out => exact wp_left _ _ hwaits hpre.2.2
    | error e =>
      show pollerOutline.wp (if _ then if _ then _ else _ else _) _ _
      split
      · split
        · refine past_step ⟨fun _ => trivial, trivial⟩ fun elapsed => ?_
          show pollerOutline.wp (if _ then _ else _) _ _
          split
          · exact wp_left _ _ hwaits hpre.2.2
          · exact hpre
        · exact hpre
      · exact wp_left _ _ hwaits hpre.2.2
  · exact wp_left _ _ hwaits hpolls

lemma wp_received (n : ℕ) (timeout : Int64) (batch out : List Event)
    (hhold : hold log = { reading := true, fresh := true }) (hwaits : waits log = true)
    (hpolls : polls log = false) :
    pollerOutline.wp (received n timeout batch out) (pollerOutline.ends l₀) (l, log) := by
  induction batch generalizing out with
  | nil => exact wp_waited n timeout _ hhold hwaits hpolls
  | cons ev rest ih =>
    rw [received]
    split
    · exact ⟨hhold, hwaits, hpolls⟩
    · exact ih (out ++ [ev])

lemma wp_polling (n : ℕ) (timeout : Int64) (hhold : hold log = {}) (hwaits : waits log = true)
    (hpolls : polls log = false) :
    pollerOutline.wp (polling n timeout) (pollerOutline.ends l₀) (l, log) := by
  refine past_step ⟨fun _ => congrArg Grip.reading hhold, trivial⟩ fun _ => ?_
  have hhold' : hold (⟨.rlock, ()⟩ :: log) = { reading := true } := hold_cons hhold _ _
  refine past_step ⟨fun _ => trivial, trivial⟩ ?_
  rintro (_ | _)
  · have hhold'' : hold (⟨.loadClosed, false⟩ :: ⟨.rlock, ()⟩ :: log) =
        { reading := true, fresh := true } := hold_cons hhold' _ _
    refine past_step ⟨fun _ => trivial, trivial⟩ fun elapsed =>
      past_step ⟨fun _ => .inl (congrArg Grip.fresh hhold''), ?_⟩ ?_
    · show ((hold (⟨.rlock, ()⟩ :: log)).reading && waits log) = true
      rw [hhold', hwaits]
      rfl
    · rintro (e | batch)
      · refine wp_waited n timeout (.error e) ?_ ?_ ?_
        · exact hhold''
        · exact hwaits
        · rfl
      · refine wp_received n timeout batch [] ?_ ?_ ?_
        · exact hhold''
        · exact hwaits
        · rfl
  · exact past_step ⟨fun _ => congrArg Grip.reading hhold', trivial⟩ fun _ =>
      wp_left _ _ hwaits hpolls

lemma wp_draining (rest out : List Event) (n : ℕ) (timeout : Int64)
    (hhold : hold log = { reading := true, fresh := true }) (hwaits : waits log = true)
    (hpolls : polls log = false) :
    pollerOutline.wp (draining rest out n timeout) (pollerOutline.ends l₀) (l, log) := by
  refine past_step ⟨fun _ => .inl (by rw [hhold]), hwaits, hpolls⟩ ?_
  rintro (_ | e)
  · exact wp_received n timeout rest out hhold hwaits hpolls
  · show pollerOutline.wp (if _ then _ else _) _ _
    split
    · exact ⟨hhold, hwaits, hpolls⟩
    · exact wp_received n timeout rest out hhold hwaits hpolls

lemma wp_closing (hhold : hold log = { owner := true }) (hcloses : closes .wake log = 0) :
    pollerOutline.wp closing (pollerOutline.ends l₀) (.close, log) := by
  have howner : (hold log).May .use := .inr (by rw [hhold]; exact ⟨rfl, rfl⟩)
  refine wp_signalWake ⟨fun _ => howner, fun _ => by rw [hhold]⟩
    (fun r => ⟨hhold, hcloses, rfl⟩) fun r e => ?_
  have hhold' : hold (⟨.write, r⟩ :: log) = { owner := true } := hhold
  have hcloses' : closes .wake (⟨.write, r⟩ :: log) = 0 := hcloses
  generalize (⟨.write, r⟩ :: log : ELog) = log' at hhold' hcloses'
  refine past_step ⟨fun _ => congrArg Grip.writing hhold', trivial⟩ fun _ =>
    past_step ⟨fun _ => ?_, trivial⟩ fun _ =>
    past_step ⟨fun _ => trivial, rfl, ?_⟩ fun _ =>
    past_step ⟨fun _ => rfl, trivial⟩ fun _ => trivial
  · simp [Grip.past, hhold', EInstr.act, Grip.act, Grip.May]
  · simpa [times_cons, EInstr.isClose] using hcloses'

lemma wp_close : pollerOutline.wp close (pollerOutline.ends l₀) (.close, []) := by
  refine past_step ⟨fun _ => rfl, trivial⟩ ?_
  rintro (_ | _)
  · trivial
  · exact ⟨rfl, rfl, rfl⟩

lemma poller_body (l₀ l : ELabel) {c : EPast} (hc : pollerPre l c) :
    pollerOutline.wp l.body (pollerOutline.ends l₀) c := by
  cases l with
  | add fd events data =>
    cases hc
    exact wp_ctl .add fd events data
  | mod fd events data =>
    cases hc
    exact wp_ctl .mod fd events data
  | del fd =>
    cases hc
    exact wp_del fd
  | wait n timeout =>
    cases hc
    exact wp_wait n timeout
  | wake =>
    cases hc
    exact wp_wake nofun
  | close =>
    cases hc
    exact wp_close
  | polling n timeout => exact wp_polling n timeout hc.1 hc.2.1 hc.2.2
  | draining rest out n timeout =>
    exact wp_draining rest out n timeout hc.1 hc.2.1 hc.2.2
  | waking => exact wp_waking hc.2 hc.1
  | closing =>
    obtain ⟨l, log⟩ := c
    obtain ⟨hhold, hcloses, rfl⟩ := hc
    exact wp_closing hhold hcloses

end Programs

/-! ### The invariant -/

structure PollerInv (s : Poller) (cs : List EPast) : Prop where
  guard : s.guard.Keeps EInstr.act cs
  waiting : total (fun c => (waits c.2).toNat) cs = s.waiting.toNat
  polling : ∀ c ∈ cs, polls c.2 = true → waits c.2 = true
  epoll : total (fun c => closes .epoll c.2) cs = (!s.guard.live).toNat
  wake : ∀ c ∈ cs, closes .wake c.2 ≠ 0 → (hold c.2).released = true
  once : total (fun c => closes .wake c.2) cs ≤ 1
  owner : ∀ c ∈ cs, c.1 = .close → signals c.2 = true → (hold c.2).owner = true
  /-- Once `Close` has signalled, the counter is not zero while a `Wait` is in `epoll_wait`. -/
  signalled : ∀ c ∈ cs, c.1 = .close → signals c.2 = true → ∀ d ∈ cs, polls d.2 = true →
    0 < s.counter

section Steps

variable {s s' : Poller} {cs : List EPast} {t : ℕ} {c : EPast} {x : EChoice} {i : EInstr}
  {r : i.Resp}

/-- Two instructions change `waiting`. -/
lemma Poller.native_waiting {s₁ : Poller} (hn : s.native x i = some (s₁, r))
    (hcas : i ≠ .casWaiting) (hstore : i ≠ .storeWaiting) : s₁.waiting = s.waiting := by
  cases i with
  | casWaiting => exact absurd rfl hcas
  | storeWaiting => exact absurd rfl hstore
  | epollCtl op fd ev | epollWait n ms | write | read =>
    simp only [Poller.native] at hn
    repeat' split at hn
    all_goals cases hn
    all_goals rfl
  | _ =>
    cases hn
    rfl

/-- Only `read` takes from the counter. -/
lemma Poller.native_counter {s₁ : Poller} (hn : s.native x i = some (s₁, r)) (hi : i ≠ .read) :
    s.counter ≤ s₁.counter := by
  cases i with
  | read => exact absurd rfl hi
  | epollCtl op fd ev | epollWait n ms =>
    simp only [Poller.native] at hn
    repeat' split at hn
    all_goals cases hn
    all_goals exact Nat.le_refl _
  | write =>
    simp only [Poller.native] at hn
    repeat' split at hn
    all_goals cases hn
    · exact Nat.le_refl _
    · exact Nat.le_succ _
    · exact Nat.le_refl _
  | _ =>
    cases hn
    exact Nat.le_refl _

lemma PollerInv.waiting_step (hG : PollerInv s cs) (ht : cs[t]? = some c) (hreq : pollerReq i c)
    (hx : s.exec x i = some (s', r)) :
    total (fun c => (waits c.2).toNat) (cs.set t (c.1, ⟨i, r⟩ :: c.2)) = s'.waiting.toNat := by
  have htotal := total_set (f := fun c : EPast => (waits c.2).toNat) (c.1, ⟨i, r⟩ :: c.2) ht
  rw [hG.waiting] at htotal
  obtain ⟨s₁, g, hn, -, rfl⟩ := Guard.exec_eq hx
  have hkeep : i ≠ .casWaiting → i ≠ .storeWaiting → waits (⟨i, r⟩ :: c.2) = waits c.2 →
      total (fun c => (waits c.2).toNat) (cs.set t (c.1, ⟨i, r⟩ :: c.2)) = s₁.waiting.toNat :=
    fun hcas hstore hsame => by
      rw [Poller.native_waiting hn hcas hstore]
      simp only [hsame] at htotal
      omega
  cases i with
  | casWaiting =>
    cases hn
    have hwaits : waits c.2 = false := hreq.2
    simp only [waits, hwaits, Bool.or_false] at htotal
    cases hw : s.waiting <;> simp only [hw, Bool.not_false, Bool.not_true, Bool.toNat_false,
      Bool.toNat_true] at htotal ⊢ <;> omega
  | storeWaiting =>
    cases hn
    have hle := Bool.toNat_le s.waiting
    simp only [waits, hreq.2.1, Bool.toNat_true, Bool.toNat_false] at htotal ⊢
    omega
  | _ => exact hkeep nofun nofun rfl

lemma PollerInv.polling_step (hG : PollerInv s cs) (hc : c ∈ cs) (hreq : pollerReq i c)
    (hpolls : polls (⟨i, r⟩ :: c.2) = true) : waits (⟨i, r⟩ :: c.2) = true := by
  cases i with
  | loadClosed =>
    cases r with
    | false => exact (Bool.and_eq_true_iff.mp hpolls).2
    | true => exact hG.polling c hc hpolls
  | casWaiting => exact Bool.or_eq_true_iff.mpr (.inr (hG.polling c hc hpolls))
  | storeWaiting =>
    have hnot : polls c.2 = false := hreq.2.2
    rw [show polls (⟨.storeWaiting, r⟩ :: c.2) = polls c.2 from rfl, hnot] at hpolls
    cases hpolls
  | epollWait n ms => cases hpolls
  | _ => exact hG.polling c hc hpolls

lemma PollerInv.epoll_step (hG : PollerInv s cs) (ht : cs[t]? = some c) (hreq : pollerReq i c)
    (hx : s.exec x i = some (s', r)) :
    total (fun c => closes .epoll c.2) (cs.set t (c.1, ⟨i, r⟩ :: c.2)) =
      (!s'.guard.live).toNat := by
  obtain ⟨s₁, g, -, hg, rfl⟩ := Guard.exec_eq hx
  rw [total_times_set ht, hG.epoll]
  have hkeep : i.act r ≠ .release → i.isClose .epoll = false →
      ((!s.guard.live).toNat + if i.isClose .epoll then 1 else 0) = (!g.live).toNat :=
    fun hrelease hclose => by
      rw [Guard.live_act hg hrelease, hclose, if_neg Bool.false_ne_true]
      rfl
  cases i with
  | close d =>
    cases d with
    | wake => exact hkeep nofun rfl
    | epoll =>
      have huse : (hold c.2).May .use := .inr (hreq.1 r).2
      rw [hG.guard.live_of_use (List.mem_of_getElem? ht) huse]
      cases hg
      rfl
  | _ => exact hkeep nofun rfl

/-- Who is about to close the eventfd is the first to do so. -/
lemma PollerInv.wake_zero (hG : PollerInv s cs) (ht : cs[t]? = some c)
    (hreq : pollerReq (.close .wake) c) : ∀ d ∈ cs, closes .wake d.2 = 0 := by
  intro d hd
  by_contra hne
  -- it was the same goroutine, since there is one owner
  obtain ⟨t', ht'⟩ := List.mem_iff_getElem?.mp hd
  have howner := (hG.guard.shape (List.mem_of_getElem? ht)).2 hreq.2.1
  have howner' := (hG.guard.shape hd).2 (hG.wake d hd hne)
  cases hG.guard.eq_of_owner ht ht' howner howner'
  cases ht.symm.trans ht'
  exact hne hreq.2.2

lemma PollerInv.once_step (hG : PollerInv s cs) (ht : cs[t]? = some c) (hreq : pollerReq i c) :
    total (fun c => closes .wake c.2) (cs.set t (c.1, ⟨i, r⟩ :: c.2)) ≤ 1 := by
  rw [total_times_set ht]
  by_cases hi : i = .close .wake
  · subst hi
    rw [total_eq_zero_iff.mpr (hG.wake_zero ht hreq)]
    exact Nat.le_refl 1
  · have hnot : i.isClose .wake = false := by
      cases i with
      | close d =>
        cases d with
        | wake => exact absurd rfl hi
        | epoll => rfl
      | _ => rfl
    rw [hnot, if_neg Bool.false_ne_true]
    exact hG.once

lemma PollerInv.wake_step (hG : PollerInv s cs) (hc : c ∈ cs) (hreq : pollerReq i c)
    (hne : closes .wake (⟨i, r⟩ :: c.2) ≠ 0) : (hold (⟨i, r⟩ :: c.2)).released = true := by
  refine Grip.released_act ?_
  simp only [times_cons] at hne
  cases i with
  | close d =>
    cases d with
    | wake => exact hreq.2.1
    | epoll => exact hG.wake c hc (by simpa [EInstr.isClose] using hne)
  | _ => exact hG.wake c hc (by simpa [EInstr.isClose] using hne)

lemma PollerInv.owner_step (hG : PollerInv s cs) (hc : c ∈ cs) (hreq : pollerReq i c)
    (hclose : c.1 = .close) (hsignals : signals (⟨i, r⟩ :: c.2) = true) :
    (hold (⟨i, r⟩ :: c.2)).owner = true := by
  refine Grip.owner_act ?_
  cases i with
  | write => exact hreq.2 hclose
  | _ => exact hG.owner c hc hclose hsignals

/-- `write` answers `nil` or `EAGAIN` with the counter above zero. -/
lemma Poller.native_write {s₁ : Poller} {r : Option Errno}
    (hn : s.native x .write = some (s₁, r)) (hr : r = none ∨ r = some eagain) :
    0 < s₁.counter := by
  simp only [Poller.native] at hn
  repeat' split at hn
  all_goals cases hn
  · rename_i hne
    rcases hr with hr | hr
    · cases hr
    · exact absurd (Option.some.inj hr) hne
  · exact Nat.succ_pos _
  · rename_i hfull
    simp only [maxCounter] at hfull
    omega

/-- There is one `Wait` at a time, so none is in `epoll_wait` while one drains the eventfd. -/
lemma PollerInv.not_polls (hG : PollerInv s cs) (ht : cs[t]? = some c) (hwaits : waits c.2 = true)
    (hpolls : polls c.2 = false) : ∀ d ∈ cs, polls d.2 = false := by
  refine fun d hd => Bool.eq_false_iff.mpr fun hdpolls => ?_
  obtain ⟨t', ht'⟩ := List.mem_iff_getElem?.mp hd
  have hne : t ≠ t' := by
    rintro rfl
    cases ht.symm.trans ht'
    rw [hpolls] at hdpolls
    cases hdpolls
  have htwo := add_le_total (f := fun c : EPast => (waits c.2).toNat) hne ht ht'
  have hle := Bool.toNat_le s.waiting
  rw [hwaits, hG.polling d hd hdpolls, hG.waiting] at htwo
  simp only [Bool.toNat_true] at htwo
  omega

lemma PollerInv.signalled_step (hG : PollerInv s cs) (ht : cs[t]? = some c) (hreq : pollerReq i c)
    (hx : s.exec x i = some (s', r)) :
    ∀ e ∈ cs.set t (c.1, ⟨i, r⟩ :: c.2), e.1 = .close → signals e.2 = true →
      ∀ d ∈ cs.set t (c.1, ⟨i, r⟩ :: c.2), polls d.2 = true → 0 < s'.counter := by
  have hc := List.mem_of_getElem? ht
  obtain ⟨s₁, g, hn, -, rfl⟩ := Guard.exec_eq hx
  -- a step that neither signals nor passes the check of a round nor drains
  have hkeep : (signals (⟨i, r⟩ :: c.2) = true → signals c.2 = true) →
      (polls (⟨i, r⟩ :: c.2) = true → polls c.2 = true) → i ≠ .read →
      ∀ e ∈ cs.set t (c.1, ⟨i, r⟩ :: c.2), e.1 = .close → signals e.2 = true →
      ∀ d ∈ cs.set t (c.1, ⟨i, r⟩ :: c.2), polls d.2 = true → 0 < s₁.counter :=
    fun hsignals hpolls hi => by
      have hle := Poller.native_counter hn hi
      have hold : ∀ e ∈ cs, e.1 = .close → signals e.2 = true →
          ∀ d ∈ cs.set t (c.1, ⟨i, r⟩ :: c.2), polls d.2 = true → 0 < s₁.counter :=
        fun e he hclose hse => forall_mem_set
          (fun d hd hpd => Nat.lt_of_lt_of_le (hG.signalled e he hclose hse d hd hpd) hle)
          fun hpc => Nat.lt_of_lt_of_le (hG.signalled e he hclose hse c hc (hpolls hpc)) hle
      exact forall_mem_set hold fun hclose hsc => hold c hc hclose (hsignals hsc)
  cases i with
  | write =>
    by_cases hr : r = none ∨ r = some eagain
    · have hpos := Poller.native_write hn hr
      exact fun _ _ _ _ _ _ _ => hpos
    · refine hkeep (fun h => ?_) id nofun
      cases r with
      | none => exact absurd (.inl rfl) hr
      | some e =>
        rw [signals, Bool.or_eq_true, beq_iff_eq] at h
        exact h.resolve_left fun he => hr (.inr (congrArg some he))
  | read =>
    have hnone := hG.not_polls ht hreq.2.1 hreq.2.2
    have hnone' : ∀ d ∈ cs.set t (c.1, ⟨.read, r⟩ :: c.2), polls d.2 = false :=
      forall_mem_set hnone hreq.2.2
    intro _ _ _ _ d hd hpd
    rw [hnone' d hd] at hpd
    cases hpd
  | loadClosed =>
    cases r with
    | true => exact hkeep id id nofun
    | false =>
      -- nobody has claimed the flag, so nobody has signalled
      have hopen : s.guard.closed = false := (Prod.mk.inj (Option.some.inj hn)).2
      have hnone : ∀ e ∈ cs, e.1 = .close → signals e.2 = true → False := fun e he hclose hse => by
        have := hG.guard.closed_of_owner he (hG.owner e he hclose hse)
        rw [hopen] at this
        cases this
      have hnone' : ∀ e ∈ cs.set t (c.1, ⟨.loadClosed, false⟩ :: c.2), e.1 = .close →
          signals e.2 = true → False := forall_mem_set hnone (hnone c hc)
      exact fun e he hclose hse => (hnone' e he hclose hse).elim
  | epollWait n ms => exact hkeep id nofun nofun
  | _ => exact hkeep id id nofun

lemma PollerInv.exec (hG : PollerInv s cs) (ht : cs[t]? = some c) (hreq : pollerReq i c)
    (hx : s.exec x i = some (s', r)) : PollerInv s' (cs.set t (c.1, ⟨i, r⟩ :: c.2)) where
  guard := by
    obtain ⟨s₁, g, -, hg, rfl⟩ := Guard.exec_eq hx
    exact hG.guard.exec ht (hreq.1 r) hg
  waiting := hG.waiting_step ht hreq hx
  polling := forall_mem_set hG.polling (hG.polling_step (List.mem_of_getElem? ht) hreq)
  epoll := hG.epoll_step ht hreq hx
  wake := forall_mem_set hG.wake (hG.wake_step (List.mem_of_getElem? ht) hreq)
  once := hG.once_step ht hreq
  owner := forall_mem_set hG.owner (hG.owner_step (List.mem_of_getElem? ht) hreq)
  signalled := hG.signalled_step ht hreq hx

lemma PollerInv.spawn (hG : PollerInv s cs) (l : ELabel) : PollerInv s (cs ++ [(l, [])]) where
  guard := hG.guard.spawn l
  waiting := by rw [total_append]; exact hG.waiting
  polling := forall_mem_concat hG.polling nofun
  epoll := by rw [total_append]; exact hG.epoll
  wake := forall_mem_concat hG.wake fun h => absurd rfl h
  once := by rw [total_append]; exact hG.once
  owner := forall_mem_concat hG.owner nofun
  signalled := forall_mem_concat
    (fun e he hclose hse => forall_mem_concat (hG.signalled e he hclose hse) nofun) nofun

end Steps

/-! ### Every run -/

lemma poller_sound : Outline.Sound pollerMachine pollerOutline PollerInv (fun _ _ => True) where
  body l₀ l _ hc := poller_body l₀ l hc
  exec _ _ _ _ _ _ _ _ _ ht _ hG hreq hx :=
    ⟨trivial, hG.exec (Outline.ctxs_getElem? ht) hreq hx⟩
  spawn _ l _ _ hG hs := by
    cases l with
    | polling _ _ | draining _ _ _ _ | waking | closing => cases hs
    | _ =>
      cases hs
      exact ⟨rfl, hG.spawn _⟩
  env _ e := e.elim

lemma poller_holds {p : EProcess} (hp : pollerMachine.Reaches EProcess.init p) :
    pollerOutline.Holds PollerInv p := by
  have hinit : PollerInv {} [] :=
    ⟨Guard.Keeps.init, rfl, by simp, rfl, by simp, Nat.zero_le _, by simp, by simp⟩
  exact poller_sound.reaches ⟨hinit, by simp [EProcess.init]⟩ hp

end Ogrenet.Epoll
