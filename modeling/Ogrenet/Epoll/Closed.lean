import Ogrenet.Epoll.Close

/-!
# Calls of a closed poller

A call that begins after a `Close` has returned finds `closed` set: it makes no system call and
returns an error after at most three steps.
-/

namespace Ogrenet.Epoll

open Interleaving
open Outline (mem_past_ctxs)

/-- The descriptor that the instruction is a system call on. -/
def EInstr.descriptor : EInstr → Option Descriptor
  | .epollCtl _ _ _ | .epollWait _ _ => some .epoll
  | .write | .read => some .wake
  | .close d => some d
  | _ => none

/-- What a call does that finds the poller closed. -/
def EInstr.isCheck : EInstr → Bool
  | .loadClosed | .rlock | .runlock => true
  | _ => false

/-- The answer of an instruction once `closed` is set. -/
def EInstr.Sees : (i : EInstr) → i.Resp → Prop
  | .loadClosed, closed => closed = true
  | _, _ => True

/-- On a closed poller the program makes at most `n` checks and returns an error. -/
def Fails : EProg ENext → ℕ → Prop
  | .done (.ret v), _ => v.err.isSome = true
  | .done (.goto _), _ => False
  | .op i k, n => i.isCheck = true ∧ 0 < n ∧ ∀ r, i.Sees r → Fails (k r) (n - 1)

section Programs

lemma fails_checked (k : EProg ENext) :
    Fails (do
      rlock
      match ← loadClosed with
      | true => unlocked errClosed
      | false => k) 3 := by
  refine ⟨rfl, by decide, fun _ _ => ⟨rfl, by decide, fun closed hclosed => ?_⟩⟩
  cases hclosed
  exact ⟨rfl, by decide, fun _ _ => rfl⟩

lemma fails_ctl (op : CtlOp) (fd : ℤ) (events : UInt32) (data : UInt64) :
    Fails (ctl op fd events data) 3 := by
  rw [ctl]
  split
  · rfl
  · exact fails_checked _

lemma fails_wait (n : ℕ) (timeout : Int64) : Fails (wait n timeout) 3 := by
  rw [wait]
  split
  · rfl
  · refine ⟨rfl, by decide, fun closed hclosed => ?_⟩
    cases hclosed
    rfl

/-- Every call other than `Close` fails on a closed poller. -/
lemma fails_body {s s' : Poller} {l : ELabel} (hs : s.spawn l = some s') (hl : l ≠ .close) :
    Fails l.body 3 := by
  cases l with
  | add fd events data => exact fails_ctl .add fd events data
  | mod fd events data => exact fails_ctl .mod fd events data
  | del fd => exact fails_checked _
  | wait n timeout => exact fails_wait n timeout
  | wake => exact fails_checked _
  | close => exact absurd rfl hl
  | polling _ _ | draining _ _ _ _ | waking | closing => cases hs

end Programs

/-! ### The descriptors -/

section Holds

variable {p : EProcess} {th : EThread} {i : EInstr} {k : i.Resp → EProg ENext}

lemma total_closes_epoll (hp : pollerOutline.Holds PollerInv p) :
    total (fun th => closes .epoll th.log) p.threads = (!p.shared.guard.live).toNat := by
  have hepoll := hp.shared.epoll
  rw [pollerOutline, Outline.past_ctxs, total_map] at hepoll
  exact hepoll

lemma total_closes_le (hp : pollerOutline.Holds PollerInv p) (d : Descriptor) :
    total (fun th => closes d th.log) p.threads ≤ 1 := by
  cases d with
  | epoll =>
    rw [total_closes_epoll hp]
    exact Bool.toNat_le _
  | wake =>
    have honce := hp.shared.once
    rw [pollerOutline, Outline.past_ctxs, total_map] at honce
    exact honce

/-- While no descriptor is closed, neither was. -/
lemma closes_of_live (hp : pollerOutline.Holds PollerInv p) (hlive : p.shared.guard.live = true)
    (d : Descriptor) : ∀ th ∈ p.threads, closes d th.log = 0 := by
  have hepoll := total_closes_epoll hp
  rw [hlive] at hepoll
  have hzero := total_eq_zero_iff.mp hepoll
  cases d with
  | epoll => exact hzero
  | wake =>
    intro th hth
    by_contra hne
    -- who has closed the eventfd has closed the other before
    have hreleased := hp.shared.wake _ (mem_past_ctxs hth) hne
    rw [hp.shared.guard.live_of_released (mem_past_ctxs hth) hreleased] at hlive
    cases hlive

/-- A system call finds its descriptor open. -/
lemma closes_of_descriptor (hp : pollerOutline.Holds PollerInv p) (hth : th ∈ p.threads)
    (hprog : th.prog = .op i k) {d : Descriptor} (hd : i.descriptor = some d) :
    ∀ th' ∈ p.threads, closes d th'.log = 0 := by
  have hreq := hp.past_req hth hprog
  have huse : ∀ d, (hold th.log).May .use → ∀ th' ∈ p.threads, closes d th'.log = 0 :=
    fun d hmay => closes_of_live hp (hp.shared.guard.live_of_use (mem_past_ctxs hth) hmay) d
  cases i with
  | epollCtl op fd ev => exact huse d (hreq.1 none)
  | epollWait n ms => exact huse d (hreq.1 (.ok []))
  | write | read => exact huse d (hreq.1 none)
  | close d' =>
    cases hd
    cases d with
    | epoll => exact huse .epoll (.inr (hreq.1 none).2)
    | wake =>
      obtain ⟨t, ht⟩ := List.mem_iff_getElem?.mp (mem_past_ctxs hth)
      exact fun th' hth' => hp.shared.wake_zero ht hreq _ (mem_past_ctxs hth')
  | _ => cases hd

end Holds

/-! ### The flag over a run -/

section Runs

variable {s s' : Poller} {x : EChoice} {i : EInstr} {r : i.Resp} {p q : EProcess}

lemma Poller.exec_closed (hx : s.exec x i = some (s', r)) (hclosed : s.guard.closed = true) :
    s'.guard.closed = true ∧ i.Sees r := by
  obtain ⟨s₁, g, hn, hg, rfl⟩ := Guard.exec_eq hx
  refine ⟨Guard.closed_act hg hclosed, ?_⟩
  cases i with
  | loadClosed =>
    cases hn
    exact hclosed
  | _ => trivial

lemma Poller.exec_casClosed {r : Bool} (hx : s.exec x .casClosed = some (s', r)) :
    s'.guard.closed = true := by
  obtain ⟨s₁, g, -, hg, rfl⟩ := Guard.exec_eq hx
  simp only [EInstr.act, Guard.act] at hg
  split at hg <;> cases hg
  rfl

lemma Poller.spawn_eq {l : ELabel} (hs : s.spawn l = some s') : s' = s := by
  cases l <;> cases hs <;> rfl

/-- A `Close` that has taken a step has set the flag, or found it set. -/
def EProcess.Closers (p : EProcess) : Prop :=
  p.shared.guard.closed = true ∨
    ∀ th ∈ p.threads, th.entry = .close → th.prog = close

lemma closers_step {e : EEvent} (hp : p.Closers) (hstep : pollerMachine.step p e = some q) :
    q.Closers := by
  obtain ⟨t, x, l, i, k, log, s', r, rfl, ht, hx, rfl⟩ | ⟨t, x, l, l', log, rfl, ht, rfl⟩ |
    ⟨l, s', rfl, hs, rfl⟩ | ⟨x, s', rfl, -, rfl⟩ := pollerMachine.step_cases hstep
  · rcases hp with hclosed | hp
    · exact .inl (Poller.exec_closed hx hclosed).1
    · by_cases hl : l = .close
      · cases hp _ (List.mem_of_getElem? ht) hl
        exact .inl (Poller.exec_casClosed (x := x) hx)
      · exact .inr (forall_mem_set hp fun h => absurd h hl)
  · rcases hp with hclosed | hp
    · exact .inl hclosed
    · by_cases hl : l = .close
      · cases hp _ (List.mem_of_getElem? ht) hl
      · exact .inr (forall_mem_set hp fun h => absurd h hl)
  · cases Poller.spawn_eq hs
    refine hp.imp id fun hp => forall_mem_concat hp fun h => ?_
    subst h
    rfl
  · exact x.elim

lemma closed_of_returned (hp : pollerMachine.Reaches EProcess.init p) {th : EThread}
    (hth : th ∈ p.threads) (hentry : th.entry = .close) {v : EVal}
    (hret : th.prog = .done (.ret v)) : p.shared.guard.closed = true := by
  have hclosers : p.Closers :=
    Machine.reaches_induction (fun _ _ _ hp h => closers_step hp h) (.inr (by simp [EProcess.init]))
      hp
  refine hclosers.resolve_right fun h => ?_
  rw [h th hth hentry] at hret
  cases hret

/-- The call fails within three steps, of which it has made some. -/
def EThread.Failing (th : EThread) : Prop :=
  Fails th.prog (3 - th.log.length) ∧ ∀ a ∈ th.log, a.1.descriptor = none

/-- The poller is closed, and the calls begun since are failing. -/
def EProcess.FailsFrom (n : ℕ) (p : EProcess) : Prop :=
  p.shared.guard.closed = true ∧
    ∀ t th, n ≤ t → p.threads[t]? = some th → th.entry ≠ .close → EThread.Failing th

lemma failing_exec {l : ELabel} {k : i.Resp → EProg ENext} {log : ELog}
    (h : EThread.Failing ⟨l, .op i k, log⟩) (hr : i.Sees r) :
    EThread.Failing ⟨l, k r, ⟨i, r⟩ :: log⟩ := by
  obtain ⟨⟨hcheck, -, hk⟩, hlog⟩ := h
  refine ⟨?_, List.forall_mem_cons.mpr ⟨?_, hlog⟩⟩
  · have := hk r hr
    rwa [Nat.sub_sub] at this
  · cases i with
    | loadClosed | rlock | runlock => rfl
    | _ => cases hcheck

lemma failsFrom_step {n : ℕ} {e : EEvent} (hp : p.FailsFrom n)
    (hstep : pollerMachine.step p e = some q) : q.FailsFrom n := by
  obtain ⟨hclosed, hp⟩ := hp
  obtain ⟨t, x, l, i, k, log, s', r, rfl, ht, hx, rfl⟩ | ⟨t, x, l, l', log, rfl, ht, rfl⟩ |
    ⟨l, s', rfl, hs, rfl⟩ | ⟨x, s', rfl, -, rfl⟩ := pollerMachine.step_cases hstep
  · obtain ⟨hclosed', hsees⟩ := Poller.exec_closed hx hclosed
    refine ⟨hclosed', fun t' th hn ht' hentry => ?_⟩
    rcases getElem?_of_set ht' with ⟨rfl, rfl⟩ | ht'
    · exact failing_exec (hp _ _ hn ht hentry) hsees
    · exact hp t' th hn ht' hentry
  · refine ⟨hclosed, fun t' th hn ht' hentry => ?_⟩
    rcases getElem?_of_set ht' with ⟨rfl, rfl⟩ | ht'
    · exact (hp _ _ hn ht hentry).1.elim
    · exact hp t' th hn ht' hentry
  · cases Poller.spawn_eq hs
    refine ⟨hclosed, fun t' th hn ht' hentry => ?_⟩
    rcases getElem?_of_concat ht' with ht' | ⟨-, rfl⟩
    · exact hp t' th hn ht' hentry
    · exact ⟨fails_body hs hentry, by simp⟩
  · exact x.elim

lemma failsFrom_of_closed (hclosed : p.shared.guard.closed = true)
    (hpq : pollerMachine.Reaches p q) : q.FailsFrom p.threads.length :=
  Machine.reaches_induction (fun _ _ _ hp h => failsFrom_step hp h)
    ⟨hclosed, fun t th hn ht => by
      rw [List.getElem?_eq_none hn] at ht
      cases ht⟩ hpq

/-- A check waits for nothing but the write lock. -/
lemma enabled_of_isCheck (hq : pollerOutline.Holds PollerInv q) {th : EThread}
    (hth : th ∈ q.threads) {k : i.Resp → EProg ENext} (hprog : th.prog = .op i k)
    (hcheck : i.isCheck = true) (x : EChoice) :
    (q.shared.exec x i).isSome = true ∨ i = .rlock ∧ q.shared.guard.writer = true := by
  cases i with
  | loadClosed =>
    exact .inl (by simp [Poller.exec, Guard.exec, Poller.native, EInstr.act, Guard.act])
  | rlock =>
    cases hw : q.shared.guard.writer with
    | true => exact .inr ⟨rfl, rfl⟩
    | false =>
      exact .inl (by simp [Poller.exec, Guard.exec, Poller.native, EInstr.act, Guard.act, hw])
  | runlock =>
    have hreading : (hold th.log).reading = true := (hq.past_req hth hprog).1 ()
    have hpos := hq.shared.guard.readers_pos (mem_past_ctxs hth) hreading
    exact .inl (by simp [Poller.exec, Guard.exec, Poller.native, EInstr.act, Guard.act, hpos])
  | _ => cases hcheck

end Runs

/-- What `Close` gives. -/
structure EProcess.ClosesSafely (p : EProcess) : Prop where
  /-- No system call is made on a descriptor that was closed. -/
  native : ∀ th ∈ p.threads, ∀ i k d, th.prog = .op i k → i.descriptor = some d →
    ∀ th' ∈ p.threads, closes d th'.log = 0
  once : ∀ d, total (fun th => closes d th.log) p.threads ≤ 1
  /-- Once `Close` has signalled, no `Wait` is in `epoll_wait` with the counter at zero. -/
  woken : ∀ th ∈ p.threads, th.entry = .close → signals th.log = true →
    ∀ th' ∈ p.threads, ∀ n ms k, th'.prog = .op (.epollWait n ms) k → 0 < p.shared.counter
  /-- Once a `Close` has returned, a call that begins fails, and waits for the write lock at
  most. -/
  late : ∀ th ∈ p.threads, th.entry = .close → ∀ v, th.prog = .done (.ret v) →
    ∀ q, pollerMachine.Reaches p q → ∀ t th', p.threads.length ≤ t → q.threads[t]? = some th' →
      th'.entry ≠ .close → EThread.Failing th' ∧ ∀ i k x, th'.prog = .op i k →
        (q.shared.exec x i).isSome = true ∨ i = .rlock ∧ q.shared.guard.writer = true

theorem closesSafely_of_reaches {p : EProcess} (hp : pollerMachine.Reaches EProcess.init p) :
    p.ClosesSafely := by
  have hp' := poller_holds hp
  refine ⟨fun th hth i k d hprog hd => closes_of_descriptor hp' hth hprog hd,
    total_closes_le hp', fun th hth hentry hsignals th' hth' n ms k hprog => ?_,
    fun th hth hentry v hret q hpq t th' hn ht hentry' => ?_⟩
  · exact hp'.shared.signalled _ (mem_past_ctxs hth) hentry hsignals _ (mem_past_ctxs hth')
      (hp'.past_req hth' hprog).2
  · have hfailing := (failsFrom_of_closed (closed_of_returned hp hth hentry hret) hpq).2 t th' hn ht
      hentry'
    refine ⟨hfailing, fun i k x hprog => ?_⟩
    have hfails := hfailing.1
    rw [hprog] at hfails
    exact enabled_of_isCheck (poller_holds (hp.trans hpq)) (List.mem_of_getElem? ht) hprog
      hfails.1 x

/-- A `Wait` without a timeout is in `epoll_wait` when `Close` claims the poller and signals. -/
def closeDuringWait : List EEvent :=
  [.spawn (.wait 1 (-1)), .run 0 {}, .run 0 {}, .run 0 {}, .run 0 {}, .run 0 {}, .run 0 {},
    .spawn .close, .run 1 {}, .run 1 {}, .run 1 {}]

theorem closesSafely_closeDuringWait : ∃ p : EProcess,
    pollerMachine.run EProcess.init closeDuringWait = some p ∧
    p.threads.map (fun th => (polls th.log, signals th.log)) = [(true, false), (false, true)] ∧
    p.ClosesSafely := by
  have hmap : (pollerMachine.run EProcess.init closeDuringWait).map (fun p =>
      p.threads.map fun th => (polls th.log, signals th.log)) =
      some [(true, false), (false, true)] := by decide
  obtain ⟨p, hrun, hobs⟩ := Option.map_eq_some_iff.mp hmap
  exact ⟨p, hrun, hobs, closesSafely_of_reaches ⟨_, hrun⟩⟩

end Ogrenet.Epoll
