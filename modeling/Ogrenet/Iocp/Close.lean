import Mathlib.Data.List.Perm.Basic
import Ogrenet.Iocp.Port

/-!
# Closing the completion port

`Close` posts as many reserved packets as its one reading of `waiters`. Every `Get` that has passed
its second check of `closed` was counted by then, so there is a packet for each of them, and the
write lock is not waited for in vain. The lock and the flag keep every native call before
`CloseHandle`.
-/

namespace Ogrenet.Iocp

open Interleaving
open Outline (past_step mem_past_ctxs times total_times_set)

abbrev PLog := List (Sigma PInstr.Resp)

abbrev PPast := Outline.Past PLabel PInstr.Resp

/-! ### What a goroutine has done -/

/-- What the goroutine has done of the protocol of the guard. -/
abbrev hold : PLog → Grip := Grip.past PInstr.act

inductive GetPhase where
  | out
  /-- Counted in `waiters`. -/
  | counted
  /-- Past the second check of `closed`, and the native call has not returned. -/
  | native
  | finished
  deriving DecidableEq, Repr

/-- How far a `Get` is. -/
def phase : PLog → GetPhase
  | [] => .out
  | ⟨.addWaiters n, _⟩ :: _ => if n = 1 then .counted else .out
  | ⟨.loadClosed, false⟩ :: log =>
    if (hold log).reading ∧ phase log = .counted then .native else phase log
  | ⟨.getQueuedCompletionStatus _, _⟩ :: _ => .finished
  | _ :: log => phase log

/-- How many reserved packets a `Close` has still to post, once it has read `waiters`. -/
def postsLeft : PLog → Option ℕ
  | [] => none
  | ⟨.loadWaiters, w⟩ :: _ => some (Int.toNat w)
  | ⟨.postQueuedCompletionStatus _, _⟩ :: log => (postsLeft log).map (· - 1)
  | _ :: log => postsLeft log

def portReq (i : PInstr) (c : PPast) : Prop :=
  (∀ r, (hold c.2).May (i.act r)) ∧
    match i with
    | .addWaiters n => n = 1 ∧ phase c.2 = .out ∨
        n = -1 ∧ (phase c.2 = .counted ∨ phase c.2 = .finished)
    | .loadWaiters => (hold c.2).owner = true
    | .createIoCompletionPort key => key ≠ reservedKey
    | .postQueuedCompletionStatus pkt => pkt.reserved = false ∧ postsLeft c.2 = none ∨
        pkt.reserved = true ∧ ∃ n, postsLeft c.2 = some (n + 1)
    | .getQueuedCompletionStatus _ => phase c.2 = .native
    | .runlock => phase c.2 ≠ .native
    | .lock => postsLeft c.2 = some 0
    | _ => True

def portPre : PLabel → PPast → Prop
  | .posting waiters i, c =>
    hold c.2 = { owner := true } ∧ postsLeft c.2 = some (waiters - i).toNat
  | _, c => c.2 = []

/-- The outline of the calls. -/
def portOutline : Outline PInstr PInstr.Resp PLabel PVal PPast :=
  .past portReq (fun _ _ _ => True) portPre fun _ _ => True

section Programs

variable {l l₀ : PLabel} {log : PLog}

/-- The deferred `RUnlock`. -/
lemma wp_unlocked (err : Option Err) (hreading : (hold log).reading = true)
    (hphase : phase log ≠ .native) :
    portOutline.wp (unlocked err) (portOutline.ends l₀) (l, log) :=
  past_step ⟨fun _ => hreading, hphase⟩ fun _ => trivial

/-- The deferred functions of `Get`. -/
lemma wp_left (c : Completion) (err : Option Err) (hreading : (hold log).reading = true)
    (hphase : phase log = .counted ∨ phase log = .finished) :
    portOutline.wp (left c err) (portOutline.ends l₀) (l, log) := by
  refine past_step ⟨fun _ => hreading, fun h => ?_⟩ fun _ =>
    past_step ⟨fun _ => trivial, .inr ⟨rfl, hphase⟩⟩ fun _ => trivial
  rw [h] at hphase
  exact hphase.elim nofun nofun

lemma wp_associate (key : UInt64) :
    portOutline.wp (associate key) (portOutline.ends l₀) (l, []) := by
  rw [associate]
  split
  · trivial
  · refine past_step ⟨fun _ => rfl, trivial⟩ fun _ => past_step ⟨fun _ => trivial, trivial⟩ ?_
    rintro (_ | _)
    · refine past_step ⟨fun _ => .inl rfl, ‹_›⟩ ?_
      rintro (err | _ | _) <;> exact wp_unlocked _ rfl nofun
    · exact wp_unlocked _ rfl nofun

lemma wp_post (c : Completion) : portOutline.wp (post c) (portOutline.ends l₀) (l, []) := by
  rw [post]
  split
  · trivial
  · rename_i hkey
    have hreserved : c.reserved = false := by simp [Completion.reserved, hkey]
    refine past_step ⟨fun _ => rfl, trivial⟩ fun _ => past_step ⟨fun _ => trivial, trivial⟩ ?_
    rintro (_ | _)
    · refine past_step ⟨fun _ => .inl rfl, .inl ⟨hreserved, rfl⟩⟩ ?_
      rintro (_ | err) <;> exact wp_unlocked _ rfl nofun
    · exact wp_unlocked _ rfl nofun

lemma wp_get (timeout : Int64) : portOutline.wp (get timeout) (portOutline.ends l₀) (l, []) := by
  refine past_step ⟨fun _ => trivial, trivial⟩ ?_
  rintro (_ | _)
  · refine past_step ⟨fun _ => trivial, .inl ⟨rfl, rfl⟩⟩ fun _ => past_step ⟨fun _ => rfl, trivial⟩
      fun _ => past_step ⟨fun _ => trivial, trivial⟩ ?_
    rintro (_ | _)
    · refine past_step ⟨fun _ => .inl rfl, rfl⟩ fun r => ?_
      show portOutline.wp (if _ then _ else _) _ _
      split
      · exact wp_left _ _ rfl (.inr rfl)
      · obtain ⟨c, _ | _ | err⟩ := r
        · exact wp_left _ _ rfl (.inr rfl)
        · exact wp_left _ _ rfl (.inr rfl)
        · refine past_step ⟨fun _ => trivial, trivial⟩ ?_
          rintro (_ | _) <;> exact wp_left _ _ rfl (.inr rfl)
    · exact wp_left _ _ rfl (.inl rfl)
  · trivial

lemma wp_posting (waiters i : ℤ) (hhold : hold log = { owner := true })
    (hleft : postsLeft log = some (waiters - i).toNat) :
    portOutline.wp (posting waiters i) (portOutline.ends l₀) (l, log) := by
  rw [posting]
  split
  · have hsucc : (waiters - i).toNat = (waiters - (i + 1)).toNat + 1 := by omega
    refine past_step ⟨fun _ => .inr (by rw [hhold]; exact ⟨rfl, rfl⟩),
      .inr ⟨rfl, (waiters - (i + 1)).toNat, by rw [hleft, hsucc]⟩⟩ fun _ => ⟨?_, ?_⟩
    · simpa [Grip.past, PInstr.act, Grip.act] using hhold
    · simp only [postsLeft, hleft, Option.map_some, hsucc, Nat.add_sub_cancel]
  · have hzero : (waiters - i).toNat = 0 := by omega
    refine past_step ⟨fun _ => by rw [hhold]; rfl, by rw [hleft, hzero]⟩ fun _ =>
      past_step ⟨fun _ => ?_, trivial⟩ fun _ => past_step ⟨fun _ => ?_, trivial⟩ fun _ => trivial
    · simp [Grip.past, hhold, PInstr.act, Grip.act, Grip.May]
    · simp [Grip.past, hhold, PInstr.act, Grip.act, Grip.May]

lemma wp_close : portOutline.wp close (portOutline.ends l₀) (l, []) := by
  refine past_step ⟨fun _ => rfl, trivial⟩ ?_
  rintro (_ | _)
  · trivial
  · exact past_step ⟨fun _ => trivial, rfl⟩ fun w => ⟨rfl, by simp [postsLeft]⟩

lemma port_body (l₀ l : PLabel) {c : PPast} (hc : portPre l c) :
    portOutline.wp l.body (portOutline.ends l₀) c := by
  obtain ⟨l₁, log⟩ := c
  cases l with
  | associate key =>
    cases hc
    exact wp_associate key
  | post c =>
    cases hc
    exact wp_post c
  | get timeout =>
    cases hc
    exact wp_get timeout
  | close =>
    cases hc
    exact wp_close
  | posting waiters i => exact wp_posting waiters i hc.1 hc.2

end Programs

/-! ### The invariant -/

/-- A `Get` that is counted in `waiters`. -/
def isCounted (c : PPast) : ℕ := if phase c.2 = .out then 0 else 1

/-- A `Get` inside its native call. -/
def isNative (c : PPast) : ℕ := if phase c.2 = .native then 1 else 0

def PInstr.isCloseHandle : PInstr → Bool
  | .closeHandle => true
  | _ => false

/-- How often a log has closed the handle. -/
abbrev closes : PLog → ℕ := times PInstr.isCloseHandle

structure PortInv (s : Port) (cs : List PPast) : Prop where
  guard : s.guard.Keeps PInstr.act cs
  closes : total (fun c => closes c.2) cs = (!s.guard.live).toNat
  waiters : s.waiters = (total isCounted cs : ℕ)
  fresh : ∀ c ∈ cs, phase c.2 = .native → (hold c.2).fresh = true
  owner : ∀ c ∈ cs, (postsLeft c.2).isSome = true → (hold c.2).owner = true
  keys : ∀ key ∈ s.keys, key ≠ reservedKey
  /-- There is a packet, posted or to be posted, for every `Get` inside its native call. -/
  enough : ∀ c ∈ cs, ∀ n, postsLeft c.2 = some n →
    total isNative cs ≤ s.packets.countP Completion.reserved + n

section Steps

variable {s s' : Port} {cs : List PPast} {t : ℕ} {c : PPast} {x : PChoice} {i : PInstr} {r : i.Resp}

lemma isNative_le_isCounted (c : PPast) : isNative c ≤ isCounted c := by
  rw [isNative, isCounted]
  split
  · rename_i h
    rw [h]
    decide
  · exact Nat.zero_le _

/-- A step other than the lock's keeps a check of the flag. -/
lemma fresh_act {h : Grip} {a : Guard.Act} (hfresh : h.fresh = true) (hr : a ≠ .rlock)
    (hu : a ≠ .runlock) : (h.act a).fresh = true := by
  cases a with
  | rlock => exact absurd rfl hr
  | runlock => exact absurd rfl hu
  | check closed => simp [Grip.act, hfresh]
  | _ => exact hfresh

/-- The native call of `Get`. -/
def PInstr.isGet : PInstr → Bool
  | .getQueuedCompletionStatus _ => true
  | _ => false

/-- How a step moves a `Get` on. -/
lemma phase_step (hreq : portReq i c) :
    (phase (⟨i, r⟩ :: c.2) = phase c.2) ∨
    ((∃ n, i = .addWaiters n) ∧ phase c.2 ≠ .native ∧ phase (⟨i, r⟩ :: c.2) ≠ .native) ∨
    ((⟨i, r⟩ : Sigma PInstr.Resp) = ⟨.loadClosed, false⟩ ∧ (hold c.2).reading = true ∧
      phase c.2 = .counted ∧ phase (⟨i, r⟩ :: c.2) = .native) ∨
    (i.isGet = true ∧ phase c.2 = .native ∧
      phase (⟨i, r⟩ :: c.2) = .finished) := by
  cases i with
  | addWaiters n =>
    refine .inr (.inl ⟨⟨n, rfl⟩, ?_, ?_⟩)
    · rcases hreq.2 with ⟨-, h⟩ | ⟨-, h | h⟩ <;> rw [h] <;> nofun
    · simp only [phase]
      split <;> nofun
  | loadClosed =>
    cases r with
    | true => exact .inl rfl
    | false =>
      by_cases h : (hold c.2).reading = true ∧ phase c.2 = .counted
      · exact .inr (.inr (.inl ⟨rfl, h.1, h.2, if_pos h⟩))
      · exact .inl (if_neg h)
  | getQueuedCompletionStatus ms => exact .inr (.inr (.inr ⟨rfl, hreq.2, rfl⟩))
  | _ => exact .inl rfl

/-- Only a native `Get` takes a packet out of the port. -/
lemma Port.exec_reserved (hx : s.exec x i = some (s', r)) :
    s.packets.countP Completion.reserved ≤ s'.packets.countP Completion.reserved +
      if i.isGet then 1 else 0 := by
  obtain ⟨s₁, g, hn, -, rfl⟩ := Guard.exec_eq hx
  cases i with
  | getQueuedCompletionStatus ms =>
    rw [show (PInstr.getQueuedCompletionStatus ms).isGet = true from rfl, if_pos rfl]
    simp only [Port.native] at hn
    split at hn
    · rename_i k _
      obtain ⟨pkt, hpkt, heq⟩ := Option.map_eq_some_iff.mp hn
      cases heq
      have hperm := List.getElem_cons_eraseIdx_perm (List.getElem?_eq_some_iff.mp hpkt).1
      have hcount := hperm.countP_eq Completion.reserved
      rw [List.countP_cons] at hcount
      simp only
      split at hcount <;> omega
    · repeat' split at hn
      all_goals cases hn
      all_goals exact Nat.le_succ _
  | postQueuedCompletionStatus pkt =>
    simp only [Port.native] at hn
    split at hn <;> cases hn
    · exact Nat.le_add_right _ _
    · simp only [List.countP_append]
      omega
  | createIoCompletionPort key =>
    simp only [Port.native] at hn
    split at hn <;> cases hn <;> exact Nat.le_add_right _ _
  | _ =>
    cases hn
    exact Nat.le_add_right _ _

lemma Port.exec_post {pkt : Completion} {r : Option Err}
    (hx : s.exec x (.postQueuedCompletionStatus pkt) = some (s', r)) (hpost : x.postErr = none)
    (hreserved : pkt.reserved = true) : s'.packets.countP Completion.reserved =
      s.packets.countP Completion.reserved + 1 := by
  obtain ⟨s₁, g, hn, -, rfl⟩ := Guard.exec_eq hx
  simp only [Port.native, hpost] at hn
  cases hn
  simp [List.countP_append, hreserved]

/-- The answer `false` to a check of `closed` says that there is no `Close` yet. -/
lemma Port.exec_loadClosed {b : Bool} (hx : s.exec x .loadClosed = some (s', b)) :
    s.guard.closed = b := by
  obtain ⟨s₁, g, hn, -, rfl⟩ := Guard.exec_eq hx
  cases hn
  rfl

/-- There is still a packet for every native `Get`, with what there was to post before. -/
lemma PortInv.enough_old (hG : PortInv s cs) (ht : cs[t]? = some c) (hreq : portReq i c)
    (hx : s.exec x i = some (s', r)) {d : PPast} (hd : d ∈ cs) {n : ℕ}
    (hn : postsLeft d.2 = some n) :
    total isNative (cs.set t (c.1, ⟨i, r⟩ :: c.2)) ≤
      s'.packets.countP Completion.reserved + n := by
  have hold := hG.enough d hd n hn
  have hres := Port.exec_reserved hx
  have htotal := total_set (f := isNative) (c.1, ⟨i, r⟩ :: c.2) ht
  simp only [isNative] at htotal
  rcases phase_step (r := r) hreq with h | ⟨⟨m, rfl⟩, h, h'⟩ | ⟨heq, -, -, -⟩ | ⟨hget, h, h'⟩
  · rw [h] at htotal
    cases hget : i.isGet with
    | true =>
      cases i with
      | getQueuedCompletionStatus ms =>
        rw [hreq.2] at h
        cases h
      | _ => cases hget
    | false =>
      rw [hget] at hres
      simp only [Bool.false_eq_true, if_false] at hres
      omega
  · rw [if_neg h, if_neg h'] at htotal
    have hres : _ ≤ _ + 0 := hres
    omega
  · cases heq
    have hclosed := hG.guard.closed_of_owner hd (hG.owner d hd (by rw [hn]; rfl))
    rw [Port.exec_loadClosed hx] at hclosed
    cases hclosed
  · rw [if_pos h, if_neg (by rw [h']; nofun)] at htotal
    rw [if_pos hget] at hres
    omega

lemma PortInv.enough_step (hG : PortInv s cs) (ht : cs[t]? = some c) (hreq : portReq i c)
    (hpost : x.postErr = none) (hx : s.exec x i = some (s', r)) :
    ∀ d ∈ cs.set t (c.1, ⟨i, r⟩ :: c.2), ∀ n, postsLeft d.2 = some n →
      total isNative (cs.set t (c.1, ⟨i, r⟩ :: c.2)) ≤
        s'.packets.countP Completion.reserved + n := by
  have hc := List.mem_of_getElem? ht
  refine forall_mem_set (fun d hd n hn => hG.enough_old ht hreq hx hd hn) fun n hn => ?_
  have htotal := total_set (f := isNative) (c.1, ⟨i, r⟩ :: c.2) ht
  cases i with
  | loadWaiters =>
    -- every native `Get` is counted in what `Close` reads
    obtain ⟨s₁, g, hnat, -, rfl⟩ := Guard.exec_eq hx
    cases hnat
    cases hn
    have hle := total_le_total fun c (_ : c ∈ cs) => isNative_le_isCounted c
    have hsame : isNative (c.1, ⟨.loadWaiters, s.waiters⟩ :: c.2) = isNative c := rfl
    rw [hsame] at htotal
    have hw := hG.waiters
    show _ ≤ _ + s.waiters.toNat
    omega
  | postQueuedCompletionStatus pkt =>
    obtain ⟨n', hn', rfl⟩ := Option.map_eq_some_iff.mp hn
    rcases hreq.2 with ⟨-, hnone⟩ | ⟨hreserved, m, hm⟩
    · rw [hnone] at hn'
      cases hn'
    · cases hm.symm.trans hn'
      have henough := hG.enough c hc _ hm
      have hone := Port.exec_post hx hpost hreserved
      have hsame : isNative (c.1, ⟨.postQueuedCompletionStatus pkt, r⟩ :: c.2) = isNative c := rfl
      rw [hsame] at htotal
      omega
  | _ => exact hG.enough_old ht hreq hx hc hn

lemma PortInv.waiters_step (hG : PortInv s cs) (ht : cs[t]? = some c) (hreq : portReq i c)
    (hx : s.exec x i = some (s', r)) :
    s'.waiters = (total isCounted (cs.set t (c.1, ⟨i, r⟩ :: c.2)) : ℕ) := by
  have htotal := total_set (f := isCounted) (c.1, ⟨i, r⟩ :: c.2) ht
  have hw := hG.waiters
  obtain ⟨s₁, g, hn, -, rfl⟩ := Guard.exec_eq hx
  simp only [isCounted] at htotal
  -- a step that does not change the counter does not change who is counted
  have hkeep : s₁.waiters = s.waiters → (phase (⟨i, r⟩ :: c.2) = .out ↔ phase c.2 = .out) →
      s₁.waiters = (total isCounted (cs.set t (c.1, ⟨i, r⟩ :: c.2)) : ℕ) := fun heq hiff => by
    simp only [hiff] at htotal
    rw [heq, hw]
    omega
  cases i with
  | addWaiters n =>
    cases hn
    rcases hreq.2 with ⟨rfl, h⟩ | ⟨rfl, h⟩
    · rw [h] at htotal
      simp only [phase, if_true, reduceCtorEq, if_false] at htotal
      show s.waiters + 1 = _
      omega
    · have hne : phase c.2 ≠ .out := by
        rcases h with h | h <;> rw [h] <;> nofun
      have hout : phase (⟨.addWaiters (-1), ()⟩ :: c.2) = .out := rfl
      rw [if_neg hne, hout, if_pos rfl] at htotal
      show s.waiters + -1 = _
      omega
  | loadClosed =>
    cases hn
    refine hkeep rfl ?_
    rcases phase_step (r := s.guard.closed) hreq with h | ⟨⟨m, hm⟩, -⟩ | ⟨-, -, h, h'⟩ | ⟨hget, -⟩
    · rw [h]
    · cases hm
    · rw [h, h']
      simp
    · cases hget
  | getQueuedCompletionStatus ms =>
    have hwait : s₁.waiters = s.waiters := by
      simp only [Port.native] at hn
      split at hn
      · obtain ⟨pkt, -, heq⟩ := Option.map_eq_some_iff.mp hn
        cases heq
        rfl
      · repeat' split at hn
        all_goals cases hn
        all_goals rfl
    refine hkeep hwait ?_
    rw [hreq.2]
    simp [phase]
  | createIoCompletionPort key | postQueuedCompletionStatus pkt =>
    simp only [Port.native] at hn
    split at hn <;> cases hn <;> exact hkeep rfl Iff.rfl
  | _ =>
    cases hn
    exact hkeep rfl Iff.rfl

lemma PortInv.fresh_step (hG : PortInv s cs) (hc : c ∈ cs) (hreq : portReq i c)
    (hphase : phase (⟨i, r⟩ :: c.2) = .native) : (hold (⟨i, r⟩ :: c.2)).fresh = true := by
  rcases phase_step (r := r) hreq with h | ⟨-, -, h⟩ | ⟨heq, hreading, -, -⟩ | ⟨-, -, h⟩
  · rw [h] at hphase
    have hfresh := hG.fresh c hc hphase
    refine fresh_act hfresh (fun hact => ?_) fun hact => ?_
    · -- it holds the lock already
      have hmay := hreq.1 r
      rw [hact, Grip.May, (hG.guard.shape hc).1 hfresh] at hmay
      cases hmay
    · cases i with
      | runlock => exact hreq.2 hphase
      | _ => cases hact
  · exact absurd hphase h
  · cases heq
    show (_ || (_ && true)) = true
    rw [hreading, Bool.and_true, Bool.or_true]
  · rw [h] at hphase
    cases hphase

lemma PortInv.owner_step (hG : PortInv s cs) (hc : c ∈ cs) (hreq : portReq i c)
    (hleft : (postsLeft (⟨i, r⟩ :: c.2)).isSome = true) :
    (hold (⟨i, r⟩ :: c.2)).owner = true := by
  refine Grip.owner_act ?_
  cases i with
  | loadWaiters => exact hreq.2
  | postQueuedCompletionStatus pkt =>
    rw [postsLeft, Option.isSome_map] at hleft
    exact hG.owner c hc hleft
  | _ => exact hG.owner c hc hleft

lemma PortInv.closes_step (hG : PortInv s cs) (ht : cs[t]? = some c) (hreq : portReq i c)
    (hx : s.exec x i = some (s', r)) :
    total (fun c => Iocp.closes c.2) (cs.set t (c.1, ⟨i, r⟩ :: c.2)) = (!s'.guard.live).toNat := by
  obtain ⟨s₁, g, -, hg, rfl⟩ := Guard.exec_eq hx
  rw [total_times_set ht, hG.closes]
  cases i with
  | closeHandle =>
    have huse : (hold c.2).May .use := .inr (hreq.1 r).2
    rw [hG.guard.live_of_use (List.mem_of_getElem? ht) huse]
    cases hg
    rfl
  | _ =>
    rw [Guard.live_act hg nofun]
    rfl

lemma PortInv.keys_step (hG : PortInv s cs) (hreq : portReq i c)
    (hx : s.exec x i = some (s', r)) : ∀ key ∈ s'.keys, key ≠ reservedKey := by
  obtain ⟨s₁, g, hn, -, rfl⟩ := Guard.exec_eq hx
  cases i with
  | createIoCompletionPort key =>
    simp only [Port.native] at hn
    split at hn <;> cases hn
    · exact hG.keys
    · exact List.forall_mem_cons.mpr ⟨hreq.2, hG.keys⟩
  | postQueuedCompletionStatus pkt =>
    simp only [Port.native] at hn
    split at hn <;> cases hn <;> exact hG.keys
  | getQueuedCompletionStatus ms =>
    simp only [Port.native] at hn
    split at hn
    · obtain ⟨pkt, -, heq⟩ := Option.map_eq_some_iff.mp hn
      cases heq
      exact hG.keys
    · repeat' split at hn
      all_goals cases hn
      all_goals exact hG.keys
  | _ =>
    cases hn
    exact hG.keys

lemma PortInv.exec (hG : PortInv s cs) (ht : cs[t]? = some c) (hreq : portReq i c)
    (hpost : x.postErr = none) (hx : s.exec x i = some (s', r)) :
    PortInv s' (cs.set t (c.1, ⟨i, r⟩ :: c.2)) where
  guard := by
    obtain ⟨s₁, g, -, hg, rfl⟩ := Guard.exec_eq hx
    exact hG.guard.exec ht (hreq.1 r) hg
  closes := hG.closes_step ht hreq hx
  waiters := hG.waiters_step ht hreq hx
  fresh := forall_mem_set hG.fresh (hG.fresh_step (List.mem_of_getElem? ht) hreq)
  owner := forall_mem_set hG.owner (hG.owner_step (List.mem_of_getElem? ht) hreq)
  keys := hG.keys_step hreq hx
  enough := hG.enough_step ht hreq hpost hx

lemma PortInv.spawn (hG : PortInv s cs) (l : PLabel) : PortInv s (cs ++ [(l, [])]) where
  guard := hG.guard.spawn l
  closes := by rw [total_append]; exact hG.closes
  waiters := by rw [total_append]; exact hG.waiters
  fresh := forall_mem_concat hG.fresh nofun
  owner := forall_mem_concat hG.owner nofun
  keys := hG.keys
  enough := by
    rw [total_append]
    exact forall_mem_concat hG.enough nofun

lemma PortInv.env (hG : PortInv s cs) {pkt : Completion} (hx : s.env pkt = some s') :
    PortInv s' cs := by
  rw [Port.env] at hx
  split at hx <;> cases hx
  refine ⟨hG.guard, hG.closes, hG.waiters, hG.fresh, hG.owner, hG.keys, fun c hc n hn => ?_⟩
  have := hG.enough c hc n hn
  simp only [List.countP_append]
  omega

end Steps

/-! ### Every run -/

/-- Every `PostQueuedCompletionStatus` of the run succeeds. -/
def Posts (es : List PEvent) : Prop := ∀ t x, Event.run t x ∈ es → x.postErr = none

lemma port_sound : Outline.Sound portMachine portOutline PortInv
    (fun _ ev => ∀ t x, ev = .run t x → x.postErr = none) where
  body l₀ l _ hc := port_body l₀ l hc
  exec _ t x _ _ _ _ _ hok ht _ hG hreq hx :=
    ⟨trivial, hG.exec (Outline.ctxs_getElem? ht) hreq (hok t x rfl) hx⟩
  spawn _ l _ _ hG hs := by
    cases l with
    | posting _ _ => cases hs
    | _ =>
      cases hs
      exact ⟨rfl, hG.spawn _⟩
  env _ _ _ _ hG hs := hG.env hs

lemma port_holds {es : List PEvent} (hposts : Posts es) {p : PProcess}
    (hrun : portMachine.run PProcess.init es = some p) : portOutline.Holds PortInv p := by
  have hinit : PortInv {} [] := ⟨Guard.Keeps.init, rfl, rfl, by simp, by simp, by simp, by simp⟩
  refine port_sound.run ⟨hinit, by simp [PProcess.init]⟩ hrun fun es₁ e es₂ _ hes _ t x he => ?_
  subst he hes
  exact hposts t x (by simp)

/-- The calls on the native handle. -/
def PInstr.onHandle : PInstr → Bool
  | .createIoCompletionPort _ | .postQueuedCompletionStatus _ | .getQueuedCompletionStatus _
  | .closeHandle => true
  | _ => false

/-- A `Get` that is past its second check of `closed` and has not finished its native call. -/
def PThread.inNative (th : PThread) : Bool :=
  match th.prog with
  | .op i _ => i.isGet
  | .done _ => false

/-- What `Close` gives: no native call follows `CloseHandle`, which is called at most once, and
after the loop of `Close` there is a reserved packet for every native `Get`. -/
structure PProcess.ClosesSafely (p : PProcess) : Prop where
  native : ∀ th ∈ p.threads, ∀ i k, th.prog = .op i k → i.onHandle = true →
    ∀ th' ∈ p.threads, closes th'.log = 0
  once : total (fun th => closes th.log) p.threads ≤ 1
  looped : ∀ th ∈ p.threads, ∀ k, th.prog = .op .lock k → postsLeft th.log = some 0
  woken : ∀ th ∈ p.threads, postsLeft th.log = some 0 →
    p.threads.countP PThread.inNative ≤ p.shared.packets.countP Completion.reserved

section Holds

variable {p : PProcess} {th : PThread} {i : PInstr} {k : i.Resp → PProg PNext}

lemma total_closes (hp : portOutline.Holds PortInv p) :
    total (fun th => closes th.log) p.threads = (!p.shared.guard.live).toNat := by
  have hcloses := hp.shared.closes
  rw [portOutline, Outline.past_ctxs, total_map] at hcloses
  exact hcloses

lemma may_use_of_onHandle {c : PPast} (hreq : portReq i c) (hi : i.onHandle = true) :
    (hold c.2).May .use := by
  cases i with
  | createIoCompletionPort _ => exact hreq.1 (.ok true)
  | postQueuedCompletionStatus _ => exact hreq.1 none
  | getQueuedCompletionStatus _ => exact hreq.1 ({}, none)
  | closeHandle => exact .inr (hreq.1 none).2
  | _ => cases hi

lemma countP_inNative_le (hp : portOutline.Holds PortInv p) :
    p.threads.countP PThread.inNative ≤ total isNative (portOutline.ctxs p.threads) := by
  rw [portOutline, Outline.past_ctxs, total_map]
  refine countP_le_total fun th hth hin => ?_
  simp only [PThread.inNative] at hin
  split at hin
  · rename_i i k hprog
    cases i with
    | getQueuedCompletionStatus ms => simp [isNative, (hp.past_req hth hprog).2]
    | _ => cases hin
  · cases hin

end Holds

theorem closesSafely_of_run {es : List PEvent} (hposts : Posts es) {p : PProcess}
    (hrun : portMachine.run PProcess.init es = some p) : p.ClosesSafely := by
  have hp := port_holds hposts hrun
  have htotal := total_closes hp
  refine ⟨fun th hth i k hprog hi th' hth' => ?_, ?_, fun th hth k hprog => ?_,
    fun th hth hleft => ?_⟩
  · have hlive := hp.shared.guard.live_of_use (mem_past_ctxs hth)
      (may_use_of_onHandle (hp.past_req hth hprog) hi)
    rw [hlive] at htotal
    exact total_eq_zero_iff.mp htotal th' hth'
  · rw [htotal]
    exact Bool.toNat_le _
  · exact (hp.past_req hth hprog).2
  · exact Nat.le_trans (countP_inNative_le hp) (hp.shared.enough _ (mem_past_ctxs hth) 0 hleft)

/-- A `Get` without a timeout is in its native call when `Close` claims the port and posts. -/
def closeDuringGet : List PEvent :=
  [.spawn (.get (-1)), .run 0 {}, .run 0 {}, .run 0 {}, .run 0 {}, .spawn .close, .run 1 {},
    .run 1 {}, .run 1 {}, .run 1 {}, .run 1 {}]

theorem closesSafely_closeDuringGet : ∃ p : PProcess,
    portMachine.run PProcess.init closeDuringGet = some p ∧
    p.threads.map (fun th => postsLeft th.log) = [none, some 0] ∧
    p.threads.countP PThread.inNative = 1 ∧ p.ClosesSafely := by
  have hmap : (portMachine.run PProcess.init closeDuringGet).map (fun p =>
      (p.threads.map (fun th => postsLeft th.log), p.threads.countP PThread.inNative)) =
      some ([none, some 0], 1) := by decide
  obtain ⟨p, hrun, heq⟩ := Option.map_eq_some_iff.mp hmap
  obtain ⟨hleft, hin⟩ := Prod.mk.inj heq
  refine ⟨p, hrun, hleft, hin, closesSafely_of_run (fun t x hx => ?_) hrun⟩
  simp only [closeDuringGet, List.mem_cons, reduceCtorEq, Event.run.injEq, List.not_mem_nil,
    false_or, or_false] at hx
  rcases hx with h | h | h | h | h | h | h | h | h <;> rw [h.2]

end Ogrenet.Iocp
