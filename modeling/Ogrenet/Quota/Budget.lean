import Ogrenet.Quota.Machine

/-!
# The byte budgets are exact

Each budget has counted exactly what the calls have reserved and not yet given back, never more than
its limit, a call that fails leaves nothing behind, and nobody waits on an open channel for bytes
that are there.
-/

namespace Ogrenet

open Interleaving Interleaving.Prog

/-! ### What the calls have done -/

abbrev QStep := Sigma QInstr.Resp

namespace QStep

/-- The bytes that a step reserves in a budget. -/
def reserves (b : Budget) : QStep → ℕ
  | ⟨.acquireSection b' n, none⟩ => if b' = b then n else 0
  | ⟨.tryAcquire b' n, true⟩ => if b' = b then n else 0
  | _ => 0

/-- The bytes that a step gives back to a budget. -/
def frees (b : Budget) : QStep → ℕ
  | ⟨.release b' n, _⟩ => if b' = b then n else 0
  | _ => 0

end QStep

open QStep

/-- A call on the budget of session `k` for `n` bytes: what it has reserved there and in the shared
budget, and the channel it waits on. -/
structure QuotaCtx where
  k : ℕ
  n : ℕ
  loc : ℕ := 0
  glob : ℕ := 0
  parked : Option (Budget × ℕ) := none
  log : List QStep := []

namespace QuotaCtx

/-- What the call has reserved in a budget. -/
def held (c : QuotaCtx) : Budget → ℕ
  | .session j => if c.k = j then c.loc else 0
  | .shared => c.glob

def setHeld (c : QuotaCtx) (v : ℕ) : Budget → QuotaCtx
  | .session _ => { c with loc := v }
  | .shared => { c with glob := v }

def effect (c : QuotaCtx) : QStep → QuotaCtx
  | ⟨.acquireSection b n, none⟩ => c.setHeld (c.held b + n) b
  | ⟨.acquireSection b _, some g⟩ => { c with parked := some (b, g) }
  | ⟨.tryAcquire b n, true⟩ => c.setHeld (c.held b + n) b
  | ⟨.release b n, _⟩ => c.setHeld (c.held b - n) b
  | ⟨.await _ _, _⟩ => { c with parked := none }
  | _ => c

def upd (i : QInstr) (r : i.Resp) (c : QuotaCtx) : QuotaCtx :=
  { c.effect ⟨i, r⟩ with log := ⟨i, r⟩ :: c.log }

/-- The budgets of the call. -/
def uses (c : QuotaCtx) : Budget → Prop
  | .session j => j = c.k
  | .shared => True

/-- A call works on its own budgets, gives back no more than it has, and waits where it was told. -/
def req : QInstr → QuotaCtx → Prop
  | .acquireSection b n, c => c.uses b ∧ n = c.n ∧ c.parked = none
  | .tryAcquire b _, c => c.uses b
  | .release b n, c => c.uses b ∧ n ≤ c.held b
  | .await b g, c => c.parked = some (b, g)

/-- The call has reserved `loc` and `glob` bytes and does not wait. -/
structure Has (c : QuotaCtx) (k n loc glob : ℕ) : Prop where
  k : c.k = k
  n : c.n = n
  loc : c.loc = loc
  glob : c.glob = glob
  parked : c.parked = none

lemma Has.held {c : QuotaCtx} {k n loc glob : ℕ} (h : c.Has k n loc glob) :
    c.held (.session k) = loc := (if_pos h.k).trans h.loc

end QuotaCtx

/-- What a call has reserved where its loops begin. -/
def QLabel.has (cfg : QuotaConfig) : QLabel → QuotaCtx → Prop
  | .acquire k n, c | .tryAcquire k n, c | .acquireLocal k n, c => c.Has k n 0 0
  | .acquireGlobal k n, c => c.Has k n n 0
  | .release k n, c => c.Has k n n (if Quota.unlimited cfg n then 0 else n)

def QLabel.start : QLabel → QuotaCtx
  | .acquire k n | .tryAcquire k n | .acquireLocal k n | .acquireGlobal k n | .release k n =>
    { k, n }

def quotaOutline (cfg : QuotaConfig) :
    Outline QInstr QInstr.Resp QLabel (Option Err) QuotaCtx where
  start := QLabel.start
  upd := QuotaCtx.upd
  req := QuotaCtx.req
  ans _ _ _ := True
  pre := QLabel.has cfg
  post _ _ c := c.loc = 0 ∧ c.glob = 0 ∧ c.parked = none

section Programs

variable {cfg : QuotaConfig} {l₀ : QLabel} {k n : ℕ} {c : QuotaCtx}

lemma wp_releaseLocal {Q : Unit → QuotaCtx → Prop} {loc glob : ℕ} (h : c.Has k n loc glob)
    (hle : n ≤ loc) (hQ : ∀ c' : QuotaCtx, c'.Has k n (loc - n) glob → Q () c') :
    (quotaOutline cfg).wp (Quota.releaseLocal k n) Q c := by
  unfold Quota.releaseLocal
  split
  · rename_i hn
    subst hn
    exact hQ c h
  · refine ⟨⟨h.k.symm, h.held ▸ hle⟩, fun _ _ => hQ _ ⟨h.k, h.n, ?_, h.glob, h.parked⟩⟩
    exact congrArg (· - n) h.held

lemma wp_undoLocal (h : c.Has k n n 0) (err : Err) :
    (quotaOutline cfg).wp (Quota.undoLocal k n err) ((quotaOutline cfg).ends l₀) c := by
  refine (Outline.wp_bind (Quota.releaseLocal k n) _ _ _).mpr (wp_releaseLocal h (Nat.le_refl n) ?_)
  exact fun c' h' => ⟨h'.loc.trans (Nat.sub_self n), h'.glob, h'.parked⟩

lemma wp_acquireLocal (h : c.Has k n 0 0) :
    (quotaOutline cfg).wp (Quota.acquireLocal k n) ((quotaOutline cfg).ends l₀) c := by
  refine ⟨⟨h.k.symm, h.n.symm, h.parked⟩, ?_⟩
  rintro (_ | g) -
  · refine ⟨h.k, h.n, ?_, h.glob, h.parked⟩
    exact (congrArg (· + n) h.held).trans (Nat.zero_add n)
  · refine ⟨rfl, ?_⟩
    rintro (err | _ | _) -
    · exact ⟨h.loc, h.glob, rfl⟩
    · exact ⟨h.loc, h.glob, rfl⟩
    · exact ⟨h.k, h.n, h.loc, h.glob, rfl⟩

lemma wp_acquireGlobal (h : c.Has k n n 0) :
    (quotaOutline cfg).wp (Quota.acquireGlobal cfg k n) ((quotaOutline cfg).ends l₀) c := by
  unfold Quota.acquireGlobal
  split
  · rename_i hun
    exact ⟨h.k, h.n, h.loc, h.glob.trans (if_pos hun).symm, h.parked⟩
  · rename_i hun
    split
    · exact wp_undoLocal h _
    · refine ⟨⟨trivial, h.n.symm, h.parked⟩, ?_⟩
      rintro (_ | g) -
      · refine ⟨h.k, h.n, h.loc, ?_, h.parked⟩
        rw [if_neg hun]
        exact (congrArg (· + n) h.glob).trans (Nat.zero_add n)
      · refine ⟨rfl, ?_⟩
        rintro (err | _ | _) -
        · refine wp_undoLocal ?_ _
          exact ⟨h.k, h.n, h.loc, h.glob, rfl⟩
        · refine wp_undoLocal ?_ _
          exact ⟨h.k, h.n, h.loc, h.glob, rfl⟩
        · exact ⟨h.k, h.n, h.loc, h.glob, rfl⟩

lemma wp_tryAcquire (h : c.Has k n 0 0) :
    (quotaOutline cfg).wp (Quota.tryAcquire cfg k n) ((quotaOutline cfg).ends l₀) c := by
  unfold Quota.tryAcquire
  split
  · exact ⟨h.loc, h.glob, h.parked⟩
  · refine ⟨h.k.symm, ?_⟩
    rintro (_ | _) -
    · exact ⟨h.loc, h.glob, h.parked⟩
    · have hloc : QuotaCtx.Has (c.upd (.tryAcquire (.session k) n) true) k n n 0 :=
        ⟨h.k, h.n, (congrArg (· + n) h.held).trans (Nat.zero_add n), h.glob, h.parked⟩
      show (quotaOutline cfg).wp (if _ then _ else _) _ _
      split
      · rename_i hun
        exact ⟨hloc.k, hloc.n, hloc.loc, hloc.glob.trans (if_pos hun).symm, hloc.parked⟩
      · rename_i hun
        split
        · exact wp_undoLocal hloc _
        · refine ⟨trivial, ?_⟩
          rintro (_ | _) -
          · refine wp_undoLocal ?_ _
            exact ⟨h.k, h.n, hloc.loc, h.glob, h.parked⟩
          · refine ⟨h.k, h.n, hloc.loc, ?_, h.parked⟩
            rw [if_neg hun]
            exact (congrArg (· + n) h.glob).trans (Nat.zero_add n)

lemma wp_releaseBoth (h : c.Has k n n (if Quota.unlimited cfg n then 0 else n)) :
    (quotaOutline cfg).wp (Quota.release cfg k n) ((quotaOutline cfg).ends l₀) c := by
  refine (Outline.wp_bind (Quota.releaseLocal k n) _ _ _).mpr
    (wp_releaseLocal h (Nat.le_refl n) fun c' h' => ?_)
  have hloc := h'.loc.trans (Nat.sub_self n)
  show (quotaOutline cfg).wp (if _ then _ else _) _ _
  split
  · rename_i hun
    exact ⟨hloc, h'.glob.trans (if_pos hun), h'.parked⟩
  · rename_i hun
    have hglob := h'.glob.trans (if_neg hun)
    refine ⟨⟨trivial, Nat.le_of_eq hglob.symm⟩, fun _ _ => ⟨hloc, ?_, h'.parked⟩⟩
    exact (congrArg (· - n) hglob).trans (Nat.sub_self n)

end Programs

lemma quotaOutline_body (cfg : QuotaConfig) (l₀ l : QLabel) (c : QuotaCtx)
    (h : (quotaOutline cfg).pre l c) :
    (quotaOutline cfg).wp (l.body cfg) ((quotaOutline cfg).ends l₀) c := by
  cases l with
  | acquire k n =>
    show (quotaOutline cfg).wp (if _ then _ else _) _ _
    split
    · exact ⟨h.loc, h.glob, h.parked⟩
    · exact h
  | tryAcquire k n => exact wp_tryAcquire h
  | acquireLocal k n => exact wp_acquireLocal h
  | acquireGlobal k n => exact wp_acquireGlobal h
  | release k n => exact wp_releaseBoth h

/-! ### The invariant -/

section QuotaState

variable {s : QuotaState} {q q' : ByteQuota} {b b' : Budget}

lemma QuotaState.get_put_self (h : s.get b = some q) : (s.put q' b).get b = some q' := by
  cases b with
  | session k => exact List.getElem?_set_self (List.getElem?_eq_some_iff.mp h).1
  | shared => rfl

lemma QuotaState.get_put_ne (hb : b' ≠ b) : (s.put q' b).get b' = s.get b' := by
  cases b with
  | session k =>
    cases b' with
    | session j =>
      refine List.getElem?_set_ne fun hkj => hb ?_
      rw [hkj]
    | shared => rfl
  | shared =>
    cases b' with
    | session j => rfl
    | shared => exact absurd rfl hb

variable {c : QuotaCtx} {v : ℕ}

lemma QuotaCtx.held_setHeld_self (hu : c.uses b) : (c.setHeld v b).held b = v := by
  cases b with
  | session j => exact if_pos (Eq.symm hu)
  | shared => rfl

lemma QuotaCtx.held_setHeld_ne (hu : c.uses b) (hb : b' ≠ b) :
    (c.setHeld v b).held b' = c.held b' := by
  cases b with
  | session j =>
    cases b' with
    | session j' =>
      have hne : c.k ≠ j' := fun hk => hb (by rw [← hk, ← show j = c.k from hu])
      exact (if_neg hne).trans (if_neg hne).symm
    | shared => rfl
  | shared =>
    cases b' with
    | session j => rfl
    | shared => exact absurd rfl hb

lemma QuotaCtx.n_setHeld : (c.setHeld v b).n = c.n := by cases b <;> rfl

lemma QuotaCtx.parked_setHeld : (c.setHeld v b).parked = c.parked := by cases b <;> rfl

lemma QuotaCtx.n_effect (a : QStep) : (c.effect a).n = c.n := by
  unfold effect
  split <;> first | rfl | exact n_setHeld

/-- What a step does to the reservations of the call. -/
lemma QuotaCtx.held_upd {i : QInstr} (r : i.Resp) (hreq : c.req i) (b : Budget) :
    (c.upd i r).held b + frees b ⟨i, r⟩ = c.held b + reserves b ⟨i, r⟩ := by
  have hself {b' : Budget} {v : ℕ} (hu : c.uses b') (hb : b' = b) : (c.setHeld v b').held b = v :=
    hb ▸ held_setHeld_self hu
  cases i with
  | acquireSection b' n =>
    cases r with
    | none =>
      show (c.setHeld (c.held b' + n) b').held b + 0 = c.held b + if b' = b then n else 0
      by_cases hb : b' = b
      · rw [hself hreq.1 hb, if_pos hb, hb, Nat.add_zero]
      · rw [held_setHeld_ne hreq.1 (Ne.symm hb), if_neg hb]
    | some g => cases b <;> rfl
  | tryAcquire b' n =>
    cases r with
    | true =>
      show (c.setHeld (c.held b' + n) b').held b + 0 = c.held b + if b' = b then n else 0
      by_cases hb : b' = b
      · rw [hself hreq hb, if_pos hb, hb, Nat.add_zero]
      · rw [held_setHeld_ne hreq (Ne.symm hb), if_neg hb]
    | false => cases b <;> rfl
  | release b' n =>
    show (c.setHeld (c.held b' - n) b').held b + (if b' = b then n else 0) = c.held b + 0
    by_cases hb : b' = b
    · rw [hself hreq.1 hb, if_pos hb, ← hb]
      exact Nat.sub_add_cancel hreq.2
    · rw [held_setHeld_ne hreq.1 (Ne.symm hb), if_neg hb]
  | await b' g => cases b <;> rfl

end QuotaState

/-- The budgets have counted what the calls have reserved, and who waits does not fit. -/
structure Budgeted (s : QuotaState) (cs : List QuotaCtx) : Prop where
  counts : ∀ b q, s.get b = some q → q.Counts (total (·.held b) cs)
  waits : ∀ c ∈ cs, ∀ b g, c.parked = some (b, g) → ∀ q, s.get b = some q → q.Waits g c.n
  books : ∀ c ∈ cs, ∀ b, total (reserves b) c.log = total (frees b) c.log + c.held b

namespace Budgeted

variable {s s' : QuotaState} {cs : List QuotaCtx} {t : ℕ} {c : QuotaCtx} {x : Woken} {i : QInstr}
  {r : i.Resp}

/-- A section of one budget by a call that uses it. -/
lemma put (h : Budgeted s cs) (hc : cs[t]? = some c) {b : Budget} {q q' : ByteQuota}
    (hq : s.get b = some q) {c' : QuotaCtx} (hheld : ∀ b' ≠ b, c'.held b' = c.held b')
    (hcounts : q'.Counts (total (·.held b) (cs.set t c')))
    (hwaits : ∀ g m, q.Waits g m → q'.Waits g m) (hn : c'.n = c.n)
    (hparked : c'.parked = c.parked ∨ ∃ g, c'.parked = some (b, g) ∧ q'.Waits g c.n)
    (hbooks : ∀ b, total (reserves b) c'.log = total (frees b) c'.log + c'.held b) :
    Budgeted (s.put q' b) (cs.set t c') := by
  -- who waited waits on
  have hold {d : QuotaCtx} (hd : d ∈ cs) {b' : Budget} {g : ℕ} (hp : d.parked = some (b', g))
      {q₁ : ByteQuota} (hq₁ : (s.put q' b).get b' = some q₁) : q₁.Waits g d.n := by
    by_cases hb : b' = b
    · subst hb
      rw [QuotaState.get_put_self hq] at hq₁
      cases hq₁
      exact hwaits _ _ (h.waits d hd _ g hp q hq)
    · rw [QuotaState.get_put_ne hb] at hq₁
      exact h.waits d hd b' g hp q₁ hq₁
  refine ⟨fun b' q₁ hq₁ => ?_, ?_, forall_mem_set h.books hbooks⟩
  · by_cases hb : b' = b
    · subst hb
      rw [QuotaState.get_put_self hq] at hq₁
      cases hq₁
      exact hcounts
    · rw [QuotaState.get_put_ne hb] at hq₁
      rw [total_set_eq hc (hheld b' hb)]
      exact h.counts b' q₁ hq₁
  · refine forall_mem_set (fun d hd b' g hp q₁ hq₁ => hold hd hp hq₁) fun b' g hp q₁ hq₁ => ?_
    rw [hn]
    rcases hparked with hparked | ⟨g', hparked, hw⟩
    · exact hold (List.mem_of_getElem? hc) (hparked ▸ hp) hq₁
    · rw [hparked] at hp
      cases hp
      rw [QuotaState.get_put_self hq] at hq₁
      cases hq₁
      exact hw

/-- The total of the reservations follows the step. -/
lemma total_upd (hc : cs[t]? = some c) (hreq : c.req i) (b : Budget) :
    total (·.held b) (cs.set t (c.upd i r)) + frees b ⟨i, r⟩ =
      total (·.held b) cs + reserves b ⟨i, r⟩ := by
  have htot := total_set (f := fun c : QuotaCtx => c.held b) (c.upd i r) hc
  have hupd := QuotaCtx.held_upd r hreq b
  omega

lemma books_upd (h : Budgeted s cs) (hc : cs[t]? = some c) (hreq : c.req i) (b : Budget) :
    total (reserves b) (c.upd i r).log =
      total (frees b) (c.upd i r).log + (c.upd i r).held b := by
  have hold := h.books c (List.mem_of_getElem? hc) b
  have hupd := QuotaCtx.held_upd r hreq b
  show total (reserves b) (⟨i, r⟩ :: c.log) = total (frees b) (⟨i, r⟩ :: c.log) + _
  rw [total_cons, total_cons]
  omega

/-- A section of one budget by a call that uses it. -/
lemma section_exec (h : Budgeted s cs) (hc : cs[t]? = some c) (hreq : c.req i) {b : Budget}
    {q q' : ByteQuota} (hq : s.get b = some q)
    (hother : ∀ b' ≠ b, frees b' ⟨i, r⟩ = 0 ∧ reserves b' ⟨i, r⟩ = 0)
    (hcounts : ∀ held held', q.Counts held →
      held' + frees b ⟨i, r⟩ = held + reserves b ⟨i, r⟩ → q'.Counts held')
    (hwaits : ∀ g m, q.Waits g m → q'.Waits g m)
    (hparked : (c.upd i r).parked = c.parked ∨
      ∃ g, (c.upd i r).parked = some (b, g) ∧ q'.Waits g c.n) :
    Budgeted (s.put q' b) (cs.set t (c.upd i r)) := by
  refine h.put hc hq (fun b' hb => ?_) ?_ hwaits (QuotaCtx.n_effect _) hparked fun b' =>
    h.books_upd hc hreq b'
  · have hupd := QuotaCtx.held_upd r hreq b'
    rw [(hother b' hb).1, (hother b' hb).2] at hupd
    exact hupd
  · exact hcounts _ _ (h.counts b q hq) (total_upd hc hreq b)

lemma exec (h : Budgeted s cs) (hc : cs[t]? = some c) (hreq : c.req i)
    (hx : s.exec x i = some (s', r)) : Budgeted s' (cs.set t (c.upd i r)) := by
  cases i with
  | acquireSection b n =>
    obtain ⟨q, hq, heq⟩ := Option.map_eq_some_iff.mp hx
    cases heq
    refine h.section_exec hc hreq hq (fun b' hb => ?_) (fun held held' hcounts heq => ?_)
      (fun g m hw => hw.acquireSection) ?_
    · cases (q.acquireSection n).2 with
      | none => exact ⟨rfl, if_neg (Ne.symm hb)⟩
      | some g => exact ⟨rfl, rfl⟩
    · have hnew := hcounts.acquireSection (n := n)
      cases hr : (q.acquireSection n).2 with
      | none =>
        simp only [hr, frees, reserves, if_true, Nat.add_zero] at heq hnew
        exact heq ▸ hnew
      | some g =>
        simp only [hr, frees, reserves, reduceCtorEq, if_false, Nat.add_zero] at heq hnew
        exact heq ▸ hnew
    · cases hr : (q.acquireSection n).2 with
      | none => exact .inl QuotaCtx.parked_setHeld
      | some g =>
        refine .inr ⟨g, rfl, ?_⟩
        rw [← hreq.2.1]
        exact ByteQuota.waits_of_acquireSection hr
  | tryAcquire b n =>
    obtain ⟨q, hq, heq⟩ := Option.map_eq_some_iff.mp hx
    cases heq
    refine h.section_exec hc hreq hq (fun b' hb => ?_) (fun held held' hcounts heq => ?_)
      (fun g m hw => hw.tryAcquire) (.inl ?_)
    · cases (q.tryAcquire n).2 with
      | true => exact ⟨rfl, if_neg (Ne.symm hb)⟩
      | false => exact ⟨rfl, rfl⟩
    · have hnew := hcounts.tryAcquire (n := n)
      cases hr : (q.tryAcquire n).2 with
      | true =>
        simp only [hr, frees, reserves, if_true, Nat.add_zero] at heq hnew
        exact heq ▸ hnew
      | false =>
        simp only [hr, frees, reserves, Bool.false_eq_true, if_false, Nat.add_zero] at heq hnew
        exact heq ▸ hnew
    · cases (q.tryAcquire n).2 with
      | true => exact QuotaCtx.parked_setHeld
      | false => rfl
  | release b n =>
    obtain ⟨q, hq, heq⟩ := Option.map_eq_some_iff.mp hx
    cases heq
    refine h.section_exec hc hreq hq (fun b' hb => ⟨if_neg (Ne.symm hb), rfl⟩)
      (fun held held' hcounts heq => ?_) (fun g m hw => hw.release) (.inl QuotaCtx.parked_setHeld)
    simp only [frees, reserves, if_true, Nat.add_zero] at heq
    have hnew := hcounts.release (n := n)
    rwa [← heq, Nat.add_sub_cancel] at hnew
  | await b g =>
    have hs : s' = s := by
      cases x with
      | changed =>
        simp only [QuotaState.exec] at hx
        split at hx <;> cases hx
        rfl
      | ctxDone err | closing =>
        cases hx
        rfl
    subst hs
    refine ⟨fun b' q hq => ?_, forall_mem_set h.waits nofun,
      forall_mem_set h.books fun b' => h.books_upd hc hreq b'⟩
    rw [total_set_eq hc (by cases b' <;> rfl)]
    exact h.counts b' q hq

end Budgeted

lemma quotaOutline_sound (cfg : QuotaConfig) :
    (quotaOutline cfg).Sound (quotaMachine cfg) Budgeted fun _ _ => True where
  body := quotaOutline_body cfg
  exec _ _ _ _ _ _ _ _ _ ht _ hG hreq hx := ⟨trivial, hG.exec (Outline.ctxs_getElem? ht) hreq hx⟩
  spawn p l s' _ hG hs := by
    have hnew : ∀ b, (QLabel.start l).held b = 0 := by
      rintro (j | _) <;> cases l <;> first | rfl | exact ite_self 0
    have hG' : Budgeted p.shared ((quotaOutline cfg).ctxs p.threads ++ [QLabel.start l]) := by
      refine ⟨fun b q hq => ?_, forall_mem_concat hG.waits ?_, forall_mem_concat hG.books ?_⟩
      · rw [total_append, total_cons, total_nil, hnew]
        exact hG.counts b q hq
      · cases l <;> exact nofun
      · intro b
        rw [hnew]
        cases l <;> rfl
    cases l with
    | acquire k n | tryAcquire k n =>
      simp only [quotaMachine, QuotaState.spawn] at hs
      split at hs <;> cases hs
      exact ⟨⟨rfl, rfl, rfl, rfl, rfl⟩, hG'⟩
    | acquireLocal k n | acquireGlobal k n | release k n => cases hs
  env _ e _ _ _ _ := e.elim

lemma quota_holds {cfg : QuotaConfig} {p : QProcess} (hp : QuotaReaches cfg p) :
    (quotaOutline cfg).Holds Budgeted p := by
  refine (quotaOutline_sound cfg).reaches ⟨⟨fun b q hq => ?_, ?_, ?_⟩, ?_⟩ hp
  · cases b with
    | session k =>
      obtain ⟨limit, -, rfl⟩ := List.mem_map.mp (List.mem_of_getElem? hq)
      exact ⟨rfl, Nat.zero_le _, nofun, nofun⟩
    | shared =>
      cases hq
      exact ⟨rfl, Nat.zero_le _, nofun, nofun⟩
  · exact fun _ hc => absurd hc List.not_mem_nil
  · exact fun _ hc => absurd hc List.not_mem_nil
  · exact fun _ ht => absurd ht List.not_mem_nil

/-! ### Limits -/

def QuotaConfig.limit (cfg : QuotaConfig) : Budget → Option ℕ
  | .session k => cfg.limits[k]?
  | .shared => some cfg.globalLimit

/-- No section changes a limit. -/
lemma QuotaState.limit_exec {s s' : QuotaState} {x : Woken} {i : QInstr} {r : i.Resp}
    (hx : s.exec x i = some (s', r)) (b : Budget) :
    (s'.get b).map ByteQuota.limit = (s.get b).map ByteQuota.limit := by
  have hput {b' : Budget} {q q' : ByteQuota} (hq : s.get b' = some q) (hl : q'.limit = q.limit) :
      ((s.put q' b').get b).map ByteQuota.limit = (s.get b).map ByteQuota.limit := by
    by_cases hb : b = b'
    · subst hb
      rw [get_put_self hq, hq, Option.map_some, Option.map_some, hl]
    · rw [get_put_ne hb]
  cases i with
  | acquireSection b' n =>
    obtain ⟨q, hq, heq⟩ := Option.map_eq_some_iff.mp hx
    cases heq
    exact hput hq ByteQuota.limit_acquireSection
  | tryAcquire b' n =>
    obtain ⟨q, hq, heq⟩ := Option.map_eq_some_iff.mp hx
    cases heq
    exact hput hq ByteQuota.limit_tryAcquire
  | release b' n =>
    obtain ⟨q, hq, heq⟩ := Option.map_eq_some_iff.mp hx
    cases heq
    exact hput hq ByteQuota.limit_release
  | await b' g =>
    cases x with
    | changed =>
      simp only [exec] at hx
      split at hx <;> cases hx
      rfl
    | ctxDone err | closing =>
      cases hx
      rfl

lemma limit_of_reaches {cfg : QuotaConfig} {p : QProcess} (hp : QuotaReaches cfg p) (b : Budget) :
    (p.shared.get b).map ByteQuota.limit = cfg.limit b := by
  obtain ⟨es, hrun⟩ := hp
  have hinit : ((QProcess.init cfg).shared.get b).map ByteQuota.limit = cfg.limit b := by
    cases b with
    | session k => simp [QProcess.init, QuotaState.get, QuotaConfig.limit, Function.comp_def]
    | shared => rfl
  refine Eq.trans ?_ hinit
  refine (quotaOutline_sound cfg).run_le
    (r := fun s s' => (s'.get b).map ByteQuota.limit = (s.get b).map ByteQuota.limit)
    (fun _ => rfl) (fun _ _ _ h₁ h₂ => h₂.trans h₁) ?_ ?_ (fun _ e => e.elim)
    (quota_holds (.refl _)) hrun fun _ _ _ _ _ _ => trivial
  · intro s cs t c i x s' a _ _ _ hx
    exact QuotaState.limit_exec hx b
  · intro s l s' hs
    cases l with
    | acquire k n | tryAcquire k n =>
      simp only [quotaMachine, QuotaState.spawn] at hs
      split at hs <;> cases hs
      rfl
    | acquireLocal k n | acquireGlobal k n | release k n => cases hs

/-! ### The budgets are exact -/

lemma quotaOutline_ctx_log (cfg : QuotaConfig) (t : QThread) :
    ((quotaOutline cfg).ctx t).log = t.log := by
  obtain ⟨l, prog, log⟩ := t
  induction log with
  | nil => cases l <;> rfl
  | cons a log ih =>
    rw [Outline.ctx_cons l prog prog]
    exact congrArg (a :: ·) ih

/-- The bytes that a call wants. -/
def QLabel.bytes : QLabel → ℕ
  | .acquire _ n | .tryAcquire _ n | .acquireLocal _ n | .acquireGlobal _ n | .release _ n => n

lemma quotaOutline_ctx_n (cfg : QuotaConfig) (t : QThread) :
    ((quotaOutline cfg).ctx t).n = t.entry.bytes := by
  obtain ⟨l, prog, log⟩ := t
  induction log with
  | nil => cases l <;> rfl
  | cons a log ih =>
    rw [Outline.ctx_cons l prog prog]
    exact (QuotaCtx.n_effect _).trans ih

/-- The bytes that a goroutine has reserved in a budget and not given back. -/
def outstanding (b : Budget) (t : QThread) : ℕ := total (reserves b) t.log - total (frees b) t.log

/-- The two levels of the byte budget are exact. -/
structure QProcess.Exact (cfg : QuotaConfig) (p : QProcess) : Prop where
  /-- A budget has counted the outstanding reservations, which are within its limit. -/
  counted : ∀ b limit, cfg.limit b = some limit → ∃ q, p.shared.get b = some q ∧
    q.used = total (outstanding b) p.threads ∧ q.used ≤ limit
  /-- A call gives back no more than it has reserved. -/
  covered : ∀ t ∈ p.threads, ∀ b, total (frees b) t.log ≤ total (reserves b) t.log
  /-- A call that was admitted has reserved its bytes in its session's budget and, unless the shared
  one is unlimited, there. -/
  admitted : ∀ t ∈ p.threads, ∀ k n, t.prog = .done (.goto (.release k n)) →
    n = t.entry.bytes ∧ outstanding (.session k) t = n ∧
      outstanding .shared t = if Quota.unlimited cfg n then 0 else n
  /-- A call that has returned, with an error or after its release, has left nothing behind. -/
  returned : ∀ t ∈ p.threads, ∀ err, t.prog = .done (.ret err) →
    ∀ b, total (reserves b) t.log = total (frees b) t.log
  /-- No release takes a counter below zero. -/
  unclamped : ∀ t ∈ p.threads, ∀ b n k, t.prog = .op (.release b n) k →
    ∀ q, p.shared.get b = some q → n ≤ q.used

theorem byteQuota_exact (cfg : QuotaConfig) (p : QProcess) (hp : QuotaReaches cfg p) :
    p.Exact cfg := by
  obtain ⟨hG, hthreads⟩ := quota_holds hp
  have hbooks {t : QThread} (ht : t ∈ p.threads) (b : Budget) : total (reserves b) t.log =
      total (frees b) t.log + ((quotaOutline cfg).ctx t).held b := by
    rw [← quotaOutline_ctx_log cfg t]
    exact hG.books _ (List.mem_map_of_mem ht) b
  have houtstanding {t : QThread} (ht : t ∈ p.threads) (b : Budget) :
      outstanding b t = ((quotaOutline cfg).ctx t).held b := by
    rw [outstanding, hbooks ht b, Nat.add_sub_cancel_left]
  refine ⟨fun b limit hlimit => ?_, fun t ht b => ?_, fun t ht k n hprog => ?_,
    fun t ht err hret b => ?_, fun t ht b n k hprog q hq => ?_⟩
  · obtain ⟨q, hq, rfl⟩ := Option.map_eq_some_iff.mp ((limit_of_reaches hp b).trans hlimit)
    obtain ⟨hused, hbound, -⟩ := hG.counts b q hq
    refine ⟨q, hq, ?_, hbound⟩
    rw [← hused, Outline.ctxs, total_map]
    exact (total_congr fun t ht => houtstanding ht b).symm
  · rw [hbooks ht b]
    exact Nat.le_add_right _ _
  · have hwp := hthreads t ht
    rw [hprog] at hwp
    have hhas : ((quotaOutline cfg).ctx t).Has k n n (if Quota.unlimited cfg n then 0 else n) := hwp
    refine ⟨?_, (houtstanding ht _).trans hhas.held, (houtstanding ht _).trans hhas.glob⟩
    exact hhas.n.symm.trans (quotaOutline_ctx_n cfg t)
  · have hwp := hthreads t ht
    rw [hret] at hwp
    have hnone : ((quotaOutline cfg).ctx t).held b = 0 := by
      cases b with
      | session j => exact (congrArg (ite _ · 0) hwp.1).trans (ite_self 0)
      | shared => exact hwp.2.1
    rw [hbooks ht b, hnone, Nat.add_zero]
  · have hwp := hthreads t ht
    rw [hprog] at hwp
    rw [← (hG.counts b q hq).used]
    have hctx : (quotaOutline cfg).ctx t ∈ (quotaOutline cfg).ctxs p.threads :=
      List.mem_map_of_mem ht
    exact Nat.le_trans hwp.1.2 (le_total (f := fun c : QuotaCtx => c.held b) hctx)

/-- Session 0 has eight of the twelve shared bytes, so that session 1 gets its own eight back. -/
def QProcess.refused : List (Event QLabel Woken Empty) := List.flatten [
    .spawn (.acquire 0 8) :: List.replicate 4 (.run 0 .changed),
    .spawn (.tryAcquire 1 8) :: List.replicate 3 (.run 1 .changed)]

theorem byteQuota_exact_refused : ∃ p : QProcess,
    (quotaMachine ⟨[10, 10], 12⟩).run (QProcess.init ⟨[10, 10], 12⟩) QProcess.refused = some p ∧
      (p.shared.sessions.map ByteQuota.used) = [8, 0] ∧ p.shared.shared.used = 8 ∧
      p.Exact ⟨[10, 10], 12⟩ := by
  have hrun : (((quotaMachine ⟨[10, 10], 12⟩).run (QProcess.init ⟨[10, 10], 12⟩)
      QProcess.refused).map fun p => (p.shared.sessions.map ByteQuota.used,
        p.shared.shared.used)) = some ([8, 0], 8) := by
    decide
  obtain ⟨p, hp, hobs⟩ := Option.map_eq_some_iff.mp hrun
  simp only [Prod.mk.injEq] at hobs
  exact ⟨p, hp, hobs.1, hobs.2, byteQuota_exact _ p ⟨_, hp⟩⟩

/-! ### No wake-up is lost -/

/-- A channel that someone waits on is open as long as it is the one that the next release closes,
and who waits on an open channel does not fit. -/
theorem byteQuota_no_lost_wakeup (cfg : QuotaConfig) (p : QProcess) (hp : QuotaReaches cfg p) :
    ∀ t ∈ p.threads, ∀ b g k, t.prog = .op (.await b g) k → ∀ q, p.shared.get b = some q →
      (g ∉ q.closed ↔ q.changed = some g) ∧
        (g ∉ q.closed → q.limit < q.used + t.entry.bytes) := by
  intro t ht b g k hprog q hq
  obtain ⟨hG, hthreads⟩ := quota_holds hp
  have hwp := hthreads t ht
  rw [hprog] at hwp
  have hwaits := hG.waits _ (List.mem_map_of_mem ht) b g hwp.1 q hq
  rw [quotaOutline_ctx_n] at hwaits
  have hmade := (hG.counts b q hq).made
  exact ⟨⟨hwaits.current, fun hg => (hmade.1 g hg).1⟩, hwaits.full⟩

/-- Session 1 waits for eight bytes of the shared budget, of which session 0 has all but four. -/
def QProcess.waiting : List (Event QLabel Woken Empty) := List.flatten [
    .spawn (.acquire 0 8) :: List.replicate 4 (.run 0 .changed),
    .spawn (.acquire 1 8) :: List.replicate 4 (.run 1 .changed)]

/-- The goroutines that wait, with their channels. -/
def QProcess.awaits (p : QProcess) : List (ℕ × Option ℕ) :=
  p.threads.map fun t => (t.entry.bytes, match t.prog with
    | .op (.await .shared g) _ => some g
    | _ => none)

theorem byteQuota_no_lost_wakeup_waiting : ∃ p : QProcess,
    (quotaMachine ⟨[10, 10], 12⟩).run (QProcess.init ⟨[10, 10], 12⟩) QProcess.waiting = some p ∧
      p.awaits = [(8, none), (8, some 0)] ∧ p.shared.shared.closed = [] ∧
      ∀ t ∈ p.threads, ∀ b g k, t.prog = .op (.await b g) k → ∀ q, p.shared.get b = some q →
        (g ∉ q.closed ↔ q.changed = some g) ∧
          (g ∉ q.closed → q.limit < q.used + t.entry.bytes) := by
  have hrun : (((quotaMachine ⟨[10, 10], 12⟩).run (QProcess.init ⟨[10, 10], 12⟩)
      QProcess.waiting).map fun p => (QProcess.awaits p, p.shared.shared.closed)) =
      some ([(8, none), (8, some 0)], []) := by
    decide
  obtain ⟨p, hp, hobs⟩ := Option.map_eq_some_iff.mp hrun
  simp only [Prod.mk.injEq] at hobs
  exact ⟨p, hp, hobs.1, hobs.2, byteQuota_no_lost_wakeup _ p ⟨_, hp⟩⟩

end Ogrenet
