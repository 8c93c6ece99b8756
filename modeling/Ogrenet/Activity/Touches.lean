import Ogrenet.Activity.Expiry

/-!
# Touches that overlap

`touch` stores without comparing, so `lastActivityNS` goes back exactly when a touch stores after
one that has read the clock later. In a run without such a step it only grows, and is at least what
every touch that has returned has read.
-/

namespace Ogrenet

open Interleaving

/-- In step `n` touch `t` reads the clock. -/
abbrev AProcess.Reads (c : ActivityClock) (es : List AEvent) (n : ℕ) (p : AProcess) (t : ℕ)
    (v : Int64) : Prop :=
  (clockMachine c).Does (AProcess.init c) es n p t (.touch, []) .sinceBorn v

/-- In step `n` touch `t` stores what it has read. -/
abbrev AProcess.Stores (c : ActivityClock) (es : List AEvent) (n : ℕ) (p : AProcess) (t : ℕ)
    (v : Int64) : Prop :=
  (clockMachine c).Does (AProcess.init c) es n p t (.touch, [⟨.sinceBorn, v⟩]) (.store v) ()

/-- Touch `t` read the clock in step `a` and stores in step `n`. In between touch `u` has read the
clock, in step `b`, and stored, in step `d`. Time had passed between the two reads, and the first of
them was not yet the longest duration. -/
def AProcess.Overtaken (c : ActivityClock) (es : List AEvent) (n : ℕ) : Prop :=
  ∃ t u a b d p q r s v w, a < b ∧ b < d ∧ d < n ∧
    AProcess.Reads c es a p t v ∧ AProcess.Reads c es b q u w ∧ AProcess.Stores c es d r u w ∧
    AProcess.Stores c es n s t v ∧ p.shared.now < q.shared.now ∧
    p.shared.now - c.born < 2 ^ 63 - 1

/-- Some touch has stored `v`. -/
def AProcess.Stored (p : AProcess) (v : Int64) : Prop :=
  ∃ th ∈ p.threads, (⟨.store v, ()⟩ : Sigma AInstr.Resp) ∈ th.log

/-- In this step a touch stores less than one that has stored. -/
def AProcess.StoresLess (p : AProcess) : AEvent → Prop
  | .run t _ => ∃ l v k log w, p.threads[t]? = some ⟨l, .op (.store v) k, log⟩ ∧ p.Stored w ∧
      v.toInt < w.toInt
  | _ => False

section Touches

variable {c : ActivityClock} {es : List AEvent} {p q : AProcess} {ev : AEvent} {n m t : ℕ}

/-- What is stored before a step is stored after it; only `store` adds to it. -/
lemma AProcess.stored_step (hstep : (clockMachine c).step p ev = some q) {w : Int64}
    (hw : q.Stored w) : p.Stored w ∨
      ∃ t x l k log, ev = .run t x ∧ p.threads[t]? = some ⟨l, .op (.store w) k, log⟩ := by
  obtain ⟨th, hth, hmem⟩ := hw
  obtain ⟨t, x, l, i, k, log, s', r, rfl, ht, -, rfl⟩ | ⟨t, x, l, l', log, rfl, ht, rfl⟩ |
    ⟨l, s', rfl, -, rfl⟩ | ⟨x, s', rfl, -, rfl⟩ := (clockMachine c).step_cases hstep
  · rcases List.mem_or_eq_of_mem_set hth with hth | rfl
    · exact .inl ⟨th, hth, hmem⟩
    · rcases List.mem_cons.mp hmem with heq | hmem
      · cases heq
        exact .inr ⟨t, x, l, k, log, rfl, ht⟩
      · exact .inl ⟨_, List.mem_of_getElem? ht, hmem⟩
  · rcases List.mem_or_eq_of_mem_set hth with hth | rfl
    · exact .inl ⟨th, hth, hmem⟩
    · exact .inl ⟨_, List.mem_of_getElem? ht, hmem⟩
  · rcases List.mem_append.mp hth with hth | hth
    · exact .inl ⟨th, hth, hmem⟩
    · cases List.mem_singleton.mp hth
      cases hmem
  · exact .inl ⟨th, hth, hmem⟩

/-- After the `store` of a touch, `lastActivityNS` is what it has stored. -/
lemma AProcess.last_of_store {t : ℕ} {x : ClockWoken} {l : ALabel} {v : Int64}
    {k : Unit → AProg ANext} {log : List (Sigma AInstr.Resp)}
    (ht : p.threads[t]? = some ⟨l, .op (.store v) k, log⟩)
    (hstep : (clockMachine c).step p (.run t x) = some q) : q.shared.lastActivityNS = v := by
  simp only [Machine.step, ht] at hstep
  cases hstep
  rfl

/-- Only a touch stores, and it has read what it stores. -/
lemma AProcess.past_of_store (hp : (clockOutline c).Holds (ClockInv c) p) {l : ALabel} {v : Int64}
    {k : Unit → AProg ANext} {log : List (Sigma AInstr.Resp)}
    (ht : p.threads[t]? = some ⟨l, .op (.store v) k, log⟩) :
    (l, log) = (.touch, [⟨.sinceBorn, v⟩]) := by
  have hreq := (hp.threads _ (List.mem_of_getElem? ht)).1
  rwa [clockOutline, Outline.past_ctx] at hreq

/-- A touch that is about to store has read a time after birth. -/
lemma AProcess.nonneg_of_store (hp : (clockOutline c).Holds (ClockInv c) p) {l : ALabel}
    {v : Int64} {k : Unit → AProg ANext} {log : List (Sigma AInstr.Resp)}
    (ht : p.threads[t]? = some ⟨l, .op (.store v) k, log⟩) : 0 ≤ v.toInt := by
  have hth := List.mem_of_getElem? ht
  cases AProcess.past_of_store hp ht
  refine hp.shared.since (.touch, [⟨.sinceBorn, v⟩]) ?_ v List.mem_cons_self
  rw [clockOutline, Outline.past_ctxs]
  exact List.mem_map_of_mem hth

/-- Nothing stored is forgotten. -/
def AProcess.Kept (p : AProcess) : Prop :=
  ∀ w, p.Stored w → w.toInt ≤ p.shared.lastActivityNS.toInt

lemma AProcess.Kept.step (hkept : p.Kept) (hstep : (clockMachine c).step p ev = some q)
    (hle : p.shared.lastActivityNS.toInt ≤ q.shared.lastActivityNS.toInt) : q.Kept := by
  intro w hw
  rcases AProcess.stored_step hstep hw with hw | ⟨t, x, l, k, log, rfl, ht⟩
  · exact Int.le_trans (hkept w hw) hle
  · exact Int.le_of_eq (congrArg Int64.toInt (AProcess.last_of_store ht hstep)).symm

/-- The last activity goes back exactly in a step that stores less. -/
lemma AProcess.Kept.le_iff (hp : (clockOutline c).Holds (ClockInv c) p) (hkept : p.Kept)
    (hstep : (clockMachine c).step p ev = some q) :
    p.shared.lastActivityNS.toInt ≤ q.shared.lastActivityNS.toInt ↔ ¬ p.StoresLess ev := by
  constructor
  · intro hle hover
    cases ev with
    | run t x =>
      obtain ⟨l, v, k, log, w, ht, hw, hlt⟩ := hover
      rw [AProcess.last_of_store ht hstep] at hle
      have := hkept w hw
      omega
    | spawn l => exact hover
    | env e => exact hover
  · intro hover
    rcases AProcess.last_step hstep with h | ⟨t, x, l, k, log, rfl, ht⟩
    · exact Int.le_of_eq (congrArg Int64.toInt h).symm
    · rcases hp.shared.last with h | ⟨past, hpast, hmem⟩
      · rw [h, Int64.toInt_zero]
        exact AProcess.nonneg_of_store hp ht
      · by_contra hlt
        refine hover ⟨l, _, k, log, _, ht, ?_, Int.not_le.mp hlt⟩
        rw [clockOutline, Outline.past_ctxs] at hpast
        obtain ⟨th, hth, rfl⟩ := List.mem_map.mp hpast
        exact ⟨th, hth, hmem⟩

/-! ### The order of the steps -/

lemma AProcess.init_log (th) (hth : th ∈ (AProcess.init c).threads) : th.log = [] := by
  cases List.mem_singleton.mp hth
  rfl

lemma AProcess.now_step (hstep : (clockMachine c).step p ev = some q) :
    p.shared.now ≤ q.shared.now := by
  obtain ⟨t, x, l, i, k, log, s', r, rfl, -, hx, rfl⟩ | ⟨t, x, l, l', log, rfl, -, rfl⟩ |
    ⟨l, s', rfl, hs, rfl⟩ | ⟨x, s', rfl, hs, rfl⟩ := (clockMachine c).step_cases hstep
  · exact (ClockState.exec_now hx).ge
  · exact le_rfl
  · cases l <;> cases hs
    exact le_rfl
  · cases x <;> cases hs
    · exact Int.le_add_of_nonneg_right (Int.natCast_nonneg _)
    · exact le_rfl

/-- Time does not go back between two steps. -/
lemma AProcess.now_le {ev' : AEvent} (hp : (clockMachine c).StepAt (AProcess.init c) es n p ev)
    (hq : (clockMachine c).StepAt (AProcess.init c) es m q ev') (hnm : n ≤ m) :
    p.shared.now ≤ q.shared.now := by
  rcases hnm.lt_or_eq with hlt | rfl
  · obtain ⟨p', hp', hreach⟩ := hp.next hlt hq.2
    refine Machine.reaches_induction (P := fun r : AProcess => p.shared.now ≤ r.shared.now)
      (fun r e r' hr hstep => hr.trans (AProcess.now_step hstep)) ?_ hreach
    exact AProcess.now_step hp'
  · cases hp.2.symm.trans hq.2
    exact le_rfl

lemma AProcess.Reads.toInt_eq {v : Int64} (h : AProcess.Reads c es n p t v) :
    v.toInt = max (-2 ^ 63) (min (2 ^ 63 - 1) (p.shared.now - c.born)) := by
  obtain ⟨_, _, _, -, -, hx⟩ := h
  cases hx
  exact toInt_duration

/-- A touch stores less exactly when it is overtaken. -/
lemma AProcess.storesLess_iff (hn : (clockMachine c).StepAt (AProcess.init c) es n p ev) :
    p.StoresLess ev ↔ AProcess.Overtaken c es n := by
  constructor
  · intro hless
    cases ev with
    | run t x =>
      obtain ⟨l, v, k, log, w, ht, ⟨⟨l', prog, log'⟩, hth, hmem⟩, hlt⟩ := hless
      cases AProcess.past_of_store (clock_run hn.2) ht
      obtain ⟨a, pa, -, ha⟩ :=
        Machine.exists_does_before AProcess.init_log hn ht (List.nil_append _).symm
      obtain ⟨u, hu⟩ := List.getElem?_of_mem hth
      obtain ⟨newer, older, hlog⟩ := List.append_of_mem hmem
      obtain ⟨d, pd, hd, hstore⟩ :=
        Machine.exists_does_before AProcess.init_log hn hu hlog
      have hstore' := hstore
      obtain ⟨y, k', s', hdstep, hud, -⟩ := hstore'
      have hpast := AProcess.past_of_store (clock_run hdstep.2) hud
      rw [hpast] at hstore
      cases hpast
      obtain ⟨b, pb, hb, hread⟩ :=
        Machine.exists_does_before AProcess.init_log hdstep hud (List.nil_append _).symm
      rw [AProcess.Reads.toInt_eq ha, AProcess.Reads.toInt_eq hread] at hlt
      refine ⟨t, u, a, b, d, pa, pb, pd, p, v, w, ?_, hb, hd, ha, hread, hstore,
        ⟨x, k, _, hn, ht, rfl⟩, by omega, by omega⟩
      by_contra hab
      obtain ⟨_, _, _, hastep, -⟩ := ha
      obtain ⟨_, _, _, hbstep, -⟩ := hread
      have := AProcess.now_le hbstep hastep (Nat.not_lt.mp hab)
      omega
    | spawn l => exact hless.elim
    | env e => exact hless.elim
  · rintro ⟨t, u, a, b, d, pa, pb, pd, pn, v, w, hab, hbd, hd, ha, hb, hstore, hn', hnow, hfits⟩
    obtain ⟨x, k, s', hnstep, ht, -⟩ := hn'
    cases hn.1.symm.trans hnstep.1
    cases hn.2.symm.trans hnstep.2
    obtain ⟨th, hth, -, hlog⟩ := hstore.in_log hd hn.2
    refine ⟨_, v, k, _, w, ht, ⟨th, List.mem_of_getElem? hth, hlog.subset List.mem_cons_self⟩, ?_⟩
    have hborn : (c.born : ℤ) ≤ pa.shared.now := by
      obtain ⟨_, _, _, hastep, -⟩ := ha
      exact (clock_run hastep.2).shared.born
    rw [ha.toInt_eq, hb.toInt_eq]
    omega

/-! ### Whole runs -/

/-- The last activity does not go back in this step. -/
def AProcess.Grows (c : ActivityClock) (p : AProcess) (ev : AEvent) : Prop :=
  ∀ q, (clockMachine c).step p ev = some q →
    p.shared.lastActivityNS.toInt ≤ q.shared.lastActivityNS.toInt

variable (c) in
/-- The last activity does not go back in any step of the run. -/
def AProcess.NeverDecreases (es : List AEvent) : Prop :=
  ∀ n (p : AProcess) ev, (clockMachine c).StepAt (AProcess.init c) es n p ev → p.Grows c ev

lemma AProcess.kept_run (hrun : (clockMachine c).run (AProcess.init c) es = some p)
    (h : ∀ n (q : AProcess) ev, (clockMachine c).StepAt (AProcess.init c) es n q ev →
      q.Kept → q.Grows c ev) :
    p.Kept := by
  refine Machine.run_induction (fun (q : AProcess) ev => q.Kept → q.Grows c ev)
    (fun q ev r hkept hok hstep => hkept.step hstep (hok hkept r hstep)) ?_ hrun ?_
  · rintro w ⟨th, hth, hmem⟩
    rw [AProcess.init_log th hth] at hmem
    cases hmem
  · intro es₁ ev es₂ r hes hr
    subst hes
    exact h es₁.length r ev (Machine.stepAt_append hr)

/-- Where nothing stored is forgotten, a step that is not overtaken forgets nothing. -/
lemma AProcess.Kept.grows_of_not_overtaken
    (hn : (clockMachine c).StepAt (AProcess.init c) es n p ev) (hkept : p.Kept)
    (h : ¬ AProcess.Overtaken c es n) : p.Grows c ev := fun _ hstep =>
  (hkept.le_iff (clock_run hn.2) hstep).mpr (mt (AProcess.storesLess_iff hn).mp h)

end Touches

theorem touches_kept_iff {c : ActivityClock} {es : List AEvent} {p : AProcess}
    (hrun : (clockMachine c).run (AProcess.init c) es = some p) :
    (AProcess.NeverDecreases c es ↔ ∀ n, ¬ AProcess.Overtaken c es n) ∧
    ((∀ n, ¬ AProcess.Overtaken c es n) →
      ∀ v log, ⟨.touch, .done (.ret ()), log⟩ ∈ p.threads → ⟨.sinceBorn, v⟩ ∈ log →
        v.toInt ≤ p.shared.lastActivityNS.toInt) := by
  refine ⟨⟨fun hgrows n hover => ?_, fun h n q ev hn => ?_⟩, fun h v log hth hmem => ?_⟩
  · have hover' := hover
    obtain ⟨t, _, _, _, _, _, _, _, q, v, _, -, -, -, -, -, -, ⟨x, k, s', hn, -⟩, -⟩ := hover'
    have hkept : AProcess.Kept q := AProcess.kept_run hn.2 fun m r ev hm _ =>
      hgrows m r ev hm.of_take.2
    obtain ⟨q', hstep, -⟩ := hn.last hrun
    have hless := (hkept.le_iff (clock_run hn.2) hstep).mp (hgrows n q _ hn q' hstep)
    exact hless ((AProcess.storesLess_iff hn).mpr hover)
  · have hkept : AProcess.Kept q := AProcess.kept_run hn.2 fun m r ev hm hkept =>
      hkept.grows_of_not_overtaken hm.of_take.2 (h m)
    exact hkept.grows_of_not_overtaken hn (h n)
  · have hpost := (clock_run hrun).threads _ hth
    rw [clockOutline, Outline.past_ctx] at hpost
    obtain ⟨w, rfl⟩ := hpost rfl
    have hv : v = w := by simpa using hmem
    subst hv
    refine AProcess.kept_run hrun (fun m r ev hm hkept => ?_) v ⟨_, hth, by simp⟩
    exact hkept.grows_of_not_overtaken hm (h m)

/-- What each goroutine has left to do and has read of the clock. -/
def AProcess.reads (p : AProcess) : List (Bool × List ℤ) :=
  p.threads.map fun th => (th.prog matches .done (.ret ()), th.log.filterMap fun a =>
    match a with
    | ⟨.sinceBorn, v⟩ => some v.toInt
    | _ => none)

/-- Two touches in turn. -/
def AProcess.inTurn : List AEvent := List.flatten [
    .spawn .touch :: .env (.advance 1) :: List.replicate 3 (.run 1 .timer),
    .spawn .touch :: .env (.advance 2) :: List.replicate 3 (.run 2 .timer)]

theorem touches_kept_inTurn : ∃ p : AProcess,
    (clockMachine (.ofIdle 5)).run (AProcess.init (.ofIdle 5)) AProcess.inTurn = some p ∧
      p.reads = [(false, []), (true, [1]), (true, [3])] ∧ p.shared.lastActivityNS.toInt = 3 ∧
      (AProcess.NeverDecreases (.ofIdle 5) AProcess.inTurn ↔
        ∀ n, ¬ AProcess.Overtaken (.ofIdle 5) AProcess.inTurn n) := by
  have hrun : ((clockMachine (.ofIdle 5)).run (AProcess.init (.ofIdle 5)) AProcess.inTurn).map
      (fun p : AProcess => (p.reads, p.shared.lastActivityNS.toInt)) =
      some ([(false, []), (true, [1]), (true, [3])], 3) := by decide
  obtain ⟨p, hp, hobs⟩ := Option.map_eq_some_iff.mp hrun
  obtain ⟨hreads, hlast⟩ := Prod.mk.inj hobs
  exact ⟨p, hp, hreads, hlast, (touches_kept_iff hp).1⟩

/-- The second of two touches reads later and stores first. -/
def AProcess.overlapping : List AEvent :=
  [.spawn .touch, .spawn .touch, .env (.advance 1), .run 1 .timer, .env (.advance 2),
    .run 2 .timer, .run 2 .timer, .run 2 .timer, .run 1 .timer]

theorem touches_forgotten :
    ((clockMachine (.ofIdle 5)).run (AProcess.init (.ofIdle 5)) AProcess.overlapping).map
      (fun p : AProcess => (p.reads, p.shared.lastActivityNS.toInt)) =
      some ([(false, []), (false, [1]), (true, [3])], 1) := by
  decide

end Ogrenet
