import Ogrenet.Activity.Deadline
import Ogrenet.Interleaving.Schedule

/-!
# Runs of the activity clock

The watchdog reads its deadline again when the timer has fired, and calls `expire` only when that
deadline has passed. A touch reads the clock and stores what it has read in two steps, so of two
touches that overlap the one that has read earlier may store last.
-/

namespace Ogrenet

open Interleaving

/-- Which of the two a goroutine of the clock is and what it has done. -/
abbrev APast := Outline.Past ALabel AInstr.Resp

/-- The deadline that was read last has passed at the time that was read after it. -/
def Expired (c : ActivityClock) (kind : Option TimeoutKind) (log : List (Sigma AInstr.Resp)) :
    Prop :=
  ∃ (n : ℤ) (last : Int64) (older : List (Sigma AInstr.Resp)),
    log = ⟨.timeNow, n⟩ :: older ∧
    (0 < c.connectionIdle → ∃ older', older = ⟨.load, last⟩ :: older') ∧
    (c.nextDeadline last).2 = kind ∧ (c.nextDeadline last).1 ≤ n

def clockReq (c : ActivityClock) : AInstr → APast → Prop
  | .store ns, past => past = (.touch, [⟨.sinceBorn, ns⟩])
  | .expire kind, past => Expired c kind past.2
  | _, _ => True

/-- The outline of the two goroutines. -/
def clockOutline (c : ActivityClock) : Outline AInstr AInstr.Resp ALabel Unit APast :=
  .past (clockReq c) (fun _ _ _ => True) (fun l past => past.1 = l ∧ (l = .touch → past.2 = []))
    fun _ past => past.1 = .touch →
      ∃ v, past.2 = [⟨.signal, ()⟩, ⟨.store v, ()⟩, ⟨.sinceBorn, v⟩]

section Programs

variable {c : ActivityClock} {l : ALabel} {log : List (Sigma AInstr.Resp)}

lemma wp_nextDeadline {Q : ℤ × Option TimeoutKind → APast → Prop}
    (hload : 0 < c.connectionIdle →
      ∀ last, Q (c.nextDeadline last) (l, ⟨.load, last⟩ :: log))
    (hskip : ¬ 0 < c.connectionIdle → Q (c.nextDeadline 0) (l, log)) :
    (clockOutline c).wp (Clock.nextDeadline c) Q (l, log) := by
  simp only [Clock.nextDeadline]
  split
  · rename_i hidle
    exact ⟨trivial, fun last _ => hload hidle last⟩
  · exact hskip ‹_›

lemma wp_nextDeadline_of_forall {Q : ℤ × Option TimeoutKind → APast → Prop}
    (hQ : ∀ next log', Q next (l, log')) : (clockOutline c).wp (Clock.nextDeadline c) Q (l, log) :=
  wp_nextDeadline (fun _ _ => hQ _ _) fun _ => hQ _ _

/-- The round up to the call of `expire`. -/
lemma wp_checkExpired {log : List (Sigma AInstr.Resp)} :
    (clockOutline c).wp (do
      let current ← Clock.nextDeadline c
      let now ← Clock.timeNow
      if current.1 ≤ now then
        Clock.expire current.2
        return .ret ()
      else return .goto .run : AProg ANext) ((clockOutline c).ends .run) (.run, log) := by
  have hrest : ∀ last log', (0 < c.connectionIdle → ∃ older', log' = ⟨.load, last⟩ :: older') →
      (clockOutline c).wp (do
        let now ← Clock.timeNow
        if (c.nextDeadline last).1 ≤ now then
          Clock.expire (c.nextDeadline last).2
          return .ret ()
        else return .goto .run : AProg ANext) ((clockOutline c).ends .run) (.run, log') := by
    intro last log' hlog
    refine ⟨trivial, fun n _ => ?_⟩
    show (clockOutline c).wp (if _ then _ else _) _ _
    split
    · exact ⟨⟨n, last, log', rfl, hlog, rfl, ‹_›⟩, fun _ _ => nofun⟩
    · exact ⟨rfl, nofun⟩
  refine (Outline.wp_bind (Clock.nextDeadline c) _ _ _).mpr (wp_nextDeadline ?_ ?_)
  · exact fun _ last => hrest last _ fun _ => ⟨log, rfl⟩
  · exact fun hidle => hrest 0 log fun h => absurd h hidle

lemma clock_body (l₀ l : ALabel) {past : APast} (hpast : (clockOutline c).pre l past) :
    (clockOutline c).wp (l.body c) ((clockOutline c).ends l₀) past := by
  obtain ⟨l₁, log⟩ := past
  obtain ⟨rfl, hlog⟩ := hpast
  cases l₁ with
  | touch =>
    cases hlog rfl
    exact ⟨trivial, fun v _ => ⟨rfl, fun _ _ => ⟨trivial, fun _ _ _ => ⟨v, rfl⟩⟩⟩⟩
  | run =>
    refine (Outline.wp_bind (Clock.nextDeadline c) _ _ _).mpr ?_
    refine wp_nextDeadline_of_forall fun next log' => ?_
    show (clockOutline c).wp (if _ then _ else _) _ _
    split
    · intro h
      cases h
    · refine ⟨trivial, fun _ _ => ⟨trivial, fun _ _ => ⟨trivial, ?_⟩⟩⟩
      rintro (_ | _ | _) -
      · intro h
        cases h
      · exact ⟨rfl, fun h => by cases h⟩
      · exact wp_checkExpired

end Programs

/-! ### The invariant -/

/-- Time does not go back, and `lastActivityNS` is what some touch has stored. -/
structure ClockInv (c : ActivityClock) (s : ClockState) (cs : List APast) : Prop where
  born : (c.born : ℤ) ≤ s.now
  read : ∀ past ∈ cs, ∀ n, ⟨.timeNow, n⟩ ∈ past.2 → n ≤ s.now
  since : ∀ past ∈ cs, ∀ v, ⟨.sinceBorn, v⟩ ∈ past.2 → 0 ≤ v.toInt
  stored : ∀ past ∈ cs, ∀ v, ⟨.store v, ()⟩ ∈ past.2 → 0 ≤ v.toInt
  last : s.lastActivityNS = 0 ∨ ∃ past ∈ cs, ⟨.store s.lastActivityNS, ()⟩ ∈ past.2

section Invariant

variable {c : ActivityClock} {s s' : ClockState} {cs : List APast} {t : ℕ} {past : APast}
  {x : ClockWoken} {i : AInstr} {r : i.Resp}

lemma ClockState.exec_now (hx : s.exec c x i = some (s', r)) : s'.now = s.now := by
  cases i with
  | select =>
    simp only [ClockState.exec] at hx
    repeat' split at hx
    all_goals cases hx
    all_goals rfl
  | _ =>
    cases hx
    rfl

/-- Only `store` writes `lastActivityNS`. -/
lemma ClockState.exec_last (hx : s.exec c x i = some (s', r)) :
    s'.lastActivityNS = s.lastActivityNS ∨ i = .store s'.lastActivityNS := by
  cases i with
  | select =>
    simp only [ClockState.exec] at hx
    repeat' split at hx
    all_goals cases hx
    all_goals exact .inl rfl
  | store ns =>
    cases hx
    exact .inr rfl
  | _ =>
    cases hx
    exact .inl rfl

lemma ClockInv.exec (hG : ClockInv c s cs) (ht : cs[t]? = some past) (hreq : clockReq c i past)
    (hx : s.exec c x i = some (s', r)) :
    ClockInv c s' (cs.set t (past.1, ⟨i, r⟩ :: past.2)) := by
  have hnow := ClockState.exec_now hx
  have hpast := List.mem_of_getElem? ht
  have hborn := hG.born
  refine ⟨hnow ▸ hborn, ?_, ?_, ?_, ?_⟩
  · rw [hnow]
    refine forall_mem_set hG.read fun n hn => ?_
    rcases List.mem_cons.mp hn with heq | hn
    · cases heq
      cases hx
      exact Int.le_refl _
    · exact hG.read past hpast n hn
  · refine forall_mem_set hG.since fun v hv => ?_
    rcases List.mem_cons.mp hv with heq | hv
    · cases heq
      cases hx
      rw [toInt_duration]
      omega
    · exact hG.since past hpast v hv
  · refine forall_mem_set hG.stored fun v hv => ?_
    rcases List.mem_cons.mp hv with heq | hv
    · cases heq
      cases hreq
      exact hG.since _ hpast v List.mem_cons_self
    · exact hG.stored past hpast v hv
  · rcases ClockState.exec_last hx with h | rfl
    · rw [h]
      exact hG.last.imp_right fun hex => exists_mem_set ht hex (List.mem_cons_of_mem _)
    · exact .inr ⟨_, List.mem_set (List.getElem?_eq_some_iff.mp ht).1 _, List.mem_cons_self⟩

lemma clock_sound :
    Outline.Sound (clockMachine c) (clockOutline c) (ClockInv c) fun _ _ => True where
  body l₀ l _ hc := clock_body l₀ l hc
  exec _ _ _ _ _ _ _ _ _ ht _ hG hreq hx := ⟨trivial, hG.exec (Outline.ctxs_getElem? ht) hreq hx⟩
  spawn _ l _ _ hG hs := by
    cases l with
    | touch =>
      cases hs
      exact ⟨⟨rfl, fun _ => rfl⟩, hG.born, forall_mem_concat hG.read nofun,
        forall_mem_concat hG.since nofun, forall_mem_concat hG.stored nofun,
        hG.last.imp_right fun ⟨past, hpast, h⟩ => ⟨past, List.mem_append_left _ hpast, h⟩⟩
    | run => cases hs
  env _ e _ _ hG hs := by
    cases e with
    | advance n =>
      cases hs
      have hborn := hG.born
      refine ⟨?_, fun past hpast m hm => ?_, hG.since, hG.stored, hG.last⟩
      · show (c.born : ℤ) ≤ _ + (n : ℤ)
        omega
      · have := hG.read past hpast m hm
        show m ≤ _ + (n : ℤ)
        omega
    | close =>
      cases hs
      exact ⟨hG.born, hG.read, hG.since, hG.stored, hG.last⟩

lemma clock_run {es : List AEvent} {p : AProcess}
    (hrun : (clockMachine c).run (AProcess.init c) es = some p) :
    (clockOutline c).Holds (ClockInv c) p := by
  refine clock_sound.reaches ⟨⟨Int.le_refl _, ?_, ?_, ?_, .inl rfl⟩, ?_⟩ ⟨es, hrun⟩
  · exact List.forall_mem_singleton.mpr nofun
  · exact List.forall_mem_singleton.mpr nofun
  · exact List.forall_mem_singleton.mpr nofun
  · exact List.forall_mem_singleton.mpr (clock_body .run .run ⟨rfl, nofun⟩)

end Invariant

/-! ### Expiry -/

section Expiry

variable {c : ActivityClock} {es : List AEvent} {p q : AProcess} {ev : AEvent}

/-- A step that is not a `store` leaves `lastActivityNS` as it is. -/
lemma AProcess.last_step (hstep : (clockMachine c).step p ev = some q) :
    q.shared.lastActivityNS = p.shared.lastActivityNS ∨
      ∃ t x l k log, ev = .run t x ∧
        p.threads[t]? = some ⟨l, .op (.store q.shared.lastActivityNS) k, log⟩ := by
  obtain ⟨t, x, l, i, k, log, s', r, rfl, ht, hx, rfl⟩ | ⟨t, x, l, l', log, rfl, ht, rfl⟩ |
    ⟨l, s', rfl, hs, rfl⟩ | ⟨x, s', rfl, hs, rfl⟩ := (clockMachine c).step_cases hstep
  · rcases ClockState.exec_last hx with h | rfl
    · exact .inl h
    · exact .inr ⟨t, x, l, k, log, rfl, ht⟩
  · exact .inl rfl
  · cases l <;> cases hs
    exact .inl rfl
  · cases x <;> cases hs <;> exact .inl rfl

end Expiry

def ActivityClock.ofIdle (connectionIdle : Int64) : ActivityClock :=
  { born := ⟨2 ^ 63 + 1, by decide⟩, connectionIdle, maxLifetime := 0 }

/-- The kind with which a goroutine is about to call `expire`. -/
def AProcess.expiring (p : AProcess) (t : ℕ) : Option (Option TimeoutKind) :=
  match p.threads[t]? with
  | some ⟨_, .op (.expire kind) _, _⟩ => some kind
  | _ => none

end Ogrenet
