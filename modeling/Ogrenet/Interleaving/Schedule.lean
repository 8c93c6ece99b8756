import Mathlib.Data.List.Induction
import Ogrenet.Interleaving.Calls

/-!
# The steps of a run

`StepAt` names a step of a run by its position, and `Does` the instruction that a goroutine carries
out in it. What stands in the log of a goroutine it has done in earlier steps, in that order.
-/

namespace Interleaving

namespace Machine

variable {I : Type} {R : I → Type} {L V S X E : Type} {M : Machine I R L V S X E}
  {p₀ p q r : Process I R L V S} {es es' : List (Event L X E)} {ev : Event L X E} {n m t : ℕ}

/-- Step `n` of the run is `ev` and starts in the state `q`. -/
def StepAt (M : Machine I R L V S X E) (p₀ : Process I R L V S) (es : List (Event L X E)) (n : ℕ)
    (q : Process I R L V S) (ev : Event L X E) : Prop :=
  es[n]? = some ev ∧ M.run p₀ (es.take n) = some q

lemma StepAt.lt (h : M.StepAt p₀ es n q ev) : n < es.length :=
  (List.getElem?_eq_some_iff.mp h.1).1

lemma stepAt_append (hq : M.run p₀ es = some q) : M.StepAt p₀ (es ++ ev :: es') es.length q ev :=
  ⟨by simp, by rwa [List.take_left]⟩

lemma StepAt.append (h : M.StepAt p₀ es n q ev) (es' : List (Event L X E)) :
    M.StepAt p₀ (es ++ es') n q ev := by
  refine ⟨?_, ?_⟩
  · rw [List.getElem?_append_left h.lt]
    exact h.1
  · rw [List.take_append_of_le_length h.lt.le]
    exact h.2

lemma StepAt.of_take (h : M.StepAt p₀ (es.take m) n q ev) : n < m ∧ M.StepAt p₀ es n q ev := by
  refine ⟨h.lt.trans_le (List.length_take_le m es), ?_⟩
  rw [← List.take_append_drop m es]
  exact h.append _

/-- A later state of the run comes after the step. -/
lemma StepAt.next (h : M.StepAt p₀ es n q ev) (hm : n < m) (hr : M.run p₀ (es.take m) = some r) :
    ∃ q', M.step q ev = some q' ∧ M.Reaches q' r := by
  have hsplit : es.take m = es.take n ++ ev :: (es.take m).drop (n + 1) := by
    have hev : (es.take m)[n]? = some ev := (List.getElem?_take_of_lt hm).trans h.1
    obtain ⟨hlt, hget⟩ := List.getElem?_eq_some_iff.mp hev
    have htake : es.take n = (es.take m).take n := by rw [List.take_take, min_eq_left hm.le]
    rw [htake, ← hget, ← List.drop_eq_getElem_cons hlt, List.take_append_drop]
  rw [hsplit] at hr
  obtain ⟨q₁, hq₁, hrest⟩ := run_append.mp hr
  cases hq₁.symm.trans h.2
  obtain ⟨q', hstep, hq'⟩ := Option.bind_eq_some_iff.mp hrest
  exact ⟨q', hstep, _, hq'⟩

/-- The state in which the run ends comes after each of its steps. -/
lemma StepAt.last (h : M.StepAt p₀ es n q ev) (hp : M.run p₀ es = some p) :
    ∃ q', M.step q ev = some q' ∧ M.Reaches q' p :=
  h.next h.lt (by rwa [List.take_length])

lemma StepAt.reaches (h : M.StepAt p₀ es n q ev) (hp : M.run p₀ es = some p) : M.Reaches q p := by
  obtain ⟨q', hstep, hq'⟩ := h.last hp
  exact ((Reaches.refl q).tail hstep).trans hq'

/-- What each step of the run from step `n` on keeps holds in the state in which the run ends. -/
lemma StepAt.induction {P : Process I R L V S → Prop} (h : M.StepAt p₀ es n q ev)
    (hp : M.run p₀ es = some p) (hq : P q)
    (hstep : ∀ m r e r', n ≤ m → M.StepAt p₀ es m r e → P r → M.step r e = some r' → P r') :
    P p := by
  have hall : ∀ m, n ≤ m → m ≤ es.length → ∀ r, M.run p₀ (es.take m) = some r → P r := by
    intro m hm
    induction m, hm using Nat.le_induction with
    | base =>
      intro _ r hr
      cases h.2.symm.trans hr
      exact hq
    | succ m hm ih =>
      intro hlen r' hr'
      have hev : es[m]? = some (es.get ⟨m, hlen⟩) := List.getElem?_eq_getElem hlen
      rw [List.take_add_one, hev] at hr'
      obtain ⟨r, hr, hlast⟩ := run_append.mp hr'
      obtain ⟨_, he, h'⟩ := Option.bind_eq_some_iff.mp hlast
      cases h'
      exact hstep m r _ _ hm ⟨hev, hr⟩ (ih (by omega) r hr) he
  exact hall es.length h.lt.le le_rfl p (by rwa [List.take_length])

/-- A goroutine keeps what is in its log. -/
lemma Reaches.log_suffix {th : Thread I R L V} (h : M.Reaches p q)
    (ht : p.threads[t]? = some th) :
    ∃ th', q.threads[t]? = some th' ∧ th'.entry = th.entry ∧ th.log <:+ th'.log := by
  refine reaches_induction (P := fun q => ∃ th', q.threads[t]? = some th' ∧
    th'.entry = th.entry ∧ th.log <:+ th'.log) (fun q e r hq hstep => ?_)
    ⟨th, ht, rfl, List.suffix_rfl⟩ h
  obtain ⟨th', ht', hentry, hlog⟩ := hq
  have hlt : t < q.threads.length := (List.getElem?_eq_some_iff.mp ht').1
  -- a step replaces the program of one goroutine, and can only add to its log
  have hset : ∀ (u : ℕ) (th₁ th₂ : Thread I R L V), q.threads[u]? = some th₁ →
      th₂.entry = th₁.entry → th₁.log <:+ th₂.log →
      ∃ th', (q.threads.set u th₂)[t]? = some th' ∧ th'.entry = th.entry ∧
        th.log <:+ th'.log := fun u th₁ th₂ hu he hl => by
    by_cases hut : u = t
    · subst hut
      cases hu.symm.trans ht'
      exact ⟨th₂, List.getElem?_set_self hlt, he.trans hentry, hlog.trans hl⟩
    · exact ⟨th', by rwa [List.getElem?_set_ne hut], hentry, hlog⟩
  obtain ⟨u, x, l, i, k, log, s', a, rfl, hu, -, rfl⟩ | ⟨u, x, l, l', log, rfl, hu, rfl⟩ |
    ⟨l, s', rfl, -, rfl⟩ | ⟨x, s', rfl, -, rfl⟩ := M.step_cases hstep
  · exact hset u _ _ hu rfl (List.suffix_cons _ _)
  · exact hset u _ _ hu rfl List.suffix_rfl
  · exact ⟨th', by rwa [List.getElem?_append_left hlt], hentry, hlog⟩
  · exact ⟨th', ht', hentry, hlog⟩

/-- In step `n` of the run, which starts in `q`, goroutine `t` with the past `c` carries out `i` and
gets `a`. -/
def Does (M : Machine I R L V S X E) (p₀ : Process I R L V S) (es : List (Event L X E)) (n : ℕ)
    (q : Process I R L V S) (t : ℕ) (c : Outline.Past L R) (i : I) (a : R i) : Prop :=
  ∃ x k s', M.StepAt p₀ es n q (.run t x) ∧ q.threads[t]? = some ⟨c.1, .op i k, c.2⟩ ∧
    M.exec q.shared i x = some (s', a)

variable {c : Outline.Past L R} {i : I} {a : R i}

lemma Does.append (h : M.Does p₀ es n q t c i a) (es' : List (Event L X E)) :
    M.Does p₀ (es ++ es') n q t c i a := by
  obtain ⟨x, k, s', hstep, ht, hx⟩ := h
  exact ⟨x, k, s', hstep.append es', ht, hx⟩

lemma Does.of_take (h : M.Does p₀ (es.take m) n q t c i a) :
    n < m ∧ M.Does p₀ es n q t c i a := by
  obtain ⟨x, k, s', hstep, ht, hx⟩ := h
  exact ⟨hstep.of_take.1, x, k, s', hstep.of_take.2, ht, hx⟩

/-- A step carries out one instruction of one goroutine. -/
lemma Does.unique {q' : Process I R L V S} {t' : ℕ} {c' : Outline.Past L R} {i' : I} {a' : R i'}
    (h : M.Does p₀ es n q t c i a) (h' : M.Does p₀ es n q' t' c' i' a') : t = t' ∧ i = i' := by
  obtain ⟨x, k, s', ⟨hev, hq⟩, ht, -⟩ := h
  obtain ⟨x', k', s'', ⟨hev', hq'⟩, ht', -⟩ := h'
  cases hev.symm.trans hev'
  cases hq.symm.trans hq'
  obtain ⟨-, hprog, -⟩ := Thread.mk.inj (Option.some.inj (ht.symm.trans ht'))
  exact ⟨rfl, (Prog.op.inj hprog).1⟩

/-- What a goroutine has done stays in its log. -/
lemma Does.in_log (h : M.Does p₀ es n q t c i a) (hm : n < m)
    (hr : M.run p₀ (es.take m) = some r) :
    ∃ th, r.threads[t]? = some th ∧ th.entry = c.1 ∧ ⟨i, a⟩ :: c.2 <:+ th.log := by
  obtain ⟨x, k, s', hstep, ht, hx⟩ := h
  obtain ⟨q', hq', hreach⟩ := hstep.next hm hr
  have hlt : t < q.threads.length := (List.getElem?_eq_some_iff.mp ht).1
  simp only [step, ht, hx, Option.map_some, Option.some.injEq] at hq'
  subst hq'
  exact hreach.log_suffix (List.getElem?_set_self hlt)

/-- Every entry of a log was made by a step of the run. -/
lemma exists_does (h₀ : ∀ th ∈ p₀.threads, th.log = []) (h : M.run p₀ es = some p)
    {th : Thread I R L V} (ht : p.threads[t]? = some th) {newer older : List (Sigma R)}
    (hlog : th.log = newer ++ ⟨i, a⟩ :: older) :
    ∃ n q, M.Does p₀ es n q t (th.entry, older) i a := by
  induction es using List.reverseRecOn generalizing p th newer with
  | nil =>
    cases h
    rw [h₀ th (List.mem_of_getElem? ht)] at hlog
    simp at hlog
  | append_singleton es e ih =>
    obtain ⟨q, hq, hstep⟩ := run_append.mp h
    obtain ⟨_, hstep, hp⟩ := Option.bind_eq_some_iff.mp hstep
    cases hp
    -- a goroutine that had the entry before had it from an earlier step
    have hold : ∀ th' newer', q.threads[t]? = some th' → th'.entry = th.entry →
        th'.log = newer' ++ ⟨i, a⟩ :: older →
        ∃ n q, M.Does p₀ (es ++ [e]) n q t (th.entry, older) i a :=
      fun th' newer' ht' hentry hlog' => by
        obtain ⟨n, q, hdoes⟩ := ih hq ht' hlog'
        exact ⟨n, q, hentry ▸ hdoes.append [e]⟩
    obtain ⟨t', x, l, i', k, log, s', a', rfl, ht', hx, rfl⟩ |
      ⟨t', x, l, l', log, rfl, ht', rfl⟩ | ⟨l, s', rfl, -, rfl⟩ | ⟨x, s', rfl, -, rfl⟩ :=
      M.step_cases hstep
    · rcases getElem?_of_set ht with ⟨rfl, rfl⟩ | ht
      · rcases newer with _ | ⟨b, newer⟩
        · cases hlog
          exact ⟨es.length, q, x, k, s', stepAt_append hq, ht', hx⟩
        · cases hlog
          exact hold _ newer ht' rfl rfl
      · exact hold th newer ht rfl hlog
    · rcases getElem?_of_set ht with ⟨rfl, rfl⟩ | ht
      · exact hold _ newer ht' rfl hlog
      · exact hold th newer ht rfl hlog
    · rcases getElem?_of_concat ht with ht | ⟨-, rfl⟩
      · exact hold th newer ht rfl hlog
      · simp at hlog
    · exact hold th newer ht rfl hlog

/-- What a goroutine has in its log before a step it has done before that step. -/
lemma exists_does_before (h₀ : ∀ th ∈ p₀.threads, th.log = []) (h : M.StepAt p₀ es m r ev)
    {th : Thread I R L V} (ht : r.threads[t]? = some th) {newer older : List (Sigma R)}
    (hlog : th.log = newer ++ ⟨i, a⟩ :: older) :
    ∃ n q, n < m ∧ M.Does p₀ es n q t (th.entry, older) i a := by
  obtain ⟨n, q, hdoes⟩ := exists_does h₀ h.2 ht hlog
  exact ⟨n, q, hdoes.of_take⟩

end Machine

end Interleaving
