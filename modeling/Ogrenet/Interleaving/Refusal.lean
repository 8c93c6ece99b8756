import Ogrenet.Interleaving.Outline

/-!
# Calls that are refused

Once a flag is set that no step clears, a call that begins makes a few checks and returns an error.
-/

namespace Interleaving

variable {I : Type} {R : I → Type} {L V S X E : Type}

/-- As long as every answer satisfies `sees`, the program makes at most `n` instructions, all of
them checks, and returns a value that satisfies `bad`. -/
def Prog.Refuses (check : I → Bool) (sees : (i : I) → R i → Prop) (bad : V → Prop) :
    Prog I R (Next L V) → ℕ → Prop
  | .done (.ret v), _ => bad v
  | .done (.goto _), _ => False
  | .op i k, n => check i = true ∧ 0 < n ∧ ∀ r, sees i r → (k r).Refuses check sees bad (n - 1)

variable {check : I → Bool} {sees : (i : I) → R i → Prop} {bad : V → Prop} {n : ℕ}

/-- The goroutine is on the way to being refused within `n` steps, and has made only checks. -/
structure Thread.Refused (check : I → Bool) (sees : (i : I) → R i → Prop) (bad : V → Prop) (n : ℕ)
    (th : Thread I R L V) : Prop where
  prog : th.prog.Refuses check sees bad (n - th.log.length)
  log : ∀ a ∈ th.log, check a.1 = true

lemma Thread.Refused.exec {l : L} {i : I} {k : R i → Prog I R (Next L V)} {log : List (Sigma R)}
    {r : R i} (h : Thread.Refused check sees bad n ⟨l, .op i k, log⟩) (hr : sees i r) :
    Thread.Refused check sees bad n ⟨l, k r, ⟨i, r⟩ :: log⟩ := by
  obtain ⟨⟨hcheck, -, hk⟩, hlog⟩ := h
  constructor
  · have := hk r hr
    rwa [Nat.sub_sub] at this
  · exact List.forall_mem_cons.mpr ⟨hcheck, hlog⟩

/-- `flag` is set for good, and instructions are then answered as `sees` says. -/
structure Machine.Sets (M : Machine I R L V S X E) (flag : S → Prop)
    (sees : (i : I) → R i → Prop) : Prop where
  exec : ∀ {s i x s' r}, flag s → M.exec s i x = some (s', r) → flag s' ∧ sees i r
  spawn : ∀ {s l s'}, flag s → M.spawn s l = some s' → flag s'
  env : ∀ {s e s'}, flag s → M.env s e = some s' → flag s'

/-- The flag is set, and the calls begun since are refused. -/
def Process.RefusesFrom (flag : S → Prop) (call : L → Prop) (check : I → Bool)
    (sees : (i : I) → R i → Prop) (bad : V → Prop) (n from_ : ℕ) (p : Process I R L V S) : Prop :=
  flag p.shared ∧ ∀ t th, from_ ≤ t → p.threads[t]? = some th → call th.entry →
    th.Refused check sees bad n

variable {M : Machine I R L V S X E} {flag : S → Prop} {call : L → Prop} {from_ : ℕ}
  {p q : Process I R L V S}

lemma Machine.Sets.step (hM : M.Sets flag sees)
    (hbody : ∀ s l s', M.spawn s l = some s' → call l → (M.body l).Refuses check sees bad n)
    {e : Event L X E} (hp : p.RefusesFrom flag call check sees bad n from_)
    (hstep : M.step p e = some q) : q.RefusesFrom flag call check sees bad n from_ := by
  obtain ⟨hflag, hp⟩ := hp
  obtain ⟨t, x, l, i, k, log, s', r, rfl, ht, hx, rfl⟩ | ⟨t, x, l, l', log, rfl, ht, rfl⟩ |
    ⟨l, s', rfl, hs, rfl⟩ | ⟨x, s', rfl, hs, rfl⟩ := M.step_cases hstep
  · obtain ⟨hflag', hsees⟩ := hM.exec hflag hx
    refine ⟨hflag', fun t' th hn ht' hcall => ?_⟩
    rcases getElem?_of_set ht' with ⟨rfl, rfl⟩ | ht'
    · exact (hp _ _ hn ht hcall).exec hsees
    · exact hp t' th hn ht' hcall
  · refine ⟨hflag, fun t' th hn ht' hcall => ?_⟩
    rcases getElem?_of_set ht' with ⟨rfl, rfl⟩ | ht'
    · exact (hp _ _ hn ht hcall).prog.elim
    · exact hp t' th hn ht' hcall
  · refine ⟨hM.spawn hflag hs, fun t' th hn ht' hcall => ?_⟩
    rcases getElem?_of_concat ht' with ht' | ⟨-, rfl⟩
    · exact hp t' th hn ht' hcall
    · exact ⟨hbody _ l s' hs hcall, by simp⟩
  · exact ⟨hM.env hflag hs, hp⟩

/-- Every call that begins after the flag was set is refused. -/
lemma Machine.Sets.refused (hM : M.Sets flag sees)
    (hbody : ∀ s l s', M.spawn s l = some s' → call l → (M.body l).Refuses check sees bad n)
    (hp : flag p.shared) (h : M.Reaches p q) {t : ℕ} {th : Thread I R L V}
    (hlate : p.threads.length ≤ t) (ht : q.threads[t]? = some th) (hcall : call th.entry) :
    th.Refused check sees bad n := by
  have hinit : p.RefusesFrom flag call check sees bad n p.threads.length := by
    refine ⟨hp, fun t th hn ht => ?_⟩
    rw [List.getElem?_eq_none hn] at ht
    cases ht
  exact (Machine.reaches_induction (fun _ _ _ hp h => hM.step hbody hp h) hinit h).2 t th hlate ht
    hcall

end Interleaving
