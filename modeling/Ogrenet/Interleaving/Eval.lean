import Ogrenet.Interleaving.Prog

/-!
# Running one program alone

`Prog.eval` runs a program when something answers its instructions one after the other, and
`Prog.follow` goes on at the labels it ends with. `Leads` says that a program has come down to
another one, which is how a run is put together from its pieces.
-/

namespace Interleaving

namespace Prog

variable {I : Type} {R : I → Type} {L V σ α β : Type}

/-- The state and the value with which the program ends; `none` when an instruction has no
answer. -/
def eval (answer : σ → (i : I) → Option (σ × R i)) : Prog I R α → σ → Option (σ × α)
  | .done a, s => some (s, a)
  | .op i k, s => (answer s i).bind fun a => (k a.2).eval answer a.1

/-- Runs a program and then the bodies of at most `n` labels. -/
def follow (body : L → Prog I R (Next L V)) (answer : σ → (i : I) → Option (σ × R i)) :
    ℕ → Prog I R (Next L V) → σ → Option (σ × V)
  | n, p, s =>
    match p.eval answer s with
    | none => none
    | some (s', .ret v) => some (s', v)
    | some (s', .goto l) =>
      match n with
      | 0 => none
      | n + 1 => follow body answer n (body l) s'

/-- The label `l` is come to in state `s'` by the program `p` started in `s`. -/
inductive Visits (body : L → Prog I R (Next L V)) (answer : σ → (i : I) → Option (σ × R i)) :
    Prog I R (Next L V) → σ → L → σ → Prop
  | here {p : Prog I R (Next L V)} {s s' : σ} {l : L} (h : p.eval answer s = some (s', .goto l)) :
      Visits body answer p s l s'
  | next {p : Prog I R (Next L V)} {s s' s'' : σ} {l l' : L}
      (h : p.eval answer s = some (s', .goto l)) (hv : Visits body answer (body l) s' l' s'') :
      Visits body answer p s l' s''

/-- The program `p` in `s` comes down to `q` in `s'`. -/
def Leads (body : L → Prog I R (Next L V)) (answer : σ → (i : I) → Option (σ × R i))
    (p : Prog I R (Next L V)) (s : σ) (q : Prog I R (Next L V)) (s' : σ) : Prop :=
  ∃ k, ∀ n, follow body answer (n + k) p s = follow body answer n q s'

variable {body : L → Prog I R (Next L V)} {answer : σ → (i : I) → Option (σ × R i)}
  {p q r : Prog I R (Next L V)} {s s' s'' : σ}

@[simp] lemma eval_done (a : α) (s : σ) : (done a : Prog I R α).eval answer s = some (s, a) := rfl

@[simp] lemma eval_pure (a : α) (s : σ) : (pure a : Prog I R α).eval answer s = some (s, a) := rfl

@[simp] lemma eval_op (i : I) (k : R i → Prog I R α) (s : σ) :
    (op i k).eval answer s = (answer s i).bind fun a => (k a.2).eval answer a.1 := rfl

lemma eval_bind (p : Prog I R α) (f : α → Prog I R β) (s : σ) :
    (p >>= f).eval answer s = (p.eval answer s).bind fun a => (f a.2).eval answer a.1 := by
  induction p generalizing s with
  | done a => rfl
  | op i k ih =>
    simp only [bind_op, eval_op, Option.bind_assoc]
    exact congrArg _ (funext fun a => ih a.2 a.1)

lemma follow_of_ret {n : ℕ} {v : V} (h : p.eval answer s = some (s', .ret v)) :
    follow body answer n p s = some (s', v) := by
  rw [follow, h]

lemma follow_congr {n : ℕ} (h : p.eval answer s = q.eval answer s') :
    follow body answer n p s = follow body answer n q s' := by
  rw [follow, follow, h]

namespace Leads

lemma of_eval (h : p.eval answer s = q.eval answer s') : Leads body answer p s q s' :=
  ⟨0, fun _ => follow_congr h⟩

lemma of_goto {l : L} (h : p.eval answer s = some (s', .goto l)) :
    Leads body answer p s (body l) s' :=
  ⟨1, fun n => by rw [follow, h]⟩

lemma trans (h : Leads body answer p s q s') (h' : Leads body answer q s' r s'') :
    Leads body answer p s r s'' := by
  obtain ⟨k, hk⟩ := h
  obtain ⟨k', hk'⟩ := h'
  refine ⟨k' + k, fun n => ?_⟩
  rw [← Nat.add_assoc, hk, hk']

/-- The program ends with the value that the one it comes down to returns. -/
lemma ends {v : V} (h : Leads body answer p s q s')
    (hq : q.eval answer s' = some (s'', .ret v)) :
    ∃ n, follow body answer n p s = some (s'', v) := by
  obtain ⟨k, hk⟩ := h
  exact ⟨0 + k, (hk 0).trans (follow_of_ret hq)⟩

lemma ends_of {v : V} (h : Leads body answer p s q s')
    (hq : ∃ n, follow body answer n q s' = some (s'', v)) :
    ∃ n, follow body answer n p s = some (s'', v) := by
  obtain ⟨k, hk⟩ := h
  obtain ⟨n, hn⟩ := hq
  exact ⟨n + k, (hk n).trans hn⟩

end Leads

/-- More fuel does not change the end of a run. -/
lemma follow_mono {n m : ℕ} {a : σ × V} (h : follow body answer n p s = some a) (hm : n ≤ m) :
    follow body answer m p s = some a := by
  induction n generalizing p s m with
  | zero =>
    rw [follow] at h ⊢
    split at h
    · cases h
    · exact h
    · cases h
  | succ n ih =>
    obtain ⟨m, rfl⟩ : ∃ m', m = m' + 1 := ⟨m - 1, by omega⟩
    rw [follow] at h ⊢
    split at h
    · cases h
    · exact h
    · exact ih h (by omega)

/-- A program that runs alone has one end. -/
lemma follow_unique {n m : ℕ} {a b : σ × V} (ha : follow body answer n p s = some a)
    (hb : follow body answer m p s = some b) : a = b := by
  have h₁ := follow_mono ha (Nat.le_add_right n m)
  have h₂ := follow_mono hb (Nat.le_add_left m n)
  exact Option.some.inj (h₁.symm.trans h₂)

/-- What every body keeps holds at every label that is come to. -/
lemma Visits.invariant {P : L → σ → Prop} {l : L}
    (hstart : ∀ s' l', p.eval answer s = some (s', .goto l') → P l' s')
    (hstep : ∀ l s s' l', P l s → (body l).eval answer s = some (s', .goto l') → P l' s')
    (h : Visits body answer p s l s') : P l s' := by
  induction h with
  | here h => exact hstart _ _ h
  | next h _ ih => exact ih fun s' l' h' => hstep _ _ _ _ (hstart _ _ h) h'

/-! ### What programs ensure -/

/-- Whatever the program ends with satisfies `Q`. -/
structure Ensures (answer : σ → (i : I) → Option (σ × R i)) (p : Prog I R α) (s : σ)
    (Q : σ → α → Prop) : Prop where
  of_eval : ∀ s' a, p.eval answer s = some (s', a) → Q s' a

lemma ensures_pure {Q : σ → α → Prop} {a : α} (h : Q s a) :
    Ensures answer (pure a : Prog I R α) s Q := by
  constructor
  intro s' a' he
  cases he
  exact h

lemma ensures_op {Q : σ → α → Prop} {i : I} {k : R i → Prog I R α}
    (h : ∀ s' r, answer s i = some (s', r) → Ensures answer (k r) s' Q) :
    Ensures answer (op i k) s Q := by
  constructor
  intro s' a he
  obtain ⟨⟨s₁, r⟩, hr, he⟩ := Option.bind_eq_some_iff.mp he
  exact (h s₁ r hr).of_eval s' a he

lemma ensures_perform {Q : σ → α → Prop} {i : I} {f : R i → Prog I R α}
    (h : ∀ s' r, answer s i = some (s', r) → Ensures answer (f r) s' Q) :
    Ensures answer (perform i >>= f) s Q :=
  ensures_op h

/-- What holds where a body ends: `P` at the label it goes to, `Q` of the value it returns. -/
def NextSat (P : L → σ → Prop) (Q : σ → V → Prop) (s : σ) : Next L V → Prop
  | .goto l => P l s
  | .ret v => Q s v

/-- The invariant rule: what holds at every label that is come to decides what is returned. -/
lemma follow_ensures {P : L → σ → Prop} {Q : σ → V → Prop} {n : ℕ} {v : V}
    (hbody : ∀ l s, P l s → Ensures answer (body l) s (NextSat P Q))
    (hp : Ensures answer p s (NextSat P Q)) (h : follow body answer n p s = some (s', v)) :
    Q s' v := by
  induction n generalizing p s with
  | zero =>
    rw [follow] at h
    split at h
    · cases h
    · rename_i he
      cases h
      exact hp.of_eval _ _ he
    · cases h
  | succ n ih =>
    rw [follow] at h
    split at h
    · cases h
    · rename_i he
      cases h
      exact hp.of_eval _ _ he
    · rename_i he
      exact ih (hbody _ _ (hp.of_eval _ _ he)) h

end Prog

end Interleaving
