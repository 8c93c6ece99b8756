import Mathlib.Algebra.Order.Ring.Int
import Mathlib.Tactic.Common

/-!
# Goroutines as programs over a shared state

A goroutine runs a finite program `Prog I R α`: a tree of atomic instructions `i : I`, each
answered by a value of `R i` that decides how the program goes on. Unbounded loops are cut at their
heads: a program ends either by returning a value or by going to a label whose body is the next
piece to run.

A `Machine` fixes what the instructions do to the shared state. It is executable: `exec s i x` is
the effect of `i` in `s` when the scheduler resolves the nondeterminism of `i` by `x`, and `none`
when `i` cannot be answered that way, for instance because it would block. A process is a shared
state with a pool of goroutines, and a run interleaves their instructions in any order.
-/

namespace Interleaving

/-- A finite program: a value, or an instruction and what to do with its answer. -/
inductive Prog (I : Type) (R : I → Type) (α : Type) where
  | done (a : α)
  | op (i : I) (k : R i → Prog I R α)

namespace Prog

variable {I : Type} {R : I → Type} {α β : Type}

def bind : Prog I R α → (α → Prog I R β) → Prog I R β
  | .done a, f => f a
  | .op i k, f => .op i fun r => (k r).bind f

instance : Monad (Prog I R) where
  pure := .done
  bind := bind

/-- The program that issues one instruction and returns its answer. -/
def perform (i : I) : Prog I R (R i) := .op i .done

@[simp] lemma pure_eq (a : α) : (pure a : Prog I R α) = .done a := rfl

@[simp] lemma bind_done (a : α) (f : α → Prog I R β) : (Prog.done a >>= f) = f a := rfl

@[simp] lemma bind_op (i : I) (k : R i → Prog I R α) (f : α → Prog I R β) :
    (Prog.op i k >>= f) = .op i fun r => k r >>= f := rfl

@[simp] lemma bind_perform (i : I) (f : R i → Prog I R β) : (perform i >>= f) = .op i f := rfl

/-- Every instruction that the program may issue satisfies `P`, and every value it may return
satisfies `F`. -/
def Within (P : I → Prop) (F : α → Prop) : Prog I R α → Prop
  | .done a => F a
  | .op i k => P i ∧ ∀ r, (k r).Within P F

/-- Every instruction that the program may issue satisfies `P`. -/
abbrev Forall (P : I → Prop) (p : Prog I R α) : Prop := p.Within P fun _ => True

variable {P : I → Prop} {F : α → Prop} {F' : β → Prop}

lemma Within.imp {P' : I → Prop} {F' : α → Prop} {p : Prog I R α} (h : p.Within P F)
    (hP : ∀ i, P i → P' i) (hF : ∀ a, F a → F' a) : p.Within P' F' := by
  induction p with
  | done a => exact hF a h
  | op i k ih => exact ⟨hP i h.1, fun r => ih r (h.2 r)⟩

lemma Within.bind {p : Prog I R α} {f : α → Prog I R β} (hp : p.Within P F)
    (hf : ∀ a, F a → (f a).Within P F') : (p >>= f).Within P F' := by
  induction p with
  | done a => exact hf a hp
  | op i k ih => exact ⟨hp.1, fun r => ih r (hp.2 r)⟩

lemma Forall.bind {p : Prog I R α} {f : α → Prog I R β} (hp : p.Forall P)
    (hf : ∀ a, (f a).Within P F') : (p >>= f).Within P F' :=
  Within.bind hp fun a _ => hf a

lemma forall_of (h : ∀ i, P i) (p : Prog I R α) : p.Forall P := by
  induction p with
  | done a => trivial
  | op i k ih => exact ⟨h i, ih⟩

/-- Runs a program of a smaller instruction set inside a larger one. -/
def lift {J : Type} {S : J → Type} (e : I → J) (dec : (i : I) → S (e i) → R i) :
    Prog I R α → Prog J S α
  | .done a => .done a
  | .op i k => .op (e i) fun r => (k (dec i r)).lift e dec

lemma forall_lift {J : Type} {S : J → Type} {e : I → J} (dec : (i : I) → S (e i) → R i)
    {P : J → Prop} (h : ∀ i, P (e i)) (p : Prog I R α) : (p.lift e dec).Forall P := by
  induction p with
  | done a => trivial
  | op i k ih => exact ⟨h i, fun r => ih (dec i r)⟩

lemma lift_bind {J : Type} {S : J → Type} (e : I → J) (dec : (i : I) → S (e i) → R i)
    (p : Prog I R α) (f : α → Prog I R β) :
    (p >>= f).lift e dec = p.lift e dec >>= fun a => (f a).lift e dec := by
  induction p with
  | done a => rfl
  | op i k ih =>
    rw [bind_op, lift, lift, bind_op]
    exact congrArg _ (funext fun r => ih (dec i r))

end Prog

/-- How a piece of program ends: it goes on at a label or the goroutine returns. -/
inductive Next (L V : Type) where
  | goto (l : L)
  | ret (v : V)

/-- A goroutine: where it was started, what it has left to do, and the instructions it has had
answered, the latest first. -/
structure Thread (I : Type) (R : I → Type) (L V : Type) where
  entry : L
  prog : Prog I R (Next L V)
  log : List (Sigma R)

/-- The meaning of the instructions `I` with answers `R` over the shared state `S`. Goroutines are
started at labels `L` and return values `V`; `X` resolves the nondeterminism of an instruction and
`E` are the steps of the environment. -/
structure Machine (I : Type) (R : I → Type) (L V S X E : Type) where
  body : L → Prog I R (Next L V)
  exec : S → (i : I) → X → Option (S × R i)
  spawn : S → L → Option S
  env : S → E → Option S

/-- A step of a process: an instruction of goroutine `t`, a new goroutine, or the environment. -/
inductive Event (L X E : Type) where
  | run (t : ℕ) (x : X)
  | spawn (l : L)
  | env (e : E)

/-- A process: the shared state and the pool of goroutines. -/
structure Process (I : Type) (R : I → Type) (L V S : Type) where
  shared : S
  threads : List (Thread I R L V)

namespace Machine

variable {I : Type} {R : I → Type} {L V S X E : Type}

def step (M : Machine I R L V S X E) (p : Process I R L V S) :
    Event L X E → Option (Process I R L V S)
  | .run t x =>
    match p.threads[t]? with
    | some ⟨l, .op i k, log⟩ =>
      (M.exec p.shared i x).map fun a =>
        ⟨a.1, p.threads.set t ⟨l, k a.2, ⟨i, a.2⟩ :: log⟩⟩
    | some ⟨l, .done (.goto l'), log⟩ =>
      some ⟨p.shared, p.threads.set t ⟨l, M.body l', log⟩⟩
    | _ => none
  | .spawn l =>
    (M.spawn p.shared l).map fun s => ⟨s, p.threads ++ [⟨l, M.body l, []⟩]⟩
  | .env e => (M.env p.shared e).map fun s => ⟨s, p.threads⟩

/-- The process after a list of events, if each of them is possible in turn. -/
def run (M : Machine I R L V S X E) (p : Process I R L V S) :
    List (Event L X E) → Option (Process I R L V S)
  | [] => some p
  | e :: es => (M.step p e).bind fun q => M.run q es

/-- `q` is reached from `p` by some interleaving. -/
def Reaches (M : Machine I R L V S X E) (p q : Process I R L V S) : Prop :=
  ∃ es, M.run p es = some q

variable {M : Machine I R L V S X E}

lemma run_append {p q : Process I R L V S} {es es' : List (Event L X E)} :
    M.run p (es ++ es') = some q ↔ ∃ r, M.run p es = some r ∧ M.run r es' = some q := by
  induction es generalizing p with
  | nil => simp [run]
  | cons e es ih =>
    simp only [List.cons_append, run, Option.bind_eq_some_iff, ih]
    constructor
    · rintro ⟨p', h, r, h', h''⟩
      exact ⟨r, ⟨p', h, h'⟩, h''⟩
    · rintro ⟨r, ⟨p', h, h'⟩, h''⟩
      exact ⟨p', h, r, h', h''⟩

lemma Reaches.refl (p : Process I R L V S) : M.Reaches p p := ⟨[], rfl⟩

lemma Reaches.trans {p q r : Process I R L V S} (h : M.Reaches p q) (h' : M.Reaches q r) :
    M.Reaches p r := by
  obtain ⟨es, h⟩ := h
  obtain ⟨es', h'⟩ := h'
  exact ⟨es ++ es', run_append.mpr ⟨q, h, h'⟩⟩

lemma Reaches.tail {p q r : Process I R L V S} {e : Event L X E} (h : M.Reaches p q)
    (h' : M.step q e = some r) : M.Reaches p r :=
  h.trans ⟨[e], by simp [run, h']⟩

/-- The inversion of a step: what each event can do to the process. -/
lemma step_cases {p q : Process I R L V S} {e : Event L X E} (h : M.step p e = some q) :
    (∃ t x l i k log s' r, e = .run t x ∧ p.threads[t]? = some ⟨l, .op i k, log⟩ ∧
        M.exec p.shared i x = some (s', r) ∧
        q = ⟨s', p.threads.set t ⟨l, k r, ⟨i, r⟩ :: log⟩⟩) ∨
    (∃ t x l l' log, e = .run t x ∧ p.threads[t]? = some ⟨l, .done (.goto l'), log⟩ ∧
        q = ⟨p.shared, p.threads.set t ⟨l, M.body l', log⟩⟩) ∨
    (∃ l s', e = .spawn l ∧ M.spawn p.shared l = some s' ∧
        q = ⟨s', p.threads ++ [⟨l, M.body l, []⟩]⟩) ∨
    (∃ x s', e = .env x ∧ M.env p.shared x = some s' ∧ q = ⟨s', p.threads⟩) := by
  cases e with
  | run t x =>
    simp only [step] at h
    split at h
    · rename_i l i k log ht
      obtain ⟨⟨s', r⟩, hx, rfl⟩ := Option.map_eq_some_iff.mp h
      exact Or.inl ⟨t, x, l, i, k, log, s', r, rfl, ht, hx, rfl⟩
    · rename_i l l' log ht
      exact Or.inr (Or.inl ⟨t, x, l, l', log, rfl, ht, (Option.some.inj h).symm⟩)
    · cases h
  | spawn l =>
    obtain ⟨s', hs, rfl⟩ := Option.map_eq_some_iff.mp h
    exact Or.inr (Or.inr (Or.inl ⟨l, s', rfl, hs, rfl⟩))
  | env x =>
    obtain ⟨s', hs, rfl⟩ := Option.map_eq_some_iff.mp h
    exact Or.inr (Or.inr (Or.inr ⟨x, s', rfl, hs, rfl⟩))

/-- A property that a set of allowed steps preserves holds along every run of allowed steps. -/
lemma run_induction {P : Process I R L V S → Prop}
    (ok : Process I R L V S → Event L X E → Prop)
    (hstep : ∀ p e q, P p → ok p e → M.step p e = some q → P q)
    {p q : Process I R L V S} {es : List (Event L X E)} (hp : P p) (h : M.run p es = some q)
    (hok : ∀ es₁ e es₂ r, es = es₁ ++ e :: es₂ → M.run p es₁ = some r → ok r e) : P q := by
  induction es generalizing p with
  | nil =>
    cases h
    exact hp
  | cons e es ih =>
    obtain ⟨r, hr, h⟩ := Option.bind_eq_some_iff.mp h
    refine ih (hstep p e r hp (hok [] e es p rfl rfl) hr) h ?_
    intro es₁ e' es₂ r' hes hr'
    refine hok (e :: es₁) e' es₂ r' (by rw [hes, List.cons_append]) ?_
    simp only [run, hr, Option.bind_some, hr']

/-- What every step preserves holds of every process that is reached. -/
lemma reaches_induction {P : Process I R L V S → Prop}
    (hstep : ∀ p e q, P p → M.step p e = some q → P q)
    {p q : Process I R L V S} (hp : P p) (h : M.Reaches p q) : P q := by
  obtain ⟨es, h⟩ := h
  exact run_induction (fun _ _ => True) (fun p e q hp _ h => hstep p e q hp h) hp h
    fun _ _ _ _ _ _ => trivial

end Machine

end Interleaving
