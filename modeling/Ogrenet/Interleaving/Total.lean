import Mathlib.Algebra.Order.Ring.Int
import Mathlib.Tactic.Common

/-!
# Totals over a pool

A pool is a list whose entries are only ever appended or replaced in place, such as the goroutines
of a process or the handles it has given out. `total f xs` adds a natural-number weight over the
pool. The lemmas say what the two updates do to a total, which is all that counting invariants
need.
-/

namespace Interleaving

variable {α β : Type*}

/-- The sum of the weights `f` over the pool `xs`. -/
def total (f : α → ℕ) (xs : List α) : ℕ := (xs.map f).sum

@[simp] lemma total_nil (f : α → ℕ) : total f [] = 0 := rfl

@[simp] lemma total_cons (f : α → ℕ) (a : α) (xs : List α) :
    total f (a :: xs) = f a + total f xs := by simp [total]

@[simp] lemma total_append (f : α → ℕ) (xs ys : List α) :
    total f (xs ++ ys) = total f xs + total f ys := by simp [total]

@[simp] lemma total_map (f : β → ℕ) (g : α → β) (xs : List α) :
    total f (xs.map g) = total (fun a => f (g a)) xs := by
  simp [total, Function.comp_def]

/-- Replacing an entry by itself changes nothing. -/
lemma set_of_getElem? {xs : List α} {i : ℕ} {a : α} (h : xs[i]? = some a) : xs.set i a = xs := by
  obtain ⟨hlt, rfl⟩ := List.getElem?_eq_some_iff.mp h
  exact List.set_getElem_self hlt

/-- An entry of a history is an entry of every longer one. -/
lemma getElem?_mono {xs ys : List α} {i : ℕ} {a : α} (h : xs <+: ys) (hi : xs[i]? = some a) :
    ys[i]? = some a := by
  obtain ⟨zs, rfl⟩ := h
  rw [List.getElem?_append_left (List.getElem?_eq_some_iff.mp hi).1]
  exact hi

/-- An entry after a write is the one written or was there before. -/
lemma getElem?_of_set {xs : List α} {i j : ℕ} {a b : α} (h : (xs.set i a)[j]? = some b) :
    (i = j ∧ a = b) ∨ xs[j]? = some b := by
  by_cases hij : i = j
  · subst hij
    have hlt : i < xs.length := by simpa using (List.getElem?_eq_some_iff.mp h).1
    rw [List.getElem?_set_self hlt] at h
    exact .inl ⟨rfl, Option.some.inj h⟩
  · exact .inr ((List.getElem?_set_ne hij).symm.trans h)

lemma getElem?_of_concat {xs : List α} {j : ℕ} {a b : α} (h : (xs ++ [a])[j]? = some b) :
    xs[j]? = some b ∨ (j = xs.length ∧ a = b) := by
  rcases Nat.lt_or_ge j xs.length with hj | hj
  · exact .inl ((List.getElem?_append_left hj).symm.trans h)
  · rw [List.getElem?_append_right hj] at h
    have hlt := (List.getElem?_eq_some_iff.mp h).1
    have hj' : j = xs.length := by
      rw [List.length_singleton] at hlt
      omega
    subst hj'
    exact .inr ⟨rfl, by simpa using h⟩

/-- What holds of every entry and of the replacement holds of every entry after it. -/
lemma forall_mem_set {P : α → Prop} {xs : List α} {i : ℕ} {a : α} (h : ∀ x ∈ xs, P x) (ha : P a) :
    ∀ x ∈ xs.set i a, P x := by
  intro x hx
  rcases List.mem_or_eq_of_mem_set hx with hx | rfl
  · exact h x hx
  · exact ha

lemma forall_mem_concat {P : α → Prop} {xs : List α} {a : α} (h : ∀ x ∈ xs, P x) (ha : P a) :
    ∀ x ∈ xs ++ [a], P x := by
  intro x hx
  rcases List.mem_append.mp hx with hx | hx
  · exact h x hx
  · cases List.mem_singleton.mp hx
    exact ha

/-- An entry that satisfies `P` is still there after a replacement that keeps `P`. -/
lemma exists_mem_set {P : α → Prop} {xs : List α} {i : ℕ} {a b : α} (hi : xs[i]? = some a)
    (h : ∃ x ∈ xs, P x) (hb : P a → P b) : ∃ x ∈ xs.set i b, P x := by
  obtain ⟨x, hx, hP⟩ := h
  obtain ⟨j, hj⟩ := List.mem_iff_getElem?.mp hx
  by_cases hij : i = j
  · subst hij
    rw [hi] at hj
    cases hj
    exact ⟨b, List.mem_set (List.getElem?_eq_some_iff.mp hi).1 b, hb hP⟩
  · exact ⟨x, List.mem_of_getElem? ((List.getElem?_set_ne hij).trans hj), hP⟩

/-- What holds of the only entry that satisfies `w`, after some entry was replaced. -/
lemma forall_mem_set_of_unique {w P P' : α → Prop} {xs : List α} {i : ℕ} {a a' : α}
    (hi : xs[i]? = some a) (huniq : w a → ∀ j b, xs[j]? = some b → w b → i = j)
    (hw : w a' → w a) (h : ∀ x ∈ xs, w x → P x) (hother : ¬ w a → ∀ x ∈ xs, P x → P' x)
    (hself : w a → P a → P' a') : ∀ x ∈ xs.set i a', w x → P' x := by
  intro x hx hwx
  obtain ⟨j, hj⟩ := List.mem_iff_getElem?.mp hx
  by_cases hij : i = j
  · subst hij
    rw [List.getElem?_set_self (List.getElem?_eq_some_iff.mp hi).1] at hj
    cases hj
    exact hself (hw hwx) (h a (List.mem_of_getElem? hi) (hw hwx))
  · rw [List.getElem?_set_ne hij] at hj
    have hmem := List.mem_of_getElem? hj
    exact hother (fun ha => hij (huniq ha j x hj hwx)) x hmem (h x hmem hwx)

/-- Replacing one entry trades its old weight for the new one. -/
lemma total_set {f : α → ℕ} {xs : List α} {i : ℕ} {a : α} (b : α) (h : xs[i]? = some a) :
    total f (xs.set i b) + f a = total f xs + f b := by
  induction xs generalizing i with
  | nil => simp at h
  | cons x xs ih =>
    cases i with
    | zero =>
      simp only [List.getElem?_cons_zero, Option.some.injEq] at h
      simp only [List.set_cons_zero, total_cons, h]
      omega
    | succ i =>
      simp only [List.getElem?_cons_succ] at h
      have := ih h
      simp only [List.set_cons_succ, total_cons]
      omega

/-- A replacement of equal weight does not change the total. -/
lemma total_set_eq {f : α → ℕ} {xs : List α} {i : ℕ} {a b : α} (h : xs[i]? = some a)
    (hf : f b = f a) : total f (xs.set i b) = total f xs := by
  have := total_set (f := f) b h
  omega

lemma le_total {f : α → ℕ} {xs : List α} {a : α} (h : a ∈ xs) : f a ≤ total f xs := by
  induction xs with
  | nil => simp at h
  | cons x xs ih =>
    rcases List.mem_cons.mp h with rfl | h
    · simp
    · have := ih h
      simp only [total_cons]
      omega

lemma le_total_of_getElem? {f : α → ℕ} {xs : List α} {i : ℕ} {a : α} (h : xs[i]? = some a) :
    f a ≤ total f xs := le_total (List.mem_of_getElem? h)

lemma total_eq_zero_iff {f : α → ℕ} {xs : List α} : total f xs = 0 ↔ ∀ a ∈ xs, f a = 0 := by
  constructor
  · intro h a ha
    have := le_total (f := f) ha
    omega
  · intro h
    induction xs with
    | nil => rfl
    | cons x xs ih =>
      rw [total_cons, h x (by simp), ih fun a ha => h a (by simp [ha])]

lemma total_congr {f g : α → ℕ} {xs : List α} (h : ∀ a ∈ xs, f a = g a) :
    total f xs = total g xs := by
  rw [total, total, List.map_congr_left h]

lemma total_le_total {f g : α → ℕ} {xs : List α} (h : ∀ a ∈ xs, f a ≤ g a) :
    total f xs ≤ total g xs := by
  induction xs with
  | nil => exact Nat.le_refl 0
  | cons x xs ih =>
    have hx := h x (by simp)
    have hxs := ih fun a ha => h a (by simp [ha])
    simp only [total_cons]
    omega

lemma countP_le_total {f : α → ℕ} {q : α → Bool} {xs : List α}
    (h : ∀ a ∈ xs, q a = true → 1 ≤ f a) : xs.countP q ≤ total f xs := by
  induction xs with
  | nil => exact Nat.le_refl 0
  | cons x xs ih =>
    have hx := h x (by simp)
    have hxs := ih fun a ha => h a (by simp [ha])
    rw [List.countP_cons, total_cons]
    split
    · have := hx ‹_›
      omega
    · omega

/-- Two distinct entries of a pool weigh together at most the total. -/
lemma add_le_total {f : α → ℕ} {xs : List α} {i j : ℕ} {a b : α} (hij : i ≠ j)
    (hi : xs[i]? = some a) (hj : xs[j]? = some b) : f a + f b ≤ total f xs := by
  induction xs generalizing i j with
  | nil => simp at hi
  | cons x xs ih =>
    cases i with
    | zero =>
      cases j with
      | zero => exact absurd rfl hij
      | succ j =>
        simp only [List.getElem?_cons_zero, Option.some.injEq] at hi
        simp only [List.getElem?_cons_succ] at hj
        have := le_total_of_getElem? (f := f) hj
        simp only [total_cons, hi]
        omega
    | succ i =>
      simp only [List.getElem?_cons_succ] at hi
      cases j with
      | zero =>
        simp only [List.getElem?_cons_zero, Option.some.injEq] at hj
        have := le_total_of_getElem? (f := f) hi
        simp only [total_cons, hj]
        omega
      | succ j =>
        simp only [List.getElem?_cons_succ] at hj
        have := ih (fun h => hij (by rw [h])) hi hj
        simp only [total_cons]
        omega

end Interleaving
