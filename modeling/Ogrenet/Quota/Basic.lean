import Mathlib.Algebra.Order.Ring.Int
import Mathlib.Tactic.Common

/-!
# Byte budgets

The locked sections of `byteQuota` in `transport/quota.go` and of `globalByteQuota` in
`transport/limits.go`, which are the same for both, and what each of them does to a waiter.
-/

namespace Ogrenet

/-- A byte budget. `changed` is the channel that waiters of the moment wait on, named by a number
that is never used again. -/
structure ByteQuota where
  limit : ℕ
  used : ℕ := 0
  changed : Option ℕ := none
  made : ℕ := 0
  /-- The channels that have been closed. -/
  closed : List ℕ := []
  deriving DecidableEq, Repr

namespace ByteQuota

/-- The locked part of one round of `acquire`: the reservation, or the channel to wait on. -/
def acquireSection (q : ByteQuota) (n : ℕ) : ByteQuota × Option ℕ :=
  if q.used + n ≤ q.limit then ({ q with used := q.used + n }, none)
  else match q.changed with
  | some g => (q, some g)
  | none => ({ q with changed := some q.made, made := q.made + 1 }, some q.made)

/-- The locked part of `tryAcquire`. -/
def tryAcquire (q : ByteQuota) (n : ℕ) : ByteQuota × Bool :=
  if q.limit < q.used + n then (q, false) else ({ q with used := q.used + n }, true)

/-- `release`, which does nothing for `n = 0`; `used` does not go below zero. The channel is closed,
if there is one, and forgotten. -/
def release (q : ByteQuota) (n : ℕ) : ByteQuota :=
  if n = 0 then q
  else { q with used := q.used - n, changed := none, closed := q.changed.toList ++ q.closed }

/-- The channel that waiters wait on is open, and a new one will be. -/
def Made (q : ByteQuota) : Prop :=
  (∀ g, q.changed = some g → g ∉ q.closed ∧ g < q.made) ∧ ∀ g ∈ q.closed, g < q.made

/-- A waiter on the channel `g` for `n` bytes: as long as the channel is open, it is the one that
the next release closes, and the bytes do not fit. -/
structure Waits (q : ByteQuota) (g n : ℕ) : Prop where
  current : g ∉ q.closed → q.changed = some g
  full : g ∉ q.closed → q.limit < q.used + n

variable {q : ByteQuota} {g m n : ℕ}

lemma limit_acquireSection : (q.acquireSection n).1.limit = q.limit := by
  unfold acquireSection
  split
  · rfl
  · split <;> rfl

lemma limit_tryAcquire : (q.tryAcquire n).1.limit = q.limit := by
  unfold tryAcquire
  split <;> rfl

lemma limit_release : (q.release n).limit = q.limit := by
  unfold release
  split <;> rfl

/-- A section of `acquire` reserves what it was asked for, or finds that it does not fit. -/
lemma acquireSection_cases : (q.used + n ≤ q.limit ∧
      q.acquireSection n = ({ q with used := q.used + n }, none)) ∨
    (q.limit < q.used + n ∧ ∃ g, (q.acquireSection n).2 = some g ∧
      (q.acquireSection n).1.used = q.used) := by
  unfold acquireSection
  split
  · exact .inl ⟨by assumption, rfl⟩
  · refine .inr ⟨by omega, ?_⟩
    split <;> exact ⟨_, rfl, rfl⟩

lemma tryAcquire_cases : (q.used + n ≤ q.limit ∧
      q.tryAcquire n = ({ q with used := q.used + n }, true)) ∨
    q.tryAcquire n = (q, false) := by
  unfold tryAcquire
  split
  · exact .inr rfl
  · exact .inl ⟨by omega, rfl⟩

lemma Made.acquireSection (h : q.Made) : (q.acquireSection n).1.Made := by
  unfold ByteQuota.acquireSection
  split
  · exact h
  · split
    · exact h
    · refine ⟨?_, fun g hg => Nat.lt_succ_of_lt (h.2 g hg)⟩
      rintro g ⟨⟩
      exact ⟨fun hg => absurd (h.2 _ hg) (Nat.lt_irrefl _), Nat.lt_succ_self _⟩

lemma Made.release (h : q.Made) : (q.release n).Made := by
  unfold ByteQuota.release
  split
  · exact h
  · refine ⟨nofun, fun g hg => ?_⟩
    rcases List.mem_append.mp hg with hg | hg
    · exact (h.1 g (Option.mem_toList.mp hg)).2
    · exact h.2 g hg

/-- The budget has counted `held` bytes. -/
structure Counts (q : ByteQuota) (held : ℕ) : Prop where
  used : held = q.used
  bound : q.used ≤ q.limit
  made : q.Made

lemma Counts.acquireSection {held : ℕ} (h : q.Counts held) :
    (q.acquireSection n).1.Counts (held + if (q.acquireSection n).2 = none then n else 0) := by
  have hmade := h.made.acquireSection (n := n)
  rcases acquireSection_cases (q := q) (n := n) with ⟨hfits, heq⟩ | ⟨-, g, hg, hused⟩
  · rw [heq]
    exact ⟨congrArg (· + n) h.used, hfits, h.made⟩
  · rw [hg]
    refine ⟨h.used.trans hused.symm, ?_, hmade⟩
    rw [hused, limit_acquireSection]
    exact h.bound

lemma Counts.tryAcquire {held : ℕ} (h : q.Counts held) :
    (q.tryAcquire n).1.Counts (held + if (q.tryAcquire n).2 then n else 0) := by
  rcases tryAcquire_cases (q := q) (n := n) with ⟨hfits, heq⟩ | heq
  · rw [heq]
    exact ⟨congrArg (· + n) h.used, hfits, h.made⟩
  · rw [heq]
    exact h

/-- Giving back no more than is held is not clamped. -/
lemma Counts.release {held : ℕ} (h : q.Counts held) : (q.release n).Counts (held - n) := by
  have hmade := h.made.release (n := n)
  refine ⟨?_, ?_, hmade⟩ <;> unfold ByteQuota.release <;> split
  · rename_i hn
    rw [hn]
    exact h.used
  · exact congrArg (· - n) h.used
  · exact h.bound
  · exact Nat.le_trans (Nat.sub_le _ _) h.bound

/-- Reserving more does not let a waiter in, and a new channel is made only when its own is
closed. -/
lemma Waits.acquireSection (h : q.Waits g m) : (q.acquireSection n).1.Waits g m := by
  unfold ByteQuota.acquireSection
  split
  · exact ⟨h.current, fun hg => Nat.lt_of_lt_of_le (h.full hg) (by simp only; omega)⟩
  · split
    · exact h
    · rename_i hnone
      refine ⟨fun hg => ?_, h.full⟩
      have hcurrent := h.current hg
      rw [hnone] at hcurrent
      cases hcurrent

lemma Waits.tryAcquire (h : q.Waits g m) : (q.tryAcquire n).1.Waits g m := by
  unfold ByteQuota.tryAcquire
  split
  · exact h
  · exact ⟨h.current, fun hg => Nat.lt_of_lt_of_le (h.full hg) (by simp only; omega)⟩

/-- A release closes the channel that an open waiter waits on. -/
lemma Waits.release (h : q.Waits g m) : (q.release n).Waits g m := by
  unfold ByteQuota.release
  split
  · exact h
  · have hclosed : g ∈ q.changed.toList ++ q.closed := by
      by_cases hg : g ∈ q.closed
      · exact List.mem_append_right _ hg
      · rw [h.current hg]
        exact List.mem_append_left _ (List.mem_singleton_self g)
    exact ⟨fun hg => absurd hclosed hg, fun hg => absurd hclosed hg⟩

lemma waits_of_acquireSection (hg : (q.acquireSection n).2 = some g) :
    (q.acquireSection n).1.Waits g n := by
  unfold ByteQuota.acquireSection at hg ⊢
  split
  · rename_i hfits
    simp [hfits] at hg
  · rename_i hfull
    simp only [hfull, if_false] at hg
    split
    · rename_i g' hg'
      simp only [hg', Option.some.injEq] at hg
      subst hg
      exact ⟨fun _ => hg', fun _ => by simp only; omega⟩
    · rename_i hnone
      simp only [hnone, Option.some.injEq] at hg
      subst hg
      exact ⟨fun _ => rfl, fun _ => by simp only; omega⟩

end ByteQuota

end Ogrenet
