import Mathlib.Data.List.AList

/-!
# Two maps that are inverse to each other

A table that is searched in both directions is kept as two finite maps. They are inverse to each
other when each has exactly the entries of the other, turned around. The lemmas are about the three
updates of such a table: a new pair, a pair that leaves, and a new left end for a pair.
-/

namespace Bimap

variable {α β : Type} [DecidableEq α] [DecidableEq β]

/-- `f` and `g` have the same pairs. -/
def Inverse (f : AList fun _ : α => β) (g : AList fun _ : β => α) : Prop :=
  ∀ a b, f.lookup a = some b ↔ g.lookup b = some a

namespace Inverse

variable {f : AList fun _ : α => β} {g : AList fun _ : β => α} {a a' : α} {b : β}

lemma empty : Inverse (∅ : AList fun _ : α => β) (∅ : AList fun _ : β => α) := by simp [Inverse]

/-- The left end of a pair has no second partner. -/
lemma right_unique (h : Inverse f g) {b' : β} (hb : g.lookup b = some a)
    (hb' : g.lookup b' = some a) : b = b' :=
  Option.some.inj (((h a b).mpr hb).symm.trans ((h a b').mpr hb'))

lemma left_unique (h : Inverse f g) (ha : f.lookup a = some b) (ha' : f.lookup a' = some b) :
    a = a' :=
  Option.some.inj (((h a b).mp ha).symm.trans ((h a' b).mp ha'))

lemma erase (h : Inverse f g) (hb : g.lookup b = some a) : Inverse (f.erase a) (g.erase b) := by
  intro x y
  by_cases hx : x = a <;> by_cases hy : y = b
  · subst hx hy
    simp [AList.lookup_erase]
  · subst hx
    rw [AList.lookup_erase, AList.lookup_erase_ne hy]
    refine ⟨nofun, fun hg => absurd (h.right_unique hg hb) hy⟩
  · subst hy
    rw [AList.lookup_erase, AList.lookup_erase_ne hx]
    exact ⟨fun hf => absurd (h.left_unique hf ((h a y).mpr hb)) hx, nofun⟩
  · rw [AList.lookup_erase_ne hx, AList.lookup_erase_ne hy]
    exact h x y

lemma insert (h : Inverse f g) (ha : f.lookup a = none) (hb : g.lookup b = none) :
    Inverse (f.insert a b) (g.insert b a) := by
  intro x y
  by_cases hx : x = a <;> by_cases hy : y = b
  · subst hx hy
    simp [AList.lookup_insert]
  · subst hx
    rw [AList.lookup_insert, AList.lookup_insert_ne hy, ← h x y, ha]
    simp [Ne.symm hy]
  · subst hy
    rw [AList.lookup_insert, AList.lookup_insert_ne hx, h x y, hb]
    simp [Ne.symm hx]
  · rw [AList.lookup_insert_ne hx, AList.lookup_insert_ne hy]
    exact h x y

/-- A pair gets a new left end. -/
lemma rebind (h : Inverse f g) (ha : f.lookup a = some b) (ha' : f.lookup a' = none) :
    Inverse ((f.erase a).insert a' b) (g.insert b a') := by
  have hne : a' ≠ a := by
    rintro rfl
    rw [ha] at ha'
    cases ha'
  have hf : (f.erase a).lookup a' = none := by rw [AList.lookup_erase_ne hne, ha']
  intro x y
  refine ((h.erase ((h a b).mp ha)).insert hf (AList.lookup_erase b g) x y).trans ?_
  by_cases hy : y = b
  · subst hy
    rw [AList.lookup_insert, AList.lookup_insert]
  · rw [AList.lookup_insert_ne hy, AList.lookup_insert_ne hy, AList.lookup_erase_ne hy]

end Inverse

end Bimap
