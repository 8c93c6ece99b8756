import Mathlib.Tactic.Common

/-!
# Decoding a stream that arrives in pieces

A `Decoder` looks at the front of a stream and finds a frame, an error, or that it needs more. More
input never changes a frame or an error it has found. Decoding a stream as a whole, over and over at
its front, is `Decoder.greedy`; decoding it piece by piece, keeping what is left over between the
pieces in a bounded buffer, is `Decoder.feed`. Both give the same frames and end the same way,
unless the buffer overflows (`Decoder.feed_eq_greedy`), and it does not overflow when every
incomplete frame of the stream fits (`Decoder.feed_ne_overflow`).
-/

namespace Chunked

variable {α M E : Type}

inductive Verdict (M E : Type) where
  | need
  | fail (e : E)
  /-- A frame of the first `n` elements. -/
  | frame (m : M) (n : ℕ)
  deriving DecidableEq, Repr

structure Decoder (α M E : Type) where
  step : List α → Verdict M E
  step_nil : step [] = .need
  frame_bounds : ∀ {xs m n}, step xs = .frame m n → 0 < n ∧ n ≤ xs.length
  frame_append : ∀ {xs m n} ys, step xs = .frame m n → step (xs ++ ys) = .frame m n
  fail_append : ∀ {xs e} ys, step xs = .fail e → step (xs ++ ys) = .fail e

/-- Where decoding stops: with a rest that needs more, or with an error. -/
inductive Stop (α E : Type) where
  | blocked (rest : List α)
  | failed (e : E)
  deriving DecidableEq, Repr

/-- How decoding piece by piece ends. -/
inductive End (E : Type) where
  | ended
  | failed (e : E)
  | overflow
  deriving DecidableEq, Repr

def Stop.toEnd : Stop α E → End E
  | .blocked _ => .ended
  | .failed e => .failed e

namespace Decoder

/-- `greedy` with at most `n` frames. -/
def greedyFrom (d : Decoder α M E) : ℕ → List α → List M × Stop α E
  | 0, xs => ([], .blocked xs)
  | n + 1, xs =>
    match d.step xs with
    | .need => ([], .blocked xs)
    | .fail e => ([], .failed e)
    | .frame m k => (m :: (greedyFrom d n (xs.drop k)).1, (greedyFrom d n (xs.drop k)).2)

/-- Decodes as many frames as there are at the front of `xs`. -/
def greedy (d : Decoder α M E) (xs : List α) : List M × Stop α E := d.greedyFrom (xs.length + 1) xs

variable {d : Decoder α M E} {xs ys : List α} {m : M} {e : E} {n k : ℕ} {ms : List M}

/-- Every frame takes something off the stream, so its length is fuel enough. -/
lemma greedyFrom_congr (hn : xs.length < n) (hk : xs.length < k) :
    d.greedyFrom n xs = d.greedyFrom k xs := by
  induction n generalizing xs k with
  | zero => omega
  | succ n ih =>
    obtain ⟨k, rfl⟩ : ∃ k', k = k' + 1 := ⟨k - 1, by omega⟩
    simp only [greedyFrom]
    cases hs : d.step xs with
    | need | fail e => rfl
    | frame m l =>
      obtain ⟨hpos, hle⟩ := d.frame_bounds hs
      have hlen : (xs.drop l).length < xs.length := by
        rw [List.length_drop]
        omega
      simp only [@ih (xs.drop l) k (by omega) (by omega)]

lemma greedy_of_need (h : d.step xs = .need) : d.greedy xs = ([], .blocked xs) := by
  simp only [greedy, greedyFrom, h]

lemma greedy_of_fail (h : d.step xs = .fail e) : d.greedy xs = ([], .failed e) := by
  simp only [greedy, greedyFrom, h]

lemma greedy_of_frame (h : d.step xs = .frame m n) :
    d.greedy xs = (m :: (d.greedy (xs.drop n)).1, (d.greedy (xs.drop n)).2) := by
  obtain ⟨hpos, hle⟩ := d.frame_bounds h
  have hlen : (xs.drop n).length < xs.length := by
    rw [List.length_drop]
    omega
  have hfuel : d.greedyFrom xs.length (xs.drop n) = d.greedy (xs.drop n) :=
    greedyFrom_congr hlen (Nat.lt_succ_self _)
  rw [greedy]
  simp only [greedyFrom, h, hfuel]

/-- Induction along the frames of a stream. -/
lemma frames_induction {P : List α → Prop} (need : ∀ xs, d.step xs = .need → P xs)
    (fail : ∀ xs e, d.step xs = .fail e → P xs)
    (frame : ∀ xs m n, d.step xs = .frame m n → P (xs.drop n) → P xs) (xs : List α) : P xs := by
  induction hl : xs.length using Nat.strongRecOn generalizing xs with
  | ind l ih =>
    cases hs : d.step xs with
    | need => exact need xs hs
    | fail e => exact fail xs e hs
    | frame m n =>
      obtain ⟨hpos, hle⟩ := d.frame_bounds hs
      refine frame xs m n hs (ih (xs.drop n).length ?_ _ rfl)
      rw [List.length_drop]
      omega

/-- What is left over needs more. -/
lemma step_of_blocked {rest : List α} (h : d.greedy xs = (ms, .blocked rest)) :
    d.step rest = .need := by
  induction xs using frames_induction (d := d) generalizing ms with
  | need xs hs =>
    rw [greedy_of_need hs] at h
    cases h
    exact hs
  | fail xs e hs =>
    rw [greedy_of_fail hs] at h
    cases h
  | frame xs m n hs ih =>
    rw [greedy_of_frame hs] at h
    obtain ⟨-, h⟩ := Prod.mk.inj h
    exact ih (Prod.ext rfl h)

/-- More input goes on where decoding was blocked. -/
lemma greedy_append_of_blocked {rest : List α} (h : d.greedy xs = (ms, .blocked rest))
    (ys : List α) :
    d.greedy (xs ++ ys) = (ms ++ (d.greedy (rest ++ ys)).1, (d.greedy (rest ++ ys)).2) := by
  induction xs using frames_induction (d := d) generalizing ms with
  | need xs hs =>
    rw [greedy_of_need hs] at h
    cases h
    rfl
  | fail xs e hs =>
    rw [greedy_of_fail hs] at h
    cases h
  | frame xs m n hs ih =>
    rw [greedy_of_frame hs] at h
    obtain ⟨rfl, hstop⟩ := Prod.mk.inj h
    have hdrop : (xs ++ ys).drop n = xs.drop n ++ ys :=
      List.drop_append_of_le_length (d.frame_bounds hs).2
    rw [greedy_of_frame (d.frame_append ys hs), hdrop, ih (Prod.ext rfl hstop)]
    rfl

/-- More input does not change an error. -/
lemma greedy_append_of_failed (h : d.greedy xs = (ms, .failed e)) (ys : List α) :
    d.greedy (xs ++ ys) = (ms, .failed e) := by
  induction xs using frames_induction (d := d) generalizing ms with
  | need xs hs =>
    rw [greedy_of_need hs] at h
    cases h
  | fail xs e' hs =>
    rw [greedy_of_fail hs] at h
    cases h
    exact greedy_of_fail (d.fail_append ys hs)
  | frame xs m n hs ih =>
    rw [greedy_of_frame hs] at h
    obtain ⟨rfl, hstop⟩ := Prod.mk.inj h
    have hdrop : (xs ++ ys).drop n = xs.drop n ++ ys :=
      List.drop_append_of_le_length (d.frame_bounds hs).2
    rw [greedy_of_frame (d.frame_append ys hs), hdrop, ih (Prod.ext rfl hstop)]

/-! ### Piece by piece -/

/-- Decodes the pieces one after the other. At most `cap` elements are kept between two pieces. -/
def feed (d : Decoder α M E) (cap : ℕ) : List α → List (List α) → List M × End E
  | _, [] => ([], .ended)
  | pending, piece :: pieces =>
    match d.greedy (pending ++ piece) with
    | (ms, .failed e) => (ms, .failed e)
    | (ms, .blocked rest) =>
      if cap < rest.length then (ms, .overflow)
      else (ms ++ (feed d cap rest pieces).1, (feed d cap rest pieces).2)

variable {cap : ℕ} {pending : List α} {pieces : List (List α)}

/-- The pieces do not matter, as long as the buffer does not overflow. -/
theorem feed_eq_greedy (hp : d.step pending = .need)
    (hne : (d.feed cap pending pieces).2 ≠ .overflow) :
    d.feed cap pending pieces = ((d.greedy (pending ++ pieces.flatten)).1,
      (d.greedy (pending ++ pieces.flatten)).2.toEnd) := by
  induction pieces generalizing pending with
  | nil =>
    rw [List.flatten_nil, List.append_nil, greedy_of_need hp]
    rfl
  | cons piece pieces ih =>
    rw [List.flatten_cons, ← List.append_assoc]
    rcases hg : d.greedy (pending ++ piece) with ⟨ms, stop⟩
    cases stop with
    | failed e =>
      rw [greedy_append_of_failed hg]
      simp only [feed, hg, Stop.toEnd]
    | blocked rest =>
      rw [greedy_append_of_blocked hg]
      simp only [feed, hg] at hne ⊢
      split
      · rename_i hcap
        rw [if_pos hcap] at hne
        exact absurd rfl hne
      · rename_i hcap
        rw [if_neg hcap] at hne
        rw [ih (step_of_blocked hg) hne]

/-- One frame in pieces: the buffer overflows when the pieces before the last one do not fit. -/
lemma feed_of_frame (hframe : d.step xs = .frame m xs.length)
    (hneed : ∀ front back, back ≠ [] → xs = front ++ back → d.step front = .need)
    (hpieces : ∀ piece ∈ pieces, piece ≠ []) (hne : pieces ≠ [])
    (hxs : xs = pending ++ pieces.flatten) (hcap : pending.length ≤ cap) :
    d.feed cap pending pieces =
      if cap < (pending ++ pieces.dropLast.flatten).length then ([], .overflow)
      else ([m], .ended) := by
  induction pieces generalizing pending with
  | nil => exact absurd rfl hne
  | cons piece pieces ih =>
    obtain ⟨-, hpieces⟩ := List.forall_mem_cons.mp hpieces
    rw [List.flatten_cons, ← List.append_assoc] at hxs
    by_cases hlast : pieces = []
    · -- the last piece completes the frame
      subst hlast
      rw [List.flatten_nil, List.append_nil] at hxs
      have hnil : d.greedy [] = ([], .blocked []) := greedy_of_need d.step_nil
      simp [feed, ← hxs, greedy_of_frame hframe, hnil, Nat.not_lt.mpr hcap]
    · -- the frame is not complete yet
      have hback : pieces.flatten ≠ [] := by
        obtain ⟨p, ps, rfl⟩ := List.exists_cons_of_ne_nil hlast
        have hp := (List.forall_mem_cons.mp hpieces).1
        simp [hp]
      have hg := greedy_of_need (hneed _ _ hback hxs)
      rw [List.dropLast_cons_of_ne_nil hlast, List.flatten_cons, ← List.append_assoc]
      simp only [feed, hg]
      split
      · rename_i hfull
        rw [if_pos (Nat.lt_of_lt_of_le hfull (by simp))]
      · rename_i hfits
        rw [ih hpieces hlast hxs (Nat.not_lt.mp hfits)]
        split <;> rfl

/-- The rest of the stream `xs` after some of its frames. -/
inductive After (d : Decoder α M E) : List α → List α → Prop
  | refl (xs : List α) : After d xs xs
  | frame {xs ys : List α} {m : M} {n : ℕ} (h : d.step xs = .frame m n)
      (hr : After d (xs.drop n) ys) : After d xs ys

/-- What is left over stands at a frame of the whole stream. -/
lemma after_of_blocked {rest : List α} (h : d.greedy xs = (ms, .blocked rest)) (ys : List α) :
    d.After (xs ++ ys) (rest ++ ys) := by
  induction xs using frames_induction (d := d) generalizing ms with
  | need xs hs =>
    rw [greedy_of_need hs] at h
    cases h
    exact .refl _
  | fail xs e hs =>
    rw [greedy_of_fail hs] at h
    cases h
  | frame xs m n hs ih =>
    rw [greedy_of_frame hs] at h
    obtain ⟨-, hstop⟩ := Prod.mk.inj h
    refine .frame (d.frame_append ys hs) ?_
    rw [List.drop_append_of_le_length (d.frame_bounds hs).2]
    exact ih (Prod.ext rfl hstop)

lemma After.trans {zs : List α} (h : d.After xs ys) (h' : d.After ys zs) : d.After xs zs := by
  induction h with
  | refl xs => exact h'
  | frame hs _ ih => exact .frame hs (ih h')

/-- The stream is a whole number of frames. -/
inductive Whole (d : Decoder α M E) : List α → Prop
  | nil : Whole d []
  | frame {xs : List α} {m : M} {n : ℕ} (h : d.step xs = .frame m n) (hw : Whole d (xs.drop n)) :
      Whole d xs

/-- After some frames, the stream ends inside the next one. -/
def Truncated (d : Decoder α M E) (xs : List α) : Prop :=
  ∃ rest, rest ≠ [] ∧ d.After xs rest ∧ d.step rest = .need

lemma whole_of_blocked (h : d.greedy xs = (ms, .blocked [])) : d.Whole xs := by
  induction xs using frames_induction (d := d) generalizing ms with
  | need xs hs =>
    rw [greedy_of_need hs] at h
    cases h
    exact .nil
  | fail xs e hs =>
    rw [greedy_of_fail hs] at h
    cases h
  | frame xs m n hs ih =>
    rw [greedy_of_frame hs] at h
    obtain ⟨-, hstop⟩ := Prod.mk.inj h
    exact .frame hs (ih (Prod.ext rfl hstop))

lemma truncated_of_blocked {rest : List α} (h : d.greedy xs = (ms, .blocked rest))
    (hne : rest ≠ []) : d.Truncated xs := by
  have hafter := after_of_blocked h []
  rw [List.append_nil, List.append_nil] at hafter
  exact ⟨rest, hne, hafter, step_of_blocked h⟩

/-- Decoding a truncated stream is blocked before its end. -/
lemma Truncated.blocked (h : d.Truncated xs) :
    ∃ ms rest, d.greedy xs = (ms, .blocked rest) ∧ rest ≠ [] := by
  obtain ⟨rest, hne, hafter, hneed⟩ := h
  induction hafter with
  | refl xs => exact ⟨[], xs, greedy_of_need hneed, hne⟩
  | frame hs _ ih =>
    obtain ⟨ms, rest', hg, hne'⟩ := ih hne hneed
    rw [greedy_of_frame hs, hg]
    exact ⟨_, rest', rfl, hne'⟩

lemma Truncated.not_whole (h : d.Truncated xs) : ¬ d.Whole xs := by
  intro hw
  obtain ⟨rest, hne, hafter, hneed⟩ := h
  induction hafter with
  | refl xs =>
    cases hw with
    | nil => exact hne rfl
    | frame hs => cases hs.symm.trans hneed
  | frame hs hr ih =>
    cases hw with
    | nil => cases hs.symm.trans d.step_nil
    | frame hs' hw =>
      cases hs.symm.trans hs'
      exact ih hw hne hneed

/-- Every incomplete frame at the front of a rest of the stream `xs` fits into `cap`. -/
def Fits (d : Decoder α M E) (cap : ℕ) (xs : List α) : Prop :=
  ∀ front back, d.After xs (front ++ back) → d.step front = .need → front.length ≤ cap

/-- The buffer does not overflow when every incomplete frame fits. -/
theorem feed_ne_overflow (hf : d.Fits cap (pending ++ pieces.flatten)) :
    (d.feed cap pending pieces).2 ≠ .overflow := by
  induction pieces generalizing pending with
  | nil => exact nofun
  | cons piece pieces ih =>
    rw [List.flatten_cons, ← List.append_assoc] at hf
    rcases hg : d.greedy (pending ++ piece) with ⟨ms, stop⟩
    cases stop with
    | failed e =>
      simp only [feed, hg]
      exact nofun
    | blocked rest =>
      have hafter := after_of_blocked hg pieces.flatten
      have hcap := hf rest pieces.flatten hafter (step_of_blocked hg)
      simp only [feed, hg, if_neg (Nat.not_lt.mpr hcap)]
      exact ih fun front back hr hs => hf front back (hafter.trans hr) hs

end Decoder

end Chunked
