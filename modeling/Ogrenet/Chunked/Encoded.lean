import Mathlib.Data.List.Forall2
import Ogrenet.Chunked.Decoder

/-!
# Decoding a stream of encoded frames

`Decoder.Yields` follows a decoder that has taken some frames off the front of a stream, while the
rest is still arriving. Over a stream that consists of the encodings of a list of messages it yields
the first ones of them, it never fails, and when it needs more it has yielded every message whose
encoding has arrived (`Decoder.Yields.of_framed`).
-/

namespace Chunked.Decoder

variable {α M E : Type} {d : Decoder α M E} {xs rest : List α} {ms : List M}

/-- Taking the frames `ms` off the front of `xs` leaves `rest`. -/
inductive Yields (d : Decoder α M E) (xs : List α) : List M → List α → Prop
  | start : Yields d xs [] xs
  | frame {ms : List M} {rest : List α} {m : M} {n : ℕ} (hy : Yields d xs ms rest)
      (hs : d.step rest = .frame m n) : Yields d xs (ms ++ [m]) (rest.drop n)

/-- What arrives later does not change what was taken. -/
lemma Yields.append (h : d.Yields xs ms rest) (ys : List α) :
    d.Yields (xs ++ ys) ms (rest ++ ys) := by
  induction h with
  | start => exact .start
  | frame hy hs ih =>
    have hnext := Yields.frame ih (d.frame_append ys hs)
    rw [List.drop_append_of_le_length (d.frame_bounds hs).2] at hnext
    exact hnext

/-- Decoding goes on where the frames were taken off. -/
lemma Yields.greedy_eq (h : d.Yields xs ms rest) :
    d.greedy xs = (ms ++ (d.greedy rest).1, (d.greedy rest).2) := by
  induction h with
  | start => rfl
  | frame hy hs ih =>
    rw [ih, greedy_of_frame hs]
    simp

/-- The decoder finds `m` in `f`, and needs all of `f` for it. -/
structure Framed (d : Decoder α M E) (m : M) (f : List α) : Prop where
  whole : d.step f = .frame m f.length
  part : ∀ front back, back ≠ [] → f = front ++ back → d.step front = .need

/-- The front of a stream of frames: the first frame is there, or the decoder needs more. -/
lemma step_of_framed {ms : List M} {fs : List (List α)} (hf : List.Forall₂ d.Framed ms fs)
    (hx : xs <+: fs.flatten) :
    (∃ m ms' f fs', ms = m :: ms' ∧ fs = f :: fs' ∧ f <+: xs ∧ d.step xs = .frame m f.length) ∨
      d.step xs = .need ∧ ∀ f fs', fs = f :: fs' → ¬ f <+: xs := by
  cases hf with
  | nil =>
    rw [List.prefix_nil.mp hx]
    exact Or.inr ⟨d.step_nil, fun f fs' h => by cases h⟩
  | @cons m f ms' fs' hm hrest =>
    rw [List.flatten_cons] at hx
    rcases List.prefix_or_prefix_of_prefix hx (List.prefix_append f fs'.flatten) with h | h
    · obtain ⟨back, hback⟩ := h
      cases back with
      | nil =>
        rw [List.append_nil] at hback
        subst hback
        exact Or.inl ⟨m, ms', _, fs', rfl, rfl, List.prefix_rfl, hm.whole⟩
      | cons b back =>
        refine Or.inr ⟨hm.part xs (b :: back) (by simp) hback.symm, fun f' fs'' heq hpre => ?_⟩
        cases heq
        have hlen := hpre.length_le
        rw [← hback, List.length_append, List.length_cons] at hlen
        omega
    · obtain ⟨ys, rfl⟩ := h
      exact Or.inl ⟨m, ms', f, fs', rfl, rfl, List.prefix_append _ _, d.frame_append ys hm.whole⟩

lemma take_succ_of_drop {fs fs' : List (List α)} {f : List α} {k : ℕ}
    (h : fs.drop k = f :: fs') : fs.take (k + 1) = fs.take k ++ [f] := by
  rw [List.take_add, h]
  rfl

/-- What a decoder yields from the part of a stream of frames that has arrived. -/
structure Yielded (d : Decoder α M E) (all : List M) (fs : List (List α)) (xs : List α)
    (ms : List M) (rest : List α) : Prop where
  first : ms <+: all
  taken : xs = (fs.take ms.length).flatten ++ rest
  ahead : rest <+: (fs.drop ms.length).flatten

namespace Yields

variable {all : List M} {fs : List (List α)}

lemma of_framed (hf : List.Forall₂ d.Framed all fs) (hx : xs <+: fs.flatten)
    (h : d.Yields xs ms rest) : d.Yielded all fs xs ms rest := by
  induction h with
  | start => exact ⟨List.nil_prefix, rfl, hx⟩
  | @frame ms rest m n hy hs ih =>
    have hdrop : List.Forall₂ d.Framed (all.drop ms.length) (fs.drop ms.length) :=
      List.forall₂_drop ms.length hf
    obtain ⟨m', all', f, fs', hall, hfs, hpre, hstep⟩ | ⟨hneed, -⟩ :=
      step_of_framed hdrop ih.ahead
    · cases hs.symm.trans hstep
      obtain ⟨back, rfl⟩ := hpre
      have hback : back <+: fs'.flatten := by
        have hahead := ih.ahead
        rwa [hfs, List.flatten_cons, List.prefix_append_right_inj] at hahead
      have hdrop' : fs.drop (ms.length + 1) = fs' := by
        rw [← List.drop_drop, hfs]
        rfl
      constructor
      · obtain ⟨tail, rfl⟩ := ih.first
        rw [List.drop_left] at hall
        subst hall
        exact ⟨all', by simp⟩
      · rw [List.length_append, List.length_singleton, take_succ_of_drop hfs, List.drop_left]
        simpa using ih.taken
      · rw [List.length_append, List.length_singleton, hdrop', List.drop_left]
        exact hback
    · cases hs.symm.trans hneed

/-- A decoder that needs more has taken every frame that has arrived. -/
lemma all_of_need (hf : List.Forall₂ d.Framed all fs) (hx : xs <+: fs.flatten)
    (h : d.Yields xs ms rest) (hneed : d.step rest = .need) {n : ℕ} (hn : n ≤ fs.length)
    (harrived : (fs.take n).flatten <+: xs) : n ≤ ms.length := by
  obtain ⟨-, htaken, hahead⟩ := h.of_framed hf hx
  by_contra hlt
  have hlt := Nat.not_le.mp hlt
  have hdrop := List.forall₂_drop ms.length hf
  obtain ⟨m', all', f, fs', -, hfs, -, hstep⟩ | ⟨-, hnot⟩ := step_of_framed hdrop hahead
  · cases hneed.symm.trans hstep
  · obtain ⟨f, fs', hfs⟩ : ∃ f fs', fs.drop ms.length = f :: fs' := by
      apply List.exists_cons_of_ne_nil
      intro hnil
      have := List.drop_eq_nil_iff.mp hnil
      omega
    apply hnot f fs' hfs
    -- the frame after the taken ones has arrived with the first `n`
    have hpre : (fs.take (ms.length + 1)).flatten <+: xs := by
      refine List.IsPrefix.trans ?_ harrived
      obtain ⟨tail, htail⟩ : fs.take (ms.length + 1) <+: fs.take n :=
        List.take_prefix_take_left hlt
      rw [← htail, List.flatten_append]
      exact List.prefix_append _ _
    rw [take_succ_of_drop hfs, List.flatten_append, htaken, List.prefix_append_right_inj] at hpre
    simpa using hpre

/-- Over a stream of frames a decoder does not fail. -/
lemma step_ne_fail (hf : List.Forall₂ d.Framed all fs) (hx : xs <+: fs.flatten)
    (h : d.Yields xs ms rest) (e : E) : d.step rest ≠ .fail e := by
  intro hfail
  have hdrop := List.forall₂_drop ms.length hf
  obtain ⟨m', all', f, fs', -, -, -, hstep⟩ | ⟨hneed, -⟩ :=
    step_of_framed hdrop (h.of_framed hf hx).ahead
  · cases hfail.symm.trans hstep
  · cases hfail.symm.trans hneed

end Yields

end Chunked.Decoder
