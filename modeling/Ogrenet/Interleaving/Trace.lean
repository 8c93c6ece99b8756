import Ogrenet.Interleaving.Prog

/-!
# Traces

The instructions that a run has carried out, in the order in which it did, whichever goroutines they
belong to.
-/

namespace Interleaving

namespace Machine

variable {I : Type} {R : I → Type} {L V S X E : Type}

/-- The instruction that an event carries out, with its answer. -/
def took (M : Machine I R L V S X E) (p : Process I R L V S) : Event L X E → Option (Sigma R)
  | .run t x =>
    match p.threads[t]? with
    | some ⟨_, .op i _, _⟩ => (M.exec p.shared i x).map fun a => ⟨i, a.2⟩
    | _ => none
  | _ => none

/-- The instructions of a run. -/
def trace (M : Machine I R L V S X E) : Process I R L V S → List (Event L X E) → List (Sigma R)
  | _, [] => []
  | p, e :: es => (M.took p e).toList ++ (M.step p e).elim [] fun q => M.trace q es

variable {M : Machine I R L V S X E} {p q : Process I R L V S}

lemma took_op {t : ℕ} {x : X} {l : L} {i : I} {k : R i → Prog I R (Next L V)}
    {log : List (Sigma R)} {s' : S} {r : R i} (ht : p.threads[t]? = some ⟨l, .op i k, log⟩)
    (hx : M.exec p.shared i x = some (s', r)) : M.took p (.run t x) = some ⟨i, r⟩ := by
  simp only [took, ht, hx, Option.map_some]

lemma took_goto {t : ℕ} {x : X} {l l' : L} {log : List (Sigma R)}
    (ht : p.threads[t]? = some ⟨l, .done (.goto l'), log⟩) : M.took p (.run t x) = none := by
  simp only [took, ht]

/-- What one step makes of the trace so far and of the process, a run makes of them. -/
lemma trace_induction {P : List (Sigma R) → Process I R L V S → Prop}
    (hstep : ∀ tr p e q, P tr p → M.step p e = some q → P (tr ++ (M.took p e).toList) q)
    {es : List (Event L X E)} (hp : P [] p) (h : M.run p es = some q) : P (M.trace p es) q := by
  suffices hall : ∀ es p tr, P tr p → M.run p es = some q → P (tr ++ M.trace p es) q by
    simpa using hall es p [] hp h
  intro es
  induction es with
  | nil =>
    intro p tr hp h
    cases h
    simpa [trace] using hp
  | cons e es ih =>
    intro p tr hp h
    obtain ⟨r, hr, hrun⟩ := Option.bind_eq_some_iff.mp h
    have hq := ih r _ (hstep tr p e r hp hr) hrun
    simpa [trace, hr] using hq

end Machine

end Interleaving
