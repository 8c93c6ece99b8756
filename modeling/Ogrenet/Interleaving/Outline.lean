import Ogrenet.Interleaving.Prog
import Ogrenet.Interleaving.Total

/-!
# Proof outlines

An outline annotates programs with a context: what a goroutine holds and what it has observed,
computed from the instructions it has had answered. `req` says what the context must hold before
an instruction is issued and `ans` which answers the context leaves possible. `wp` carries the
context through a program.

`G s cs` relates the shared state to the contexts of all goroutines. When every instruction keeps
`G` for a goroutine that meets `req`, and every body meets its outline, `G` holds of every process
that is reached and every goroutine is inside its outline (`Outline.Sound.reaches`). Programs are
thus checked one at a time and instructions once, whatever the interleaving.
-/

namespace Interleaving

variable {I : Type} {R : I → Type} {L V S X E C : Type}

structure Outline (I : Type) (R : I → Type) (L V C : Type) where
  /-- The context of a goroutine that has just been started. -/
  start : L → C
  /-- The context after an instruction and its answer. -/
  upd : (i : I) → R i → C → C
  req : (i : I) → C → Prop
  ans : (i : I) → R i → C → Prop
  /-- What holds of the context where a body is entered. -/
  pre : L → C → Prop
  /-- What holds of the context where a goroutine started at a label returns. -/
  post : L → V → C → Prop

namespace Outline

/-- The weakest precondition of a program: `Q` holds of the value it returns. -/
def wp (O : Outline I R L V C) {α : Type} : Prog I R α → (α → C → Prop) → C → Prop
  | .done a, Q, c => Q a c
  | .op i k, Q, c => O.req i c ∧ ∀ r, O.ans i r c → O.wp (k r) Q (O.upd i r c)

/-- Where a piece of a goroutine started at `l₀` may end. -/
def ends (O : Outline I R L V C) (l₀ : L) : Next L V → C → Prop
  | .goto l, c => O.pre l c
  | .ret v, c => O.post l₀ v c

def ctx (O : Outline I R L V C) (t : Thread I R L V) : C :=
  t.log.foldr (fun a c => O.upd a.1 a.2 c) (O.start t.entry)

def ctxs (O : Outline I R L V C) (ts : List (Thread I R L V)) : List C := ts.map O.ctx

variable {O : Outline I R L V C} {α β : Type}

@[simp] lemma wp_done (a : α) (Q : α → C → Prop) (c : C) : O.wp (.done a) Q c = Q a c := rfl

@[simp] lemma wp_op (i : I) (k : R i → Prog I R α) (Q : α → C → Prop) (c : C) :
    O.wp (.op i k) Q c = (O.req i c ∧ ∀ r, O.ans i r c → O.wp (k r) Q (O.upd i r c)) := rfl

@[simp] lemma wp_pure (a : α) (Q : α → C → Prop) (c : C) :
    O.wp (pure a) Q c = Q a c := rfl

lemma wp_perform (i : I) (Q : R i → C → Prop) (c : C) :
    O.wp (Prog.perform i) Q c = (O.req i c ∧ ∀ r, O.ans i r c → Q r (O.upd i r c)) := rfl

lemma wp_bind (p : Prog I R α) (f : α → Prog I R β) (Q : β → C → Prop) (c : C) :
    O.wp (p >>= f) Q c ↔ O.wp p (fun a c => O.wp (f a) Q c) c := by
  induction p generalizing c with
  | done a => exact Iff.rfl
  | op i k ih =>
    simp only [Prog.bind_op, wp_op]
    exact and_congr_right fun _ => forall_congr' fun r => imp_congr_right fun _ => ih r _

lemma wp_mono {p : Prog I R α} {Q Q' : α → C → Prop} (hQ : ∀ a c, Q a c → Q' a c) {c : C}
    (h : O.wp p Q c) : O.wp p Q' c := by
  induction p generalizing c with
  | done a => exact hQ a c h
  | op i k ih => exact ⟨h.1, fun r hr => ih r (h.2 r hr)⟩

/-- A property of contexts that every instruction of a program keeps holds where the program
ends. -/
lemma wp_of_within {J : C → Prop} {F : α → Prop} {p : Prog I R α} {Q : α → C → Prop}
    (hp : p.Within (fun i => ∀ c, J c → O.req i c ∧ ∀ r, O.ans i r c → J (O.upd i r c)) F)
    (hQ : ∀ a c, F a → J c → Q a c) {c : C} (hc : J c) : O.wp p Q c := by
  induction p generalizing c with
  | done a => exact hQ a c hp hc
  | op i k ih =>
    obtain ⟨hi, hk⟩ := hp
    exact ⟨(hi c hc).1, fun r hr => ih r (hk r) ((hi c hc).2 r hr)⟩

@[simp] lemma ends_goto (l₀ l : L) (c : C) : O.ends l₀ (.goto l) c = O.pre l c := rfl

@[simp] lemma ends_ret (l₀ : L) (v : V) (c : C) : O.ends l₀ (.ret v) c = O.post l₀ v c := rfl

@[simp] lemma ctx_nil (l : L) (p : Prog I R (Next L V)) : O.ctx ⟨l, p, []⟩ = O.start l := rfl

@[simp] lemma ctx_cons (l : L) (p q : Prog I R (Next L V)) (a : Sigma R) (log : List (Sigma R)) :
    O.ctx ⟨l, p, a :: log⟩ = O.upd a.1 a.2 (O.ctx ⟨l, q, log⟩) := rfl

lemma ctxs_set (ts : List (Thread I R L V)) (t : ℕ) (th : Thread I R L V) :
    O.ctxs (ts.set t th) = (O.ctxs ts).set t (O.ctx th) := by simp [ctxs, List.map_set]

lemma ctxs_getElem? {ts : List (Thread I R L V)} {t : ℕ} {th : Thread I R L V}
    (h : ts[t]? = some th) : (O.ctxs ts)[t]? = some (O.ctx th) := by simp [ctxs, h]

lemma ctxs_append (ts : List (Thread I R L V)) (th : Thread I R L V) :
    O.ctxs (ts ++ [th]) = O.ctxs ts ++ [O.ctx th] := by simp [ctxs]

/-- The process is inside the outline: the shared state fits the contexts and every goroutine has
its outline ahead of it. -/
structure Holds (O : Outline I R L V C) (G : S → List C → Prop) (p : Process I R L V S) :
    Prop where
  shared : G p.shared (O.ctxs p.threads)
  threads : ∀ t ∈ p.threads, O.wp t.prog (O.ends t.entry) (O.ctx t)

/-- The proof obligations of an outline, for the steps that `ok` allows. -/
structure Sound (M : Machine I R L V S X E) (O : Outline I R L V C) (G : S → List C → Prop)
    (ok : Process I R L V S → Event L X E → Prop) : Prop where
  body : ∀ l₀ l c, O.pre l c → O.wp (M.body l) (O.ends l₀) c
  exec : ∀ (p : Process I R L V S) t x th i k s' r, ok p (.run t x) →
    p.threads[t]? = some th → th.prog = .op i k → G p.shared (O.ctxs p.threads) →
    O.req i (O.ctx th) → M.exec p.shared i x = some (s', r) →
    O.ans i r (O.ctx th) ∧ G s' ((O.ctxs p.threads).set t (O.upd i r (O.ctx th)))
  spawn : ∀ (p : Process I R L V S) l s', ok p (.spawn l) → G p.shared (O.ctxs p.threads) →
    M.spawn p.shared l = some s' →
    O.pre l (O.start l) ∧ G s' (O.ctxs p.threads ++ [O.start l])
  env : ∀ (p : Process I R L V S) e s', ok p (.env e) → G p.shared (O.ctxs p.threads) →
    M.env p.shared e = some s' → G s' (O.ctxs p.threads)

namespace Sound

variable {M : Machine I R L V S X E} {G : S → List C → Prop}
  {ok : Process I R L V S → Event L X E → Prop}

/-- One allowed step keeps the process inside its outline. -/
lemma step (hO : Sound M O G ok) {p q : Process I R L V S} {e : Event L X E}
    (hp : O.Holds G p) (hok : ok p e) (h : M.step p e = some q) : O.Holds G q := by
  obtain ⟨t, x, l, i, k, log, s', r, rfl, ht, hx, rfl⟩ | ⟨t, x, l, l', log, rfl, ht, rfl⟩ |
    ⟨l, s', rfl, hs, rfl⟩ | ⟨x, s', rfl, hs, rfl⟩ := M.step_cases h
  · obtain ⟨hreq, hk⟩ := hp.threads _ (List.mem_of_getElem? ht)
    obtain ⟨hans, hG⟩ := hO.exec p t x _ i k s' r hok ht rfl hp.shared hreq hx
    refine ⟨by rw [ctxs_set]; exact hG, fun th hth => ?_⟩
    rcases List.mem_or_eq_of_mem_set hth with hth | rfl
    · exact hp.threads th hth
    · exact hk r hans
  · refine ⟨?_, fun th hth => ?_⟩
    · -- going to a label moves neither the shared state nor the context
      have hctx := ctxs_getElem? (O := O) ht
      have hset : (O.ctxs p.threads).set t (O.ctx ⟨l, M.body l', log⟩) = O.ctxs p.threads :=
        set_of_getElem? hctx
      simpa only [ctxs_set, hset] using hp.shared
    · rcases List.mem_or_eq_of_mem_set hth with hth | rfl
      · exact hp.threads th hth
      · exact hO.body l l' _ (hp.threads _ (List.mem_of_getElem? ht))
  · obtain ⟨hpre, hG⟩ := hO.spawn p l s' hok hp.shared hs
    refine ⟨by rw [ctxs_append]; exact hG, fun th hth => ?_⟩
    rcases List.mem_append.mp hth with hth | hth
    · exact hp.threads th hth
    · cases List.mem_singleton.mp hth
      exact hO.body l l _ hpre
  · exact ⟨hO.env p x s' hok hp.shared hs, hp.threads⟩

/-- A run of allowed steps stays inside the outline. -/
lemma run (hO : Sound M O G ok) {p q : Process I R L V S} {es : List (Event L X E)}
    (hp : O.Holds G p) (h : M.run p es = some q)
    (hok : ∀ es₁ e es₂ r, es = es₁ ++ e :: es₂ → M.run p es₁ = some r → ok r e) : O.Holds G q :=
  Machine.run_induction ok (fun _ _ _ hp hok h => hO.step hp hok h) hp h hok

/-- An outline that allows every step holds of every process that is reached. -/
lemma reaches (hO : Sound M O G fun _ _ => True) {p q : Process I R L V S}
    (hp : O.Holds G p) (h : M.Reaches p q) : O.Holds G q :=
  Machine.reaches_induction (fun _ _ _ hp h => hO.step hp trivial h) hp h

/-- A preorder on shared states that every step follows is followed by every run. -/
lemma run_le (hO : Sound M O G ok) {r : S → S → Prop} (hrefl : ∀ s, r s s)
    (htrans : ∀ s₁ s₂ s₃, r s₁ s₂ → r s₂ s₃ → r s₁ s₃)
    (hexec : ∀ s cs (t : ℕ) c i x s' a, G s cs → cs[t]? = some c → O.req i c →
      M.exec s i x = some (s', a) → r s s')
    (hspawn : ∀ s l s', M.spawn s l = some s' → r s s')
    (henv : ∀ s e s', M.env s e = some s' → r s s')
    {p q : Process I R L V S} {es : List (Event L X E)} (hp : O.Holds G p)
    (h : M.run p es = some q)
    (hok : ∀ es₁ e es₂ p', es = es₁ ++ e :: es₂ → M.run p es₁ = some p' → ok p' e) :
    r p.shared q.shared := by
  refine (Machine.run_induction (P := fun q => O.Holds G q ∧ r p.shared q.shared) ok ?_
    ⟨hp, hrefl _⟩ h hok).2
  rintro p₁ e p₂ ⟨hp₁, hr⟩ hok₁ hstep
  refine ⟨hO.step hp₁ hok₁ hstep, htrans _ _ _ hr ?_⟩
  obtain ⟨t, x, l, i, k, log, s', a, rfl, ht, hx, rfl⟩ | ⟨t, x, l, l', log, rfl, ht, rfl⟩ |
    ⟨l, s', rfl, hs, rfl⟩ | ⟨x, s', rfl, hs, rfl⟩ := M.step_cases hstep
  · exact hexec _ _ t _ i x s' a hp₁.shared (ctxs_getElem? ht)
      (hp₁.threads _ (List.mem_of_getElem? ht)).1 hx
  · exact hrefl _
  · exact hspawn _ l s' hs
  · exact henv _ x s' hs

end Sound

end Outline

end Interleaving
