import Ogrenet.Interleaving.Outline

/-!
# Programs made of calls, and outlines of the past

Most of a program is of no interest to a given property: plain instructions around calls of a few
functions that matter. `Made` says so once, whatever the property, and `Outline.wp_of_made` then
asks only for those instructions and those functions.

In `Outline.past` the context of a goroutine is all that it has done. An invariant over such
contexts speaks of the logs of the goroutines themselves.
-/

namespace Interleaving

variable {I : Type} {R : I → Type} {L V C : Type}

namespace Prog

variable {α β γ : Type}

lemma bind_assoc (p : Prog I R α) (f : α → Prog I R β) (g : β → Prog I R γ) :
    (p >>= f) >>= g = p >>= fun a => f a >>= g := by
  induction p with
  | done a => rfl
  | op i k ih => exact congrArg (Prog.op i) (funext ih)

/-- The program is made of instructions that satisfy `P` and of calls of programs that satisfy `K`,
and every value it may return satisfies `F`, as long as the answers of the instructions satisfy
`A`. An instruction that satisfies `T` with some value is the last before that value. -/
inductive Made (P : I → Prop) (A : (i : I) → R i → Prop) (K : (β : Type) → Prog I R β → Prop)
    {α : Type} (T : I → α → Prop) (F : α → Prop) : Prog I R α → Prop
  | done {a : α} : F a → Made P A K T F (.done a)
  | ask {i : I} {k : R i → Prog I R α} :
      P i → (∀ r, A i r → Made P A K T F (k r)) → Made P A K T F (.op i k)
  | last {i : I} {a : α} : T i a → Made P A K T F (.op i fun _ => .done a)
  | call {β : Type} {p : Prog I R β} {f : β → Prog I R α} :
      K β p → (∀ b, Made P A K T F (f b)) → Made P A K T F (p >>= f)

variable {P : I → Prop} {A : (i : I) → R i → Prop} {K : (β : Type) → Prog I R β → Prop}
  {T : I → α → Prop} {F : α → Prop} {G : β → Prop}

lemma Made.op {i : I} {k : R i → Prog I R α} (hi : P i) (hk : ∀ r, (k r).Made P A K T F) :
    (Prog.op i k).Made P A K T F :=
  .ask hi fun r _ => hk r

lemma Made.bind {T : I → β → Prop} {p : Prog I R α} {f : α → Prog I R β}
    (hp : p.Made P A K (fun _ _ => False) F) (hf : ∀ a, F a → (f a).Made P A K T G) :
    (p >>= f).Made P A K T G := by
  induction hp with
  | done ha => exact hf _ ha
  | ask hi _ ih => exact .ask hi ih
  | last h => exact h.elim
  | call hk _ ih =>
    rw [bind_assoc]
    exact .call hk ih

lemma Made.imp {P' : I → Prop} {A' : (i : I) → R i → Prop} {T' : I → α → Prop} {F' : α → Prop}
    {p : Prog I R α} (hp : p.Made P A K T F) (hP : ∀ i, P i → P' i)
    (hA : ∀ i r, A' i r → A i r) (hT : ∀ i a, T i a → T' i a) (hF : ∀ a, F a → F' a) :
    p.Made P' A' K T' F' := by
  induction hp with
  | done ha => exact .done (hF _ ha)
  | ask hi _ ih => exact .ask (hP _ hi) fun r hr => ih r (hA _ r hr)
  | last h => exact .last (hT _ _ h)
  | call hk _ ih => exact .call hk ih

end Prog

namespace Outline

variable {O : Outline I R L V C} {α : Type}

/-- A property of contexts that the instructions and the calls of a program keep holds where the
program ends. -/
lemma wp_of_made {J : C → Prop} {P : I → Prop} {A : (i : I) → R i → Prop}
    {K : (β : Type) → Prog I R β → Prop} {T : I → α → Prop} {F : α → Prop} {p : Prog I R α}
    {Q : α → C → Prop} (hp : p.Made P A K T F)
    (hP : ∀ i, P i → ∀ c, J c → O.req i c ∧ ∀ r, O.ans i r c → A i r ∧ J (O.upd i r c))
    (hT : ∀ i a, T i a → ∀ c, J c → O.req i c ∧ ∀ r, O.ans i r c → Q a (O.upd i r c))
    (hK : ∀ β q, K β q → ∀ c, J c → O.wp q (fun _ => J) c)
    (hQ : ∀ a c, F a → J c → Q a c) {c : C} (hc : J c) : O.wp p Q c := by
  induction hp generalizing c with
  | done ha => exact hQ _ c ha hc
  | last h => exact hT _ _ h c hc
  | ask hi _ ih =>
    obtain ⟨hreq, hans⟩ := hP _ hi c hc
    exact ⟨hreq, fun r hr => ih r (hans r hr).1 (hans r hr).2⟩
  | call hk _ ih => exact (wp_bind _ _ _ _).mpr (wp_mono (fun b c hc => ih b hc) (hK _ _ hk c hc))

/-! ### The past as context -/

/-- Where a goroutine was started and what it has done since, the latest first. -/
abbrev Past (L : Type) (R : I → Type) := L × List (Sigma R)

/-- The outline whose context is the past of the goroutine. -/
def past (req : (i : I) → Past L R → Prop) (ans : (i : I) → R i → Past L R → Prop)
    (pre : L → Past L R → Prop) (post : V → Past L R → Prop) : Outline I R L V (Past L R) where
  start l := (l, [])
  upd i r c := (c.1, ⟨i, r⟩ :: c.2)
  req := req
  ans := ans
  pre := pre
  post _ := post

variable {req : (i : I) → Past L R → Prop} {ans : (i : I) → R i → Past L R → Prop}
  {pre : L → Past L R → Prop} {post : V → Past L R → Prop}

lemma past_ctx (t : Thread I R L V) : (past req ans pre post).ctx t = (t.entry, t.log) := by
  obtain ⟨l, prog, log⟩ := t
  induction log with
  | nil => rfl
  | cons a log ih =>
    rw [ctx_cons l prog prog, ih]
    rfl

lemma past_ctxs (ts : List (Thread I R L V)) :
    (past req ans pre post).ctxs ts = ts.map fun t => (t.entry, t.log) :=
  List.map_congr_left fun t _ => past_ctx t

lemma mem_past_ctxs {ts : List (Thread I R L V)} {t : Thread I R L V} (ht : t ∈ ts) :
    (t.entry, t.log) ∈ (past req ans pre post).ctxs ts := by
  rw [past_ctxs]
  exact List.mem_map_of_mem ht

/-- The step is allowed, and what follows it goes on whatever the answer. -/
lemma past_step {l : L} {log : List (Sigma R)} {i : I} {k : R i → Prog I R α}
    {Q : α → Past L R → Prop} (hreq : req i (l, log))
    (hk : ∀ r, (past req ans pre post).wp (k r) Q (l, ⟨i, r⟩ :: log)) :
    (past req ans pre post).wp (.op i k) Q (l, log) :=
  ⟨hreq, fun r _ => hk r⟩

/-- A goroutine that is about to take a step has met what the step requires. -/
lemma Holds.past_req {S : Type} {G : S → List (Past L R) → Prop} {p : Process I R L V S}
    (hp : (past req ans pre post).Holds G p) {t : Thread I R L V} (ht : t ∈ p.threads) {i : I}
    {k : R i → Prog I R (Next L V)} (hprog : t.prog = .op i k) : req i (t.entry, t.log) := by
  have hwp := hp.threads t ht
  rw [hprog, past_ctx] at hwp
  exact hwp.1

/-- How often a log has an instruction. -/
def times (f : I → Bool) (log : List (Sigma R)) : ℕ := log.countP fun a => f a.1

lemma times_cons (f : I → Bool) (i : I) (r : R i) (log : List (Sigma R)) :
    times f (⟨i, r⟩ :: log) = times f log + if f i then 1 else 0 := List.countP_cons

/-- A step counts once over all goroutines. -/
lemma total_times_set {f : I → Bool} {cs : List (Past L R)} {t : ℕ} {c : Past L R} {i : I}
    {r : R i} (ht : cs[t]? = some c) :
    total (fun c => times f c.2) (cs.set t (c.1, ⟨i, r⟩ :: c.2)) =
      total (fun c => times f c.2) cs + if f i then 1 else 0 := by
  have htotal := total_set (f := fun c : Past L R => times f c.2) (c.1, ⟨i, r⟩ :: c.2) ht
  simp only [times_cons] at htotal
  omega

end Outline

/-- What a goroutine has done stays done. -/
lemma Machine.exists_past {S X E : Type} {M : Machine I R L V S X E} {p q : Process I R L V S}
    {P : Outline.Past L R → Prop} (hP : ∀ l a log, P (l, log) → P (l, a :: log))
    (h : M.Reaches p q) (hp : ∃ th ∈ p.threads, P (th.entry, th.log)) :
    ∃ th ∈ q.threads, P (th.entry, th.log) := by
  refine Machine.reaches_induction (P := fun p => ∃ th ∈ p.threads, P (th.entry, th.log))
    (fun p e q hp hstep => ?_) hp h
  obtain ⟨t, x, l, i, k, log, s', r, rfl, ht, -, rfl⟩ | ⟨t, x, l, l', log, rfl, ht, rfl⟩ |
    ⟨l, s', rfl, -, rfl⟩ | ⟨x, s', rfl, -, rfl⟩ := M.step_cases hstep
  · exact exists_mem_set (P := fun th : Thread I R L V => P (th.entry, th.log)) ht hp (hP l _ log)
  · exact exists_mem_set (P := fun th : Thread I R L V => P (th.entry, th.log)) ht hp id
  · obtain ⟨th, hth, h⟩ := hp
    exact ⟨th, List.mem_append_left _ hth, h⟩
  · exact hp

end Interleaving
