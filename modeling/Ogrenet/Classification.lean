import Ogrenet.Errors

/-!
# Classification of errors

`classifyOperational` puts a cause that carries no `*transport.Error` into an envelope, under a
category sentinel of the envelope's kind where the cause does not match one already. Nothing that
`errors.Is` found in the cause is lost, and only category sentinels are added.
-/

namespace Ogrenet

/-- The category sentinels of a kind. -/
def ErrorKind.categories : ErrorKind → List Sentinel
  | .unknown => []
  | .closed => [.closed]
  | .peerClosed => [.peerClosed]
  | .timeout => [.timeout]
  | .refused => [.connectionRefused]
  | .reset => [.connectionReset]
  | .dns => [.dns]
  | .tls => [.tls]
  | .protocol => [.protocolViolation]
  | .resourceExhausted => [.resourceExhausted]
  | .backpressure => [.wouldBlock]
  | .tooLarge => [.messageTooLarge, .datagramTooLarge]

/-- A target of `errors.Is`: a sentinel, or any other error value. Of the latter, `same` says which
nodes of an error tree are that value or have an `Is` method of their own that accepts it. -/
inductive Target where
  | sentinel (s : Sentinel)
  | value (same : Err → Bool)

namespace Err

/-- Some node of the tree is accepted. -/
def any (same : Err → Bool) (e : Err) : Bool :=
  (e.findAs fun n => if same n then some () else none).isSome

/-- `errors.Is`. -/
def isTarget (e : Err) : Target → Bool
  | .sentinel s => e.is s
  | .value same => e.any same

/-- The kind of the `*transport.Error` that `errors.As` finds. -/
def kind? (e : Err) : Option ErrorKind :=
  e.findAs fun | operational envelope _ => some envelope.kind | _ => none

end Err

/-- The target is none of the wrappers that a call made around `cause` in its result. -/
def Target.NotMade (cause result : Err) : Target → Prop
  | .sentinel _ => True
  | .value same => same result = false ∧ ∀ envelope category,
      result = .operational envelope (.categorizedCause category cause) →
      same (.categorizedCause category cause) = false

/-! ### What the call makes -/

/-- The result is an envelope of this kind around the cause, under a category of the kind where one
is needed. -/
def Err.Enveloping (kind : ErrorKind) (cause result : Err) : Prop :=
  ∃ envelope inner, envelope.kind = kind ∧ result = .operational envelope inner ∧
    (inner = cause ∨ ∃ category ∈ kind.categories, inner = .categorizedCause category cause) ∧
    (kind ≠ .unknown → ∃ category ∈ kind.categories, inner.is category = true)

section Enveloping

variable {op : Op} {site : Site} {kind : ErrorKind} {cause : Err} {hint : ClassifyHint}

lemma enveloping_plain (h : cause.hasOperational = false)
    (hkind : kind ≠ .unknown → ∃ category ∈ kind.categories, cause.is category = true) :
    cause.Enveloping kind (envelopeOperational op site kind cause) := by
  rw [envelopeOperational, if_neg (by rw [h]; decide)]
  exact ⟨_, cause, rfl, rfl, .inl rfl, hkind⟩

lemma enveloping_categorized (h : cause.hasOperational = false) {category : Sentinel}
    (hmem : category ∈ kind.categories) :
    cause.Enveloping kind (envelopeOperational op site kind (categorized category cause)) := by
  rw [categorized]
  split
  · exact enveloping_plain h fun _ => ⟨category, hmem, ‹_›⟩
  · have hcat : (Err.categorizedCause category cause).hasOperational = false := h
    rw [envelopeOperational, if_neg (by rw [hcat]; decide)]
    refine ⟨_, _, rfl, rfl, .inr ⟨category, hmem, rfl⟩, fun _ => ⟨category, hmem, ?_⟩⟩
    simp [Err.is]

lemma enveloping_ite {p : Prop} [Decidable p] {a b : Err}
    (ha : p → ∃ kind, cause.Enveloping kind a) (hb : ∃ kind, cause.Enveloping kind b) :
    ∃ kind, cause.Enveloping kind (if p then a else b) := by
  split
  · exact ha ‹_›
  · exact hb

lemma isSome_orElse {β : Type} {a : Option β} {b : Unit → Option β} :
    (a.orElse b).isSome = (a.isSome || (b ()).isSome) := by
  cases a <;> rfl

/-- A node that `errors.As` finds and that matches a sentinel is found by `errors.Is`. -/
lemma Err.is_of_findAs {β : Type} {get : Err → Option β} {s : Sentinel}
    (hget : ∀ n, (get n).isSome = true → n.is s = true) {e : Err}
    (h : (e.findAs get).isSome = true) : e.is s = true := by
  induction e with
  | join a b iha ihb =>
    simp only [findAs, isSome_orElse, Bool.or_eq_true] at h
    rcases h with h | h | h
    · exact hget _ h
    · simp [is, iha h]
    · simp [is, ihb h]
  | wrap text e ih | timeoutCause kind e ih | categorizedCause category e ih | operational env e ih
  | foreignWrap f e ih =>
    simp only [findAs, isSome_orElse, Bool.or_eq_true] at h
    rcases h with h | h
    · exact hget _ h
    · simp [is, ih h]
  | _ => exact hget _ h

lemma Err.is_timeout_of_hasTimeoutError (h : cause.hasTimeoutError = true) :
    cause.is .timeout = true := by
  refine is_of_findAs (fun n hn => ?_) h
  cases n <;> first | rfl | cases hn

lemma Err.is_resourceExhausted_of_hasLimitError (h : cause.hasLimitError = true) :
    cause.is .resourceExhausted = true := by
  refine is_of_findAs (fun n hn => ?_) h
  cases n <;> first | rfl | cases hn

lemma classifyPlatformCause_category {category : Sentinel}
    (h : classifyPlatformCause op cause = some (kind, category)) : category ∈ kind.categories := by
  simp only [classifyPlatformCause] at h
  repeat' split at h
  all_goals cases h
  all_goals decide

lemma classifyWSStatus_category {status : ℕ} {category : Option Sentinel}
    (h : classifyWSStatus status = some (kind, category)) :
    (∃ s ∈ kind.categories, category = some s) ∨ (kind = .unknown ∧ category = none) := by
  simp only [classifyWSStatus] at h
  repeat' split at h
  all_goals cases h
  · exact .inl ⟨_, by decide, rfl⟩
  · exact .inl ⟨_, by decide, rfl⟩
  · exact .inr ⟨rfl, rfl⟩

lemma classifyForeign_enveloping (h : cause.hasOperational = false) :
    ∃ kind, cause.Enveloping kind (classifyForeign op site cause hint) := by
  have unknown : ∃ kind, cause.Enveloping kind (envelopeOperational op site .unknown cause) :=
    ⟨.unknown, enveloping_plain h fun hne => absurd rfl hne⟩
  simp only [classifyForeign]
  refine enveloping_ite (fun _ => ⟨.dns, enveloping_categorized h (by decide)⟩) ?_
  split
  · exact ⟨_, enveloping_categorized h (classifyPlatformCause_category ‹_›)⟩
  · refine enveloping_ite (fun _ => ⟨.tls, enveloping_categorized h (by decide)⟩) ?_
    split
    · rename_i kind category hstatus
      obtain ⟨status, -, hstatus⟩ := Option.bind_eq_some_iff.mp hstatus
      rcases classifyWSStatus_category hstatus with ⟨s, hs, heq⟩ | ⟨-, heq⟩
      · cases heq
        exact ⟨kind, enveloping_categorized h hs⟩
      · cases heq
    · rename_i kind hstatus
      obtain ⟨status, -, hstatus⟩ := Option.bind_eq_some_iff.mp hstatus
      rcases classifyWSStatus_category hstatus with ⟨s, -, heq⟩ | ⟨rfl, -⟩
      · cases heq
      · exact unknown
    · exact enveloping_ite (fun _ => ⟨.protocol, enveloping_categorized h (by decide)⟩) unknown

lemma classifyOperational_enveloping (h : cause.hasOperational = false) :
    ∃ kind, cause.Enveloping kind (classifyOperational op site cause hint) := by
  -- a cause that matches a category of the kind stays as it is; others are put under one
  have matched : ∀ kind category, category ∈ kind.categories → cause.is category = true →
      ∃ kind', cause.Enveloping kind' (envelopeOperational op site kind cause) :=
    fun kind category hmem his => ⟨kind, enveloping_plain h fun _ => ⟨category, hmem, his⟩⟩
  have under : ∀ kind category, category ∈ kind.categories → ∃ kind',
      cause.Enveloping kind' (envelopeOperational op site kind (categorized category cause)) :=
    fun kind category hmem => ⟨kind, enveloping_categorized h hmem⟩
  rw [classifyOperational, if_neg (by rw [h]; decide)]
  refine enveloping_ite (fun ht => matched .timeout .timeout (by decide)
    (Err.is_timeout_of_hasTimeoutError ht)) ?_
  refine enveloping_ite (matched .timeout .timeout (by decide)) ?_
  refine enveloping_ite (fun _ => under .timeout .timeout (by decide)) ?_
  refine enveloping_ite (fun hl => matched .resourceExhausted .resourceExhausted (by decide)
    ((Bool.or_eq_true _ _ ▸ hl).elim Err.is_resourceExhausted_of_hasLimitError id)) ?_
  refine enveloping_ite (matched .closed .closed (by decide)) ?_
  refine enveloping_ite (matched .backpressure .wouldBlock (by decide)) ?_
  refine enveloping_ite (fun hl => (Bool.or_eq_true _ _ ▸ hl).elim
    (matched .tooLarge .messageTooLarge (by decide))
    (matched .tooLarge .datagramTooLarge (by decide))) ?_
  refine enveloping_ite (fun _ => under .tooLarge .messageTooLarge (by decide)) ?_
  refine enveloping_ite (fun _ => under .resourceExhausted .resourceExhausted (by decide)) ?_
  refine enveloping_ite
    (fun _ => ⟨.unknown, enveloping_plain h fun hne => absurd rfl hne⟩) ?_
  refine enveloping_ite (matched .peerClosed .peerClosed (by decide)) ?_
  refine enveloping_ite (matched .refused .connectionRefused (by decide)) ?_
  refine enveloping_ite (matched .reset .connectionReset (by decide)) ?_
  refine enveloping_ite (matched .dns .dns (by decide)) ?_
  refine enveloping_ite (matched .tls .tls (by decide)) ?_
  refine enveloping_ite (matched .protocol .protocolViolation (by decide)) ?_
  exact classifyForeign_enveloping h

end Enveloping

/-! ### Matching -/

section Matching

variable {cause : Err} {envelope : Envelope} {category : Sentinel} {t : Target}

lemma Err.isTarget_operational {inner : Err} :
    (Err.operational envelope inner).isTarget t = true ↔
      inner.isTarget t = true ∨
        ∃ same, t = .value same ∧ same (.operational envelope inner) = true := by
  cases t with
  | sentinel s => simp [isTarget, is]
  | value same =>
    simp only [isTarget, any, findAs, isSome_orElse, Bool.or_eq_true]
    by_cases hs : same (.operational envelope inner) = true <;> simp [hs]

lemma Err.isTarget_categorizedCause :
    (Err.categorizedCause category cause).isTarget t = true ↔
      cause.isTarget t = true ∨ t = .sentinel category ∨
        ∃ same, t = .value same ∧ same (.categorizedCause category cause) = true := by
  cases t with
  | sentinel s =>
    simp only [isTarget, is, Bool.or_eq_true, beq_iff_eq, Target.sentinel.injEq, reduceCtorEq,
      false_and, exists_false, or_false]
    tauto
  | value same =>
    simp only [isTarget, any, findAs, isSome_orElse, Bool.or_eq_true]
    by_cases hs : same (.categorizedCause category cause) = true <;> simp [hs]

/-- What the result matches: what the cause matches, and categories of its kind. -/
lemma Err.Enveloping.isTarget {kind : ErrorKind} {result : Err} (h : cause.Enveloping kind result)
    (ht : t.NotMade cause result) :
    (cause.isTarget t = true → result.isTarget t = true) ∧
      (result.isTarget t = true →
        cause.isTarget t = true ∨ ∃ s ∈ kind.categories, t = .sentinel s) := by
  obtain ⟨envelope, inner, -, rfl, hinner, -⟩ := h
  have hself : ¬ ∃ same, t = .value same ∧ same (.operational envelope inner) = true := by
    rintro ⟨same, rfl, hsame⟩
    rw [ht.1] at hsame
    cases hsame
  rw [Err.isTarget_operational, or_iff_left hself]
  rcases hinner with rfl | ⟨category, hcat, rfl⟩
  · exact ⟨id, .inl⟩
  · have hmade : ¬ ∃ same, t = .value same ∧ same (.categorizedCause category cause) = true := by
      rintro ⟨same, rfl, hsame⟩
      rw [ht.2 envelope category rfl] at hsame
      cases hsame
    rw [Err.isTarget_categorizedCause]
    refine ⟨.inl, ?_⟩
    rintro (h | h | h)
    · exact .inl h
    · exact .inr ⟨category, hcat, h⟩
    · exact absurd h hmade

lemma Err.Enveloping.kind?_eq {kind : ErrorKind} {result : Err} (h : cause.Enveloping kind result) :
    result.kind? = some kind := by
  obtain ⟨envelope, inner, rfl, rfl, -, -⟩ := h
  rfl

end Matching

/-- The result of a classification says of its cause what is there, and a category. -/
structure ClassifiesFaithfully (cause result : Err) : Prop where
  typed : result.hasOperational = true
  idempotent : ∀ op' site' hint', classifyOperational op' site' result hint' = result
  lossless : cause.hasOperational = false → ∀ t : Target, t.NotMade cause result →
    cause.isTarget t = true → result.isTarget t = true
  nothingAdded : cause.hasOperational = false → ∀ t : Target, t.NotMade cause result →
    result.isTarget t = true →
    cause.isTarget t = true ∨ ∃ kind s, result.kind? = some kind ∧ s ∈ kind.categories ∧
      t = .sentinel s
  coherent : cause.hasOperational = false → ∀ kind, result.kind? = some kind → kind ≠ .unknown →
    ∃ s ∈ kind.categories, result.is s = true

theorem classifyOperational_faithful (op : Op) (site : Site) (cause : Err) (hint : ClassifyHint) :
    ClassifiesFaithfully cause (classifyOperational op site cause hint) := by
  have htyped : (classifyOperational op site cause hint).hasOperational = true :=
    classifyOperational_classified.hasOperational
  refine ⟨htyped, fun op' site' hint' => ?_, fun h t ht => ?_, fun h t ht => ?_,
    fun h kind hkind hne => ?_⟩
  · exact if_pos htyped
  · obtain ⟨kind, hkind⟩ := @classifyOperational_enveloping op site cause hint h
    exact (hkind.isTarget ht).1
  · obtain ⟨kind, hkind⟩ := @classifyOperational_enveloping op site cause hint h
    intro his
    exact ((hkind.isTarget ht).2 his).imp_right fun ⟨s, hs, heq⟩ =>
      ⟨kind, s, hkind.kind?_eq, hs, heq⟩
  · obtain ⟨kind', hkind'⟩ := @classifyOperational_enveloping op site cause hint h
    cases hkind.symm.trans hkind'.kind?_eq
    obtain ⟨envelope, inner, -, heq, -, hcat⟩ := hkind'
    rw [heq]
    exact hcat hne

end Ogrenet
