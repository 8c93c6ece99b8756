import Ogrenet.Client.Ordered

/-!
# The bodies of a round trip

A `RoundTripper` closes the body of every request it is given. `roundTrip` does so by handing the
body on: this module keeps account of the bodies that `GetBody` has returned and of those that were
handed to a protocol transport. The returns before the first attempt hand the body to nobody.
-/

namespace Ogrenet.Client

/-- A body: that of the request, or the one that `GetBody` returned before an attempt. -/
inductive BodyId where
  | original
  | replayed (index : ℕ)
  deriving DecidableEq, Repr

inductive BodyEvent where
  /-- `GetBody` returned the body. -/
  | obtained (b : BodyId)
  /-- A protocol transport was called with the body. -/
  | handed (index : ℕ) (body : Body BodyId)
  | closed (body : Body BodyId)
  deriving DecidableEq, Repr

variable {ρ : Type}

/-- `cloneAttemptRequest` with what it has obtained. -/
def cloneBody (original : Request BodyId) (index : ℕ) (body : Except GoError BodyId) :
    List BodyEvent × Except GoError (Body BodyId) :=
  if index = 0 ∨ original.body.absent then ([], .ok original.body)
  else if !original.getBody then ([], .error (.new "request body is not replayable"))
  else
    match body with
    | .error err => ([], .error err)
    | .ok b => ([.obtained b], .ok (.stream b))

/-- The loop of `roundTrip` with what it does to bodies. -/
def bodiesFrom (t : HTTPClientTransport) (req : Request BodyId) (w : Behaviour ρ BodyId)
    (index : ℕ) : List HTTPProtocol → List HTTPAttemptError → List BodyEvent × Result ρ
  | [], failures => ([], .fallback failures)
  | protocol :: rest, failures =>
    let cloned := cloneBody req index (w.body index)
    match cloned.2 with
    | .error err =>
      let prepErr := prepareError protocol err
      if failures = [] then (cloned.1, .failed prepErr)
      else (cloned.1, .fallback (failures ++ [(protocol, prepErr)]))
    | .ok body =>
      let events := cloned.1 ++ [.handed index body]
      match (w.outcome index).resp with
      | some resp => (events, .response resp (w.outcome index).err)
      | none =>
        match (w.outcome index).cause with
        | some cause => (events, .failed cause)
        | none =>
          let err := (w.outcome index).failure
          let failures := failures ++ [(protocol, err)]
          if rest = [] ∨ t.fallback ≠ .safeReplay ∨ requestCanReplay req = false ∨
              classifyFallback err = .never then
            if failures.length = 1 then (events, .failed err) else (events, .fallback failures)
          else
            let later := bodiesFrom t req w (index + 1) rest failures
            (events ++ later.1, later.2)

/-- `roundTrip` with what it does to bodies. -/
def roundTripBodies (t : HTTPClientTransport) (req : Request BodyId) (w : Behaviour ρ BodyId) :
    List BodyEvent × Result ρ :=
  if t.closed then ([], .failed errHTTPClientTransportClosed)
  else if applicable t req = [] then ([], .failed errNoApplicableHTTPProtocol)
  else bodiesFrom t req w 0 (applicable t req) []

/-! ### The account is that of the calls -/

/-- The calls of protocol transports. -/
def BodyEvent.call : BodyEvent → Option (ℕ × Body BodyId)
  | .handed index body => some (index, body)
  | _ => none

lemma cloneBody_snd (req : Request BodyId) (index : ℕ) (body : Except GoError BodyId) :
    (cloneBody req index body).2 = cloneAttemptRequest req index body := by
  unfold cloneBody cloneAttemptRequest
  split
  · rfl
  · split
    · rfl
    · cases body <;> rfl

lemma cloneBody_calls (req : Request BodyId) (index : ℕ) (body : Except GoError BodyId) :
    (cloneBody req index body).1.filterMap BodyEvent.call = [] := by
  unfold cloneBody
  split
  · rfl
  · split
    · rfl
    · cases body <;> rfl

lemma bodiesFrom_eq (t : HTTPClientTransport) (req : Request BodyId) (w : Behaviour ρ BodyId)
    (ps : List HTTPProtocol) (index : ℕ) (failures : List HTTPAttemptError) :
    ((bodiesFrom t req w index ps failures).1.filterMap BodyEvent.call,
        (bodiesFrom t req w index ps failures).2) =
      ((attemptsFrom t req w index ps failures).1.map fun a => (a.index, a.body),
        (attemptsFrom t req w index ps failures).2) := by
  induction ps generalizing index failures with
  | nil => rfl
  | cons protocol rest ih =>
    have hcalls := cloneBody_calls req index (w.body index)
    have hclone := cloneBody_snd req index (w.body index)
    simp only [bodiesFrom, attemptsFrom, hclone]
    cases cloneAttemptRequest req index (w.body index) with
    | error err =>
      simp only
      split <;> simp [hcalls]
    | ok body =>
      cases (w.outcome index).resp with
      | some resp => simp [hcalls, BodyEvent.call]
      | none =>
        cases (w.outcome index).cause with
        | some cause => simp [hcalls, BodyEvent.call]
        | none =>
          simp only
          split_ifs
          · simp [hcalls, BodyEvent.call]
          · simp [hcalls, BodyEvent.call]
          · obtain ⟨hlater, hresult⟩ := Prod.mk.inj
              (ih (index + 1) (failures ++ [(protocol, (w.outcome index).failure)]))
            simp [hcalls, BodyEvent.call, hlater, hresult]

/-- The calls and the result are those of `roundTrip`. -/
lemma roundTripBodies_eq (t : HTTPClientTransport) (req : Request BodyId)
    (w : Behaviour ρ BodyId) :
    ((roundTripBodies t req w).1.filterMap BodyEvent.call, (roundTripBodies t req w).2) =
      ((roundTrip t (some req) w).1.map fun a => (a.index, a.body),
        (roundTrip t (some req) w).2) := by
  unfold roundTripBodies roundTrip
  split
  · rfl
  · simp only
    split
    · rfl
    · exact bodiesFrom_eq t req w (applicable t req) 0 []

/-! ### One round of the loop -/

section Round

variable {t : HTTPClientTransport} {req : Request BodyId} {w : Behaviour ρ BodyId} {index : ℕ}
  {protocol : HTTPProtocol} {rest : List HTTPProtocol} {failures : List HTTPAttemptError}
  {got : List BodyEvent} {body : Body BodyId}

lemma bodiesFrom_of_error {err : GoError}
    (hclone : cloneBody req index (w.body index) = (got, .error err)) :
    (bodiesFrom t req w index (protocol :: rest) failures).1 = got := by
  simp only [bodiesFrom, hclone]
  split <;> rfl

/-- A round after which there is no other one. -/
lemma bodiesFrom_of_last (hclone : cloneBody req index (w.body index) = (got, .ok body))
    (hlast : rest = [] ∨ ¬ Advances t req w index) :
    (bodiesFrom t req w index (protocol :: rest) failures).1 = got ++ [.handed index body] := by
  simp only [bodiesFrom, hclone]
  cases hresp : (w.outcome index).resp with
  | some resp => rfl
  | none =>
    cases hcause : (w.outcome index).cause with
    | some cause => rfl
    | none =>
      rw [advances_iff hresp hcause, not_not] at hlast
      simp only [if_pos hlast]
      split <;> rfl

lemma bodiesFrom_of_advances (hclone : cloneBody req index (w.body index) = (got, .ok body))
    (hrest : rest ≠ []) (hadv : Advances t req w index) :
    (bodiesFrom t req w index (protocol :: rest) failures).1 = got ++ [.handed index body] ++
      (bodiesFrom t req w (index + 1) rest
        (failures ++ [(protocol, (w.outcome index).failure)])).1 := by
  have hgo := not_or.mpr ⟨hrest, (advances_iff hadv.resp hadv.cause).mp hadv⟩
  simp only [bodiesFrom, hclone, hadv.resp, hadv.cause, if_neg hgo]

/-- Induction along the rounds of the loop. -/
lemma bodiesFrom_induction {P : ℕ → List BodyEvent → Prop} (nil : ∀ index, P index [])
    (error : ∀ index got err, cloneBody req index (w.body index) = (got, .error err) → P index got)
    (round : ∀ index got body later, cloneBody req index (w.body index) = (got, .ok body) →
      P (index + 1) later → P index (got ++ [.handed index body] ++ later))
    (ps : List HTTPProtocol) (index : ℕ) (failures : List HTTPAttemptError) :
    P index (bodiesFrom t req w index ps failures).1 := by
  induction ps generalizing index failures with
  | nil => exact nil index
  | cons protocol rest ih =>
    rcases hclone : cloneBody req index (w.body index) with ⟨got, cloned⟩
    cases cloned with
    | error err =>
      rw [bodiesFrom_of_error hclone]
      exact error index got err hclone
    | ok body =>
      by_cases hadv : rest ≠ [] ∧ Advances t req w index
      · rw [bodiesFrom_of_advances hclone hadv.1 hadv.2]
        exact round index got body _ hclone (ih _ _)
      · rw [bodiesFrom_of_last hclone (by rwa [not_and_or, not_not] at hadv),
          ← List.append_nil (_ ++ _)]
        exact round index got body [] hclone (nil _)

end Round

/-! ### The contract -/

/-- How often protocol transports were called with a body. -/
def handings (body : Body BodyId) (events : List BodyEvent) : ℕ :=
  events.countP fun ev => ev.call.map Prod.snd = some body

/-- How often the facade has closed a body. -/
def closings (body : Body BodyId) (events : List BodyEvent) : ℕ := events.count (.closed body)

/-- The body of the request is handed to exactly one protocol transport or closed, and every body
that `GetBody` has returned is handed to exactly one. -/
structure BodyContract (body : Body BodyId) (events : List BodyEvent) : Prop where
  original : handings body events + closings body events = 1
  replayed : ∀ b, .obtained b ∈ events → handings (.stream b) events = 1

@[simp] lemma handings_append (body : Body BodyId) (es es' : List BodyEvent) :
    handings body (es ++ es') = handings body es + handings body es' := List.countP_append

lemma handings_handed (body : Body BodyId) (index : ℕ) (body' : Body BodyId) :
    handings body [.handed index body'] = if body' = body then 1 else 0 := by
  simp [handings, BodyEvent.call, List.countP_cons]

lemma handings_obtained (body : Body BodyId) (b : BodyId) : handings body [.obtained b] = 0 := rfl

/-- The request with a name for its body. -/
def Request.named (req : Request Unit) : Request BodyId where
  method := req.method
  scheme := req.scheme
  body :=
    match req.body with
    | .nil => .nil
    | .noBody => .noBody
    | .stream _ => .stream .original
  getBody := req.getBody

/-- The behaviour with a new body from every `GetBody`. -/
def Behaviour.named (w : Behaviour ρ Unit) : Behaviour ρ BodyId where
  outcome := w.outcome
  body index := (w.body index).map fun _ => .replayed index

section Named

variable {t : HTTPClientTransport} {req : Request Unit} {w : Behaviour ρ Unit}

lemma cloneBody_zero (req : Request BodyId) (b : Except GoError BodyId) :
    cloneBody req 0 b = ([], .ok req.body) := rfl

lemma cloneBody_absent {req : Request BodyId} (h : req.body.absent = true) (index : ℕ)
    (b : Except GoError BodyId) : cloneBody req index b = ([], .ok req.body) := by
  simp only [cloneBody, h, or_true, if_true]

/-- The later bodies are new. -/
lemma cloneBody_later {index : ℕ} (hindex : index ≠ 0) (hbody : req.body = .stream ()) :
    (∃ err, cloneBody req.named index (w.named.body index) = ([], .error err)) ∨
      cloneBody req.named index (w.named.body index) =
        ([.obtained (.replayed index)], .ok (.stream (.replayed index))) := by
  have hstream : req.named.body = .stream .original := by
    simp only [Request.named, hbody]
  have hgo : ¬ (index = 0 ∨ req.named.body.absent = true) := by
    rw [hstream]
    exact not_or.mpr ⟨hindex, nofun⟩
  simp only [cloneBody, if_neg hgo]
  split
  · exact .inl ⟨_, rfl⟩
  · cases hw : w.body index with
    | error err =>
      simp only [Behaviour.named, hw]
      exact .inl ⟨err, rfl⟩
    | ok b =>
      simp only [Behaviour.named, hw]
      exact .inr rfl

/-- The bodies that the loop deals with from a later index on: each is new, and handed on once. -/
structure Later (index : ℕ) (events : List BodyEvent) : Prop where
  new : ∀ body, handings body events ≠ 0 → ∃ i, index ≤ i ∧ body = .stream (.replayed i)
  once : ∀ b, .obtained b ∈ events → handings (.stream b) events = 1

lemma Later.nil (index : ℕ) : Later index [] :=
  ⟨fun _ h => absurd rfl h, fun _ h => by cases h⟩

lemma Later.round {index : ℕ} {later : List BodyEvent} (h : Later (index + 1) later) :
    Later index ([.obtained (.replayed index)] ++
      [.handed index (.stream (.replayed index))] ++ later) := by
  have hcount : ∀ body, handings body ([.obtained (.replayed index)] ++
      [.handed index (.stream (.replayed index))] ++ later) =
        (if Body.stream (.replayed index) = body then 1 else 0) + handings body later := by
    intro body
    rw [handings_append, handings_append, handings_obtained, handings_handed, Nat.zero_add]
  have hthis : handings (.stream (.replayed index)) later = 0 := by
    by_contra hne
    obtain ⟨i, hi, hsame⟩ := h.new _ hne
    cases hsame
    omega
  constructor
  · intro body hne
    rw [hcount] at hne
    by_cases hsame : Body.stream (.replayed index) = body
    · exact ⟨index, Nat.le_refl _, hsame.symm⟩
    · rw [if_neg hsame, Nat.zero_add] at hne
      obtain ⟨i, hi, hbody⟩ := h.new body hne
      exact ⟨i, by omega, hbody⟩
  · intro b hb
    rw [hcount]
    by_cases hsame : b = .replayed index
    · rw [hsame, if_pos rfl, hthis]
    · rw [if_neg (fun heq => hsame (Body.stream.inj heq).symm), Nat.zero_add]
      apply h.once
      simpa [hsame] using hb

lemma later_bodiesFrom (hbody : req.body = .stream ()) (ps : List HTTPProtocol) (index : ℕ)
    (hindex : index ≠ 0) (failures : List HTTPAttemptError) :
    Later index (bodiesFrom t req.named w.named index ps failures).1 := by
  refine bodiesFrom_induction (P := fun index events => index ≠ 0 → Later index events) ?_ ?_ ?_
    ps index failures hindex
  · intro index _
    exact Later.nil index
  · intro index got err hclone hindex
    rcases cloneBody_later hindex hbody with ⟨err', hclone'⟩ | hclone'
    · cases hclone.symm.trans hclone'
      exact Later.nil index
    · cases hclone.symm.trans hclone'
  · intro index got body later hclone hlater hindex
    rcases cloneBody_later hindex hbody with ⟨err', hclone'⟩ | hclone'
    · cases hclone.symm.trans hclone'
    · cases hclone.symm.trans hclone'
      exact (hlater (Nat.succ_ne_zero index)).round

/-- The facade itself closes nothing. -/
lemma closings_bodiesFrom (body : Body BodyId) (ps : List HTTPProtocol) (index : ℕ)
    (failures : List HTTPAttemptError) (req : Request BodyId) (w : Behaviour ρ BodyId) :
    closings body (bodiesFrom t req w index ps failures).1 = 0 := by
  have hgot : ∀ index got cloned, cloneBody req index (w.body index) = (got, cloned) →
      closings body got = 0 := by
    intro index got cloned hclone
    unfold cloneBody at hclone
    split at hclone
    · cases hclone
      rfl
    · split at hclone
      · cases hclone
        rfl
      · split at hclone <;> cases hclone <;> rfl
  refine bodiesFrom_induction (P := fun _ events => closings body events = 0) ?_ ?_ ?_
    ps index failures
  · intro _
    rfl
  · intro index got err hclone
    exact hgot index got _ hclone
  · intro index got body' later hclone hlater
    have hnone := hgot index got _ hclone
    simp only [closings, List.count_append] at hnone hlater ⊢
    rw [hnone, hlater]
    rfl

lemma applicable_named : applicable t req.named = applicable t req := rfl

lemma absent_named : req.named.body.absent = req.body.absent := by
  cases hbody : req.body <;> simp only [Request.named, hbody] <;> rfl

lemma advances_named {index : ℕ} : Advances t req.named w.named index ↔ Advances t req w index := by
  constructor
  · rintro ⟨hresp, hcause, hpolicy, hmethod, hbody, heligible⟩
    exact ⟨hresp, hcause, hpolicy, hmethod, absent_named ▸ hbody, heligible⟩
  · rintro ⟨hresp, hcause, hpolicy, hmethod, hbody, heligible⟩
    exact ⟨hresp, hcause, hpolicy, hmethod, absent_named.symm ▸ hbody, heligible⟩

/-- A body that the loop hands on before all others is handed on once. -/
lemma contract_of_stream (hbody : req.body = .stream ()) (protocol : HTTPProtocol)
    (rest : List HTTPProtocol) :
    BodyContract req.named.body
      (bodiesFrom t req.named w.named 0 (protocol :: rest) []).1 := by
  have hstream : req.named.body = .stream .original := by
    simp only [Request.named, hbody]
  have hclone := cloneBody_zero req.named (w.named.body 0)
  obtain ⟨later, hlater, hevents⟩ : ∃ later, Later 1 later ∧
      (bodiesFrom t req.named w.named 0 (protocol :: rest) []).1 =
        [.handed 0 (.stream .original)] ++ later := by
    rw [hstream] at hclone
    by_cases hadv : rest ≠ [] ∧ Advances t req.named w.named 0
    · exact ⟨_, later_bodiesFrom hbody rest 1 (by decide) _,
        bodiesFrom_of_advances hclone hadv.1 hadv.2⟩
    · exact ⟨[], Later.nil 1,
        bodiesFrom_of_last hclone (by rwa [not_and_or, not_not] at hadv)⟩
  have hcount : ∀ body, handings body ([.handed 0 (.stream .original)] ++ later) =
      (if Body.stream .original = body then 1 else 0) + handings body later := by
    intro body
    rw [handings_append, handings_handed]
  have horiginal : handings (.stream .original) later = 0 := by
    by_contra hne
    obtain ⟨i, -, hsame⟩ := hlater.new _ hne
    cases hsame
  constructor
  · rw [closings_bodiesFrom, hevents, hstream, hcount, if_pos rfl, horiginal]
  · intro b hb
    rw [hevents] at hb ⊢
    have hb : BodyEvent.obtained b ∈ later := by simpa using hb
    have honce := hlater.once b hb
    have hnew : Body.stream .original ≠ Body.stream b := by
      intro hsame
      cases hsame
      omega
    rw [hcount, if_neg hnew, honce]

/-- A request without a body is given to every attempt as it is. -/
lemma handings_noBody_pos (hbody : req.body = .noBody) (index : ℕ) {ps : List HTTPProtocol}
    (hps : ps ≠ []) (failures : List HTTPAttemptError) :
    0 < handings .noBody (bodiesFrom t req.named w.named index ps failures).1 := by
  have hnamed : req.named.body = .noBody := by
    simp only [Request.named, hbody]
  have hclone := cloneBody_absent (hnamed ▸ rfl : req.named.body.absent = true) index
    (w.named.body index)
  rw [hnamed] at hclone
  obtain ⟨protocol, rest, rfl⟩ := List.exists_cons_of_ne_nil hps
  by_cases hadv : rest ≠ [] ∧ Advances t req.named w.named index
  · rw [bodiesFrom_of_advances hclone hadv.1 hadv.2, List.nil_append, handings_append,
      handings_handed, if_pos rfl]
    exact Nat.add_pos_left Nat.one_pos _
  · rw [bodiesFrom_of_last hclone (by rwa [not_and_or, not_not] at hadv), List.nil_append,
      handings_handed, if_pos rfl]
    exact Nat.one_pos

lemma contract_noBody_iff (hbody : req.body = .noBody) (protocol : HTTPProtocol)
    (rest : List HTTPProtocol) :
    BodyContract req.named.body (bodiesFrom t req.named w.named 0 (protocol :: rest) []).1 ↔
      ¬ (rest ≠ [] ∧ Advances t req w 0) := by
  have hnamed : req.named.body = .noBody := by
    simp only [Request.named, hbody]
  have hclone := cloneBody_zero req.named (w.named.body 0)
  rw [hnamed] at hclone
  rw [← advances_named, hnamed]
  constructor
  · rintro ⟨hone, -⟩ ⟨hrest, hadv⟩
    have hlater := handings_noBody_pos (t := t) (w := w) hbody (0 + 1) hrest
      ([] ++ [(protocol, (w.named.outcome 0).failure)])
    rw [closings_bodiesFrom, bodiesFrom_of_advances hclone hrest hadv, List.nil_append,
      handings_append, handings_handed, if_pos rfl] at hone
    omega
  · intro hlast
    have hevents : (bodiesFrom t req.named w.named 0 (protocol :: rest) []).1 =
        [.handed 0 .noBody] :=
      bodiesFrom_of_last hclone (by rwa [not_and_or, not_not] at hlast)
    constructor
    · rw [closings_bodiesFrom, hevents]
      rfl
    · intro b hb
      rw [hevents] at hb
      simp at hb

end Named

/-- The facade honours the contract for bodies exactly when it makes an attempt, and, for a request
with `http.NoBody`, no second one. -/
theorem body_contract_iff (t : HTTPClientTransport) (req : Request Unit) (w : Behaviour ρ Unit)
    (hbody : req.body ≠ .nil) :
    BodyContract req.named.body (roundTripBodies t req.named w.named).1 ↔
      t.closed = false ∧ applicable t req ≠ [] ∧
        (req.body = .noBody → ¬ (1 < (applicable t req).length ∧ Advances t req w 0)) := by
  have hempty : ¬ BodyContract req.named.body [] := by
    intro h
    cases h.original
  rw [← applicable_named]
  cases hclosed : t.closed with
  | true =>
    simp only [roundTripBodies, hclosed, if_true]
    simpa using hempty
  | false =>
    simp only [roundTripBodies, hclosed, Bool.false_eq_true, if_false, true_and]
    by_cases happ : applicable t req.named = []
    · rw [if_pos happ]
      simpa [happ] using hempty
    · rw [if_neg happ]
      obtain ⟨protocol, rest, hcons⟩ := List.exists_cons_of_ne_nil happ
      have hlength : 1 < (protocol :: rest).length ↔ rest ≠ [] := by
        rw [List.length_cons, ← List.length_pos_iff]
        omega
      rw [hcons, hlength]
      cases hkind : req.body with
      | nil => exact absurd hkind hbody
      | noBody =>
        rw [contract_noBody_iff hkind]
        simp
      | stream b => simpa using contract_of_stream hkind protocol rest

def postRequest : Request Unit := ⟨"POST", some "https", .stream (), false⟩

/-- Every protocol answers. -/
def answering : Behaviour Unit Unit where
  outcome _ := { resp := some () }
  body _ := .ok ()

theorem body_contract_iff_post : BodyContract postRequest.named.body
    (roundTripBodies allProtocols postRequest.named answering.named).1 :=
  (body_contract_iff allProtocols postRequest answering nofun).mpr
    ⟨rfl, by decide +kernel, nofun⟩

/-- A closed transport returns, and the body of the request is neither handed on nor closed. -/
theorem body_leaked : (roundTripBodies { allProtocols with closed := true } postRequest.named
      answering.named).1 = [] ∧
    ¬ BodyContract postRequest.named.body
      (roundTripBodies { allProtocols with closed := true } postRequest.named
        answering.named).1 := by
  refine ⟨rfl, ?_⟩
  intro h
  cases h.original

end Ogrenet.Client
