import Ogrenet.Client.Fallback

/-!
# What `roundTrip` attempts and returns

One round of the loop either settles the result or goes on to the next protocol, and it goes on
exactly when the attempt may be replayed. The attempts of a whole call follow by induction over the
protocols that are left.
-/

namespace Ogrenet.Client

variable {ρ β : Type} {t : HTTPClientTransport} {req : Request β} {w : Behaviour ρ β}

/-- The methods that are replayed. -/
def replayMethods : List String := ["", "GET", "HEAD", "OPTIONS", "TRACE"]

/-- After the attempt at the index another one may be made. -/
structure Advances (t : HTTPClientTransport) (req : Request β) (w : Behaviour ρ β) (index : ℕ) :
    Prop where
  resp : (w.outcome index).resp = none
  cause : (w.outcome index).cause = none
  policy : t.fallback = .safeReplay
  method : req.method ∈ replayMethods
  body : req.body.absent = true ∨ req.getBody = true
  eligible : classifyFallback (w.outcome index).failure ≠ .never

/-- A single failure is returned as it is, others in an `*HTTPFallbackError`. -/
def conclude : List HTTPAttemptError → Result ρ
  | [(_, err)] => .failed err
  | failures => .fallback failures

/-- The result after the last attempt, with all failures up to then. -/
def settle (o : Outcome ρ) (failures : List HTTPAttemptError) : Result ρ :=
  match o.resp with
  | some resp => .response resp o.err
  | none =>
    match o.cause with
    | some cause => .failed cause
    | none => conclude failures

/-- The failure of an attempt. -/
def Attempt.failure (w : Behaviour ρ β) (a : Attempt β) : HTTPAttemptError :=
  (a.protocol, (w.outcome a.index).failure)

/-- The body of a later attempt: that of the request when it has none, else a new one. -/
def Attempt.Fresh (req : Request β) (w : Behaviour ρ β) (a : Attempt β) : Prop :=
  if req.body.absent then a.body = req.body
  else ∃ b, w.body a.index = .ok b ∧ a.body = .stream b

/-- No body could be had for the attempt at the index, and what is reported of it. -/
def Unprepared (req : Request β) (w : Behaviour ρ β) (ps : List HTTPProtocol) (n index : ℕ)
    (prep : List HTTPAttemptError) : Prop :=
  ∃ protocol err, ps[n]? = some protocol ∧ req.body.absent = false ∧ w.body index = .error err ∧
    prep = [(protocol, prepareError protocol err)]

/-- After `n` attempts from the index on, the loop goes on to prepare another. -/
def GoesOn (t : HTTPClientTransport) (req : Request β) (w : Behaviour ρ β) (index : ℕ)
    (ps : List HTTPProtocol) (n : ℕ) : Prop :=
  n < ps.length ∧ ∀ m, n = m + 1 → Advances t req w (index + m)

lemma mem_replayMethods {method : String} :
    isSafeReplayMethod method = true ↔ method ∈ replayMethods := by
  unfold isSafeReplayMethod replayMethods
  by_cases h : method = ""
  · simp [h]
  · simp [h, or_assoc]

lemma advances_iff {index : ℕ} (hresp : (w.outcome index).resp = none)
    (hcause : (w.outcome index).cause = none) :
    Advances t req w index ↔ ¬(t.fallback ≠ .safeReplay ∨ requestCanReplay req = false ∨
      classifyFallback (w.outcome index).failure = .never) := by
  have hreplay : ¬requestCanReplay req = false ↔
      req.method ∈ replayMethods ∧ (req.body.absent = true ∨ req.getBody = true) := by
    rw [Bool.not_eq_false, requestCanReplay, Bool.and_eq_true, Bool.or_eq_true, mem_replayMethods]
  rw [not_or, not_or, not_not, hreplay]
  constructor
  · rintro ⟨-, -, hpolicy, hmethod, hbody, heligible⟩
    exact ⟨hpolicy, ⟨hmethod, hbody⟩, heligible⟩
  · rintro ⟨hpolicy, ⟨hmethod, hbody⟩, heligible⟩
    exact ⟨hresp, hcause, hpolicy, hmethod, hbody, heligible⟩

lemma conclude_concat (failures : List HTTPAttemptError) (protocol : HTTPProtocol) (err : GoError) :
    (conclude (failures ++ [(protocol, err)]) : Result ρ) =
      if failures = [] then .failed err else .fallback (failures ++ [(protocol, err)]) := by
  rcases failures with _ | ⟨f, fs⟩
  · rfl
  · rw [if_neg (List.cons_ne_nil f fs)]
    cases fs <;> rfl

/-- The loop from an index on: its attempts `tr` and its result `res`. -/
structure LoopSpec (t : HTTPClientTransport) (req : Request β) (w : Behaviour ρ β) (index : ℕ)
    (ps : List HTTPProtocol) (failures : List HTTPAttemptError) (tr : List (Attempt β))
    (res : Result ρ) : Prop where
  order : tr.map Attempt.protocol <+: ps
  indices : ∀ i a, tr[i]? = some a → a.index = index + i
  head : ∀ a, tr[0]? = some a →
    (index = 0 → a.body = req.body) ∧ (index ≠ 0 → a.Fresh req w)
  later : ∀ i a, tr[i + 1]? = some a → Advances t req w (index + i) ∧ a.Fresh req w
  /-- It stops before an attempt that it goes on to only when there is no body for it, and reports
  that. -/
  result : ∃ prep, (GoesOn t req w index ps tr.length ∧
        Unprepared req w ps tr.length (index + tr.length) prep ∨
      ¬ GoesOn t req w index ps tr.length ∧ prep = []) ∧
    res = match tr.getLast? with
      | none => conclude (failures ++ prep)
      | some a => settle (w.outcome a.index) (failures ++ tr.map (Attempt.failure w) ++ prep)

section Loop

variable {index : ℕ} {protocol : HTTPProtocol} {rest : List HTTPProtocol}
  {failures : List HTTPAttemptError}

/-- From the second attempt on a replay is known to be allowed. -/
lemma clone_cases (protocol : HTTPProtocol)
    (hreplay : index ≠ 0 → req.body.absent = true ∨ req.getBody = true) :
    (∃ err, cloneAttemptRequest req index (w.body index) = .error err ∧ index ≠ 0 ∧
      req.body.absent = false ∧ w.body index = .error err) ∨
    ∃ body, cloneAttemptRequest req index (w.body index) = .ok body ∧
      (index = 0 → body = req.body) ∧
      (index ≠ 0 → Attempt.Fresh req w ⟨protocol, index, body⟩) := by
  unfold cloneAttemptRequest
  by_cases hzero : index = 0
  · exact .inr ⟨req.body, by simp [hzero], fun _ => rfl, fun h => absurd hzero h⟩
  · cases habsent : req.body.absent with
    | true =>
      exact .inr ⟨req.body, by simp, fun _ => rfl, fun _ => by simp [Attempt.Fresh, habsent]⟩
    | false =>
      have hget : req.getBody = true := (hreplay hzero).resolve_left (by simp [habsent])
      cases hbody : w.body index with
      | error err => exact .inl ⟨err, by simp [hzero, hget, Except.map], hzero, rfl, rfl⟩
      | ok b =>
        exact .inr ⟨.stream b, by simp [hzero, hget, Except.map], fun h => absurd h hzero,
          fun _ => by simp [Attempt.Fresh, habsent, hbody]⟩

lemma goesOn_succ (protocol : HTTPProtocol) (hadv : Advances t req w index) {n : ℕ} :
    GoesOn t req w index (protocol :: rest) (n + 1) ↔ GoesOn t req w (index + 1) rest n := by
  constructor
  · rintro ⟨hlt, hlast⟩
    refine ⟨Nat.lt_of_succ_lt_succ hlt, fun m hm => ?_⟩
    have := hlast (m + 1) (by rw [hm])
    rwa [← Nat.add_assoc, Nat.add_right_comm] at this
  · rintro ⟨hlt, hlast⟩
    refine ⟨Nat.succ_lt_succ hlt, fun m hm => ?_⟩
    rcases m with _ | m
    · exact hadv
    · have := hlast m (Nat.succ.inj hm)
      rwa [Nat.add_right_comm] at this

/-- A loop that has no body for its first attempt. -/
lemma LoopSpec.none {ps : List HTTPProtocol} {prep : List HTTPAttemptError} {res : Result ρ}
    (hun : Unprepared req w ps 0 index prep) (hres : res = conclude (failures ++ prep)) :
    LoopSpec t req w index ps failures [] res where
  order := List.nil_prefix
  indices _ _ ha := by cases ha
  head _ ha := by cases ha
  later _ _ ha := by cases ha
  result := by
    have hlt : 0 < ps.length := by
      obtain ⟨p, -, hp, -⟩ := hun
      exact (List.getElem?_eq_some_iff.mp hp).1
    exact ⟨prep, .inl ⟨⟨hlt, nofun⟩, hun⟩, hres⟩

/-- A loop that ends with the attempt it makes. -/
lemma LoopSpec.one {body : Body β} {res : Result ρ}
    (hzero : index = 0 → body = req.body)
    (hfresh : index ≠ 0 → Attempt.Fresh req w ⟨protocol, index, body⟩)
    (hstop : Advances t req w index → rest = [])
    (hres : res = settle (w.outcome index) (failures ++ [(protocol, (w.outcome index).failure)])) :
    LoopSpec t req w index (protocol :: rest) failures [⟨protocol, index, body⟩] res where
  order := List.prefix_append [protocol] rest
  indices i a ha := by
    rcases i with _ | i
    · cases ha
      rfl
    · cases ha
  head a ha := by
    cases ha
    exact ⟨hzero, hfresh⟩
  later i a ha := by cases ha
  result := by
    refine ⟨[], .inr ⟨fun hgoes => ?_, rfl⟩, by simpa [Attempt.failure] using hres⟩
    obtain ⟨hlt, hlast⟩ := hgoes
    rw [hstop (hlast 0 rfl)] at hlt
    exact Nat.lt_irrefl 1 hlt

/-- A loop that goes on after the attempt it makes. -/
lemma LoopSpec.cons {body : Body β} {tr : List (Attempt β)} {res : Result ρ}
    (hzero : index = 0 → body = req.body)
    (hfresh : index ≠ 0 → Attempt.Fresh req w ⟨protocol, index, body⟩)
    (hadv : Advances t req w index)
    (h : LoopSpec t req w (index + 1) rest
      (failures ++ [(protocol, (w.outcome index).failure)]) tr res) :
    LoopSpec t req w index (protocol :: rest) failures (⟨protocol, index, body⟩ :: tr) res where
  order := List.prefix_cons_inj protocol |>.mpr h.order
  indices i a ha := by
    rcases i with _ | i
    · cases ha
      rfl
    · rw [h.indices i a ha]
      omega
  head a ha := by
    cases ha
    exact ⟨hzero, hfresh⟩
  later i a ha := by
    rcases i with _ | i
    · exact ⟨hadv, (h.head a ha).2 (Nat.succ_ne_zero index)⟩
    · have := h.later i a ha
      rwa [Nat.add_right_comm] at this
  result := by
    obtain ⟨prep, hprep, hres⟩ := h.result
    rw [← goesOn_succ protocol hadv] at hprep
    refine ⟨prep, hprep.imp_left (And.imp_right ?_), ?_⟩
    · rintro ⟨p, err, hp, habsent, hbody, rfl⟩
      refine ⟨p, err, hp, habsent, ?_, rfl⟩
      rw [← hbody, List.length_cons]
      congr 1
      omega
    · rw [hres]
      rcases tr with _ | ⟨a, tr⟩
      · simp [settle, hadv.resp, hadv.cause, Attempt.failure]
      · rw [List.getLast?_cons_cons, List.getLast?_eq_some_getLast (List.cons_ne_nil a tr)]
        simp [Attempt.failure]

lemma attemptsFrom_spec (ps : List HTTPProtocol) (hps : ps ≠ [])
    (hreplay : index ≠ 0 → req.body.absent = true ∨ req.getBody = true) :
    LoopSpec t req w index ps failures (attemptsFrom t req w index ps failures).1
      (attemptsFrom t req w index ps failures).2 := by
  induction ps generalizing index failures with
  | nil => exact absurd rfl hps
  | cons protocol rest ih =>
    rw [attemptsFrom]
    obtain ⟨err, hclone, -, habsent, hbody⟩ | ⟨body, hclone, hzero, hfresh⟩ :=
      clone_cases (w := w) protocol hreplay
    · simp only [hclone]
      have hun : Unprepared req w (protocol :: rest) 0 index
          [(protocol, prepareError protocol err)] := ⟨protocol, err, rfl, habsent, hbody, rfl⟩
      have hres := conclude_concat (ρ := ρ) failures protocol (prepareError protocol err)
      split
      · rename_i hnil
        rw [if_pos hnil] at hres
        exact .none hun hres.symm
      · rename_i hnil
        rw [if_neg hnil] at hres
        exact .none hun hres.symm
    · simp only [hclone]
      cases hresp : (w.outcome index).resp with
      | some resp =>
        exact .one hzero hfresh (fun h => by rw [h.resp] at hresp; cases hresp)
          (by simp [settle, hresp])
      | none =>
        cases hcause : (w.outcome index).cause with
        | some cause =>
          exact .one hzero hfresh (fun h => by rw [h.cause] at hcause; cases hcause)
            (by simp [settle, hresp, hcause])
        | none =>
          have hres := conclude_concat (ρ := ρ) failures protocol (w.outcome index).failure
          have hsettle : settle (w.outcome index)
              (failures ++ [(protocol, (w.outcome index).failure)]) =
              if failures = [] then .failed (w.outcome index).failure
              else .fallback (failures ++ [(protocol, (w.outcome index).failure)]) := by
            rw [← hres]
            simp [settle, hresp, hcause]
          by_cases hstop : rest = [] ∨ t.fallback ≠ .safeReplay ∨ requestCanReplay req = false ∨
              classifyFallback (w.outcome index).failure = .never
          · have hlast : Advances t req w index → rest = [] := fun h =>
              hstop.resolve_right ((advances_iff hresp hcause).mp h)
            simp only [if_pos hstop]
            split
            · rename_i hone
              refine .one hzero hfresh hlast ?_
              rw [hsettle, if_pos (by simpa using hone)]
            · rename_i hmany
              refine .one hzero hfresh hlast ?_
              rw [hsettle, if_neg (by simpa using hmany)]
          · obtain ⟨hrest, hgo⟩ := not_or.mp hstop
            have hadv := (advances_iff hresp hcause).mpr hgo
            simp only [if_neg hstop]
            exact .cons hzero hfresh hadv (ih hrest fun _ => hadv.body)

end Loop

/-- The attempts `tr` and the result `res` of an ordered fallback. -/
structure OrderedFallback (t : HTTPClientTransport) (req : Request β) (w : Behaviour ρ β)
    (tr : List (Attempt β)) (res : Result ρ) : Prop where
  nonempty : tr ≠ []
  order : tr.map Attempt.protocol <+: applicable t req
  indices : ∀ i (a : Attempt β), tr[i]? = some a → a.index = i
  first : ∀ a : Attempt β, tr[0]? = some a → a.body = req.body
  later : ∀ i (a : Attempt β), tr[i + 1]? = some a → Advances t req w i ∧ a.Fresh req w
  /-- An attempt that may be made is made, unless there is no body for it. -/
  stop : ∀ n, tr.length = n + 1 → Advances t req w n → n + 1 < (applicable t req).length →
    ∃ prep, Unprepared req w (applicable t req) (n + 1) (n + 1) prep
  /-- The last attempt settles the result, with the failures of all and, when another could be made,
  of its preparation. -/
  result : ∃ n prep, tr.length = n + 1 ∧
    ((Advances t req w n ∧ n + 1 < (applicable t req).length) ∧
        Unprepared req w (applicable t req) (n + 1) (n + 1) prep ∨
      ¬ (Advances t req w n ∧ n + 1 < (applicable t req).length) ∧ prep = []) ∧
    res = settle (w.outcome n) (tr.map (Attempt.failure w) ++ prep)
  reachable : ∀ failures, res = .fallback failures → ∀ f ∈ failures, ∀ node ∈ f.2.nodes,
    node ∈ (fallbackError failures).nodes
  once : req.method ∉ replayMethods → tr.length = 1

lemma mem_nodes_fallbackError {failures : List HTTPAttemptError} {f : HTTPAttemptError}
    (hf : f ∈ failures) {node : ErrorNode} (hnode : node ∈ f.2.nodes) :
    node ∈ (fallbackError failures).nodes := by
  rw [fallbackError, GoError.nodes]
  exact List.mem_cons_of_mem _ (GoError.mem_nodesOf (List.mem_map_of_mem hf) hnode)

/-- A loop from the start makes an attempt. -/
lemma attemptsFrom_ne_nil {ps : List HTTPProtocol} {failures : List HTTPAttemptError}
    (hps : ps ≠ []) : (attemptsFrom t req w 0 ps failures).1 ≠ [] := by
  rcases ps with _ | ⟨protocol, rest⟩
  · exact absurd rfl hps
  · have hclone : cloneAttemptRequest req 0 (w.body 0) = .ok req.body := by
      simp [cloneAttemptRequest]
    rw [attemptsFrom]
    simp only [hclone]
    split
    · exact List.cons_ne_nil _ _
    · split
      · exact List.cons_ne_nil _ _
      · split
        · split <;> exact List.cons_ne_nil _ _
        · exact List.cons_ne_nil _ _

lemma OrderedFallback.of_loop {tr : List (Attempt β)} {res : Result ρ}
    (h : LoopSpec t req w 0 (applicable t req) [] tr res) (hne : tr ≠ []) :
    OrderedFallback t req w tr res := by
  have hindices : ∀ i (a : Attempt β), tr[i]? = some a → a.index = i := fun i a ha => by
    rw [h.indices i a ha, Nat.zero_add]
  have hlater : ∀ i (a : Attempt β), tr[i + 1]? = some a → Advances t req w i ∧ a.Fresh req w :=
    fun i a ha => by
      have := h.later i a ha
      rwa [Nat.zero_add] at this
  obtain ⟨n, hn⟩ : ∃ n, tr.length = n + 1 :=
    ⟨tr.length - 1, by have := List.length_pos_iff.mpr hne; omega⟩
  have hgoes : GoesOn t req w 0 (applicable t req) (n + 1) ↔
      Advances t req w n ∧ n + 1 < (applicable t req).length := by
    constructor
    · rintro ⟨hlt, hadv⟩
      have hadvn := hadv n rfl
      rw [Nat.zero_add] at hadvn
      exact ⟨hadvn, hlt⟩
    · rintro ⟨hadv, hlt⟩
      refine ⟨hlt, fun m hm => ?_⟩
      cases hm
      rwa [Nat.zero_add]
  obtain ⟨prep, hprep, hres⟩ := h.result
  rw [hn, hgoes, Nat.zero_add] at hprep
  refine ⟨hne, h.order, hindices, fun a ha => (h.head a ha).1 rfl, hlater, fun m hm hadv hlt => ?_,
    ?_, fun _ _ f hf node hnode => mem_nodes_fallbackError hf hnode, fun hmethod => ?_⟩
  · cases hn.symm.trans hm
    exact ⟨prep, (hprep.resolve_right fun h => h.1 ⟨hadv, hlt⟩).2⟩
  · have hlast : tr.getLast? = some (tr.getLast hne) := List.getLast?_eq_some_getLast hne
    have hidx : (tr.getLast hne).index = n := by
      refine hindices n _ ?_
      rw [← hlast, List.getLast?_eq_getElem?, hn, Nat.add_sub_cancel]
    refine ⟨n, prep, hn, hprep, ?_⟩
    rw [hres, hlast]
    simp only [hidx, List.nil_append]
  · -- a second attempt would have asked for the method
    by_contra hlen
    obtain ⟨a, ha⟩ : ∃ a, tr[0 + 1]? = some a :=
      ⟨_, List.getElem?_eq_getElem (show 0 + 1 < tr.length by omega)⟩
    exact hmethod (hlater 0 a ha).1.method

/-- The attempts of a call are a first part of the protocols that apply, and the later ones are made
only when the request may be replayed, each with a new body. The result is the first response, the
cause of the context, the single failure, or all failures in order. -/
theorem roundTrip_ordered (t : HTTPClientTransport) (hopen : t.closed = false) (req : Request β)
    (happlies : applicable t req ≠ []) (w : Behaviour ρ β) :
    OrderedFallback t req w (roundTrip t (some req) w).1 (roundTrip t (some req) w).2 := by
  have hrun : roundTrip t (some req) w = attemptsFrom t req w 0 (applicable t req) [] := by
    simp [roundTrip, hopen, happlies]
  rw [hrun]
  have hspec : LoopSpec t req w 0 (applicable t req) [] _ _ :=
    attemptsFrom_spec (applicable t req) happlies fun h => absurd rfl h
  have hne : (attemptsFrom t req w 0 (applicable t req) []).1 ≠ [] := attemptsFrom_ne_nil happlies
  generalize attemptsFrom t req w 0 (applicable t req) [] = out at hspec hne
  obtain ⟨tr, res⟩ := out
  exact .of_loop hspec hne

/-- The first attempt is refused by the network before the request, the second has no response with
a body that is new, and for the third there is no body. -/
def refusedTwice : Behaviour Unit ℕ where
  outcome
    | 0 => { err := some (.mk { text := "dial", types := [.op "dial"] } []) }
    | _ => { err := some (.mk { text := "EOF", accepts := [.eof] } []) }
  body
    | 1 => .ok 8
    | _ => .error (.new "consumed")

def allProtocols : HTTPClientTransport :=
  { attempts := [.http3, .http2, .http1], fallback := .safeReplay }

def getRequest : Request ℕ := ⟨"GET", some "https", .stream 7, true⟩

theorem roundTrip_ordered_refusedTwice :
    (roundTrip allProtocols (some getRequest) refusedTwice).1 =
      [⟨.http3, 0, .stream 7⟩, ⟨.http2, 1, .stream 8⟩] ∧
    OrderedFallback allProtocols getRequest refusedTwice
      (roundTrip allProtocols (some getRequest) refusedTwice).1
      (roundTrip allProtocols (some getRequest) refusedTwice).2 :=
  ⟨by decide +kernel,
    roundTrip_ordered allProtocols rfl getRequest (by decide +kernel) refusedTwice⟩

end Ogrenet.Client
