import Ogrenet.Engine.Custody

/-!
# The outline of the engine's bookkeeping

One rule for each function that works on the admission accounts or under `Engine.mu`: what a
goroutine must have before the call, and what it has after each way the call can end.
-/

namespace Ogrenet

open Interleaving Interleaving.Prog Eng

variable {c : Custody} {d : Duty}

lemma Custody.holds_of_own {l : ℕ} {b : Bool} (h : c.own = some (l, b)) : c.holds l := by
  rw [Custody.holds, h]
  rfl

/-- A function of the admission code is checked piece by piece. -/
lemma wp_adm_bind {α β : Type} {p : AdmProg α} {f : α → AdmProg β} (Q : β → Custody → Prop)
    (c : Custody) : engineOutline.wp (adm (p >>= f)) Q c ↔
      engineOutline.wp (adm p) (fun a c => engineOutline.wp (adm (f a)) Q c) c := by
  rw [adm, Prog.lift_bind]
  exact Outline.wp_bind _ _ _ _

/-! ### `limits.go` -/

section Admission

variable {Q : Except LimitError ℕ → Custody → Prop}

lemma wp_acquireCharged_engine (peer : String) (listener : Option ℕ)
    (hhold : c.hold = { token := listener }) (hreq : c.admReq (.openSection peer listener))
    (herr : ∀ e, Q (.error e) { c with hold := {} })
    (hok : ∀ l, Q (.ok l) { c with hold := {}, own := some (l, false), got := l :: c.got }) :
    engineOutline.wp (adm (acquireCharged peer listener)) Q c := by
  obtain ⟨d, hold, mu, seen, due, sawIdle, drains⟩ := c
  cases hhold
  refine ⟨⟨rfl, hreq⟩, ?_⟩
  rintro (e | l) -
  · cases listener with
    | none => exact herr e
    | some j => exact ⟨⟨rfl, trivial⟩, fun _ _ => herr e⟩
  · exact hok l

/-- A goroutine that may open a lease has it in hand afterwards, or nothing. -/
lemma wp_acquireOpeningWithListener_engine (peer : String) (listener : Option ℕ)
    (hhold : c.hold = {}) (hreq : c.admReq (.openSection peer listener))
    (herr : ∀ e, Q (.error e) c)
    (hok : ∀ l, Q (.ok l) { c with own := some (l, false), got := l :: c.got }) :
    engineOutline.wp (adm (acquireOpeningWithListener peer listener)) Q c := by
  obtain ⟨d, hold, mu, seen, due, sawIdle, drains⟩ := c
  cases hhold
  cases listener with
  | none => exact wp_acquireCharged_engine peer none rfl hreq herr hok
  | some j =>
    refine ⟨⟨rfl, trivial⟩, ?_⟩
    rintro (limit | ⟨⟩) -
    · exact ⟨⟨trivial, trivial⟩, fun _ _ => herr _⟩
    · exact wp_acquireCharged_engine peer (some j) rfl hreq herr hok

/-- A lease in hand that was not taken from the maps can be activated. -/
lemma wp_activate_engine {Q : Bool → Custody → Prop} {l : ℕ} {b : Bool} (hhold : c.hold = {})
    (hown : c.own = some (l, b)) (hclosed : c.closed = none) (hdrains : c.drains = [])
    (hQ : Q true { c with own := some (l, true) }) :
    engineOutline.wp (adm (ConnectionLease.activate l)) Q c := by
  obtain ⟨⟨entry, inOp, own, got, dial, closed, graceful⟩, hold, mu, seen, due, sawIdle,
    drains⟩ := c
  cases hhold
  cases hown
  cases hclosed
  cases hdrains
  refine ⟨⟨rfl, trivial⟩, ?_⟩
  rintro st ⟨-, hst⟩
  have hupd : Custody.upd (.adm (.lockLease l)) st
      ⟨⟨entry, inOp, some (l, b), got, dial, none, graceful⟩, {}, mu, seen, due, sawIdle, []⟩ =
      ⟨⟨entry, inOp, some (l, st == .active), got, dial, none, graceful⟩,
        { lock := some (l, st) }, mu, seen, due, sawIdle, []⟩ := by
    simp [Custody.upd, Custody.admUpd, Custody.holds, Hold.upd]
  rw [show engineOutline.upd = Custody.upd from rfl, hupd]
  rcases hst rfl rfl with rfl | rfl
  · exact ⟨⟨rfl, rfl⟩, fun _ _ => hQ⟩
  · exact ⟨⟨⟨_, rfl⟩, fun h => by cases h⟩, fun _ _ => hQ⟩

lemma wp_acquireConnection_engine (peer : String) (hhold : c.hold = {})
    (hreq : c.admReq (.openSection peer none)) (hclosed : c.closed = none) (hdrains : c.drains = [])
    (herr : ∀ e, Q (.error e) c)
    (hok : ∀ l, Q (.ok l) { c with own := some (l, true), got := l :: c.got }) :
    engineOutline.wp (adm (acquireConnection peer)) Q c := by
  refine (wp_adm_bind _ _).mpr (wp_acquireOpeningWithListener_engine peer none hhold hreq herr ?_)
  intro l
  exact (wp_adm_bind _ _).mpr (wp_activate_engine hhold rfl hclosed hdrains (hok l))

/-- The release of a lease in hand. -/
lemma wp_release_engine {Q : Unit → Custody → Prop} {l : ℕ} {b : Bool} (hhold : c.hold = {})
    (hown : c.own = some (l, b)) (hQ : Q () { c with own := none }) :
    engineOutline.wp (adm (ConnectionLease.release l)) Q c := by
  obtain ⟨⟨entry, inOp, own, got, dial, closed, graceful⟩, hold, mu, seen, due, sawIdle,
    drains⟩ := c
  cases hhold
  cases hown
  refine ⟨⟨⟨rfl, rfl, rfl⟩, rfl⟩, ?_⟩
  rintro (- | ⟨peer, _ | j, state, mu⟩) hr
  · exact absurd rfl hr
  · exact ⟨⟨⟨rfl, _, rfl, rfl, rfl⟩, trivial⟩, fun _ _ => hQ⟩
  · exact ⟨⟨⟨rfl, _, rfl, rfl, rfl⟩, trivial⟩, fun _ _ => ⟨⟨rfl, trivial⟩, fun _ _ => hQ⟩⟩

lemma wp_releaseLease {Q : Unit → Custody → Prop} {lease : Option ℕ} (hhold : c.hold = {})
    (hown : c.own = lease.map fun l => (l, false)) (hQ : Q () { c with own := none }) :
    engineOutline.wp (releaseLease lease) Q c := by
  cases lease with
  | none =>
    obtain ⟨⟨entry, inOp, own, got, dial, closed, graceful⟩, hold, mu, seen, due, sawIdle,
      drains⟩ := c
    cases hown
    exact hQ
  | some l => exact wp_release_engine hhold hown hQ

/-- A drained lease is off the list. -/
lemma wp_beginDrain_engine {Q : Bool → Custody → Prop} {l : ℕ} (hhold : c.hold = {})
    (hown : c.own = none) (hmem : l ∈ c.drains)
    (hQ : ∀ b, Q b { c with drains := c.drains.erase l }) :
    engineOutline.wp (adm (ConnectionLease.beginDrain l)) Q c := by
  obtain ⟨⟨entry, inOp, own, got, dial, closed, graceful⟩, hold, mu, seen, due, sawIdle,
    drains⟩ := c
  cases hhold
  cases hown
  refine ⟨⟨rfl, trivial⟩, ?_⟩
  rintro st ⟨hst, -⟩
  rcases hst hmem with rfl | rfl
  · exact ⟨⟨rfl, hmem⟩, fun _ _ => hQ _⟩
  · exact ⟨⟨⟨_, rfl⟩, fun _ => rfl⟩, fun _ _ => hQ _⟩

/-- The call that ends an activity has to look at the engine again. -/
lemma wp_releaseActivity_engine {Q : Bool → Custody → Prop} (a : ℕ) (hhold : c.hold = {})
    (hno : Q false c) (hyes : Q true { c with due := true }) :
    engineOutline.wp (adm (ActivityLease.release a)) Q c := by
  obtain ⟨d, hold, mu, seen, due, sawIdle, drains⟩ := c
  cases hhold
  refine ⟨⟨rfl, trivial⟩, ?_⟩
  rintro (- | kind) -
  · exact hno
  · exact ⟨⟨rfl, trivial⟩, fun _ _ => hyes⟩

end Admission

/-! ### `engine_tracking_remove.go` and `engine_tracking_add.go` -/

/-- `maybeDoneLocked` discharges the duty to look at the engine. -/
lemma wp_maybeDoneLocked {Q : Unit → Custody → Prop} (hmu : c.mu = true) (hdrains : c.drains = [])
    (hQ : ∀ seen, Q () { c with due := false, sawIdle := false, seen }) :
    engineOutline.wp maybeDoneLocked Q c := by
  refine ⟨⟨hmu, hdrains⟩, ?_⟩
  rintro (_ | _) -
  · exact hQ c.seen
  · exact ⟨rfl, fun _ _ => ⟨⟨rfl, rfl⟩, fun _ _ => hQ _⟩⟩

/-- The end of the functions that call `maybeDoneLocked` last. -/
lemma wp_maybeDoneLocked_unlock {Q : Unit → Custody → Prop} {d : Duty} {seen : Option EngineState}
    {due : Bool} (hQ : Q () d.rest) :
    engineOutline.wp (do maybeDoneLocked; unlock) Q { d.rest with mu := true, seen, due } :=
  (Outline.wp_bind maybeDoneLocked _ _ _).mpr <|
    wp_maybeDoneLocked rfl rfl fun _ => ⟨⟨rfl, rfl, rfl, rfl⟩, fun _ _ => hQ⟩

lemma wp_maybeDone {Q : Unit → Custody → Prop} {due : Bool} (hQ : Q () d.rest) :
    engineOutline.wp maybeDone Q { d.rest with due } :=
  ⟨rfl, fun _ _ => wp_maybeDoneLocked_unlock hQ⟩

/-- A section that gives up leaves everything as it was. -/
lemma wp_unlock {α : Type} {Q : α → Custody → Prop} {a : α} {seen : Option EngineState}
    (hQ : Q a d.rest) :
    engineOutline.wp (do unlock; return a) Q { d.rest with mu := true, seen } :=
  ⟨⟨rfl, rfl, rfl, rfl⟩, fun _ _ => hQ⟩

lemma wp_beginOp {Q : Option Err → Custody → Prop} (hop : d.inOp = false)
    (herr : Q (some errClosed) d.rest) (hok : Q none { d with inOp := true }.rest) :
    engineOutline.wp beginOp Q d.rest := by
  refine ⟨rfl, fun _ _ => ⟨rfl, fun st _ => ?_⟩⟩
  cases st with
  | running => exact ⟨⟨rfl, hop⟩, fun _ _ => wp_unlock (d := { d with inOp := true }) hok⟩
  | draining | aborting | done => exact wp_unlock herr

lemma wp_endOp {Q : Unit → Custody → Prop} (hop : d.inOp = true)
    (hQ : Q () { d with inOp := false }.rest) : engineOutline.wp endOp Q d.rest :=
  ⟨rfl, fun _ _ => ⟨⟨rfl, hop⟩, fun _ _ =>
    wp_maybeDoneLocked_unlock (d := { d with inOp := false }) hQ⟩⟩

lemma wp_addTracked {Q : Option Err → Custody → Prop} (j : ℕ) (hQ : ∀ r, Q r d.rest) :
    engineOutline.wp (addTracked j) Q d.rest := by
  refine ⟨rfl, fun _ _ => ⟨rfl, fun st _ => ?_⟩⟩
  cases st with
  | running => exact ⟨rfl, fun _ _ => wp_unlock (hQ none)⟩
  | draining | aborting | done => exact wp_unlock (hQ _)

section Add

variable {Q : Except Err ℕ → Custody → Prop} {kind : SessionKind}

lemma wp_addLeased {l : ℕ} (hown : d.own = some (l, true)) (hkind : kind ≠ .webSocket → d.Plain)
    (hok : ∀ k, Q (.ok k) { d with own := none }.rest) :
    engineOutline.wp (addLeased kind l) Q { d.rest with mu := true, seen := some .running } :=
  ⟨⟨rfl, hown, hkind⟩, fun k _ => wp_unlock (d := { d with own := none }) (hok k)⟩

/-- The map takes over the lease of the session that is added, or the caller keeps it. -/
lemma wp_addWithLease_some {l : ℕ} {b : Bool} (peer : String) (hown : d.own = some (l, b))
    (hclosed : d.closed = none) (hkind : kind ≠ .webSocket → d.Plain)
    (herr : ∀ e, Q (.error e) d.rest) (hok : ∀ k, Q (.ok k) { d with own := none }.rest) :
    engineOutline.wp (addWithLease kind peer (some l)) Q d.rest := by
  refine ⟨rfl, fun _ _ => ⟨rfl, fun st _ => ?_⟩⟩
  cases st with
  | running =>
    refine (Outline.wp_bind (adm (ConnectionLease.activate l)) _ _ _).mpr
      (wp_activate_engine rfl hown hclosed rfl ?_)
    refine wp_addLeased (d := { d with own := some (l, true) }) rfl (fun h => ?_) hok
    obtain ⟨he, hd, hc⟩ := hkind h
    exact ⟨he, hd, hc⟩
  | draining | aborting | done => exact wp_unlock (herr _)

/-- The lease of a session that is added without one is acquired inside the section. -/
lemma wp_addWithLease_none (peer : String) (hown : d.own = none) (hplain : d.Plain)
    (herr : ∀ e, Q (.error e) d.rest) (hok : ∀ k got, Q (.ok k) { d with got }.rest) :
    engineOutline.wp (addWithLease kind peer none) Q d.rest := by
  refine ⟨rfl, fun _ _ => ⟨rfl, fun st _ => ?_⟩⟩
  cases st with
  | running =>
    refine (Outline.wp_bind (adm (acquireConnection peer)) _ _ _).mpr
      (wp_acquireConnection_engine peer rfl ⟨hown, .inr (.inl rfl)⟩ hplain.closed rfl ?_ ?_)
    · exact fun e => wp_unlock (herr _)
    · intro l
      refine wp_addLeased (d := { d with own := some (l, true), got := l :: d.got }) rfl
        (fun _ => ⟨hplain.entry, hplain.dial, hplain.closed⟩) fun k => ?_
      have hd : { d with own := none } = d := by rw [← hown]
      exact hd ▸ hok k (l :: d.got)
  | draining | aborting | done => exact wp_unlock (herr _)

end Add

/-- The finalizer has the lease of its session in hand and releases it before it looks at the
engine. -/
lemma wp_removeSession {Q : Unit → Custody → Prop} {k : ℕ} (hown : d.own = none)
    (hclosed : d.closed = some k) (hentry : d.entry = .finalizer k) (hQ : Q () d.rest) :
    engineOutline.wp (removeSession k) Q d.rest := by
  refine ⟨rfl, fun _ _ => ⟨⟨rfl, hown, hclosed, hentry, rfl⟩, fun lease _ => ?_⟩⟩
  refine (Outline.wp_bind (releaseLease lease) _ _ _).mpr (wp_releaseLease rfl rfl ?_)
  refine wp_maybeDoneLocked_unlock (d := { d with own := none }) ?_
  have hd : { d with own := none } = d := by rw [← hown]
  exact hd.symm ▸ hQ

lemma wp_removeTracked {Q : Unit → Custody → Prop} (j : ℕ) (hQ : Q () d.rest) :
    engineOutline.wp (removeTracked j) Q d.rest :=
  ⟨rfl, fun _ _ => ⟨rfl, fun _ _ => wp_maybeDoneLocked_unlock hQ⟩⟩

/-! ### `engine_admission.go` -/

lemma wp_acquireEngineActivity {Q : Except Err ℕ → Custody → Prop} (kind : Activity)
    (hQ : ∀ r, Q r d.rest) : engineOutline.wp (acquireEngineActivity kind) Q d.rest := by
  refine ⟨rfl, fun _ _ => ⟨rfl, fun st _ => ?_⟩⟩
  cases st with
  | running =>
    refine ⟨⟨trivial, rfl⟩, ?_⟩
    rintro (e | a) -
    · exact wp_unlock (hQ _)
    · exact wp_unlock (hQ _)
  | draining | aborting | done => exact wp_unlock (hQ _)

lemma wp_releaseEngineActivity {Q : Unit → Custody → Prop} (a : ℕ) (hQ : Q () d.rest) :
    engineOutline.wp (releaseEngineActivity a) Q d.rest :=
  (Outline.wp_bind (adm (ActivityLease.release a)) _ _ _).mpr <|
    wp_releaseActivity_engine a rfl hQ (wp_maybeDone hQ)

/-! ### `engine_shutdown.go` -/

/-- The loop drains one lease after the other. -/
lemma wp_drainLeases {Q : Unit → Custody → Prop} {leases : List ℕ} (hhold : c.hold = {})
    (hown : c.own = none) (hdrains : c.drains = leases) (hQ : Q () { c with drains := [] }) :
    engineOutline.wp (drainLeases leases) Q c := by
  induction leases generalizing c with
  | nil =>
    show Q () c
    rwa [← hdrains] at hQ
  | cons l leases ih =>
    refine (Outline.wp_bind (adm (ConnectionLease.beginDrain l)) _ _ _).mpr
      (wp_beginDrain_engine hhold hown (hdrains ▸ List.mem_cons_self) fun _ => ?_)
    refine ih hhold hown ?_ hQ
    simp [hdrains]

lemma wp_beginGracefulShutdown {Q : Option EngineShutdownSet → Custody → Prop}
    (hown : d.own = none) (hentry : d.entry.stops) (hnone : Q none d.rest)
    (hsome : ∀ set, Q (some set) { d with graceful := true }.rest) :
    engineOutline.wp beginGracefulShutdown Q d.rest := by
  refine ⟨rfl, fun _ _ => ⟨rfl, fun st _ => ?_⟩⟩
  cases st with
  | running =>
    refine ⟨⟨rfl, hentry⟩, ?_⟩
    rintro ⟨set, leases⟩ -
    refine (Outline.wp_bind (drainLeases leases) _ _ _).mpr (wp_drainLeases rfl hown rfl ?_)
    refine (Outline.wp_bind maybeDoneLocked _ _ _).mpr (wp_maybeDoneLocked rfl rfl fun _ => ?_)
    exact wp_unlock (d := { d with graceful := true }) (hsome set)
  | draining | aborting | done => exact wp_unlock hnone

lemma wp_beginAbort {Q : Option EngineShutdownSet → Custody → Prop} (reason : AbortReason)
    (hentry : d.entry.stops) (hQ : ∀ r, Q r d.rest) :
    engineOutline.wp (beginAbort reason) Q d.rest := by
  have habort {st : EngineState} (hst : st = .running ∨ st = .draining) :
      engineOutline.wp (do
        let set ← startAborting reason
        maybeDoneLocked
        unlock
        return some set) Q { d.rest with mu := true, seen := some st } := by
    refine ⟨⟨rfl, hst.imp (congrArg some) (congrArg some), hentry⟩, fun set _ => ?_⟩
    refine (Outline.wp_bind maybeDoneLocked _ _ _).mpr (wp_maybeDoneLocked rfl rfl fun _ => ?_)
    exact wp_unlock (hQ _)
  refine ⟨rfl, fun _ _ => ⟨rfl, fun st _ => ?_⟩⟩
  cases st with
  | running => exact habort (.inl rfl)
  | draining => exact habort (.inr rfl)
  | aborting | done => exact wp_unlock (hQ _)

lemma wp_recordShutdownError {Q : Unit → Custody → Prop} (err : Err) (hQ : Q () d.rest) :
    engineOutline.wp (recordShutdownError err) Q d.rest :=
  ⟨rfl, fun _ _ => ⟨trivial, fun _ _ => ⟨⟨rfl, rfl, rfl, rfl⟩, fun _ _ => hQ⟩⟩⟩

lemma wp_shutdownResult {Q : Option Err → Custody → Prop} (hQ : ∀ r, Q r d.rest) :
    engineOutline.wp shutdownResult Q d.rest :=
  ⟨rfl, fun _ _ => ⟨trivial, fun r _ => wp_unlock (hQ r)⟩⟩

end Ogrenet
