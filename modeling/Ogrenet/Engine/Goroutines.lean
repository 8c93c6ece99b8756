import Ogrenet.Engine.Bookkeeping

/-!
# The outline of the engine's goroutines

Every goroutine of the engine meets the outline: the exported methods, the loops of its listeners,
the HTTP connections, the dial callbacks and the ends of its sessions.
-/

namespace Ogrenet

open Interleaving Interleaving.Prog Eng

variable {d : Duty}

lemma Duty.disown (h : d.own = none) : { d with own := none } = d := by rw [← h]

lemma Duty.leave (h : d.inOp = false) : { d with inOp := false } = d := by rw [← h]

/-! ### Listeners -/

lemma wp_initiateClose {Q : Option Err → Custody → Prop} (j : ℕ) (cause : Option Err)
    (hQ : ∀ r, Q r d.rest) : engineOutline.wp (initiateClose j cause) Q d.rest := by
  refine ⟨trivial, ?_⟩
  rintro (_ | _) -
  · exact hQ none
  · show engineOutline.wp (if _ then _ else _) _ _
    split
    on_goal 1 => refine ⟨trivial, fun _ _ => ?_⟩
    -- with or without a recorded error the socket is closed next
    all_goals
      refine ⟨trivial, fun _ _ => ⟨trivial, fun r _ => ⟨trivial, fun _ _ => ?_⟩⟩⟩
      cases r <;> exact hQ _

lemma wp_trk_release {Q : Option ℕ → Custody → Prop} (j h : ℕ) (hown : d.own = none)
    (hQ : ∀ lease : Option ℕ, Q lease { d with own := lease.map fun l => (l, false) }.rest) :
    engineOutline.wp (trk j (HTTPConnLease.release h)) Q d.rest := by
  refine ⟨hown, ?_⟩
  rintro (_ | lease) -
  · have h := hQ none
    rwa [Option.map_none, Duty.disown hown] at h
  · exact ⟨trivial, fun _ _ => hQ (some lease)⟩

/-- Whoever moves a holder out of `Held` has its lease in hand and releases it. -/
lemma wp_releaseHolder {Q : Unit → Custody → Prop} (j h : ℕ) (hown : d.own = none)
    (hQ : Q () d.rest) : engineOutline.wp (releaseHolder j h) Q d.rest := by
  refine (Outline.wp_bind (trk j (HTTPConnLease.release h)) _ _ _).mpr
    (wp_trk_release j h hown fun lease => wp_releaseLease rfl rfl ?_)
  exact (Duty.disown hown).symm ▸ hQ

lemma wp_releaseConn {Q : Unit → Custody → Prop} (j conn : ℕ) (hown : d.own = none)
    (hQ : Q () d.rest) : engineOutline.wp (releaseConn j conn) Q d.rest := by
  refine ⟨trivial, ?_⟩
  rintro (_ | h) -
  · exact hQ
  · exact wp_releaseHolder j h hown hQ

lemma wp_releaseHolders {Q : Unit → Custody → Prop} (j : ℕ) (hs : List ℕ) (hown : d.own = none)
    (hQ : Q () d.rest) : engineOutline.wp (releaseHolders j hs) Q d.rest := by
  induction hs with
  | nil => exact hQ
  | cons h hs ih =>
    exact (Outline.wp_bind (releaseHolder j h) _ _ _).mpr (wp_releaseHolder j h hown ih)

lemma wp_closeAll {Q : Unit → Custody → Prop} (j : ℕ) (hown : d.own = none) (hQ : Q () d.rest) :
    engineOutline.wp (closeAll j) Q d.rest :=
  ⟨trivial, fun hs _ => wp_releaseHolders j hs hown hQ⟩

lemma wp_closeWSListener {Q : Option Err → Custody → Prop} (j : ℕ) (hown : d.own = none)
    (hQ : ∀ r, Q r d.rest) : engineOutline.wp (closeWSListener j) Q d.rest := by
  refine ⟨trivial, ?_⟩
  rintro (_ | _) -
  · exact hQ none
  · refine ⟨trivial, fun _ _ => ⟨trivial, fun r _ => ?_⟩⟩
    refine (Outline.wp_bind (closeAll j) _ _ _).mpr (wp_closeAll j hown ⟨trivial, fun _ _ => ?_⟩)
    cases r <;> exact hQ _

/-! ### Leases in hand -/

/-- Where a lease in hand may have gone: to the session that was added, or nowhere. -/
def Duty.keeps (d : Duty) : Except Err ℕ → Custody → Prop
  | .ok _, c => c = { d with own := none }.rest
  | .error _, c => c = d.rest

/-- The deferred release of a lease that no session has taken over. -/
lemma wp_releaseUnless {Q : Except Err ℕ → Custody → Prop} {l : ℕ} {b : Bool}
    (hown : d.own = some (l, b)) (hQ : ∀ r, Q r { d with own := none }.rest) (r : Except Err ℕ)
    (c : Custody) (hc : d.keeps r c) : engineOutline.wp (releaseUnless l r) Q c := by
  cases r with
  | error err =>
    cases hc
    exact (Outline.wp_bind (adm (ConnectionLease.release l)) _ _ _).mpr
      (wp_release_engine rfl hown (hQ _))
  | ok k =>
    cases hc
    exact hQ _

section Leased

variable {l : ℕ} {b : Bool}

lemma wp_adoptStreamWithLease (raw : Remote) (hown : d.own = some (l, b)) (hplain : d.Plain) :
    engineOutline.wp (adoptStreamWithLease raw l) d.keeps d.rest := by
  refine ⟨trivial, ?_⟩
  rintro (err | _) -
  · rfl
  · refine (Outline.wp_bind (addStreamWithLease raw.peer (some l)) _ _ _).mpr
      (wp_addWithLease_some raw.peer hown hplain.closed (fun _ => hplain) (fun e => ?_) fun k => ?_)
    · rfl
    · exact ⟨trivial, fun _ _ => rfl⟩

/-- The callers of `adoptStreamWithLease` only look at its error. -/
lemma wp_adopted {f : Err → EProg (Except Err ℕ)} (raw : Remote) (hown : d.own = some (l, b))
    (hplain : d.Plain) (hf : ∀ err, engineOutline.wp (f err) d.keeps d.rest) :
    engineOutline.wp (do
      match ← adoptStreamWithLease raw l with
      | .ok k => return .ok k
      | .error err => f err) d.keeps d.rest := by
  refine (Outline.wp_bind (adoptStreamWithLease raw l) _ _ _).mpr
    (Outline.wp_mono ?_ (wp_adoptStreamWithLease raw hown hplain))
  rintro (err | k) c rfl
  · exact hf err
  · rfl

lemma wp_adoptDialled (scheme : Scheme) (raw : Remote) (hown : d.own = some (l, b))
    (hplain : d.Plain) : engineOutline.wp (adoptDialled scheme raw l) d.keeps d.rest := by
  refine wp_adopted raw hown hplain fun err => ?_
  split <;> rfl

lemma wp_handleLeased (j : ℕ) (raw : Remote) (hown : d.own = some (l, b)) (hplain : d.Plain) :
    engineOutline.wp (handleLeased j raw l) d.keeps d.rest := by
  refine wp_adopted raw hown hplain fun err => ?_
  split
  · rfl
  · exact (Outline.wp_bind (initiateClose j _) _ _ _).mpr (wp_initiateClose j _ fun _ => rfl)

end Leased

/-- A goroutine outside of every critical section can do `p` and then has what `Q` says. -/
def Resting {α : Type} (Q : α → Custody → Prop) (a : α) (c : Custody) : Prop :=
  (∃ d' : Duty, c = d'.rest) ∧ Q a c

/-- A handshake or an upgrade is counted while it goes on. -/
lemma wp_activity {α β : Type} {Q : α → Custody → Prop} {kind : Activity} {p : EProg β}
    {f : Err → EProg α} {g : β → EProg α}
    (hf : ∀ err, engineOutline.wp (f err) Q d.rest)
    (hp : engineOutline.wp p (Resting fun r c => engineOutline.wp (g r) Q c) d.rest) :
    engineOutline.wp (do
      match ← acquireEngineActivity kind with
      | .error err => f err
      | .ok activity =>
        let r ← p
        releaseEngineActivity activity
        g r) Q d.rest := by
  refine (Outline.wp_bind (acquireEngineActivity kind) _ _ _).mpr
    (wp_acquireEngineActivity kind fun r => ?_)
  cases r with
  | error err => exact hf err
  | ok activity =>
    refine (Outline.wp_bind p _ _ _).mpr (Outline.wp_mono ?_ hp)
    rintro r c ⟨⟨d', rfl⟩, hg⟩
    exact (Outline.wp_bind (releaseEngineActivity activity) _ _ _).mpr
      (wp_releaseEngineActivity activity hg)

lemma wp_dialHandshake {Q : Option Err → Custody → Prop} (scheme : Scheme) (raw : Remote)
    (hQ : ∀ r, Q r d.rest) : engineOutline.wp (dialHandshake scheme raw) Q d.rest := by
  refine ⟨trivial, ?_⟩
  rintro (err | _) -
  · exact hQ _
  · refine wp_activity (fun err => hQ _) ⟨trivial, fun r _ => ⟨⟨d, rfl⟩, ?_⟩⟩
    cases r with
    | ok _ => exact hQ _
    | error err =>
      refine ⟨trivial, ?_⟩
      rintro (_ | cause) - <;> exact hQ _

lemma wp_prepare {Q : Option Err → Custody → Prop} (hQ : ∀ r, Q r d.rest) :
    engineOutline.wp prepare Q d.rest := by
  refine wp_activity (fun err => hQ _) ⟨trivial, fun r _ => ⟨⟨d, rfl⟩, ?_⟩⟩
  cases r <;> exact hQ _

section Leased

variable {l : ℕ} {b : Bool}

lemma wp_dialLeased (scheme : Scheme) (raw : Remote) (hown : d.own = some (l, b))
    (hplain : d.Plain) : engineOutline.wp (dialLeased scheme raw l) d.keeps d.rest := by
  unfold dialLeased
  split
  · refine (Outline.wp_bind (dialHandshake scheme raw) _ _ _).mpr (wp_dialHandshake scheme raw ?_)
    rintro (_ | err)
    · exact wp_adoptDialled scheme raw hown hplain
    · rfl
  · exact wp_adoptDialled scheme raw hown hplain

lemma wp_handlePrepared (j : ℕ) (scheme : Scheme) (raw : Remote) (hown : d.own = some (l, b))
    (hplain : d.Plain) : engineOutline.wp (handlePrepared j scheme raw l) d.keeps d.rest := by
  unfold handlePrepared
  split
  · refine (Outline.wp_bind prepare _ _ _).mpr (wp_prepare ?_)
    rintro (_ | err)
    · exact wp_handleLeased j raw hown hplain
    · rfl
  · exact wp_handleLeased j raw hown hplain

lemma wp_upgradeLeased (raw : Remote) (hown : d.own = some (l, b)) (hclosed : d.closed = none) :
    engineOutline.wp (upgradeLeased raw l) d.keeps d.rest := by
  refine ⟨trivial, ?_⟩
  rintro (err | _) -
  · rfl
  · refine (Outline.wp_bind (addWebSocketWithLease raw.peer (some l)) _ _ _).mpr
      (wp_addWithLease_some raw.peer hown hclosed (fun h => absurd rfl h) (fun e => ?_) fun k => ?_)
    · rfl
    · exact ⟨trivial, fun _ _ => rfl⟩

lemma wp_dialTaken (scheme : Scheme) (hown : d.own = some (l, b)) (hclosed : d.closed = none) :
    engineOutline.wp (dialTaken scheme l) d.keeps d.rest := by
  refine (Outline.wp_bind (addWebSocketWithLease "" (some l)) _ _ _).mpr
    (wp_addWithLease_some "" hown hclosed (fun h => absurd rfl h) (fun e => ?_) fun k => ?_)
  · rfl
  · exact ⟨trivial, fun _ _ => rfl⟩

end Leased

/-! ### Operations -/

/-- What a goroutine has after an operation that it makes with nothing in hand: leases may have
passed through its hands, and it may have made a `wsDialAdmission`, which it has released. -/
structure Duty.Through (d d' : Duty) : Prop where
  entry : d'.entry = d.entry
  inOp : d'.inOp = d.inOp
  own : d'.own = none
  closed : d'.closed = d.closed
  dial : d'.dial = d.dial ∨ ∃ n, d'.dial = some (n, true)

/-- The end of such an operation. -/
def Duty.through {α : Type} (d : Duty) (_ : α) (c : Custody) : Prop :=
  ∃ d' : Duty, c = d'.rest ∧ d.Through d'

lemma Duty.through_rest {α : Type} {a : α} (hown : d.own = none) : d.through a d.rest :=
  ⟨d, rfl, rfl, rfl, hown, rfl, .inl rfl⟩

lemma wp_dialStream (scheme : Scheme) (hop : d.inOp = true) (hown : d.own = none)
    (hplain : d.Plain) : engineOutline.wp (dialStream scheme) d.through d.rest := by
  refine ⟨trivial, ?_⟩
  rintro (err | raw) -
  · exact Duty.through_rest hown
  · refine (Outline.wp_bind (adm (acquireOpening raw.peer)) _ _ _).mpr
      (wp_acquireOpeningWithListener_engine raw.peer none rfl ⟨hown, .inl hop⟩ (fun e => ?_)
        fun l => ?_)
    · exact Duty.through_rest hown
    · refine (Outline.wp_bind (dialLeased scheme raw l) _ _ _).mpr (Outline.wp_mono ?_
        (wp_dialLeased (d := { d with own := some (l, false), got := l :: d.got }) scheme raw rfl
          ⟨hplain.entry, hplain.dial, hplain.closed⟩))
      exact wp_releaseUnless rfl fun _ => ⟨_, rfl, rfl, rfl, rfl, rfl, .inl rfl⟩

lemma wp_startListener (scheme : Scheme) (hown : d.own = none) :
    engineOutline.wp (startListener scheme) d.through d.rest := by
  refine ⟨trivial, fun j _ => ?_⟩
  refine (Outline.wp_bind (addTracked j) _ _ _).mpr (wp_addTracked j ?_)
  rintro (_ | err)
  · exact ⟨trivial, fun _ _ => ⟨trivial, fun _ _ => Duty.through_rest hown⟩⟩
  · exact Duty.through_rest hown

lemma wp_listenStream (scheme : Scheme) (hown : d.own = none) :
    engineOutline.wp (listenStream scheme) d.through d.rest := by
  refine ⟨trivial, ?_⟩
  rintro (err | _) -
  · exact Duty.through_rest hown
  · show engineOutline.wp (if _ then _ else _) _ _
    split
    · refine ⟨trivial, ?_⟩
      rintro (err | _) -
      · exact Duty.through_rest hown
      · exact wp_startListener scheme hown
    · exact wp_startListener scheme hown

lemma wp_openPacket (what : External) (op : Op) (hown : d.own = none) (hplain : d.Plain) :
    engineOutline.wp (openPacket what op) d.through d.rest := by
  refine ⟨trivial, ?_⟩
  rintro (err | raw) -
  · refine ⟨trivial, ?_⟩
    rintro (_ | cause) - <;> exact Duty.through_rest hown
  · refine (Outline.wp_bind (addPacket raw.peer) _ _ _).mpr
      (wp_addWithLease_none raw.peer hown hplain (fun e => ?_) fun k got => ?_)
    · exact Duty.through_rest hown
    · exact ⟨trivial, fun _ _ => ⟨_, rfl, rfl, rfl, hown, rfl, .inl rfl⟩⟩

lemma wp_startWSListener (scheme : Scheme) (hown : d.own = none) :
    engineOutline.wp (startWSListener scheme) d.through d.rest := by
  refine ⟨trivial, fun j _ => ?_⟩
  show engineOutline.wp (if _ then _ else _) _ _
  split
  on_goal 1 => refine ⟨trivial, fun _ _ => ?_⟩
  all_goals
    refine (Outline.wp_bind (addTracked j) _ _ _).mpr (wp_addTracked j ?_)
    rintro (_ | err)
    · exact ⟨trivial, fun _ _ => ⟨trivial, fun _ _ => Duty.through_rest hown⟩⟩
    · exact (Outline.wp_bind (closeAll j) _ _ _).mpr
        (wp_closeAll j hown (Duty.through_rest hown))

lemma wp_listenWebSocket (cfg : EngineConfig) (scheme : Scheme) (query : Bool)
    (hown : d.own = none) :
    engineOutline.wp (listenWebSocket cfg scheme query) d.through d.rest := by
  unfold listenWebSocket
  split
  · exact Duty.through_rest hown
  · split
    · exact Duty.through_rest hown
    · refine ⟨trivial, ?_⟩
      rintro (err | _) -
      · exact Duty.through_rest hown
      · show engineOutline.wp (if _ then _ else _) _ _
        split
        · refine ⟨trivial, ?_⟩
          rintro (err | _) -
          · exact Duty.through_rest hown
          · exact wp_startWSListener scheme hown
        · exact wp_startWSListener scheme hown

lemma wp_dialWithCell {n : ℕ} (scheme : Scheme) (hown : d.own = none) (hclosed : d.closed = none)
    (hdial : d.dial = some (n, false)) :
    engineOutline.wp (dialWithCell scheme n) (fun _ c => c = d.rest) d.rest := by
  refine ⟨trivial, ?_⟩
  rintro (err | _) -
  · refine ⟨trivial, ?_⟩
    rintro (_ | cause) - <;> rfl
  · refine ⟨trivial, ?_⟩
    rintro (err | _) -
    · rfl
    · refine ⟨⟨hown, hdial⟩, ?_⟩
      rintro (_ | l) -
      · exact congrArg Duty.rest (Duty.disown hown)
      · refine (Outline.wp_bind (dialTaken scheme l) _ _ _).mpr (Outline.wp_mono ?_
          (wp_dialTaken (d := { d with own := some (l, false) }) scheme rfl hclosed))
        exact wp_releaseUnless rfl fun _ => congrArg Duty.rest (Duty.disown hown)

lemma wp_dialInCell (scheme : Scheme) (hown : d.own = none) (hclosed : d.closed = none)
    (hdial : d.dial = none) : engineOutline.wp (dialInCell scheme) d.through d.rest := by
  refine ⟨hdial, fun n _ => ?_⟩
  refine (Outline.wp_bind (dialWithCell scheme n) _ _ _).mpr (Outline.wp_mono ?_
    (wp_dialWithCell (d := { d with dial := some (n, false) }) scheme hown hclosed rfl))
  rintro r c rfl
  refine (Outline.wp_bind (releaseCell n) _ _ _).mpr ⟨⟨hown, rfl⟩, fun lease _ => ?_⟩
  exact wp_releaseLease rfl rfl ⟨_, rfl, rfl, rfl, rfl, rfl, .inr ⟨n, rfl⟩⟩

lemma wp_dialUpgraded (scheme : Scheme) (hown : d.own = none) (hclosed : d.closed = none)
    (hdial : d.dial = none) : engineOutline.wp (dialUpgraded scheme) d.through d.rest := by
  unfold dialUpgraded
  split
  · refine ⟨trivial, ?_⟩
    rintro (err | _) -
    · exact Duty.through_rest hown
    · exact wp_dialInCell scheme hown hclosed hdial
  · exact wp_dialInCell scheme hown hclosed hdial

lemma wp_dialWebSocket (cfg : EngineConfig) (scheme : Scheme) (hown : d.own = none)
    (hclosed : d.closed = none) (hdial : d.dial = none) :
    engineOutline.wp (dialWebSocket cfg scheme) d.through d.rest := by
  unfold dialWebSocket
  split
  · exact Duty.through_rest hown
  · refine wp_activity (fun err => Duty.through_rest hown)
      (Outline.wp_mono ?_ (wp_dialUpgraded scheme hown hclosed hdial))
    rintro r c ⟨d', rfl, h⟩
    exact ⟨⟨d', rfl⟩, d', rfl, h⟩

/-! ### Goroutines -/

/-- Where a goroutine that has come through an operation may return. -/
lemma Duty.Ready.finished {d' : Duty} (hd : d.Ready) (h : d.Through d') : d'.Finished := by
  refine ⟨h.inOp.trans hd.inOp, h.own, fun n isOver hn => ?_⟩
  rcases h.dial with h | ⟨m, h⟩
  · rw [h, hd.dial] at hn
    cases hn
  · rw [h] at hn
    cases hn
    rfl

lemma Duty.Ready.rest_finished (hd : d.Ready) : d.Finished :=
  hd.finished ⟨rfl, rfl, hd.own, rfl, .inl rfl⟩

lemma ends_ret_rest (l₀ : ELabel) (v : EVal) (hd : d.Ready) :
    engineOutline.ends l₀ (.ret v) d.rest := ⟨d, rfl, hd.rest_finished⟩

/-- The exported methods: the operation runs between `beginOp` and `endOp`. -/
lemma wp_checked {l₀ : ELabel} {ctxNil mismatch : Bool} {p : EProg (Except Err ℕ)} (hd : d.Ready)
    (hp : engineOutline.wp p { d with inOp := true }.through { d with inOp := true }.rest) :
    engineOutline.wp (checked ctxNil mismatch p) (engineOutline.ends l₀) d.rest := by
  unfold checked
  split
  · exact ends_ret_rest l₀ _ hd
  · refine ⟨trivial, ?_⟩
    rintro (err | _) -
    · exact ends_ret_rest l₀ _ hd
    · show engineOutline.wp (if _ then _ else _) _ _
      split
      · exact ends_ret_rest l₀ _ hd
      · refine (Outline.wp_bind (withOp p) _ _ _).mpr
          ((Outline.wp_bind beginOp _ _ _).mpr (wp_beginOp hd.inOp (ends_ret_rest l₀ _ hd) ?_))
        refine (Outline.wp_bind p _ _ _).mpr (Outline.wp_mono ?_ hp)
        rintro r c ⟨d', rfl, h⟩
        refine (Outline.wp_bind endOp _ _ _).mpr (wp_endOp h.inOp ⟨_, rfl, ?_⟩)
        exact hd.finished ⟨h.entry, hd.inOp.symm, h.own, h.closed, h.dial⟩

section Body

variable {l₀ : ELabel}

lemma wp_watchContext (j : ℕ) (hd : d.Ready) :
    engineOutline.wp (watchContext j) (engineOutline.ends l₀) d.rest := by
  refine ⟨trivial, ?_⟩
  rintro (_ | _) -
  · exact ends_ret_rest l₀ _ hd
  · exact (Outline.wp_bind (initiateClose j none) _ _ _).mpr
      (wp_initiateClose j none fun _ => ends_ret_rest l₀ _ hd)

lemma wp_finalizeListener (j : ℕ) (hd : d.Ready) :
    engineOutline.wp (finalizeListener j) (engineOutline.ends l₀) d.rest := by
  refine (Outline.wp_bind (initiateClose j none) _ _ _).mpr (wp_initiateClose j none fun _ => ?_)
  refine ⟨trivial, fun _ _ => ?_⟩
  exact (Outline.wp_bind (removeTracked j) _ _ _).mpr
    (wp_removeTracked j (ends_ret_rest l₀ _ hd))

lemma wp_acceptLoop (j : ℕ) (scheme : Scheme) (hd : d.Ready) (hentry : d.entry.plain) :
    engineOutline.wp (acceptLoop j scheme) (engineOutline.ends l₀) d.rest := by
  have hloop : engineOutline.ends l₀ (.goto (.acceptLoop j scheme)) d.rest := ⟨d, rfl, hd, hentry⟩
  refine ⟨trivial, ?_⟩
  rintro (err | raw) -
  · refine ⟨trivial, ?_⟩
    rintro (_ | _) -
    · refine ⟨trivial, ?_⟩
      rintro (_ | _) -
      · exact (Outline.wp_bind (initiateClose j _) _ _ _).mpr
          (wp_initiateClose j _ fun _ => wp_finalizeListener j hd)
      · refine ⟨trivial, ?_⟩
        rintro (_ | _) -
        · exact wp_finalizeListener j hd
        · exact hloop
    · exact wp_finalizeListener j hd
  · refine ⟨trivial, ?_⟩
    rintro (_ | _) -
    · exact hloop
    · exact ⟨trivial, fun _ _ => hloop⟩

/-- The end of an operation that a goroutine makes on its own. -/
lemma wp_endOp_ready {α : Type} {Q : α → Custody → Prop} {a : α} (got : List ℕ) (hd : d.Ready)
    (hQ : ∀ got, Q a { d with got }.rest) :
    engineOutline.wp (do endOp; return a) Q { d with inOp := true, own := none, got }.rest := by
  have hd' : { d with inOp := false, own := none, got } = { d with got } := by
    rw [← hd.inOp, ← hd.own]
  refine (Outline.wp_bind endOp _ _ _).mpr (wp_endOp rfl ?_)
  exact hd'.symm ▸ hQ got

lemma Duty.Ready.got (hd : d.Ready) (got : List ℕ) : { d with got }.Ready :=
  ⟨hd.inOp, hd.own, hd.dial, hd.closed⟩

lemma wp_handleAccepted (j : ℕ) (scheme : Scheme) (raw : Remote) (hd : d.Ready)
    (hentry : d.entry.plain) :
    engineOutline.wp (handleAccepted j scheme raw) (engineOutline.ends l₀) d.rest := by
  have hend (got : List ℕ) : engineOutline.wp (do endOp; return .ret .unit)
      (engineOutline.ends l₀) { d with inOp := true, own := none, got }.rest :=
    wp_endOp_ready got hd fun got => ends_ret_rest l₀ _ (hd.got got)
  refine (Outline.wp_bind beginOp _ _ _).mpr (wp_beginOp hd.inOp (ends_ret_rest l₀ _ hd) ?_)
  refine (Outline.wp_bind (adm (acquireOpeningWithListener raw.peer (some j))) _ _ _).mpr
    (wp_acquireOpeningWithListener_engine raw.peer (some j) rfl ⟨hd.own, .inl rfl⟩ (fun e => ?_)
      fun l => ?_)
  · have h := hend d.got
    rwa [← hd.own] at h
  · refine (Outline.wp_bind (handlePrepared j scheme raw l) _ _ _).mpr (Outline.wp_mono ?_
      (wp_handlePrepared (d := { d with inOp := true, own := some (l, false), got := l :: d.got })
        j scheme raw rfl ⟨hentry, hd.dial, hd.closed⟩))
    intro r c hc
    exact (Outline.wp_bind (releaseUnless l r) _ _ _).mpr
      (wp_releaseUnless rfl (fun _ => hend _) r c hc)

/-! ### HTTP connections -/

/-- An admitted connection has its lease in a holder. -/
lemma wp_admitConn {Q : Bool → Custody → Prop} (j : ℕ) (raw : Remote) (hd : d.Ready)
    (hentry : d.entry.plain) (hQ : ∀ b got, Q b { d with got }.rest) :
    engineOutline.wp (admitConn j raw) Q d.rest := by
  refine (Outline.wp_bind beginOp _ _ _).mpr (wp_beginOp hd.inOp (hQ false d.got) ?_)
  refine (Outline.wp_bind (adm (acquireOpeningWithListener raw.peer (some j))) _ _ _).mpr
    (wp_acquireOpeningWithListener_engine raw.peer (some j) rfl ⟨hd.own, .inl rfl⟩ (fun e => ?_)
      fun l => ?_)
  · have h := wp_endOp_ready d.got hd (hQ false)
    rwa [← hd.own] at h
  · refine ⟨⟨rfl, ⟨hentry, hd.dial, hd.closed⟩⟩, fun _ _ => ?_⟩
    exact wp_endOp_ready (d := d) (l :: d.got) hd (hQ true)

lemma wp_acceptHTTP (j : ℕ) (hd : d.Ready) (hentry : d.entry.plain) :
    engineOutline.wp (acceptHTTP j) (engineOutline.ends l₀) d.rest := by
  refine ⟨trivial, ?_⟩
  rintro (err | raw) -
  · exact ends_ret_rest l₀ _ hd
  · refine (Outline.wp_bind (admitConn j raw) _ _ _).mpr (wp_admitConn j raw hd hentry ?_)
    rintro (_ | _) got
    · exact ⟨_, rfl, hd.got got, hentry⟩
    · exact ⟨trivial, fun _ _ => ends_ret_rest l₀ _ (hd.got got)⟩

lemma wp_tlsAcceptLoop (j : ℕ) (hd : d.Ready) (hentry : d.entry.plain) :
    engineOutline.wp (tlsAcceptLoop j) (engineOutline.ends l₀) d.rest := by
  refine ⟨trivial, ?_⟩
  rintro (err | raw) -
  · exact ends_ret_rest l₀ _ hd
  · refine (Outline.wp_bind (admitConn j raw) _ _ _).mpr (wp_admitConn j raw hd hentry ?_)
    rintro (_ | _) got
    · exact ⟨_, rfl, hd.got got, hentry⟩
    · exact ⟨trivial, fun _ _ => ⟨_, rfl, hd.got got, hentry⟩⟩

lemma wp_handshakeLeased {Q : Unit → Custody → Prop} (j raw : ℕ) (hown : d.own = none)
    (hQ : Q () d.rest) : engineOutline.wp (handshakeLeased j raw) Q d.rest := by
  refine ⟨trivial, ?_⟩
  rintro (err | tlsConn) -
  · exact wp_releaseConn j raw hown hQ
  · refine ⟨trivial, ?_⟩
    rintro (_ | _) -
    · exact hQ
    · refine ⟨trivial, ?_⟩
      rintro (_ | _) -
      · exact wp_releaseConn j tlsConn.conn hown hQ
      · exact ⟨trivial, fun _ _ => hQ⟩

lemma wp_tlsHandshake (j raw : ℕ) (hd : d.Ready) :
    engineOutline.wp (tlsHandshake j raw) (engineOutline.ends l₀) d.rest := by
  refine wp_activity (fun err => ?_) ?_
  · exact (Outline.wp_bind (releaseConn j raw) _ _ _).mpr
      (wp_releaseConn j raw hd.own (ends_ret_rest l₀ _ hd))
  · exact wp_handshakeLeased j raw hd.own ⟨⟨d, rfl⟩, ends_ret_rest l₀ _ hd⟩

lemma wp_takeWithPhysical {Q : Option (ℕ × ℕ) → Custody → Prop} (j h : ℕ) (hown : d.own = none)
    (hnone : Q none d.rest)
    (hsome : ∀ l physical, Q (some (l, physical)) { d with own := some (l, false) }.rest) :
    engineOutline.wp (trk j (HTTPConnLease.takeWithPhysical (some h))) Q d.rest := by
  refine ⟨hown, ?_⟩
  rintro (_ | ⟨l, physical⟩) -
  · exact hnone
  · exact ⟨trivial, fun _ _ => hsome l physical⟩

lemma wp_upgradeHandler {Q : Bool → Custody → Prop} (j : ℕ) (holder : Option ℕ)
    (hown : d.own = none) (hclosed : d.closed = none) (hQ : ∀ b, Q b d.rest) :
    engineOutline.wp (upgradeHandler j holder) Q d.rest := by
  cases holder with
  | none => exact hQ false
  | some h =>
    refine wp_activity (fun err => hQ false) ⟨trivial, fun r _ => ⟨⟨d, rfl⟩, ?_⟩⟩
    cases r with
    | error err => exact hQ false
    | ok raw =>
      refine (Outline.wp_bind (trk j (HTTPConnLease.takeWithPhysical (some h))) _ _ _).mpr
        (wp_takeWithPhysical j h hown (hQ true) fun l physical => ?_)
      refine (Outline.wp_bind (upgradeLeased raw l) _ _ _).mpr (Outline.wp_mono ?_
        (wp_upgradeLeased (d := { d with own := some (l, false) }) raw rfl hclosed))
      intro r c hc
      refine (Outline.wp_bind (releaseUnless l r) _ _ _).mpr (wp_releaseUnless rfl ?_ r c hc)
      exact fun _ => (Duty.disown hown).symm ▸ hQ true

lemma wp_handleUpgrade {Q : Bool → Custody → Prop} (j : ℕ) (holder : Option ℕ) (hd : d.Ready)
    (hQ : ∀ b, Q b d.rest) : engineOutline.wp (handleUpgrade j holder) Q d.rest := by
  refine (Outline.wp_bind beginOp _ _ _).mpr (wp_beginOp hd.inOp (hQ false) ?_)
  refine (Outline.wp_bind (upgradeHandler j holder) _ _ _).mpr
    (wp_upgradeHandler (d := { d with inOp := true }) j holder hd.own hd.closed fun b => ?_)
  refine (Outline.wp_bind endOp _ _ _).mpr (wp_endOp rfl ?_)
  exact (Duty.leave hd.inOp).symm ▸ hQ b

lemma wp_httpRequests (j conn : ℕ) (holder : Option ℕ) (hd : d.Ready) (hentry : d.entry.plain) :
    engineOutline.wp (httpRequests j conn holder) (engineOutline.ends l₀) d.rest := by
  refine ⟨trivial, fun event _ => ?_⟩
  cases event with
  | closed =>
    exact (Outline.wp_bind (releaseConn j conn) _ _ _).mpr
      (wp_releaseConn j conn hd.own (ends_ret_rest l₀ _ hd))
  | other => exact ⟨d, rfl, hd, hentry⟩
  | upgrade =>
    refine (Outline.wp_bind (handleUpgrade j holder) _ _ _).mpr
      (wp_handleUpgrade j holder hd fun b => ?_)
    cases b with
    | true => exact ends_ret_rest l₀ _ hd
    | false => exact ⟨d, rfl, hd, hentry⟩

lemma wp_watchWS (j : ℕ) (hd : d.Ready) :
    engineOutline.wp (watchWS j) (engineOutline.ends l₀) d.rest := by
  refine ⟨trivial, ?_⟩
  rintro (_ | _) -
  · exact ends_ret_rest l₀ _ hd
  · exact (Outline.wp_bind (closeWSListener j) _ _ _).mpr
      (wp_closeWSListener j hd.own fun _ => ends_ret_rest l₀ _ hd)

lemma wp_serve (j : ℕ) (hd : d.Ready) :
    engineOutline.wp (serve j) (engineOutline.ends l₀) d.rest := by
  have hend : engineOutline.wp (do
      let _ ← closeWSListener j
      closeListenerDone j
      removeTracked j
      return .ret .unit) (engineOutline.ends l₀) d.rest := by
    refine (Outline.wp_bind (closeWSListener j) _ _ _).mpr
      (wp_closeWSListener j hd.own fun _ => ⟨trivial, fun _ _ => ?_⟩)
    exact (Outline.wp_bind (removeTracked j) _ _ _).mpr
      (wp_removeTracked j (ends_ret_rest l₀ _ hd))
  refine ⟨trivial, ?_⟩
  rintro (err | _) -
  · exact ⟨trivial, fun _ _ => hend⟩
  · exact ⟨trivial, fun _ _ => hend⟩

/-! ### Dial callbacks and the ends of sessions -/

lemma ends_ret_disown (v : EVal) (hop : d.inOp = false) (hdial : d.dial = none) :
    engineOutline.ends l₀ (.ret v) { d with own := none }.rest :=
  ⟨_, rfl, hop, rfl, fun _ _ h => nomatch hdial.symm.trans h⟩

lemma wp_dialRaw {Q : Option (Remote × ℕ) → Custody → Prop} {n : ℕ} {tls : Bool}
    (hown : d.own = none) (hentry : d.entry = .dialCallback n tls) (hnone : Q none d.rest)
    (hsome : ∀ raw l, Q (some (raw, l)) { d with own := some (l, false), got := l :: d.got }.rest) :
    engineOutline.wp dialRaw Q d.rest := by
  refine ⟨trivial, ?_⟩
  rintro (err | raw) -
  · exact hnone
  · refine ⟨trivial, ?_⟩
    rintro (err | _) -
    · exact hnone
    · exact (Outline.wp_bind (adm (acquireOpening raw.peer)) _ _ _).mpr
        (wp_acquireOpeningWithListener_engine raw.peer none rfl
          ⟨hown, .inr (.inr ⟨n, tls, hentry⟩)⟩ (fun _ => hnone) fun l => hsome raw l)

/-- The callback has its lease in hand until the cell takes it or the callback releases it. -/
lemma wp_setCell {n l : ℕ} {b tls : Bool} (raw : Remote) (hop : d.inOp = false)
    (hdial : d.dial = none) (hclosed : d.closed = none) (hown : d.own = some (l, b))
    (hentry : d.entry = .dialCallback n tls) :
    engineOutline.wp (setCell n raw l) (engineOutline.ends l₀) d.rest := by
  refine ⟨⟨Custody.holds_of_own hown, hdial, hclosed, tls, hentry⟩, ?_⟩
  rintro (_ | _) -
  · exact (Outline.wp_bind (adm (ConnectionLease.release l)) _ _ _).mpr
      (wp_release_engine rfl hown (ends_ret_disown _ hop hdial))
  · exact ends_ret_disown _ hop hdial

lemma wp_dialTLSLeased {n l : ℕ} {b tls : Bool} (raw : Remote) (hop : d.inOp = false)
    (hdial : d.dial = none) (hclosed : d.closed = none) (hown : d.own = some (l, b))
    (hentry : d.entry = .dialCallback n tls) :
    engineOutline.wp (dialTLSLeased n raw l) (engineOutline.ends l₀) d.rest := by
  have hrelease : engineOutline.wp (do
      adm (ConnectionLease.release l)
      return .ret .unit) (engineOutline.ends l₀) d.rest :=
    (Outline.wp_bind (adm (ConnectionLease.release l)) _ _ _).mpr
      (wp_release_engine rfl hown (ends_ret_disown _ hop hdial))
  refine wp_activity (fun err => hrelease) ⟨trivial, fun r _ => ⟨⟨d, rfl⟩, ?_⟩⟩
  cases r with
  | ok _ => exact wp_setCell raw hop hdial hclosed hown hentry
  | error err => exact hrelease

lemma wp_dialCallback {n : ℕ} {tls : Bool} (hd : d.Ready) (hentry : d.entry = .dialCallback n tls) :
    engineOutline.wp (dialCallback n tls) (engineOutline.ends l₀) d.rest := by
  refine (Outline.wp_bind dialRaw _ _ _).mpr
    (wp_dialRaw hd.own hentry (ends_ret_rest l₀ _ hd) fun raw l => ?_)
  cases tls with
  | false => exact wp_setCell raw hd.inOp hd.dial hd.closed rfl hentry
  | true => exact wp_dialTLSLeased raw hd.inOp hd.dial hd.closed rfl hentry

lemma wp_finalizer {k : ℕ} (hd : d.Ready) (hentry : d.entry = .finalizer k) :
    engineOutline.wp (finalizer k) (engineOutline.ends l₀) d.rest := by
  refine ⟨⟨hd.own, hd.closed, hentry⟩, fun _ _ => ?_⟩
  refine (Outline.wp_bind (removeSession k) _ _ _).mpr
    (wp_removeSession (d := { d with closed := some k }) hd.own rfl hentry ?_)
  exact ⟨_, rfl, hd.inOp, hd.own, fun _ _ h => nomatch hd.dial.symm.trans h⟩

/-! ### Shutdown -/

lemma wp_closeEach {Q : Option Err → Custody → Prop} {close : ℕ → EProg (Option Err)}
    (hclose : ∀ {Q : Option Err → Custody → Prop} (j : ℕ), (∀ r, Q r d.rest) →
      engineOutline.wp (close j) Q d.rest)
    (js : List ℕ) (errs : Option Err) (hQ : ∀ r, Q r d.rest) :
    engineOutline.wp (closeEach close js errs) Q d.rest := by
  induction js generalizing errs with
  | nil => exact hQ errs
  | cons j js ih =>
    refine (Outline.wp_bind (close j) _ _ _).mpr (hclose j ?_)
    rintro (_ | err)
    · exact ih errs
    · exact ih _

lemma wp_closeSessions {Q : Unit → Custody → Prop} (ks : List ℕ) (hQ : Q () d.rest) :
    engineOutline.wp (closeSessions ks) Q d.rest := by
  induction ks with
  | nil => exact hQ
  | cons k ks ih => exact ⟨trivial, fun _ _ => ih⟩

lemma wp_closeSet {Q : Option Err → Custody → Prop} (set : EngineShutdownSet)
    (hown : d.own = none) (hQ : ∀ r, Q r d.rest) :
    engineOutline.wp (closeSet set) Q d.rest := by
  refine (Outline.wp_bind (closeEach _ set.streamListeners none) _ _ _).mpr
    (wp_closeEach (fun j => wp_initiateClose j none) _ _ fun errs => ?_)
  refine (Outline.wp_bind (closeEach closeWSListener set.wsListeners errs) _ _ _).mpr
    (wp_closeEach (fun j => wp_closeWSListener j hown) _ _ fun errs => ?_)
  refine (Outline.wp_bind (closeSessions set.streams) _ _ _).mpr (wp_closeSessions _ ?_)
  refine (Outline.wp_bind (closeSessions set.websockets) _ _ _).mpr (wp_closeSessions _ ?_)
  exact (Outline.wp_bind (closeSessions set.packets) _ _ _).mpr (wp_closeSessions _ (hQ _))

lemma wp_abortRemaining {Q : Unit → Custody → Prop} (reason : AbortReason) (hown : d.own = none)
    (hentry : d.entry.stops) (hQ : Q () d.rest) :
    engineOutline.wp (abortRemaining reason) Q d.rest := by
  refine (Outline.wp_bind (beginAbort reason) _ _ _).mpr (wp_beginAbort reason hentry ?_)
  rintro (_ | set)
  · exact hQ
  · refine (Outline.wp_bind (closeSet set) _ _ _).mpr (wp_closeSet set hown ?_)
    rintro (_ | err)
    · exact hQ
    · exact wp_recordShutdownError err hQ

lemma wp_requestShutdown {Q : Unit → Custody → Prop} (set : EngineShutdownSet)
    (hown : d.own = none) (hentry : d.entry.stops) (hQ : Q () d.rest) :
    engineOutline.wp (requestShutdown set) Q d.rest := by
  refine (Outline.wp_bind (closeSet set) _ _ _).mpr (wp_closeSet set hown ?_)
  rintro (_ | err)
  · exact hQ
  · exact (Outline.wp_bind (recordShutdownError err) _ _ _).mpr
      (wp_recordShutdownError err (wp_abortRemaining .failure hown hentry hQ))

lemma wp_awaitShutdown (owner : Bool) (hd : d.Ready) (hentry : d.entry.stops) :
    engineOutline.wp (awaitShutdown owner) (engineOutline.ends l₀) d.rest := by
  refine ⟨trivial, ?_⟩
  rintro (_ | cause) -
  · exact (Outline.wp_bind shutdownResult _ _ _).mpr
      (wp_shutdownResult fun _ => ends_ret_rest l₀ _ hd)
  · show engineOutline.wp (if _ then _ else _) _ _
    split
    · exact (Outline.wp_bind (abortRemaining .caller) _ _ _).mpr
        (wp_abortRemaining .caller hd.own hentry (ends_ret_rest l₀ _ hd))
    · exact ends_ret_rest l₀ _ hd

lemma wp_shutdownEngine (ctxNil : Bool) (hd : d.Ready) (hentry : d.entry.stops) :
    engineOutline.wp (shutdownEngine ctxNil) (engineOutline.ends l₀) d.rest := by
  unfold shutdownEngine
  split
  · exact ends_ret_rest l₀ _ hd
  · refine ⟨trivial, ?_⟩
    rintro (_ | cause) -
    · refine (Outline.wp_bind beginGracefulShutdown _ _ _).mpr
        (wp_beginGracefulShutdown hd.own hentry (wp_awaitShutdown false hd hentry) fun set => ?_)
      have hd' : { d with graceful := true }.Ready := ⟨hd.inOp, hd.own, hd.dial, hd.closed⟩
      exact (Outline.wp_bind (requestShutdown set) _ _ _).mpr
        (wp_requestShutdown set hd'.own hentry (wp_awaitShutdown true hd' hentry))
    · exact ends_ret_rest l₀ _ hd

lemma wp_closeEngine (hd : d.Ready) (hentry : d.entry.stops) :
    engineOutline.wp closeEngine (engineOutline.ends l₀) d.rest := by
  refine (Outline.wp_bind (beginAbort .explicit) _ _ _).mpr (wp_beginAbort .explicit hentry ?_)
  rintro (_ | set)
  · exact ends_ret_rest l₀ _ hd
  · exact (Outline.wp_bind (closeSet set) _ _ _).mpr
      (wp_closeSet set hd.own fun _ => ends_ret_rest l₀ _ hd)

end Body

/-- Every goroutine meets the outline. -/
lemma engineOutline_body (cfg : EngineConfig) (l₀ l : ELabel) (c : Custody)
    (hc : engineOutline.pre l c) : engineOutline.wp (l.body cfg) (engineOutline.ends l₀) c := by
  obtain ⟨d, rfl, hd, hentry⟩ := hc
  cases l with
  | listen ctxNil scheme query =>
    refine wp_checked hd ?_
    split
    · exact wp_listenStream scheme hd.own
    · exact wp_listenWebSocket cfg scheme query hd.own
  | dial ctxNil scheme =>
    refine wp_checked hd ?_
    split
    · exact wp_dialStream scheme rfl hd.own ⟨hentry, hd.dial, hd.closed⟩
    · exact wp_dialWebSocket cfg scheme hd.own hd.closed hd.dial
  | listenPacket ctxNil scheme =>
    exact wp_checked hd (wp_openPacket _ _ hd.own ⟨hentry, hd.dial, hd.closed⟩)
  | dialPacket ctxNil scheme =>
    exact wp_checked hd (wp_openPacket _ _ hd.own ⟨hentry, hd.dial, hd.closed⟩)
  | shutdown ctxNil =>
    refine wp_shutdownEngine ctxNil hd ?_
    rw [show d.entry = _ from hentry]
    trivial
  | close =>
    refine wp_closeEngine hd ?_
    rw [show d.entry = _ from hentry]
    trivial
  | closeListener j =>
    exact (Outline.wp_bind (initiateClose j none) _ _ _).mpr
      (wp_initiateClose j none fun _ => ends_ret_rest l₀ _ hd)
  | closeWSListener j =>
    exact (Outline.wp_bind (closeWSListener j) _ _ _).mpr
      (wp_closeWSListener j hd.own fun _ => ends_ret_rest l₀ _ hd)
  | watchContext j => exact wp_watchContext j hd
  | acceptLoop j scheme => exact wp_acceptLoop j scheme hd hentry
  | handleAccepted j scheme raw => exact wp_handleAccepted j scheme raw hd hentry
  | watchWS j => exact wp_watchWS j hd
  | serve j => exact wp_serve j hd
  | accept j => exact wp_acceptHTTP j hd hentry
  | tlsAcceptLoop j => exact wp_tlsAcceptLoop j hd hentry
  | tlsHandshake j raw => exact wp_tlsHandshake j raw hd
  | httpConn j conn => exact ⟨trivial, fun _ _ => ⟨d, rfl, hd, hentry⟩⟩
  | httpRequests j conn holder => exact wp_httpRequests j conn holder hd hentry
  | dialCallback n tls => exact wp_dialCallback hd hentry
  | finalizer k => exact wp_finalizer hd hentry

end Ogrenet
