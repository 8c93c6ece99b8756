import Ogrenet.Session.Parts.Steps
import Ogrenet.Session.Resources.Steps

/-!
# Resources in the functions that all sessions share
-/

namespace Ogrenet

open Interleaving Interleaving.Prog Ses

variable {kind : SessionKind} {cfg : SessionConfig} {α : Type} {h : Hand}

/-! ### Rules -/

/-- A program of neutral steps leaves the hands as they are. -/
lemma wp_neutral {p : SProg α} (hp : p.Forall fun i => i.neutral = true) {Q : α → Hand → Prop}
    (hQ : ∀ a, Q a h) : (resourceOutline kind cfg).wp p Q h := by
  refine Outline.wp_of_within (J := fun h' => h' = h) (F := fun _ => True) ?_
    (fun a h' _ hh => hh ▸ hQ a) rfl
  refine hp.imp (fun i hi h' hh => ⟨Hand.req_neutral hi h', fun r hr => ?_⟩) fun _ => id
  exact (Hand.upd_neutral hi h' hr).trans hh

/-- A `select` is checked case by case. -/
lemma wp_select {cases : List Case} {k : Fired → SProg α} {Q : α → Hand → Prop}
    (hc : Case.Each (fun c => h.caseReq cfg cases c ∧
      c.All fun r => (resourceOutline kind cfg).wp (k r) Q (h.fired cfg cases r)) cases) :
    (resourceOutline kind cfg).wp (.op (.select cases false) k) Q h :=
  ⟨fun c hm => (hc.mem c hm).1, fun _ hr => hr.all (fun c hm => (hc.mem c hm).2) nofun⟩

lemma wp_poll {cases : List Case} {k : Fired → SProg α} {Q : α → Hand → Prop}
    (hc : Case.Each (fun c => h.caseReq cfg cases c ∧
      c.All fun r => (resourceOutline kind cfg).wp (k r) Q (h.fired cfg cases r)) cases)
    (hd : (resourceOutline kind cfg).wp (k .default) Q (h.fired cfg cases .default)) :
    (resourceOutline kind cfg).wp (.op (.select cases true) k) Q h :=
  ⟨fun c hm => (hc.mem c hm).1, fun _ hr => hr.all (fun c hm => (hc.mem c hm).2) fun _ => hd⟩

/-! ### Neutral functions -/

lemma neutral_abortWith (reason : AbortReason) (publish : Option (Option Err)) :
    (abortWith reason publish).Forall fun i => i.neutral = true := by
  refine ⟨rfl, ?_⟩
  rintro (_ | _)
  · trivial
  · exact ⟨rfl, fun _ => ⟨rfl, fun _ => ⟨rfl, fun _ => ⟨rfl, fun _ => ⟨rfl, fun _ => trivial⟩⟩⟩⟩⟩

lemma neutral_markTerminalChannels :
    markTerminalChannels.Forall fun i => i.neutral = true :=
  ⟨rfl, fun _ => ⟨rfl, fun _ => ⟨rfl, fun _ => trivial⟩⟩⟩

lemma neutral_tryMarkTerminal : tryMarkTerminal.Forall fun i => i.neutral = true := by
  refine ⟨rfl, ?_⟩
  rintro (_ | _)
  · trivial
  · exact neutral_markTerminalChannels.bind fun _ => trivial

lemma neutral_onceDo (o : Once) {body : SProg Unit}
    (hb : body.Forall fun i => i.neutral = true) :
    (onceDo o body).Forall fun i => i.neutral = true := by
  refine ⟨rfl, ?_⟩
  rintro (_ | _)
  · trivial
  · exact hb.bind fun _ => ⟨rfl, fun _ => trivial⟩

lemma neutral_isClosedSignal (ch : Signal) :
    (isClosedSignal ch).Forall fun i => i.neutral = true :=
  ⟨rfl, fun r => by cases r <;> trivial⟩

/-! ### Budgets -/

section Budgets

variable {Q : α → Hand → Prop} {entry : SLabel} {encoded : Option Bytes} {slots shared n : ℕ}

lemma wp_localSection {k : Option ℕ → SProg α}
    (hnone : (resourceOutline kind cfg).wp (k none) Q (.sender entry encoded slots n shared))
    (hsome : ∀ g, (resourceOutline kind cfg).wp (k (some g)) Q
      (.sender entry encoded slots 0 shared)) :
    (resourceOutline kind cfg).wp (.op (.localSection n) k) Q
      (.sender entry encoded slots 0 shared) := by
  refine ⟨rfl, ?_⟩
  rintro (_ | g) -
  · rw [← Nat.zero_add n] at hnone
    exact hnone
  · exact hsome g

lemma wp_localTry {k : Bool → SProg α}
    (htrue : (resourceOutline kind cfg).wp (k true) Q (.sender entry encoded slots n shared))
    (hfalse : (resourceOutline kind cfg).wp (k false) Q
      (.sender entry encoded slots 0 shared)) :
    (resourceOutline kind cfg).wp (.op (.localTry n) k) Q
      (.sender entry encoded slots 0 shared) := by
  refine ⟨rfl, ?_⟩
  rintro (_ | _) -
  · exact hfalse
  · rw [← Nat.zero_add n] at htrue
    exact htrue

lemma wp_globalSection {own : ℕ} {k : Option ℕ → SProg α}
    (hnone : (resourceOutline kind cfg).wp (k none) Q (.sender entry encoded slots own n))
    (hsome : ∀ g, (resourceOutline kind cfg).wp (k (some g)) Q
      (.sender entry encoded slots own 0)) :
    (resourceOutline kind cfg).wp (.op (.globalSection n) k) Q
      (.sender entry encoded slots own 0) := by
  refine ⟨rfl, ?_⟩
  rintro (_ | g) -
  · rw [← Nat.zero_add n] at hnone
    exact hnone
  · exact hsome g

lemma wp_localRelease {k : Unit → SProg α}
    (hk : (resourceOutline kind cfg).wp (k ()) Q (.sender entry encoded slots 0 shared)) :
    (resourceOutline kind cfg).wp (.op (.localRelease n) k) Q
      (.sender entry encoded slots n shared) := by
  refine ⟨Nat.le_refl _, fun _ _ => ?_⟩
  rw [← Nat.sub_self n] at hk
  exact hk

/-- Both budgets are given back, and booked on the request in hand. -/
lemma wp_quotaRelease {Q : Unit → Hand → Prop} (ho : h.own = n)
    (hs : h.shared = cfg.globalCharge n)
    (hQ : Q () ({ h with own := 0, shared := 0 }.settle fun e =>
      { e with own := e.own + n, shared := e.shared + cfg.globalCharge n })) :
    (resourceOutline kind cfg).wp (quotaRelease n) Q h := by
  refine ⟨Nat.le_of_eq ho.symm, fun _ _ => ⟨Nat.le_of_eq hs.symm, fun _ _ => ?_⟩⟩
  have heq : (Hand.upd kind cfg (.globalRelease n) ()
      (Hand.upd kind cfg (.localRelease n) () h)) =
      ({ h with own := 0, shared := 0 }.settle fun e =>
        { e with own := e.own + n, shared := e.shared + cfg.globalCharge n }) := by
    cases hsp : h.spent <;> simp [Hand.upd, Hand.settle, ho, hs, hsp]
  rw [← heq] at hQ
  exact hQ

/-- A sender gives back its bytes and its slot. -/
lemma wp_handBack {p : SProg α}
    (hk : (resourceOutline kind cfg).wp p Q (.sender entry encoded 0 0 0)) :
    (resourceOutline kind cfg).wp (do quotaRelease n; releaseSlot; p) Q
      (.sender entry encoded 1 n (cfg.globalCharge n)) :=
  (Outline.wp_bind (quotaRelease n) _ _ _).mpr
    (wp_quotaRelease rfl rfl ⟨Nat.one_pos, fun _ _ => hk⟩)

lemma globalCharge_of_zero (hz : cfg.maxQueuedBytesTotal = 0 ∨ n = 0) : cfg.globalCharge n = 0 := by
  rcases hz with hz | rfl
  · exact if_pos hz
  · exact ite_self 0

lemma wp_tryAcquireGlobal {Q : Option Err → Hand → Prop} {own : ℕ}
    (hnone : Q none (.sender entry encoded slots own (cfg.globalCharge n)))
    (hsome : ∀ e, Q (some e) (.sender entry encoded slots own 0)) :
    (resourceOutline kind cfg).wp (tryAcquireGlobal cfg n) Q
      (.sender entry encoded slots own 0) := by
  simp only [tryAcquireGlobal]
  split
  · rename_i hz
    rw [globalCharge_of_zero hz] at hnone
    exact hnone
  · rename_i hz
    split
    · exact hsome _
    · refine ⟨rfl, ?_⟩
      rintro (_ | _) -
      · exact hsome _
      · have hc : cfg.globalCharge n = 0 + n := by
          rw [Nat.zero_add]
          exact if_neg fun h0 => hz (Or.inl h0)
        rw [hc] at hnone
        exact hnone

lemma wp_tryAcquireQuota {Q : Option Err → Hand → Prop}
    (hnone : Q none (.sender entry encoded slots n (cfg.globalCharge n)))
    (hsome : ∀ e, Q (some e) (.sender entry encoded slots 0 0)) :
    (resourceOutline kind cfg).wp (tryAcquireQuota cfg n) Q (.sender entry encoded slots 0 0) := by
  simp only [tryAcquireQuota]
  split
  · exact hsome _
  · refine wp_localTry ?_ (hsome _)
    refine (Outline.wp_bind (tryAcquireGlobal cfg n) _ _ _).mpr
      (wp_tryAcquireGlobal hnone fun e => ?_)
    exact wp_localRelease (hsome e)

end Budgets

/-! ### Slots -/

section Slots

variable {entry : SLabel} {encoded : Option Bytes}

lemma wp_acquireFrameSlot (ctx : ℕ) {Q : Option Err → Hand → Prop}
    (hnone : Q none (.sender entry encoded 1 0 0))
    (hsome : ∀ e, Q (some e) (.sender entry encoded 0 0 0)) :
    (resourceOutline kind cfg).wp (Conn.acquireFrameSlot ctx) Q (.sender entry encoded 0 0 0) :=
  wp_select ⟨⟨trivial, fun _ => hsome _⟩, ⟨trivial, hsome _⟩, ⟨⟨rfl, rfl⟩, hnone⟩⟩

lemma wp_tryAcquireFrameSlot {Q : Option Err → Hand → Prop}
    (hnone : Q none (.sender entry encoded 1 0 0))
    (hsome : ∀ e, Q (some e) (.sender entry encoded 0 0 0)) :
    (resourceOutline kind cfg).wp Conn.tryAcquireFrameSlot Q (.sender entry encoded 0 0 0) :=
  wp_poll ⟨⟨trivial, hsome _⟩, ⟨⟨rfl, rfl⟩, hnone⟩⟩ (hsome _)

end Slots

/-! ### Endings -/

lemma Hand.post_some (e : Err) (h : Hand) : h.post (.result (some e)) := by
  simp only [Hand.post]
  split <;> simp_all

lemma Hand.post_unit (h : Hand) : h.post .unit := by
  simp only [Hand.post]
  split <;> trivial

lemma Hand.post_confirmed {i : ℕ} {req : Request} (hp : h.pushed = some (i, req))
    (hc : h.confirmed = some i) (v : SVal) : h.post v := by
  simp only [Hand.post]
  split
  · exact ⟨i, req, hp, hc⟩
  · exact ⟨i, req, hp, hc⟩
  · exact ⟨i, req, hp⟩
  · exact ⟨i, req, hp⟩
  · trivial

lemma wp_returnErr {l₀ : SLabel} (e : Err) :
    (resourceOutline kind cfg).wp (returnErr (some e)) ((resourceOutline kind cfg).ends l₀) h :=
  Hand.post_some e h

/-- A call that returns an error leaves the gate with free hands. -/
lemma wp_leave {l₀ : SLabel} {e : Err} (hg : h.inGate = true) (hf : h.Free) :
    (resourceOutline kind cfg).wp (do gateLeave; returnErr (some e))
      ((resourceOutline kind cfg).ends l₀) h :=
  ⟨⟨hg, hf⟩, fun _ _ => Hand.post_some e _⟩

/-- A sender whose request is on the queue. -/
def Hand.queued (entry : SLabel) (encoded : Option Bytes) (i : ℕ) (req : Request) : Hand :=
  { entry, inGate := true, encoded, pushed := some (i, req) }

/-- What a sender returns for an ack. -/
lemma wp_acked {l₀ entry : SLabel} {encoded : Option Bytes} {i : ℕ} {req : Request}
    {cases : List Case} (v : Option Err) :
    (resourceOutline kind cfg).wp (do gateLeave; returnErr v)
      ((resourceOutline kind cfg).ends l₀)
      ((Hand.queued entry encoded i req).fired cfg cases (.acked v)) := by
  cases v with
  | none =>
    refine ⟨⟨rfl, rfl, rfl, rfl⟩, fun _ _ => ?_⟩
    exact Hand.post_confirmed (show _ = some (i, req) from rfl) rfl _
  | some e => exact wp_leave rfl ⟨rfl, rfl, rfl⟩

/-- The push of the request moves everything the sender holds to the queue. -/
lemma wp_pushed {Q : α → Hand → Prop} {p : SProg α} {entry : SLabel} {encoded : Option Bytes}
    {req : Request} {cases : List Case} (ho : offered cases = some req) {i : ℕ}
    (hp : (resourceOutline kind cfg).wp p Q (.queued entry encoded i req)) :
    (resourceOutline kind cfg).wp p Q
      ((Hand.sender entry encoded 1 req.bytes (cfg.globalCharge req.bytes)).fired cfg cases
        (.pushed i)) := by
  have heq : (Hand.sender entry encoded 1 req.bytes (cfg.globalCharge req.bytes)).fired cfg cases
      (.pushed i) = .queued entry encoded i req := by
    simp [Hand.fired, ho, Hand.sender, Hand.queued]
  rw [heq]
  exact hp

lemma caseReq_push {entry : SLabel} {encoded : Option Bytes} {req : Request} {cases : List Case}
    (ho : offered cases = some req) (hc : Carries cfg encoded req entry) :
    (Hand.sender entry encoded 1 req.bytes (cfg.globalCharge req.bytes)).caseReq cfg cases
      (.push req) :=
  ⟨rfl, ho, Nat.one_pos, Nat.le_refl _, Nat.le_refl _, hc⟩

/-- `finalize` closes `done` after the loops have ended. -/
lemma wp_finalizeWith {Q : Unit → Hand → Prop} {p : SProg Unit}
    (hp : p.Forall fun i => i.neutral = true) (hw : h.waited = true) (hQ : Q () h) :
    (resourceOutline kind cfg).wp (finalizeWith p) Q h := by
  refine ⟨trivial, ?_⟩
  rintro (_ | _) -
  · exact hQ
  · refine (Outline.wp_bind (p >>= _) _ _ _).mpr ((Outline.wp_bind p _ _ _).mpr
      (wp_neutral hp fun _ => ?_))
    exact ⟨trivial, fun _ _ => ⟨trivial, fun _ _ => ⟨trivial, fun _ _ => ⟨hw, fun _ _ =>
      ⟨trivial, fun _ _ => ⟨trivial, fun _ _ => hQ⟩⟩⟩⟩⟩⟩

/-! ### Goroutines that do not send -/

section Idle

variable {clean : Prop} {role : Role} {i : SInstr} {l l₀ : SLabel}

lemma Case.all_neutral {cases : List Case} (hrole : role.outbound = false)
    (h : cases.all (Case.fits role) = true) : cases.all Case.neutral = true := by
  refine List.all_eq_true.mpr fun c hc => ?_
  have hfits := List.all_eq_true.mp h c hc
  cases c with
  | pop | drained | slot | push _ | ack _ =>
    rw [beq_iff_eq.mp hfits] at hrole
    cases hrole
  | _ => rfl

lemma SInstr.Plain.neutral (hrole : role.outbound = false) (hfinal : role ≠ .finalizer)
    (h : i.Plain clean kind role) : i.neutral = true := by
  have hp := h.plain
  cases i with
  | gateEnter | gateLeave | encode _ | localSection _ | localTry _ | globalSection _ | globalTry _
  | setWriteDeadline | rawWrite _ | wsWrite _ | packetWrite _ | wrote _ | ack _ _ =>
    rw [beq_iff_eq.mp hp] at hrole
    cases hrole
  | releaseSlot | localRelease _ | globalRelease _ => exact absurd (hrole.symm.trans hp) nofun
  | count c n =>
    cases c with
    | bytesTX | messagesTX =>
      rw [beq_iff_eq.mp hp] at hrole
      cases hrole
    | _ => rfl
  | signal ch => cases ch <;> first | rfl | cases hp
  | loopDone => cases hp
  | waitLoops => exact absurd (beq_iff_eq.mp hp) hfinal
  | select cases dflt => exact Case.all_neutral hrole hp
  | _ => rfl

lemma SInstr.Ending.neutral (hrole : role.outbound = false) (hfinal : role ≠ .finalizer)
    (h : i.Ending clean kind role) : i.neutral = true := by
  cases i with
  | select cases dflt => exact Case.all_neutral hrole h
  | signal ch =>
    cases ch with
    | done => exact absurd (h.2.2 rfl) hfinal
    | _ => rfl
  | _ => first | rfl | exact h.elim

lemma Hand.pre_of_role (hrole : l.role.outbound = false) (hfinal : l.role ≠ .finalizer) :
    h.pre kind cfg l ↔ h.Idle l.role := by
  cases l <;> first | exact .rfl | exact absurd rfl hfinal | cases hrole

/-- Whoever is neither on the send path nor the finalizer leaves the hands as they are. -/
lemma wp_idle (hrole : l.role.outbound = false) (hfinal : l.role ≠ .finalizer)
    (hh : h.Idle l.role) :
    (resourceOutline kind cfg).wp (kind.body cfg l) ((resourceOutline kind cfg).ends l₀) h := by
  obtain ⟨l₁, rfl, hl₁, hloop⟩ := hh
  refine Outline.wp_of_made (J := fun h => h = Hand.start l₁)
    (made_body False kind cfg l (Role.stays_self l)) (fun i hi h hh => ?_) ?_
    (fun β q hq h hh => ?_) (fun n h hn hh => ?_) rfl
  · have hn := hi.neutral hrole hfinal
    exact ⟨Hand.req_neutral hn h, fun r hr => ⟨False.elim, (Hand.upd_neutral hn h hr).trans hh⟩⟩
  · rintro i n ⟨rfl, hl, rfl⟩ h rfl
    refine ⟨⟨hloop.trans hl, fun he => ?_⟩, fun _ _ => Hand.post_unit _⟩
    rw [← hl₁, show l₁ = .writerLoop from he] at hrole
    cases hrole
  · exact wp_neutral (hq.ending.imp (fun _ hi => hi.neutral hrole hfinal) fun _ => id) fun _ => hh
  · cases n with
    | goto l' =>
      have hl' : l'.role = l.role := hn.role_eq
      rw [← hl'] at hrole hfinal hl₁ hloop
      exact (Hand.pre_of_role hrole hfinal).mpr ⟨l₁, hh, hl₁, hloop⟩
    | ret v =>
      subst hh
      rw [← hl₁] at hrole
      cases l₁ with
      | send _ _ | trySend _ | sendTo _ _ _ | trySendTo _ _ => cases hrole
      | _ => trivial

end Idle

/-! ### The writer -/

section Writer

variable {Q : α → Hand → Prop} {b : Hand} {slots own shared owed n : ℕ} {spent : List Spent}

lemma wp_countBytes {k : Unit → SProg α}
    (hk : (resourceOutline kind cfg).wp (k ()) Q (.writer b slots own shared 0 owed spent)) :
    (resourceOutline kind cfg).wp (.op (.count .bytesTX n) k) Q
      (.writer b slots own shared n owed spent) := by
  refine ⟨Nat.le_refl _, fun _ _ => ?_⟩
  rw [← Nat.sub_self n] at hk
  exact hk

/-- The request in hand gives back its bytes and its slot. -/
lemma wp_giveBack {owedBytes : ℕ} {e : Spent} {p : SProg α}
    (hk : (resourceOutline kind cfg).wp p Q (.writer b 0 0 0 owedBytes owed
      ({ e with
        slots := e.slots + 1, own := e.own + n,
        shared := e.shared + cfg.globalCharge n } :: spent))) :
    (resourceOutline kind cfg).wp (do quotaRelease n; releaseSlot; p) Q
      (.writer b 1 n (cfg.globalCharge n) owedBytes owed (e :: spent)) :=
  (Outline.wp_bind (quotaRelease n) _ _ _).mpr
    (wp_quotaRelease rfl rfl ⟨Nat.one_pos, fun _ _ => hk⟩)

lemma Hand.fired_popped (b : Hand) (spent : List Spent) (cases : List Case) (i : ℕ)
    (req : Request) : (Hand.writer b 0 0 0 0 0 spent).fired cfg cases (.popped i req) =
      .writer { b with failed := false } 1 req.bytes (cfg.globalCharge req.bytes) 0 0
        ({ index := i, req } :: spent) := by
  simp [Hand.fired, Hand.writer]

lemma Hand.Ready.called (failed : Bool) (hr : h.Ready) : { h with failed }.Ready := by
  obtain ⟨b, spent, rfl, ha⟩ := hr
  exact ⟨{ b with failed }, spent, rfl, ha⟩

lemma Hand.Writing.called {i : ℕ} {req : Request} (failed : Bool) (hw : h.Writing cfg i req) :
    { h with failed }.Writing cfg i req := by
  obtain ⟨b, es, tried, rfl, hes⟩ := hw
  exact ⟨{ b with failed }, es, tried, rfl, hes⟩

lemma Hand.Writing.attempted {i : ℕ} {req : Request} (delivered : Option Request) (failed : Bool)
    (hw : h.Writing cfg i req) : { h with delivered, failed }.attempt.Writing cfg i req := by
  obtain ⟨b, es, -, rfl, hes⟩ := hw
  exact ⟨{ b with delivered, failed }, es, true, rfl, hes⟩

lemma Hand.Writing.isWriter {i : ℕ} {req : Request} (hw : h.Writing cfg i req) :
    h.entry = .writerLoop ∧ h.loop = true := by
  obtain ⟨b, es, tried, rfl, -⟩ := hw
  exact ⟨rfl, rfl⟩

lemma Hand.Ready.popped (hr : h.Ready) (hw : h.Written) (cases : List Case) (i : ℕ)
    (req : Request) : (h.fired cfg cases (.popped i req)).Writing cfg i req := by
  obtain ⟨b, spent, rfl, -⟩ := hr
  exact ⟨{ b with failed := false }, spent, false, Hand.fired_popped b spent cases i req, hw⟩

lemma Hand.Ready.caseReq_pop {cases : List Case} (hr : h.Ready) : h.caseReq cfg cases .pop := by
  obtain ⟨b, spent, rfl, ha⟩ := hr
  exact ⟨rfl, rfl, ⟨rfl, rfl, rfl⟩, ha⟩

/-- The writer leaves its loop once the gate is drained and the queue empty. -/
lemma wp_endWriter {l₀ : SLabel} (hr : h.Ready) (hd : h.sawDrained = true) :
    (resourceOutline kind cfg).wp endLoop ((resourceOutline kind cfg).ends l₀)
      (h.fired cfg [.pop] .default) := by
  obtain ⟨b, spent, rfl, ha⟩ := hr
  refine ⟨⟨rfl, fun _ => ⟨?_, ⟨rfl, rfl, rfl⟩, ha, ⟨rfl, rfl⟩⟩⟩, fun _ _ => trivial⟩
  simp [Hand.fired, hd, offersPop]

/-- The ack of the request in hand, if it waits for one. -/
lemma wp_ackIf {req : Request} {e : Spent} {i : ℕ} {v : Option Err} {p : SProg α}
    (hreq : e.req = req) (hi : e.index = i) (ha : e.acks = 0) (hv : v = none → e.result = some true)
    (hrec : e.tried = true → e.result ≠ none) (hk : ∀ e', e'.Done → e'.result = e.result →
      (resourceOutline kind cfg).wp p Q (.writer b 0 0 0 0 0 (e' :: spent))) :
    (resourceOutline kind cfg).wp (if req.hasAck then (do ack i v; p) else p) Q
      (.writer b 0 0 0 0 0 (e :: spent)) := by
  subst hreq
  split
  · rename_i hack
    refine ⟨⟨rfl, rfl, e, spent, rfl, hi, ha, hack, hv⟩, fun _ _ => ?_⟩
    exact hk { e with acks := e.acks + 1 } ⟨by simp [Request.acks, hack, ha], hrec⟩ rfl
  · rename_i hack
    exact hk e ⟨by simp [Request.acks, hack, ha], hrec⟩ rfl

/-- The ack of a failed request, and the end of the writer's loop. -/
lemma wp_failAck {l₀ : SLabel} (b : Hand) (es : List Spent) {e : Spent} {req : Request} {i : ℕ}
    {v : Err} (hreq : e.req = req) (hi : e.index = i) (ha : e.acks = 0)
    (hrec : e.result ≠ none) :
    (resourceOutline kind cfg).wp
      (if req.hasAck then (do ack i (some v); pure (.goto .writerExit)) else
        pure (.goto .writerExit))
      ((resourceOutline kind cfg).ends l₀) (.writer b 0 0 0 0 0 (e :: es)) :=
  wp_ackIf hreq hi ha nofun (fun _ => hrec) fun e' he _ =>
    ⟨b, e' :: es, rfl, fun d hd => by cases hd; exact he⟩

lemma Hand.ready_start : (Hand.start .writerLoop).Ready :=
  ⟨.start .writerLoop, [], rfl, nofun⟩

lemma Hand.Ready.drained (cfg : SessionConfig) (cases : List Case) (hr : h.Ready) :
    (h.fired cfg cases .drained).Ready := by
  obtain ⟨b, spent, rfl, ha⟩ := hr
  exact ⟨{ b with sawDrained := true }, spent, rfl, ha⟩

lemma Hand.Ready.polled (cfg : SessionConfig) (cases : List Case) (hr : h.Ready) :
    (h.fired cfg cases .default).Ready := by
  obtain ⟨b, spent, rfl, ha⟩ := hr
  exact ⟨{ b with sawEmpty := b.sawEmpty || (b.sawDrained && offersPop cases) }, spent, rfl, ha⟩

/-- One round of `failPending`. -/
lemma wp_failPending {l₀ : SLabel} {e : Option Err} (hr : h.Ready) (hd : h.sawDrained = true)
    (he : e ≠ none) :
    (resourceOutline kind cfg).wp (Conn.failPending e) ((resourceOutline kind cfg).ends l₀) h := by
  refine wp_poll ⟨hr.caseReq_pop, fun i req => ?_⟩ ⟨trivial, fun _ _ => wp_endWriter hr hd⟩
  obtain ⟨b, spent, rfl, -⟩ := hr
  rw [Hand.fired_popped]
  let b' : Hand := { b with failed := false }
  refine wp_giveBack (b := b') ?_
  refine wp_ackIf (b := b') ?_ ?_ ?_ ?_ ?_ fun e' he' _ => ?_
  · rfl
  · rfl
  · rfl
  · exact fun h0 => absurd h0 he
  · exact nofun
  · exact ⟨⟨b', e' :: spent, rfl, fun d hd => by cases hd; exact he'⟩, hd, fun _ => he⟩

end Writer

end Ogrenet
