import Ogrenet.Session.Callbacks.Loops

/-!
# The finalizer and the other goroutines

Besides the reader only the finalizer calls the handler: it waits for the loops, settles the end of
the session and reports it.
-/

namespace Ogrenet

open Interleaving Interleaving.Prog Ses Calling

variable {kind : SessionKind} {cfg : SessionConfig}

/-! ### The finalizer -/

/-- The end of `finalize`. -/
lemma wp_report {c : Calling} (he : c.entry = .finalizer) (hs : c.state = some .opened)
    (hw : c.waited = true) (hr : kind = .conn → c.readShut = true) :
    (callOutline kind).wp (do
      let e ← err
      callBegin (.onClose e)
      callEnd (.onClose e)
      signal .done
      engineRemove) (fun _ c' => c'.entry = .finalizer) c := by
  have hrun : ∀ c : Calling, c.entry = .finalizer → c.Running := fun c h hl => by
    rw [h] at hl
    cases hl
  have hend : ∀ e, ((c.state.bind (HandlerState.next · (.begins (.onClose e)))).bind
      (HandlerState.next · (.ends (.onClose e)))) = some .closed := fun e => by
    rw [hs]
    exact if_pos rfl
  refine ⟨⟨hrun c he, trivial⟩, fun e _ => ⟨⟨hrun c he, ⟨he, hw, hr⟩, ?_⟩, fun _ _ =>
    ⟨⟨hrun _ he, ⟨he, hw, hr⟩, ?_⟩, fun _ _ => ⟨⟨hrun _ he, he, hend e⟩, fun _ _ =>
      ⟨⟨hrun _ he, trivial⟩, fun _ _ => he⟩⟩⟩⟩⟩
  · show (c.state.bind (HandlerState.next · (.begins (.onClose e)))).isSome = true
    rw [hs]
    rfl
  · show ((c.state.bind (HandlerState.next · (.begins (.onClose e)))).bind
      (HandlerState.next · (.ends (.onClose e)))).isSome = true
    rw [hend]
    rfl

lemma wp_finalizer_calling {settle : SProg Unit} {c : Calling} (hc : c = .start .finalizer)
    (hsettle : ∀ c : Calling, c.Running → (callOutline kind).wp settle
      (fun _ c' => c.Same c' ∧ (kind = .conn → c'.readShut = true)) c) :
    (callOutline kind).wp (do
      waitLoops
      finalizeWith settle
      return .ret .unit) ((callOutline kind).ends .finalizer) c := by
  subst hc
  refine ⟨⟨nofun, trivial⟩, fun _ _ => (Outline.wp_bind (finalizeWith settle) _ _ _).mpr ?_⟩
  refine Outline.wp_mono (fun _ _ _ _ => rfl) (?_ : (callOutline kind).wp (finalizeWith settle)
    (fun _ _ => True) { Calling.start .finalizer with waited := true })
  refine ⟨⟨nofun, trivial⟩, ?_⟩
  rintro (_ | _) -
  · trivial
  · refine (Outline.wp_bind (settle >>= _) _ _ _).mpr ((Outline.wp_bind settle _ _ _).mpr ?_)
    refine Outline.wp_mono (fun _ c' hc' => ?_) (hsettle _ nofun)
    refine Outline.wp_mono (fun _ c'' hc'' => ?_)
      (wp_report hc'.1.entry hc'.1.state (hc'.1.waited rfl) hc'.2)
    refine ⟨⟨fun hl => ?_, trivial⟩, fun _ _ => trivial⟩
    rw [hc''] at hl
    cases hl

lemma wp_isTerminal {c : Calling} (hc : c.Running) :
    (callOutline kind).wp (isClosedSignal .terminal)
      (fun b c' => c.Same c' ∧ (b = true → c'.readShut = true)) c := by
  refine ⟨⟨hc, trivial⟩, fun r hr => ?_⟩
  obtain ⟨x, hx, hr⟩ | ⟨-, rfl⟩ := hr
  · cases List.mem_singleton.mp hx
    obtain rfl : r = .closed .terminal := hr (· = .closed .terminal) rfl
    exact ⟨fired_same (.closed .terminal), fun _ => rfl⟩
  · exact ⟨.refl c, nofun⟩

/-- What `finalize` of a stream does first: `ReadClosed` is closed after it. -/
lemma Conn.wp_settleTerminal {c : Calling} (hc : c.Running) :
    (callOutline kind).wp Conn.settleTerminal
      (fun _ c' => c.Same c' ∧ (kind = .conn → c'.readShut = true)) c := by
  have hmark : ∀ c' : Calling, c.Same c' → (callOutline kind).wp markTerminal
      (fun _ c'' => c.Same c'' ∧ (kind = .conn → c''.readShut = true)) c' := fun c' h =>
    ⟨⟨h.running hc, trivial⟩, fun _ _ => Outline.wp_mono
      (fun _ _ h' => ⟨h.trans h'.1, fun _ => h'.2⟩) (wp_markTerminalChannels (h.running hc))⟩
  refine (Outline.wp_bind (isClosedSignal .terminal) _ _ _).mpr
    (Outline.wp_mono ?_ (wp_isTerminal hc))
  rintro (_ | _) c₁ ⟨h₁, hshut⟩
  · refine (Outline.wp_bind isClosing _ _ _).mpr (Outline.wp_mono ?_
      (keeps_isClosedSignal .closing c₁ (h₁.running hc)))
    rintro (_ | _) c₂ h₂
    · refine (Outline.wp_bind (initiateClose none) _ _ _).mpr (Outline.wp_mono (fun _ c₃ h₃ => ?_)
        (keeps_initiateClose none c₂ ((h₁.trans h₂).running hc)))
      exact hmark c₃ ((h₁.trans h₂).trans h₃)
    · exact hmark c₂ (h₁.trans h₂)
  · exact ⟨h₁, fun _ => hshut rfl⟩

lemma WebSocket.wp_settleTerminal {c : Calling} (hc : c.Running) :
    (callOutline .webSocket).wp WebSocket.settleTerminal
      (fun _ c' => c.Same c' ∧ (SessionKind.webSocket = .conn → c'.readShut = true)) c := by
  have hkeeps : Keeps .webSocket WebSocket.settleTerminal := by
    refine (keeps_isClosedSignal .closing).bind ?_
    rintro (_ | _)
    · exact keeps_initiateClose none
    · exact .pure _
  exact Outline.wp_mono (fun _ _ h => ⟨h, nofun⟩) (hkeeps c hc)

/-! ### All programs -/

lemma Calling.pre_of_role {l : SLabel} {c : Calling} (hreader : l.role ≠ .reader)
    (hfinal : l.role ≠ .finalizer) : c.pre l ↔ c.Plays l.role := by
  cases l <;> first | exact .rfl | exact absurd rfl hreader | exact absurd rfl hfinal

lemma EndCall.keeps {clean : Prop} {role : Role} {β : Type} {q : SProg β} (hk : kind ≠ .packet)
    (hrole : role ≠ .finalizer) (h : EndCall clean cfg role kind β q) : Keeps kind q := by
  cases h with
  | connAbort _ => exact Conn.keeps_abort _ _
  | connFinish _ => exact Conn.keeps_maybeFinishGraceful
  | wsAbort _ => exact WebSocket.keeps_abort _ _
  | wsFinish _ _ => exact WebSocket.keeps_finishLocalGraceful _
  | connFinalize h | wsFinalize h => exact absurd h hrole
  | packetClose _ | packetFinalize _ => exact absurd rfl hk

lemma SInstr.Plain.ordinary {clean : Prop} {role : Role} {i : SInstr} (hreader : role ≠ .reader)
    (h : i.Plain clean kind role) : i.ordinary = true := by
  have hp := h.plain
  cases i with
  | callBegin cb | callEnd cb =>
    cases cb with
    | onClose e => cases hp
    | _ => exact absurd (beq_iff_eq.mp hp) hreader
  | loopDone => cases hp
  | signal ch => cases ch <;> first | rfl | cases hp
  | _ => rfl

/-- The goroutines other than the reader and the finalizer leave the handler alone. -/
lemma wp_others (hk : kind ≠ .packet) {l : SLabel} (hreader : l.role ≠ .reader)
    (hfinal : l.role ≠ .finalizer) (l₀ : SLabel) {c : Calling} (hc : c.Plays l.role) :
    (callOutline kind).wp (kind.body cfg l) ((callOutline kind).ends l₀) c := by
  refine Outline.wp_of_made (J := fun c : Calling => c.Plays l.role)
    (made_body False kind cfg l (Role.stays_self l)) (fun i hi c hc => ?_) ?_
    (fun β q hq c hc => ?_) (fun n c hn hc => ?_) hc
  · have hord := hi.ordinary hreader
    exact ⟨⟨hc.running, special_of_ordinary hord⟩, fun r _ =>
      ⟨nofun, (upd_same hord r).plays hc⟩⟩
  · rintro i n ⟨rfl, hloop, rfl⟩ c hc
    refine ⟨⟨hc.running, hc.loop hloop, fun he => absurd ?_ hreader⟩, fun _ _ _ => rfl⟩
    rw [← hc.role, he]
    rfl
  · exact Outline.wp_mono (fun _ c' h => h.plays hc) (hq.keeps hk hfinal c hc.running)
  · cases n with
    | goto l' =>
      have hl' : l'.role = l.role := hn.role_eq
      rw [← hl'] at hreader hfinal hc
      exact (pre_of_role hreader hfinal).mpr hc
    | ret v => exact fun hl => hn (hc.role ▸ SLabel.isLoop_role hl)

/-- Every piece of program of a stream or a WebSocket keeps to the outline. -/
lemma call_body (hk : kind ≠ .packet) (l₀ l : SLabel) {c : Calling} (hc : c.pre l) :
    (callOutline kind).wp (kind.body cfg l) ((callOutline kind).ends l₀) c := by
  cases kind with
  | conn =>
    cases l with
    | readerLoop => exact Conn.walks_readerLoop c hc
    | reader pending => exact Conn.walks_reader pending c hc
    | decoding pending consumed readErr =>
      exact Conn.walks_decoding pending consumed readErr c hc
    | finalizer => exact wp_finalizer_calling hc fun c => Conn.wp_settleTerminal
    | _ => exact wp_others hk (by nofun) (by nofun) l₀ hc
  | webSocket =>
    cases l with
    | readerLoop => exact WebSocket.walks_readerLoop c hc
    | reader pending => exact WebSocket.walks_reader c hc
    | decoding pending consumed readErr => exact fun _ => rfl
    | finalizer => exact wp_finalizer_calling hc fun c => WebSocket.wp_settleTerminal
    | _ => exact wp_others hk (by nofun) (by nofun) l₀ hc
  | packet => exact absurd rfl hk

end Ogrenet
