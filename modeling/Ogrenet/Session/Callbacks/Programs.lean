import Ogrenet.Session.Callbacks.Handler

/-!
# Who calls the handler

The reader calls `OnOpen` before anything else and `OnMessage` from its loop; the finalizer calls
`OnClose` after it has waited for the loops. Whatever else ends a session leaves the handler alone.
-/

namespace Ogrenet

open Interleaving Interleaving.Prog Ses Calling

variable {kind : SessionKind} {cfg : SessionConfig} {α β : Type}

/-! ### Programs that leave the handler alone -/

/-- The program changes nothing of a running goroutine but what it knows. -/
def Keeps (kind : SessionKind) (q : SProg β) : Prop :=
  ∀ c, c.Running → (callOutline kind).wp q (fun _ c' => c.Same c') c

lemma Keeps.of_ordinary {q : SProg β} (hq : q.Forall fun i => i.ordinary = true) :
    Keeps kind q := by
  intro c hc
  refine Outline.wp_of_within (J := fun c' => c.Same c') (hq.imp (fun i hi c' hc' => ?_)
    fun _ => id) (fun _ _ _ hc => hc) (.refl c)
  exact ⟨⟨hc'.running hc, special_of_ordinary hi⟩, fun r _ => hc'.trans (upd_same hi r)⟩

lemma Keeps.bind {q : SProg α} {f : α → SProg β} (hq : Keeps kind q)
    (hf : ∀ a, Keeps kind (f a)) : Keeps kind (q >>= f) := by
  intro c hc
  refine (Outline.wp_bind q f _ c).mpr (Outline.wp_mono (fun a c' hc' => ?_) (hq c hc))
  exact Outline.wp_mono (fun _ _ h => hc'.trans h) (hf a c' (hc'.running hc))

lemma Keeps.pure (a : α) : Keeps kind (pure a) := fun c _ => .refl c

lemma keeps_abortWith (reason : AbortReason) (publish : Option (Option Err)) :
    Keeps kind (abortWith reason publish) := by
  refine .of_ordinary ⟨rfl, ?_⟩
  rintro (_ | _)
  · trivial
  · exact ⟨rfl, fun _ => ⟨rfl, fun _ => ⟨rfl, fun _ => ⟨rfl, fun _ => ⟨rfl, fun _ => trivial⟩⟩⟩⟩⟩

lemma keeps_shut : Keeps kind (onceDo .close do gateClose; signal .closing; rawClose) := by
  refine .of_ordinary ⟨rfl, ?_⟩
  rintro (_ | _)
  · trivial
  · exact ⟨rfl, fun _ => ⟨rfl, fun _ => ⟨rfl, fun _ => ⟨rfl, fun _ => trivial⟩⟩⟩⟩

lemma keeps_isClosedSignal (ch : Signal) : Keeps kind (isClosedSignal ch) :=
  .of_ordinary ⟨rfl, fun r => by cases r <;> trivial⟩

/-- The three signals close `ReadClosed` before `terminal`. -/
lemma wp_markTerminalChannels {c : Calling} (hc : c.Running) :
    (callOutline kind).wp markTerminalChannels (fun _ c' => c.Same c' ∧ c'.readShut = true) c := by
  refine ⟨⟨hc, trivial⟩, fun _ _ => ?_⟩
  have hsame : c.Same { c with readShut := true } := ⟨rfl, rfl, rfl, id, fun _ => rfl⟩
  exact ⟨⟨hsame.running hc, trivial⟩, fun _ _ => ⟨⟨hsame.running hc, rfl⟩, fun _ _ => ⟨hsame, rfl⟩⟩⟩

lemma keeps_tryMarkTerminal : Keeps kind tryMarkTerminal := by
  intro c hc
  refine ⟨⟨hc, trivial⟩, ?_⟩
  rintro (_ | _) -
  · exact .refl c
  · refine (Outline.wp_bind markTerminalChannels _ _ _).mpr (Outline.wp_mono (fun _ _ h => ?_)
      (wp_markTerminalChannels hc))
    exact h.1

lemma Conn.keeps_abort (reason : AbortReason) (cause : Option Err) :
    Keeps kind (Conn.abort reason cause) := by
  refine Keeps.bind (q := abortWith _ _) (keeps_abortWith _ _) ?_
  rintro (_ | _)
  · exact .pure _
  · exact keeps_shut.bind fun _ => .pure _

lemma Conn.keeps_initiateClose (cause : Option Err) : Keeps kind (Conn.initiateClose cause) :=
  (Conn.keeps_abort _ cause).bind fun _ => .pure _

lemma Conn.keeps_maybeFinishGraceful : Keeps kind Conn.maybeFinishGraceful := by
  refine (keeps_isClosedSignal .readDone).bind ?_
  rintro (_ | _)
  · exact .pure _
  · refine (keeps_isClosedSignal .writeDone).bind ?_
    rintro (_ | _)
    · exact .pure _
    · refine keeps_tryMarkTerminal.bind ?_
      rintro (_ | _)
      · exact .pure _
      · exact keeps_shut

lemma WebSocket.keeps_abort (reason : AbortReason) (cause : Option Err) :
    Keeps kind (WebSocket.abort reason cause) := by
  refine Keeps.bind (q := abortWith _ _) (keeps_abortWith _ _) ?_
  rintro (_ | _)
  · exact .pure _
  · exact keeps_shut.bind fun _ => .pure _

lemma WebSocket.keeps_initiateClose (cause : Option Err) :
    Keeps kind (WebSocket.initiateClose cause) :=
  (WebSocket.keeps_abort _ cause).bind fun _ => .pure _

lemma WebSocket.keeps_finishLocalGraceful (e : Option Err) :
    Keeps kind (WebSocket.finishLocalGraceful cfg e) := by
  simp only [WebSocket.finishLocalGraceful]
  split
  · exact WebSocket.keeps_initiateClose _
  · refine Keeps.bind (q := signal .readDone) (.of_ordinary ⟨rfl, fun _ => trivial⟩) fun _ => ?_
    refine Keeps.bind (q := signal .writeDone) (.of_ordinary ⟨rfl, fun _ => trivial⟩) fun _ => ?_
    exact keeps_tryMarkTerminal.bind fun _ => keeps_shut

/-! ### The reader -/

/-- The program of a reader that has brought the handler to `st`. -/
def Walks (kind : SessionKind) (st : HandlerState) (p : SProg SNext) : Prop :=
  ∀ c, c.Reads st → (callOutline kind).wp p ((callOutline kind).ends .readerLoop) c

section Walks

variable {st : HandlerState}

lemma Walks.goto {l : SLabel} (h : ∀ c : Calling, c.Reads st → c.pre l) :
    Walks kind st (pure (.goto l)) := h

lemma Walks.op {i : SInstr} {k : i.Resp → SProg SNext} (hi : i.ordinary = true)
    (hk : ∀ r, Walks kind st (k r)) : Walks kind st (.op i k) := fun _ hc =>
  ⟨⟨hc.running, special_of_ordinary hi⟩, fun r _ => hk r _ ((upd_same hi r).reads hc)⟩

lemma Keeps.walks {q : SProg β} {f : β → SProg SNext} (hq : Keeps kind q)
    (hf : ∀ b, Walks kind st (f b)) : Walks kind st (q >>= f) := fun c hc =>
  (Outline.wp_bind q f _ c).mpr
    (Outline.wp_mono (fun b c' hc' => hf b c' (hc'.reads hc)) (hq c hc.running))

lemma Walks.endLoop : Walks kind .opened endLoop := fun _ hc =>
  ⟨⟨hc.running, hc.loop, fun _ => hc.state⟩, fun _ _ _ => rfl⟩

/-- The reader calls the handler. -/
lemma Walks.deliver {cb : Callback} {st' : HandlerState} {p : SProg SNext}
    (hcb : ∀ e, cb ≠ .onClose e) (hst : st.next (.begins cb) = some (.busy cb))
    (hst' : cb.after = st') (hp : Walks kind st' p) :
    Walks kind st (do callBegin cb; callEnd cb; p) := by
  intro c hc
  have hmay : ∀ c : Calling, c.entry = .readerLoop → c.mayCall kind cb := fun c h => by
    cases cb with
    | onClose e => exact absurd rfl (hcb e)
    | _ => exact h
  have hbusy : c.state.bind (HandlerState.next · (.begins cb)) = some (.busy cb) := by
    rw [hc.state]
    exact hst
  have hend : (c.state.bind (HandlerState.next · (.begins cb))).bind
      (HandlerState.next · (.ends cb)) = some st' := by
    rw [hbusy, ← hst']
    exact if_pos rfl
  refine ⟨⟨hc.running, hmay c hc.entry, ?_⟩, fun _ _ => ⟨⟨fun _ => hc.loop, hmay _ hc.entry, ?_⟩,
    fun _ _ => hp _ ⟨hc.entry, hc.loop, hend⟩⟩⟩
  · rw [hbusy]
    rfl
  · show ((c.state.bind (HandlerState.next · (.begins cb))).bind
      (HandlerState.next · (.ends cb))).isSome = true
    rw [hend]
    rfl

/-- The check of `closing` at the end of a round. -/
lemma Walks.unlessClosing {p : SProg SNext} (hp : Walks kind .opened p) :
    Walks kind .opened (do
      match ← isClosing with
      | true => Ogrenet.endLoop
      | false => p) := by
  refine (keeps_isClosedSignal .closing).walks ?_
  rintro (_ | _)
  · exact hp
  · exact .endLoop

end Walks

end Ogrenet
