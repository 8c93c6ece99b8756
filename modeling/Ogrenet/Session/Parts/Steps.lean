import Ogrenet.Session.Parts.Packet

/-!
# The steps of a goroutine of a session

For a property that does not care in which order a goroutine ends the session it is enough to know
which steps it may do at all. `wp_of_steps` reduces the outline of every program to them.
-/

namespace Ogrenet

open Interleaving Interleaving.Prog Ses

/-- The step is one by which a goroutine with this role may end a session. -/
def SInstr.Ending (clean : Prop) (kind : SessionKind) (role : Role) : SInstr → Prop
  | .abortSection why publish => kind ≠ .packet ∧ (why = .caller → role = .waiter) ∧
      (∀ e, publish = some (some e) → e.Typed clean ∨ kind = .conn ∧ role = .watchdog) ∧
      (kind = .conn → role = .watchdog →
        ∃ timeout, publish = some (some (.timeoutError timeout)))
  | .tryTerminal => kind ≠ .packet ∧ (role = .writer ∨ kind = .conn ∧ role = .reader)
  | .setTerminal => kind = .conn ∧ role = .finalizer
  | .setErr e => kind = .packet ∧ e.Typed clean
  | .select cases _ => cases.all (Case.fits role) = true
  | .signal ch => ch ≠ .writerDrained ∧ ch ≠ .drainReq ∧ (ch = .done → role = .finalizer)
  | .callBegin _ | .callEnd _ => role = .finalizer
  | .onceEnter _ | .onceExit _ | .gateClose | .rawClose | .err | .engineRemove => True
  | _ => False

/-- The step is one that a goroutine with this role may do. -/
def SInstr.Allowed (clean : Prop) (kind : SessionKind) (role : Role) : SInstr → Prop
  | .loopDone => role.isLoop = true
  | i => i.Plain clean kind role ∨ i.Ending clean kind role

variable {clean : Prop} {kind : SessionKind} {cfg : SessionConfig} {role : Role}

lemma SInstr.Allowed.of {i : SInstr} (h : i.Plain clean kind role ∨ i.Ending clean kind role) :
    i.Allowed clean kind role := by
  cases i with
  | loopDone => exact h.elim nofun nofun
  | _ => exact h

/-! ### The functions that end a session -/

lemma ending_abortWith {reason : AbortReason} {publish : Option (Option Err)}
    (h : (SInstr.abortSection reason publish).Ending clean kind role) :
    (abortWith reason publish).Forall (SInstr.Ending clean kind role) := by
  refine ⟨h, ?_⟩
  rintro (_ | _)
  · trivial
  · exact ⟨⟨nofun, nofun, nofun⟩, fun _ => ⟨⟨nofun, nofun, nofun⟩, fun _ =>
      ⟨⟨nofun, nofun, nofun⟩, fun _ => ⟨⟨nofun, nofun, nofun⟩, fun _ =>
        ⟨⟨nofun, nofun, nofun⟩, fun _ => trivial⟩⟩⟩⟩⟩

lemma ending_shut : (onceDo .close do gateClose; signal .closing; rawClose).Forall
    (SInstr.Ending clean kind role) := by
  refine ⟨trivial, ?_⟩
  rintro (_ | _)
  · trivial
  · exact ⟨trivial, fun _ => ⟨⟨nofun, nofun, nofun⟩, fun _ => ⟨trivial, fun _ => ⟨trivial, fun _ =>
      trivial⟩⟩⟩⟩

lemma ending_markTerminalChannels :
    markTerminalChannels.Forall (SInstr.Ending clean kind role) :=
  ⟨⟨nofun, nofun, nofun⟩, fun _ => ⟨⟨nofun, nofun, nofun⟩, fun _ =>
    ⟨⟨nofun, nofun, nofun⟩, fun _ => trivial⟩⟩⟩

lemma ending_tryMarkTerminal (h : SInstr.tryTerminal.Ending clean kind role) :
    tryMarkTerminal.Forall (SInstr.Ending clean kind role) := by
  refine ⟨h, ?_⟩
  rintro (_ | _)
  · trivial
  · exact ending_markTerminalChannels.bind fun _ => trivial

lemma ending_isClosedSignal (ch : Signal) :
    (isClosedSignal ch).Forall (SInstr.Ending clean kind role) :=
  ⟨rfl, fun r => by cases r <;> trivial⟩

lemma ending_finalizeWith {settle : SProg Unit} (hrole : role = .finalizer)
    (h : settle.Forall (SInstr.Ending clean kind role)) :
    (finalizeWith settle).Forall (SInstr.Ending clean kind role) := by
  refine ⟨trivial, ?_⟩
  rintro (_ | _)
  · trivial
  · refine Forall.bind (p := settle >>= _) (h.bind fun _ => ?_) fun _ => ⟨trivial, fun _ => trivial⟩
    exact ⟨trivial, fun _ => ⟨hrole, fun _ => ⟨hrole, fun _ => ⟨⟨nofun, nofun, fun _ => hrole⟩,
      fun _ => ⟨trivial, fun _ => trivial⟩⟩⟩⟩⟩

namespace Conn

lemma ending_abort {reason : AbortReason} {cause : Option Err}
    (h : Gives clean .conn role reason cause) :
    (abort reason cause).Forall (SInstr.Ending clean .conn role) := by
  refine Forall.bind (p := abortWith _ _) (ending_abortWith ?_) ?_
  · refine ⟨nofun, h.caller, fun e he => ?_, fun _ hw => ?_⟩
    · cases cause with
      | none => cases he
      | some e' =>
        rcases h.typed e' rfl with ht | ht
        · simp only [Option.bind_some, ht.1, if_true, Option.some.injEq] at he
          exact Or.inl (he ▸ ht)
        · exact Or.inr ht
    · obtain ⟨timeout, rfl⟩ := h.watchdog rfl hw
      exact ⟨timeout, rfl⟩
  · rintro (_ | _)
    · trivial
    · exact ending_shut.bind fun _ => trivial

lemma ending_maybeFinishGraceful (h : role = .writer ∨ role = .reader) :
    maybeFinishGraceful.Forall (SInstr.Ending clean .conn role) := by
  refine (ending_isClosedSignal .readDone).bind ?_
  rintro (_ | _)
  · trivial
  · refine (ending_isClosedSignal .writeDone).bind ?_
    rintro (_ | _)
    · trivial
    · refine Forall.bind (p := tryMarkTerminal) (ending_tryMarkTerminal
        ⟨nofun, h.imp_right fun h => ⟨rfl, h⟩⟩) ?_
      rintro (_ | _)
      · trivial
      · exact ending_shut

lemma ending_finalize (h : role = .finalizer) :
    finalize.Forall (SInstr.Ending clean .conn role) := by
  have hmark : markTerminal.Forall (SInstr.Ending clean .conn role) :=
    ⟨⟨rfl, h⟩, fun _ => ending_markTerminalChannels⟩
  refine ending_finalizeWith h ((ending_isClosedSignal .terminal).bind ?_)
  rintro (_ | _)
  · refine (ending_isClosedSignal .aborted).bind ?_
    rintro (_ | _)
    · refine Forall.bind (p := initiateClose none) ?_ fun _ => hmark
      exact (ending_abort (.noCause fun _ => by rw [h]; exact nofun)).bind fun _ => trivial
    · exact hmark
  · trivial

end Conn

namespace WebSocket

lemma ending_abort {reason : AbortReason} {cause : Option Err}
    (h : Gives clean .webSocket role reason cause) :
    (abort reason cause).Forall (SInstr.Ending clean .webSocket role) := by
  refine Forall.bind (p := abortWith _ _)
    (ending_abortWith ⟨nofun, h.caller, fun e he => ?_, nofun⟩) ?_
  · obtain ⟨-, he⟩ := Option.ite_none_right_eq_some.mp he
    obtain ⟨e', rfl, he⟩ := Option.map_eq_some_iff.mp he
    cases he
    exact h.typed e rfl
  · rintro (_ | _)
    · trivial
    · exact ending_shut.bind fun _ => trivial

lemma ending_finishLocalGraceful {e : Option Err} (h : role = .writer) (he : clean → Bare e) :
    (finishLocalGraceful cfg e).Forall (SInstr.Ending clean .webSocket role) := by
  simp only [finishLocalGraceful]
  split
  · rename_i n hn
    refine Forall.bind (p := abort .failure _) (ending_abort ?_) fun _ => trivial
    rw [h]
    refine .operational .writer (by decide) fun hc => ?_
    obtain ⟨e', rfl, hn⟩ := Option.bind_eq_some_iff.mp hn
    exact Bare.normalizeWSError (he hc e' rfl) n hn
  · refine ⟨⟨nofun, nofun, nofun⟩, fun _ => ⟨⟨nofun, nofun, nofun⟩, fun _ => ?_⟩⟩
    exact Forall.bind (p := tryMarkTerminal) (ending_tryMarkTerminal ⟨nofun, .inl h⟩)
      fun _ => ending_shut

lemma ending_finalize (h : role = .finalizer) :
    finalize.Forall (SInstr.Ending clean .webSocket role) := by
  refine ending_finalizeWith h ((ending_isClosedSignal .closing).bind ?_)
  rintro (_ | _)
  · exact (ending_abort (.noCause nofun)).bind fun _ => trivial
  · trivial

end WebSocket

namespace Packet

lemma ending_initiateClose {cause : Option Err} (h : Gives clean .packet role .failure cause) :
    (initiateClose cause).Forall (SInstr.Ending clean .packet role) := by
  have hshut : (do gateClose; signal .closing; rawClose; onceExit .close : SProg Unit).Forall
      (SInstr.Ending clean .packet role) :=
    ⟨trivial, fun _ => ⟨⟨nofun, nofun, nofun⟩, fun _ =>
      ⟨trivial, fun _ => ⟨trivial, fun _ => trivial⟩⟩⟩⟩
  refine ⟨trivial, ?_⟩
  rintro (_ | _)
  · trivial
  · cases cause with
    | none => exact hshut
    | some e =>
      have he : e.Typed clean := (h.typed e rfl).resolve_right fun h => nomatch h.1
      simp only [Option.bind_some, he.1, if_true]
      exact ⟨⟨rfl, he⟩, fun _ => hshut⟩

end Packet

/-- What ends a session consists of ending steps. -/
lemma EndCall.ending {β : Type} {p : SProg β} (h : EndCall clean cfg role kind β p) :
    p.Forall (SInstr.Ending clean kind role) := by
  cases h with
  | connAbort h => exact Conn.ending_abort h
  | connFinish h => exact Conn.ending_maybeFinishGraceful h
  | connFinalize h => exact Conn.ending_finalize h
  | wsAbort h => exact WebSocket.ending_abort h
  | wsFinish h he => exact WebSocket.ending_finishLocalGraceful h he
  | wsFinalize h => exact WebSocket.ending_finalize h
  | packetClose h => exact Packet.ending_initiateClose h
  | packetFinalize h => exact ending_finalizeWith h (Packet.ending_initiateClose (.noCause nofun))

/-! ### All programs -/

/-- A property of contexts that the allowed steps of a goroutine keep holds where its program
ends. -/
lemma wp_of_steps {C : Type} {O : Outline SInstr SInstr.Resp SLabel SVal C} {J : C → Prop}
    {Q : SNext → C → Prop} {l : SLabel} (hl : l.role.Stays (.any clean) (.goto l))
    (hP : ∀ i, i.Allowed clean kind l.role → ∀ c, J c →
      O.req i c ∧ ∀ r, O.ans i r c → (clean → i.Bare r) ∧ J (O.upd i r c))
    (hQ : ∀ n c, l.role.Stays (.any clean) n → J c → Q n c) {c : C} (hc : J c) :
    O.wp (kind.body cfg l) Q c := by
  refine Outline.wp_of_made (made_body clean kind cfg l hl) (fun i hi => hP i (.of (.inl hi)))
    ?_ ?_ hQ hc
  · rintro i n ⟨rfl, hloop, rfl⟩ c hc
    obtain ⟨hreq, hans⟩ := hP .loopDone hloop c hc
    exact ⟨hreq, fun r hr => hQ _ _ (fun _ => rfl) (hans r hr).2⟩
  · intro β p hp c hc
    refine Outline.wp_of_within (hp.ending.imp (fun i hi c hc => ?_) fun _ => id)
      (fun _ _ _ hc => hc) hc
    obtain ⟨hreq, hans⟩ := hP i (.of (.inr hi)) c hc
    exact ⟨hreq, fun r hr => (hans r hr).2⟩

/-- The outline in which every goroutine does the steps that its role allows. -/
def stepOutline (clean : Prop) (kind : SessionKind) :
    Outline SInstr SInstr.Resp SLabel SVal SPast :=
  .past (fun i c => i.Allowed clean kind c.1.role) (fun i r _ => clean → i.Bare r)
    (fun l c => c.1.role.Stays (.any clean) (.goto l)) fun _ _ => True

lemma step_body (l₀ l : SLabel) {c : SPast} (hc : (stepOutline clean kind).pre l c) :
    (stepOutline clean kind).wp (kind.body cfg l) ((stepOutline clean kind).ends l₀) c := by
  have hrole : l.role = c.1.role := Role.Stays.role_eq hc
  have hl : l.role.Stays (.any clean) (.goto l) := by
    rw [hrole]
    exact hc
  refine wp_of_steps (J := fun c => c.1.role = l.role) hl
    (fun i hi c hc => ⟨?_, fun r hr => ⟨hr, hc⟩⟩) (fun n c hn hc => ?_) hrole.symm
  · show i.Allowed clean kind c.1.role
    rw [hc]
    exact hi
  cases n with
  | goto l' =>
    show c.1.role.Stays (.any clean) (.goto l')
    rw [hc]
    exact hn
  | ret v => trivial

/-- What is started from outside keeps no read error. -/
lemma SessionKind.spawn_stays {s s' : Session} {l : SLabel} (h : kind.spawn s l = some s') :
    l.role.Stays (.any clean) (.goto l) := by
  cases l with
  | decoding pending consumed readErr | failPending v => cases kind <;> cases h
  | _ => rfl

lemma loopLabels_stays {l : SLabel} (h : l ∈ loopLabels kind cfg ++ [SLabel.finalizer]) :
    l.role.Stays (.any clean) (.goto l) := by
  cases l with
  | decoding pending consumed readErr | failPending v => cases kind <;> simp [loopLabels] at h
  | _ => rfl

end Ogrenet
