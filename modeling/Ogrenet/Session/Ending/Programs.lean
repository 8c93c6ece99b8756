import Ogrenet.Session.Ending.Past

/-!
# The programs of a session keep to the outline of its end
-/

namespace Ogrenet

open Interleaving Interleaving.Prog Ses

variable {kind : SessionKind} {cfg : SessionConfig} {α : Type} {c : SPast} {role : Role}

/-! ### Rules -/

lemma wp_selectEnd {cases : List Case} {k : Fired → SProg α} {Q : α → SPast → Prop}
    (hc : Case.Each (fun x => x.All fun r =>
      (endOutline kind).wp (k r) Q (c.1, ⟨.select cases false, r⟩ :: c.2)) cases) :
    (endOutline kind).wp (.op (.select cases false) k) Q c :=
  ⟨trivial, fun _ hr => hr.all (fun x hm => hc.mem x hm) nofun⟩

lemma wp_pollEnd {cases : List Case} {k : Fired → SProg α} {Q : α → SPast → Prop}
    (hc : Case.Each (fun x => x.All fun r =>
      (endOutline kind).wp (k r) Q (c.1, ⟨.select cases true, r⟩ :: c.2)) cases)
    (hd : (endOutline kind).wp (k .default) Q (c.1, ⟨.select cases true, .default⟩ :: c.2)) :
    (endOutline kind).wp (.op (.select cases true) k) Q c :=
  ⟨trivial, fun _ hr => hr.all (fun x hm => hc.mem x hm) fun _ => hd⟩

lemma endReq_plain {i : SInstr} (hi : i.plain kind role = true) (c : SPast) : endReq kind i c := by
  cases i with
  | signal ch =>
    cases ch with
    | readDone => exact ⟨nofun, fun _ hk => by rw [hk] at hi; cases hi⟩
    | closing | aborted | done | terminal => cases hi
    | _ => exact ⟨nofun, nofun⟩
  | onceExit o =>
    cases o with
    | close => cases hi
    | _ => trivial
  | callBegin cb =>
    cases cb with
    | onClose e => cases hi
    | _ => trivial
  | request goal =>
    cases goal with
    | abort => cases hi
    | _ => exact nofun
  | abortSection reason publish | tryTerminal | setTerminal | setErr e => cases hi
  | _ => trivial

/-- The steps by which an end that is known is made known. -/
def SInstr.closes : SInstr → Bool
  | .signal ch => ch != .readDone
  | .onceEnter _ | .onceExit _ | .gateClose | .rawClose | .setTerminal => true
  | _ => false

/-- A goroutine that knows of the end may announce it. -/
lemma wp_closes {p : SProg α} {Q : α → SPast → Prop} (hp : p.Forall fun i => i.closes = true)
    (hc : knowsEnd kind c = true)
    (hQ : ∀ a c', c'.1 = c.1 → knowsEnd kind c' = true → Q a c') : (endOutline kind).wp p Q c := by
  refine Outline.wp_of_within (J := fun c' => c'.1 = c.1 ∧ knowsEnd kind c' = true)
    (F := fun _ => True) (hp.imp (fun i hi c' hc' => ⟨?_, fun r _ => ⟨hc'.1, ?_⟩⟩) fun _ => id)
    (fun a c' _ hc' => hQ a c' hc'.1 hc'.2) ⟨rfl, hc⟩
  · cases i with
    | signal ch =>
      refine ⟨fun _ => hc'.2, ?_⟩
      rintro rfl
      cases hi
    | onceExit o =>
      cases o with
      | close => exact fun _ => hc'.2
      | _ => trivial
    | setTerminal => exact hc'.2
    | onceEnter o | gateClose | rawClose => trivial
    | _ => cases hi
  · exact knowsEnd_cons hc'.2

/-- The body of `closeOnce` in the sessions that have a lifecycle. -/
lemma closes_shut : (onceDo .close do gateClose; signal .closing; rawClose).Forall
    fun i => i.closes = true := by
  refine ⟨rfl, ?_⟩
  rintro (_ | _)
  · trivial
  · exact ⟨rfl, fun _ => ⟨rfl, fun _ => ⟨rfl, fun _ => ⟨rfl, fun _ => trivial⟩⟩⟩⟩

/-- `abortWith`, won or lost, and what follows it. -/
lemma end_abortWith {reason : AbortReason} {publish : Option (Option Err)} {f : Bool → SProg α}
    {Q : α → SPast → Prop} (hreq : endReq kind (.abortSection reason publish) c)
    (hf : ∀ b c', c'.1 = c.1 → knowsEnd kind c' = true → (endOutline kind).wp (f b) Q c') :
    (endOutline kind).wp (abortWith reason publish >>= f) Q c := by
  refine ⟨hreq, ?_⟩
  rintro (_ | _) -
  · exact hf _ _ rfl (knowsEnd_of_showsEnd rfl)
  · refine ⟨⟨nofun, nofun⟩, fun _ _ => ⟨⟨nofun, nofun⟩, fun _ _ => ⟨⟨fun _ => ?_, nofun⟩, fun _ _ =>
      ⟨⟨nofun, fun _ => hreq.1⟩, fun _ _ => ⟨⟨nofun, nofun⟩, fun _ _ => hf _ _ rfl ?_⟩⟩⟩⟩⟩
    · exact knowsEnd_cons (knowsEnd_cons (knowsEnd_of_showsEnd rfl))
    · exact knowsEnd_cons (knowsEnd_cons (knowsEnd_cons (knowsEnd_cons (knowsEnd_cons
        (knowsEnd_of_showsEnd rfl)))))

/-- `tryMarkTerminal`, won or lost. -/
lemma end_tryMarkTerminal {Q : Bool → SPast → Prop}
    (hreq : endReq kind .tryTerminal c)
    (hQ : ∀ b c', c'.1 = c.1 → knowsEnd kind c' = true → Q b c') :
    (endOutline kind).wp tryMarkTerminal Q c := by
  refine ⟨hreq, ?_⟩
  rintro (_ | _) -
  · exact hQ _ _ rfl (knowsEnd_of_showsEnd rfl)
  · refine ⟨⟨nofun, fun _ => hreq⟩, fun _ _ => ⟨⟨nofun, nofun⟩, fun _ _ =>
      ⟨⟨fun _ => ?_, nofun⟩, fun _ _ => hQ _ _ rfl ?_⟩⟩⟩
    · exact knowsEnd_cons (knowsEnd_cons (knowsEnd_of_showsEnd rfl))
    · exact knowsEnd_cons (knowsEnd_cons (knowsEnd_cons (knowsEnd_of_showsEnd rfl)))

/-- The end is settled, read, reported and announced. -/
lemma end_finalizeWith {settle : SProg Unit} {Q : Unit → SPast → Prop}
    (hsettle : ∀ {Q : Unit → SPast → Prop} {c' : SPast}, c'.1 = c.1 →
      (∀ c'', c''.1 = c.1 → knowsEnd kind c'' = true → Q () c'') → (endOutline kind).wp settle Q c')
    (hQ : ∀ c', c'.1 = c.1 → Q () c') : (endOutline kind).wp (finalizeWith settle) Q c := by
  refine ⟨trivial, ?_⟩
  rintro (_ | _) -
  · exact hQ _ rfl
  · refine (Outline.wp_bind (settle >>= _) _ _ _).mpr ((Outline.wp_bind settle _ _ _).mpr
      (hsettle rfl ?_))
    rintro ⟨l, log⟩ rfl hk
    refine ⟨trivial, fun e _ => ⟨Or.inl ⟨rfl, hk⟩, fun _ _ => ⟨trivial, fun _ _ =>
      ⟨⟨fun _ => ?_, nofun⟩, fun _ _ => ⟨trivial, fun _ _ => ⟨trivial, fun _ _ => hQ _ rfl⟩⟩⟩⟩⟩⟩
    exact knowsEnd_cons (knowsEnd_cons (knowsEnd_cons hk))

/-! ### Streams -/

namespace Conn

lemma end_abort {reason : AbortReason} {cause : Option Err} {Q : Bool → SPast → Prop}
    (h : cause ≠ none → reason = .failure)
    (hQ : ∀ b c', c'.1 = c.1 → knowsEnd .conn c' = true → Q b c') :
    (endOutline .conn).wp (abort reason cause) Q c := by
  refine end_abortWith ⟨nofun, fun hr => ?_⟩ ?_
  · cases cause with
    | none => rfl
    | some e =>
      rw [h nofun] at hr
      exact absurd rfl hr
  · rintro (_ | _) c' hc' hk
    · exact hQ _ c' hc' hk
    · refine (Outline.wp_bind (onceDo .close _) _ _ _).mpr (wp_closes closes_shut hk ?_)
      exact fun _ c'' hc'' hk' => hQ _ c'' (hc''.trans hc') hk'

lemma end_maybeFinishGraceful {Q : Unit → SPast → Prop}
    (hQ : ∀ c', c'.1 = c.1 → Q () c') :
    (endOutline .conn).wp maybeFinishGraceful Q c := by
  refine wp_pollEnd ?_ (hQ _ rfl)
  refine wp_pollEnd ?_ (hQ _ rfl)
  refine (Outline.wp_bind tryMarkTerminal _ _ _).mpr (end_tryMarkTerminal nofun ?_)
  rintro (_ | _) c' hc' hk
  · exact hQ c' hc'
  · exact wp_closes closes_shut hk fun _ c'' hc'' _ => hQ c'' (hc''.trans hc')

lemma end_markTerminal {Q : Unit → SPast → Prop} (hk : knowsEnd .conn c = true)
    (hQ : ∀ c', c'.1 = c.1 → knowsEnd .conn c' = true → Q () c') :
    (endOutline .conn).wp markTerminal Q c := by
  refine ⟨hk, fun _ _ => ⟨⟨nofun, fun _ => nofun⟩, fun _ _ => ?_⟩⟩
  refine wp_closes (p := do signal .writeDone; signal .terminal) ?_
    (knowsEnd_cons (knowsEnd_cons hk)) fun _ => hQ
  exact ⟨rfl, fun _ => ⟨rfl, fun _ => trivial⟩⟩

lemma end_settleTerminal {Q : Unit → SPast → Prop}
    (hQ : ∀ c', c'.1 = c.1 → knowsEnd .conn c' = true → Q () c') :
    (endOutline .conn).wp settleTerminal Q c := by
  refine wp_pollEnd (hQ _ rfl (knowsEnd_of_showsEnd rfl)) ?_
  refine wp_pollEnd (end_markTerminal (knowsEnd_of_showsEnd rfl) hQ) ?_
  refine (Outline.wp_bind (initiateClose none) _ _ _).mpr ((Outline.wp_bind (abort _ _) _ _ _).mpr
    (end_abort (fun _ => rfl) ?_))
  exact fun _ c' hc' hk => end_markTerminal hk fun c'' hc'' hk' => hQ c'' (hc''.trans hc') hk'

lemma end_finalize {Q : Unit → SPast → Prop} (hQ : ∀ c', c'.1 = c.1 → Q () c') :
    (endOutline .conn).wp finalize Q c := by
  refine end_finalizeWith (fun {Q c'} hc' hQ' => end_settleTerminal ?_) hQ
  exact fun c'' hc'' hk => hQ' c'' (hc''.trans hc') hk

end Conn

/-! ### WebSocket sessions -/

namespace WebSocket

lemma end_abort {reason : AbortReason} {cause : Option Err} {Q : Bool → SPast → Prop}
    (hQ : ∀ b c', c'.1 = c.1 → knowsEnd .webSocket c' = true → Q b c') :
    (endOutline .webSocket).wp (abort reason cause) Q c := by
  refine end_abortWith ⟨nofun, fun hr => ?_⟩ ?_
  · -- only failures publish
    rw [if_neg]
    · rfl
    · rintro rfl
      exact hr rfl
  · rintro (_ | _) c' hc' hk
    · exact hQ _ c' hc' hk
    · refine (Outline.wp_bind (onceDo .close _) _ _ _).mpr (wp_closes closes_shut hk ?_)
      exact fun _ c'' hc'' hk' => hQ _ c'' (hc''.trans hc') hk'

lemma end_initiateClose {cause : Option Err} {Q : Unit → SPast → Prop}
    (hQ : ∀ c', c'.1 = c.1 → knowsEnd .webSocket c' = true → Q () c') :
    (endOutline .webSocket).wp (initiateClose cause) Q c :=
  (Outline.wp_bind (abort .failure cause) _ _ _).mpr (end_abort fun _ => hQ)

lemma end_finishLocalGraceful {e : Option Err} {Q : Unit → SPast → Prop}
    (hQ : ∀ c', c'.1 = c.1 → knowsEnd .webSocket c' = true → Q () c') :
    (endOutline .webSocket).wp (finishLocalGraceful cfg e) Q c := by
  simp only [finishLocalGraceful]
  split
  · exact end_initiateClose hQ
  · refine ⟨⟨nofun, fun _ => nofun⟩, fun _ _ => ⟨⟨nofun, nofun⟩, fun _ _ => ?_⟩⟩
    refine (Outline.wp_bind tryMarkTerminal _ _ _).mpr (end_tryMarkTerminal nofun ?_)
    exact fun _ c' hc' hk => wp_closes closes_shut hk fun _ c'' hc'' hk' =>
      hQ c'' (hc''.trans hc') hk'

lemma end_finalize {Q : Unit → SPast → Prop} (hQ : ∀ c', c'.1 = c.1 → Q () c') :
    (endOutline .webSocket).wp finalize Q c := by
  refine end_finalizeWith (fun {Q c'} hc' hQ' => ?_) hQ
  refine wp_pollEnd (hQ' _ hc' (knowsEnd_of_showsEnd rfl)) ?_
  exact end_initiateClose fun c'' hc'' hk => hQ' c'' (hc''.trans hc') hk

end WebSocket

/-! ### Packet connections -/

namespace Packet

/-- `initiateClose` may write the error of a failure only. -/
lemma end_initiateClose {cause : Option Err} {Q : Unit → SPast → Prop}
    (hfail : cause ≠ none → packetCloser c = .failure)
    (hQ : ∀ c', c'.1 = c.1 → knowsEnd .packet c' = true → Q () c') :
    (endOutline .packet).wp (initiateClose cause) Q c := by
  refine ⟨trivial, ?_⟩
  rintro (_ | _) hwins
  · exact hQ _ rfl (knowsEnd_of_showsEnd rfl)
  · have hwins : wins .packet c.1 c.2 = [] := hwins rfl
    have hwon : wins .packet c.1 (⟨.onceEnter .close, true⟩ :: c.2) = [packetCloser c] := by
      rw [wins, hwins]
      rfl
    have hne : wins .packet c.1 (⟨.onceEnter .close, true⟩ :: c.2) ≠ [] := by simp [hwon]
    -- from here on the goroutine knows, as soon as the error is written or will not be
    have hrest : ∀ c' : SPast, c'.1 = c.1 → wins .packet c'.1 c'.2 ≠ [] →
        (endOutline .packet).wp (do gateClose; signal .closing; rawClose; onceExit .close) Q
          c' := by
      rintro ⟨l, log⟩ rfl hne
      have hk : knowsEnd .packet (c.1, ⟨.gateClose, ()⟩ :: log) = true := by
        refine knowsEnd_of_settled ?_
        simpa [settled, SInstr.publishes] using Or.inr hne
      refine ⟨trivial, fun _ _ => wp_closes (p := do signal .closing; rawClose; onceExit .close)
        ⟨rfl, fun _ => ⟨rfl, fun _ => ⟨rfl, fun _ => trivial⟩⟩⟩ hk fun _ => hQ⟩
    split
    · rename_i e he
      have hcloser : packetCloser c = .failure := hfail fun hnone => by rw [hnone] at he; cases he
      have hsettled : settled .packet c.1 (⟨.onceEnter .close, true⟩ :: c.2) = false := by
        cases hs : settled .packet c.1 c.2 with
        | true => exact absurd hwins (wins_of_settled hs)
        | false => simp [settled, hs, SInstr.publishes]
      exact ⟨⟨rfl, hwon.trans (by rw [hcloser]), hsettled⟩, fun _ _ => hrest _ rfl hne⟩
    · exact hrest _ rfl hne

lemma end_finalize {Q : Unit → SPast → Prop} (hQ : ∀ c', c'.1 = c.1 → Q () c') :
    (endOutline .packet).wp finalize Q c := by
  refine end_finalizeWith (fun {Q c'} hc' hQ' => end_initiateClose (absurd rfl) ?_) hQ
  exact fun c'' hc'' hk => hQ' c'' (hc''.trans hc') hk

lemma end_writeDatagram {req : Request} {Q : Option Err → SPast → Prop}
    (hne : foundEmpty c.2 = false)
    (hQ : ∀ e c', c'.1 = c.1 → foundEmpty c'.2 = false → Q e c') :
    (endOutline .packet).wp (writeDatagram req) Q c := by
  refine ⟨trivial, ?_⟩
  rintro (_ | e) -
  · refine ⟨trivial, fun e _ => ⟨trivial, fun clearErr _ => ?_⟩⟩
    cases e with
    | some e => exact hQ _ _ rfl hne
    | none => cases clearErr <;> exact hQ _ _ rfl hne
  · exact hQ _ _ rfl hne

/-- A writer that fails has not found the queue empty. -/
lemma end_handleOutbound {at_ : WriterAt} {i : ℕ} {req : Request} {l₀ : SLabel}
    (hrole : c.1.role = .writer) (hne : foundEmpty c.2 = false) :
    (endOutline .packet).wp (handleOutbound cfg at_ i req) ((endOutline .packet).ends l₀) c := by
  refine (Outline.wp_bind (writeDatagram req) _ _ _).mpr (end_writeDatagram hne ?_)
  rintro e ⟨l, log⟩ rfl hne
  have hack : ∀ (v : Option Err) (l' : SLabel) (c' : SPast), c'.1 = c.1 → l'.role = .writer →
      (endOutline .packet).wp (if req.hasAck then (do ack i v; pure (.goto l')) else
        pure (.goto l')) ((endOutline .packet).ends l₀) c' := by
    intro v l' c' hc' hl'
    have hpre : c'.1.role = l'.role := by rw [hc', hrole, hl']
    split
    · exact ⟨trivial, fun _ _ => hpre⟩
    · exact hpre
  refine ⟨trivial, fun _ _ => ⟨trivial, fun _ _ => ⟨trivial, fun _ _ => ⟨trivial, fun _ _ => ?_⟩⟩⟩⟩
  cases e with
  | none => exact ⟨trivial, fun _ _ => ⟨trivial, fun _ _ => hack _ _ _ rfl rfl⟩⟩
  | some e =>
    refine (Outline.wp_bind (initiateClose _) _ _ _).mpr (end_initiateClose ?_ ?_)
    · intro _
      show packetCloser (c.1, _ :: _ :: _ :: _ :: log) = .failure
      simp only [packetCloser, hrole, foundEmpty, hne]
      rfl
    · intro c' hc' _
      refine ⟨trivial, ?_⟩
      rintro (_ | terminal) -
      · exact hack _ _ _ hc' rfl
      · exact hack _ _ _ hc' rfl

lemma end_writer {at_ : WriterAt} {l₀ : SLabel} (hrole : c.1.role = .writer) :
    (endOutline .packet).wp (writer cfg at_) ((endOutline .packet).ends l₀) c := by
  cases at_ with
  | running =>
    exact wp_selectEnd ⟨hrole, hrole, fun i req => end_handleOutbound hrole rfl⟩
  | graceful =>
    exact wp_selectEnd ⟨hrole, fun i req => end_handleOutbound hrole rfl, hrole⟩
  | drain =>
    refine wp_pollEnd (fun i req => end_handleOutbound hrole rfl) ?_
    exact (Outline.wp_bind (initiateClose none) _ _ _).mpr
      (end_initiateClose (absurd rfl) fun c' hc' _ => by
        show c'.1.role = .writer
        rw [hc', hrole])

lemma end_failPending {l₀ : SLabel} (hrole : c.1.role = .writer) :
    (endOutline .packet).wp (failPending cfg) ((endOutline .packet).ends l₀) c := by
  refine wp_pollEnd (fun i req => ?_) ⟨trivial, fun _ _ => trivial⟩
  refine ⟨trivial, fun _ _ => ⟨trivial, fun _ _ => ⟨trivial, fun _ _ => ?_⟩⟩⟩
  show (endOutline .packet).wp (if _ then _ else _) _ _
  split
  · refine ⟨trivial, ?_⟩
    rintro (_ | terminal) -
    · exact ⟨trivial, fun _ _ => hrole⟩
    · exact ⟨trivial, fun _ _ => hrole⟩
  · exact hrole

end Packet

/-! ### All programs -/

/-- What ends a session keeps to the outline, whoever calls it. -/
lemma end_call {clean : Prop} {β : Type} {p : SProg β} (h : EndCall clean cfg role kind β p)
    (hp : kind = .packet → role ≠ .writer) (hc : c.1.role = role) :
    (endOutline kind).wp p (fun _ c' => c'.1.role = role) c := by
  have hrole : ∀ {c' : SPast}, c'.1 = c.1 → c'.1.role = role := fun h => by rw [h, hc]
  cases h with
  | connAbort hg => exact Conn.end_abort (fun h => (hg.failure h).1) fun _ _ hc' _ => hrole hc'
  | connFinish hr => exact Conn.end_maybeFinishGraceful fun _ hc' => hrole hc'
  | connFinalize hr => exact Conn.end_finalize fun _ hc' => hrole hc'
  | wsAbort hg => exact WebSocket.end_abort fun _ _ hc' _ => hrole hc'
  | wsFinish hr he => exact WebSocket.end_finishLocalGraceful fun _ hc' _ => hrole hc'
  | wsFinalize hr => exact WebSocket.end_finalize fun _ hc' => hrole hc'
  | packetClose hg =>
    refine Packet.end_initiateClose (fun hne => ?_) fun _ hc' _ => hrole hc'
    obtain ⟨-, h₁, h₂⟩ := hg.failure hne
    have h₃ := hp rfl
    simp only [packetCloser, hc]
  | packetFinalize hr => exact Packet.end_finalize fun _ hc' => hrole hc'

lemma end_body (l₀ l : SLabel) (hc : (endOutline kind).pre l c) :
    (endOutline kind).wp (kind.body cfg l) ((endOutline kind).ends l₀) c := by
  have hrole : c.1.role = l.role := hc
  have hmade : (kind = .packet → l.role ≠ .writer) →
      (endOutline kind).wp (kind.body cfg l) ((endOutline kind).ends l₀) c := fun hp => by
    refine Outline.wp_of_made (J := fun c => c.1.role = l.role)
      (made_body False kind cfg l (Role.stays_self l))
      (fun i hi c hc => ⟨endReq_plain hi.plain c, fun _ _ => ⟨False.elim, hc⟩⟩) ?_
      (fun β p h c hc => end_call h hp hc) (fun n c hn hc => ?_) hrole
    · rintro i n ⟨rfl, -, rfl⟩ c -
      exact ⟨trivial, fun _ _ => trivial⟩
    · cases n with
      | goto l' => exact hc.trans hn.role_eq.symm
      | ret v => trivial
  cases kind with
  | conn | webSocket => exact hmade nofun
  | packet =>
    cases l with
    | writerLoop => exact hc
    | writer at_ => exact Packet.end_writer hc
    | writerExit => exact wp_selectEnd hc
    | failPending e => exact Packet.end_failPending hc
    | writing at_ i req rest => trivial
    | _ => exact hmade fun _ => nofun

end Ogrenet
