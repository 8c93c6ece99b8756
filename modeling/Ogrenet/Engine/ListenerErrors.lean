import Ogrenet.Engine.Requests
import Ogrenet.Interleaving.Calls

/-!
# The errors of stream listeners

A `listener` records one error, in `initiateClose`. The accept loop passes an error that it has
classified; a goroutine of an accepted connection passes the error of `newFramer` as it is.
-/

namespace Ogrenet

open Interleaving Interleaving.Prog

/-- Where a goroutine of the engine was started and what it has done. -/
abbrev EPast := Outline.Past ELabel EInstr.Resp

/-- The framer of a connection that listener `j` accepted could not be made, and the error is in no
envelope. -/
def FramerFailed (j : ℕ) (err : Err) (c : EPast) : Prop :=
  (∃ scheme raw, c.1 = .handleAccepted j scheme raw) ∧
    ⟨.external .newFramer, .error err⟩ ∈ c.2 ∧ err.hasOperational = false

/-- The goroutine has recorded that error. -/
def FramerRecorded (j : ℕ) (err : Err) (c : EPast) : Prop :=
  FramerFailed j err c ∧ ⟨.setErr j (some err), ()⟩ ∈ c.2

/-! ### The outline -/

def listenerReq (clean : Prop) : EInstr → EPast → Prop
  | .setErr j err, c => c.1 = .serve j ∨ (∃ log, c.2 = ⟨.closeOnceEnter j, true⟩ :: log) ∧
      ∃ e, err = some e ∧ (e.Typed clean ∨ FramerFailed j e c)
  | .spawn (.serve j), c => ∃ scheme, (scheme = .ws ∨ scheme = .wss) ∧
      ⟨.newListener scheme, j⟩ ∈ c.2
  | _, _ => True

/-- What the outside answers carries no `*transport.Error`. -/
def EInstr.Bare : (i : EInstr) → i.Resp → Prop
  | .external _, .error err => err.hasOperational = false
  | _, _ => True

/-- The outline of who records the error of a listener. -/
def listenerOutline (clean : Prop) : Outline EInstr EInstr.Resp ELabel EVal EPast :=
  .past (listenerReq clean) (fun i r _ => clean → i.Bare r)
    (fun l c => l.sole = true → c.1 = l) fun _ _ => True

/-- The step neither records an error nor starts a `Serve`. -/
def EInstr.quiet : EInstr → Prop
  | .setErr _ _ => False
  | .spawn l => ∀ j, l ≠ .serve j
  | _ => True

section Programs

variable {clean : Prop} {α : Type} {l l₀ : ELabel} {log : ELog} {Q : α → EPast → Prop}

lemma EInstr.quiet.req {i : EInstr} (h : i.quiet) (c : EPast) : listenerReq clean i c := by
  cases i with
  | setErr j err => exact h.elim
  | spawn l =>
    cases l with
    | serve j => exact absurd rfl (h j)
    | _ => trivial
  | _ => trivial

lemma wp_quiet {p : EProg α} {F : α → Prop} (hp : p.Within EInstr.quiet F)
    (hQ : ∀ a log', F a → log ⊆ log' → Q a (l, log')) :
    (listenerOutline clean).wp p Q (l, log) := by
  refine Outline.wp_of_within (J := fun c => c.1 = l ∧ log ⊆ c.2)
    (hp.imp (fun i hi c hc => ⟨hi.req c, fun r _ => ⟨hc.1, ?_⟩⟩) fun _ => id) ?_
    ⟨rfl, List.Subset.refl _⟩
  · exact List.subset_cons_of_subset _ hc.2
  · rintro a ⟨l', log'⟩ ha ⟨rfl, hsub⟩
    exact hQ a log' ha hsub

/-- A goroutine without a part of its own goes on or returns. -/
lemma wp_quiet_ends {p : EProg ENext} (hp : p.Within EInstr.quiet ToLoops) {c : EPast} :
    (listenerOutline clean).wp p ((listenerOutline clean).ends l₀) c := by
  refine Outline.wp_of_within (J := fun _ => True)
    (hp.imp (fun i hi c _ => ⟨hi.req c, fun _ _ => trivial⟩) fun _ => id) ?_ trivial
  rintro (l' | v) c hn -
  · exact fun hs => absurd hs (by rw [show l'.sole = false from hn]; decide)
  · trivial

lemma quiet_within {p : EProg α} {F : α → Prop} (hp : p.Within EInstr.common F) :
    p.Within EInstr.quiet F :=
  hp.imp (fun i hi => by cases i <;> trivial) fun _ => id

lemma quiet_of {p : EProg α} (hp : p.Forall EInstr.common) : p.Forall EInstr.quiet :=
  quiet_within hp

/-! ### Shutdown -/

lemma quiet_beginAbort (reason : AbortReason) : (beginAbort reason).Forall EInstr.quiet := by
  refine ⟨trivial, fun _ => ⟨trivial, fun st => ?_⟩⟩
  have habort : (do
      let set ← Eng.startAborting reason
      maybeDoneLocked
      Eng.unlock
      return some set : EProg (Option EngineShutdownSet)).Forall EInstr.quiet :=
    ⟨trivial, fun _ => (quiet_of common_maybeDoneLocked).bind fun _ =>
      ⟨trivial, fun _ => trivial⟩⟩
  cases st with
  | running | draining => exact habort
  | aborting | done => exact ⟨trivial, fun _ => trivial⟩

lemma quiet_abortRemaining (reason : AbortReason) :
    (abortRemaining reason).Forall EInstr.quiet := by
  refine (quiet_beginAbort reason).bind ?_
  rintro (_ | set)
  · trivial
  · refine (quiet_of (common_closeSet set)).bind ?_
    rintro (_ | err)
    · trivial
    · exact quiet_of (common_recordShutdownError err)

lemma quiet_awaitShutdown (owner : Bool) :
    (awaitShutdown owner).Within EInstr.quiet ToLoops := by
  refine ⟨trivial, ?_⟩
  rintro (_ | cause)
  · exact (quiet_of common_shutdownResult).bind fun _ => trivial
  · show Within _ _ (if _ then _ else _)
    split
    · exact (quiet_abortRemaining .caller).bind fun _ => trivial
    · trivial

lemma quiet_shutdownEngine (ctxNil : Bool) :
    (shutdownEngine ctxNil).Within EInstr.quiet ToLoops := by
  simp only [shutdownEngine]
  split
  · trivial
  · refine ⟨trivial, ?_⟩
    rintro (_ | cause)
    · refine Forall.bind (p := beginGracefulShutdown) ?_ ?_
      · refine ⟨trivial, fun _ => ⟨trivial, fun st => ?_⟩⟩
        cases st with
        | running =>
          exact ⟨trivial, fun r => (quiet_of (common_drainLeases r.2)).bind fun _ =>
            (quiet_of common_maybeDoneLocked).bind fun _ => ⟨trivial, fun _ => trivial⟩⟩
        | _ => exact ⟨trivial, fun _ => trivial⟩
      · rintro (_ | set)
        · exact quiet_awaitShutdown false
        · refine Forall.bind (p := requestShutdown set) ?_ fun _ => quiet_awaitShutdown true
          refine (quiet_of (common_closeSet set)).bind ?_
          rintro (_ | err)
          · trivial
          · exact (quiet_of (common_recordShutdownError err)).bind fun _ =>
              quiet_abortRemaining .failure
    · trivial

lemma quiet_closeEngine : closeEngine.Within EInstr.quiet ToLoops := by
  refine (quiet_beginAbort .explicit).bind ?_
  rintro (_ | set)
  · trivial
  · exact (quiet_of (common_closeSet set)).bind fun _ => trivial

/-! ### The goroutines that record an error -/

lemma wp_listenerServe (j : ℕ) :
    (listenerOutline clean).wp (serve j) ((listenerOutline clean).ends l₀)
    (.serve j, log) := by
  have hrest : (do
      let _ ← closeWSListener j
      Eng.closeListenerDone j
      removeTracked j
      return .ret .unit : EProg ENext).Within EInstr.quiet ToLoops :=
    quiet_within ((common_closeWSListener j).bind fun _ => ⟨trivial, fun _ =>
      (common_removeTracked j).bind fun _ => trivial⟩)
  refine ⟨trivial, ?_⟩
  rintro (err | _) -
  · exact ⟨.inl rfl, fun _ _ => wp_quiet_ends hrest⟩
  · exact ⟨.inl rfl, fun _ _ => wp_quiet_ends hrest⟩

/-- A close of a listener with a cause that may be recorded. -/
lemma wp_closeWith {Q : Option Err → EPast → Prop} (j : ℕ) {cause : Option Err}
    (h : ∀ e, cause = some e → e.Typed clean ∨ FramerFailed j e (l, log))
    (hQ : ∀ a log', Q a (l, log')) :
    (listenerOutline clean).wp (initiateClose j cause) Q (l, log) := by
  refine ⟨trivial, ?_⟩
  rintro (_ | _) -
  · exact hQ _ _
  · show (listenerOutline clean).wp (if _ then _ else _) _ _
    split
    on_goal 1 =>
      rename_i hsome
      obtain ⟨e, he⟩ := Option.isSome_iff_exists.mp hsome
      have hrecord : e.Typed clean ∨ FramerFailed j e (l, ⟨.closeOnceEnter j, true⟩ :: log) := by
        -- what is recorded is the cause itself
        obtain ⟨e', hcause, he'⟩ := Option.bind_eq_some_iff.mp he
        have hsame : e' = e := by
          split at he'
          · exact Option.some.inj he'
          · exact Option.some.inj (Option.ite_none_left_eq_some.mp he').2
        subst hsame
        refine (h e' hcause).imp_right ?_
        rintro ⟨hl, hmem, hbare⟩
        exact ⟨hl, List.mem_cons_of_mem _ hmem, hbare⟩
      refine ⟨.inr ⟨⟨log, rfl⟩, e, he, hrecord⟩, fun _ _ => ?_⟩
    -- the rest reads and records nothing
    all_goals
      refine wp_quiet (F := fun _ => True) ⟨trivial, fun _ => ⟨trivial, ?_⟩⟩
        fun a log' _ _ => hQ a log'
      rintro (err | _) <;> exact ⟨trivial, fun _ => trivial⟩

lemma wp_listenerAccept (j : ℕ) (scheme : Scheme) :
    (listenerOutline clean).wp (acceptLoop j scheme) ((listenerOutline clean).ends l₀)
      (l, log) := by
  have hagain : (listenerOutline clean).ends l₀ (.goto (.acceptLoop j scheme)) = fun _ => True :=
    funext fun _ => by simp [listenerOutline, Outline.past, ELabel.sole]
  refine ⟨trivial, ?_⟩
  rintro (err | raw) hbare
  · refine ⟨trivial, ?_⟩
    rintro (_ | _) -
    · refine ⟨trivial, ?_⟩
      rintro (_ | _) -
      · refine (Outline.wp_bind (initiateClose j _) _ _ _).mpr (wp_closeWith j ?_ fun _ _ =>
          wp_quiet_ends (quiet_within (common_finalizeListener j)))
        intro e he
        obtain ⟨n, hn, rfl⟩ := Option.map_eq_some_iff.mp he
        refine .inl ⟨classifyOperational_classified.hasOperational, fun hc => ⟨_, _, n, _, rfl, ?_⟩⟩
        rw [← (Option.some.inj (Option.ite_none_left_eq_some.mp hn).2)]
        exact hbare hc
      · refine ⟨trivial, ?_⟩
        rintro (_ | _) -
        · exact wp_quiet_ends (quiet_within (common_finalizeListener j))
        · exact nofun
    · exact wp_quiet_ends (quiet_within (common_finalizeListener j))
  · refine ⟨trivial, ?_⟩
    rintro (err | _) -
    · exact nofun
    · exact ⟨trivial, fun _ _ => nofun⟩

/-- A stream that has its lease is refused only because the engine is closed. -/
lemma common_addStream (peer : String) (lease : ℕ) :
    (addStreamWithLease peer (some lease)).Within EInstr.common
      fun r => ∀ err, r = .error err → err = errClosed := by
  refine ⟨trivial, fun _ => ⟨trivial, fun st => ?_⟩⟩
  cases st with
  | running =>
    refine (common_adm (ConnectionLease.activate lease)).bind ?_
    rintro (_ | _)
    · exact ⟨trivial, fun _ _ h => Except.error.inj h.symm⟩
    · exact ⟨trivial, fun _ => ⟨trivial, fun _ => nofun⟩⟩
  | _ => exact ⟨trivial, fun _ _ h => Except.error.inj h.symm⟩

lemma wp_listenerLeased {Q : Except Err ℕ → EPast → Prop} (j : ℕ) (scheme : Scheme) (raw : Remote)
    (lease : ℕ) (hQ : ∀ a log', Q a (.handleAccepted j scheme raw, log')) :
    (listenerOutline clean).wp (handleLeased j raw lease) Q
      (.handleAccepted j scheme raw, log) := by
  refine (Outline.wp_bind (adoptStreamWithLease raw lease) _ _ _).mpr ⟨trivial, ?_⟩
  rintro (err | _) hbare
  · show (listenerOutline clean).wp (if _ then _ else _) _ _
    split
    · exact hQ _ _
    · refine (Outline.wp_bind (initiateClose j (some err)) _ _ _).mpr
        (wp_closeWith j ?_ fun _ _ => hQ _ _)
      intro e he
      cases he
      cases hop : err.hasOperational with
      | false => exact .inr ⟨⟨scheme, raw, rfl⟩, List.mem_cons_self, hop⟩
      | true => exact .inl ⟨hop, fun hc => Bool.noConfusion (hop.symm.trans (hbare hc))⟩
  · refine (Outline.wp_bind (addStreamWithLease raw.peer (some lease)) _ _ _).mpr
      (wp_quiet (quiet_within (common_addStream raw.peer lease)) ?_)
    rintro (err | k) log' herr -
    · cases herr err rfl
      exact hQ _ _
    · exact ⟨trivial, fun _ _ => hQ _ _⟩

lemma wp_listenerHandle (j : ℕ) (scheme : Scheme) (raw : Remote) :
    (listenerOutline clean).wp (handleAccepted j scheme raw) ((listenerOutline clean).ends l₀)
      (.handleAccepted j scheme raw, log) := by
  have hend : (do endOp; return .ret .unit : EProg ENext).Within EInstr.quiet ToLoops :=
    quiet_within (common_endOp.bind fun _ => trivial)
  refine (Outline.wp_bind beginOp _ _ _).mpr (wp_quiet (quiet_of common_beginOp) ?_)
  rintro (_ | err) log₁ - -
  · refine (Outline.wp_bind (Eng.adm (acquireOpeningWithListener raw.peer (some j))) _ _ _).mpr
      (wp_quiet (quiet_of (common_adm _)) ?_)
    rintro (e | lease) log₂ - -
    · exact wp_quiet_ends hend
    · have hdone : ∀ r log', (listenerOutline clean).wp (do
          let _ ← releaseUnless lease r
          endOp
          return .ret .unit) ((listenerOutline clean).ends l₀)
          (.handleAccepted j scheme raw, log') := fun r log' =>
        wp_quiet_ends ((quiet_of (common_releaseUnless lease r)).bind fun _ => hend)
      refine (Outline.wp_bind (handlePrepared j scheme raw lease) _ _ _).mpr ?_
      simp only [handlePrepared]
      split
      · refine (Outline.wp_bind prepare _ _ _).mpr (wp_quiet (quiet_of common_prepare) ?_)
        rintro (_ | err) log₃ - -
        · exact wp_listenerLeased j scheme raw lease hdone
        · exact hdone _ _
      · exact wp_listenerLeased j scheme raw lease hdone
  · trivial

/-! ### The start of a WebSocket listener -/

lemma wp_listenerStart {Q : Except Err ℕ → EPast → Prop} {scheme : Scheme}
    (hscheme : scheme = .ws ∨ scheme = .wss) (hQ : ∀ a log', Q a (l, log')) :
    (listenerOutline clean).wp (startWSListener scheme) Q (l, log) := by
  refine ⟨trivial, fun j _ => ?_⟩
  have hnew : (⟨.newListener scheme, j⟩ : Sigma EInstr.Resp) ∈ ⟨.newListener scheme, j⟩ :: log :=
    List.mem_cons_self
  show (listenerOutline clean).wp (if _ then _ else _) _ _
  split
  on_goal 1 =>
    refine ⟨trivial, fun _ _ => ?_⟩
    replace hnew := List.mem_cons_of_mem ⟨.spawn (.tlsAcceptLoop j), ()⟩ hnew
  all_goals
    refine (Outline.wp_bind (addTracked j) _ _ _).mpr (wp_quiet (quiet_of (common_addTracked j)) ?_)
    rintro (_ | err) log'' - hsub
    · exact ⟨trivial, fun _ _ => ⟨⟨scheme, hscheme, List.mem_cons_of_mem _ (hsub hnew)⟩,
        fun _ _ => hQ _ _⟩⟩
    · exact (Outline.wp_bind (closeAll j) _ _ _).mpr
        (wp_quiet (quiet_of (common_closeAll j)) fun _ _ _ _ => hQ _ _)

lemma wp_listenerWS {Q : Except Err ℕ → EPast → Prop} {cfg : EngineConfig} {scheme : Scheme}
    {query : Bool} (hscheme : scheme = .ws ∨ scheme = .wss) (hQ : ∀ a log', Q a (l, log')) :
    (listenerOutline clean).wp (listenWebSocket cfg scheme query) Q (l, log) := by
  simp only [listenWebSocket]
  split
  · exact hQ _ _
  · split
    · exact hQ _ _
    · refine ⟨trivial, ?_⟩
      rintro (err | _) -
      · exact hQ _ _
      · show (listenerOutline clean).wp (if _ then _ else _) _ _
        split
        · refine ⟨trivial, ?_⟩
          rintro (err | _) -
          · exact hQ _ _
          · exact wp_listenerStart hscheme hQ
        · exact wp_listenerStart hscheme hQ

lemma wp_listenerListen (cfg : EngineConfig) (ctxNil : Bool) (scheme : Scheme) (query : Bool) :
    (listenerOutline clean).wp ((ELabel.listen ctxNil scheme query).body cfg)
      ((listenerOutline clean).ends l₀) (l, log) := by
  by_cases hstream : scheme = .tcp ∨ scheme = .tls
  · refine wp_quiet_ends (quiet_within (common_checked ctxNil _ fun _ => ?_))
    rw [if_pos hstream]
    exact common_listenStream scheme
  · simp only [ELabel.body, checked, if_neg hstream]
    split
    · trivial
    · refine ⟨trivial, ?_⟩
      rintro (err | _) -
      · trivial
      · show (listenerOutline clean).wp (if _ then _ else _) _ _
        split
        · trivial
        · rename_i hudp
          have hscheme : scheme = .ws ∨ scheme = .wss := by
            cases scheme <;> simp_all
          refine (Outline.wp_bind (withOp _) _ _ _).mpr ((Outline.wp_bind beginOp _ _ _).mpr
            (wp_quiet (quiet_of common_beginOp) ?_))
          rintro (_ | err) log₁ - -
          · refine (Outline.wp_bind (listenWebSocket cfg scheme query) _ _ _).mpr
              (wp_listenerWS hscheme fun _ _ => ?_)
            exact (Outline.wp_bind endOp _ _ _).mpr
              (wp_quiet (quiet_of common_endOp) fun _ _ _ _ => trivial)
          · trivial

lemma listener_body (cfg : EngineConfig) (l₀ l : ELabel) {c : EPast}
    (hc : (listenerOutline clean).pre l c) :
    (listenerOutline clean).wp (l.body cfg) ((listenerOutline clean).ends l₀) c := by
  obtain ⟨l₁, log⟩ := c
  cases l with
  | listen ctxNil scheme query => exact wp_listenerListen cfg ctxNil scheme query
  | dial ctxNil scheme =>
    refine wp_quiet_ends (quiet_within (common_checked ctxNil _ fun _ => ?_))
    split
    · exact common_dialStream scheme
    · exact common_dialWebSocket cfg scheme
  | listenPacket ctxNil scheme | dialPacket ctxNil scheme =>
    exact wp_quiet_ends (quiet_within (common_checked ctxNil _ fun _ => common_openPacket _ _))
  | shutdown ctxNil => exact wp_quiet_ends (quiet_shutdownEngine ctxNil)
  | close => exact wp_quiet_ends quiet_closeEngine
  | closeListener j =>
    have hp : (do
        let err ← initiateClose j none
        return .ret (.result err) : EProg ENext).Within EInstr.common ToLoops :=
      (common_initiateClose j).bind fun _ => trivial
    exact wp_quiet_ends (quiet_within hp)
  | closeWSListener j =>
    have hp : (do
        let err ← closeWSListener j
        return .ret (.result err) : EProg ENext).Within EInstr.common ToLoops :=
      (common_closeWSListener j).bind fun _ => trivial
    exact wp_quiet_ends (quiet_within hp)
  | watchContext j => exact wp_quiet_ends (quiet_within (common_watchContext j))
  | acceptLoop j scheme => exact wp_listenerAccept j scheme
  | handleAccepted j scheme raw =>
    cases hc rfl
    exact wp_listenerHandle j scheme raw
  | watchWS j => exact wp_quiet_ends (quiet_within (common_watchWS j))
  | serve j =>
    cases hc rfl
    exact wp_listenerServe j
  | accept j => exact wp_quiet_ends (quiet_within (common_acceptHTTP j))
  | tlsAcceptLoop j => exact wp_quiet_ends (quiet_within (common_tlsAcceptLoop j))
  | tlsHandshake j raw => exact wp_quiet_ends (quiet_within (common_tlsHandshake j raw))
  | httpConn j conn =>
    have hp : (httpConn j conn).Within EInstr.common ToLoops := (common_trk j _).bind fun _ => rfl
    exact wp_quiet_ends (quiet_within hp)
  | httpRequests j conn holder =>
    exact wp_quiet_ends (quiet_within (common_httpRequests j conn holder))
  | dialCallback d tls => exact wp_quiet_ends (quiet_within (common_dialCallback d tls))
  | finalizer k => exact wp_quiet_ends (quiet_within (common_finalizer k))

end Programs

/-! ### What a step does to a listener -/

/-- The error of listener `j` after a step, and what it was before. -/
def EInstr.errAfter (j : ℕ) : EInstr → Option Err → Option Err
  | .setErr j' err, old => if j' = j then err else old
  | _, old => old

/-- How a listener goes on: `L'` is what `L` has become. -/
structure ListenerEntry.Goes (i : EInstr) (j : ℕ) (L L' : ListenerEntry) : Prop where
  scheme : L'.scheme = L.scheme
  closeOnce : L.closeOnce ≠ .idle → L'.closeOnce ≠ .idle
  err : L'.err = i.errAfter j L.err

section Steps

variable {e e' : Engine} {x : EChoice} {i : EInstr} {r : i.Resp} {j : ℕ} {L : ListenerEntry}

/-- A step that writes one listener. -/
lemma Engine.goes_set {j₀ : ℕ} {L₀ L₁ : ListenerEntry} (hL₀ : e.listeners[j₀]? = some L₀)
    (hL : e.listeners[j]? = some L) (hgo : L₀.Goes i j₀ L₁)
    (hother : j ≠ j₀ → ∀ old, i.errAfter j old = old) :
    ∃ L', (e.listeners.set j₀ L₁)[j]? = some L' ∧ L.Goes i j L' := by
  by_cases hj : j = j₀
  · subst hj
    cases hL₀.symm.trans hL
    exact ⟨L₁, List.getElem?_set_self (List.getElem?_eq_some_iff.mp hL₀).1, hgo⟩
  · exact ⟨L, (List.getElem?_set_ne (Ne.symm hj)).trans hL, rfl, id, (hother hj _).symm⟩

lemma Engine.exec_goes (hx : e.exec x i = some (e', r)) (hL : e.listeners[j]? = some L) :
    ∃ L', e'.listeners[j]? = some L' ∧ L.Goes i j L' := by
  cases i with
  | adm a =>
    obtain ⟨b, -, heq⟩ := Option.map_eq_some_iff.mp hx
    cases heq
    exact ⟨L, hL, rfl, id, rfl⟩
  | trk j₀ a =>
    simp only [Engine.exec] at hx
    split at hx
    · cases hx
    · rename_i L₀ hL₀
      obtain ⟨b, -, heq⟩ := Option.map_eq_some_iff.mp hx
      cases heq
      exact goes_set hL₀ hL ⟨rfl, id, rfl⟩ fun _ _ => rfl
  | newListener scheme =>
    cases hx
    exact ⟨L, getElem?_mono (List.prefix_append _ _) hL, rfl, id, rfl⟩
  | setErr j₀ err =>
    simp only [Engine.exec] at hx
    split at hx <;> cases hx
    rename_i L₀ hL₀
    exact goes_set hL₀ hL ⟨rfl, id, (if_pos rfl).symm⟩ fun hne _ => if_neg (Ne.symm hne)
  | closeOnceEnter j₀ =>
    simp only [Engine.exec] at hx
    split at hx
    · cases hx
    · rename_i L₀ hL₀
      split at hx <;> cases hx
      · exact goes_set hL₀ hL ⟨rfl, by simp, rfl⟩ fun _ _ => rfl
      · exact ⟨L, hL, rfl, id, rfl⟩
  | closeOnceExit j₀ =>
    simp only [Engine.exec] at hx
    split at hx <;> cases hx
    rename_i L₀ hL₀
    exact goes_set hL₀ hL ⟨rfl, by simp, rfl⟩ fun _ _ => rfl
  | trackListener j₀ | untrackListener j₀ | closeClosing j₀ =>
    simp only [Engine.exec] at hx
    split at hx <;> cases hx
    rename_i L₀ hL₀
    exact goes_set hL₀ hL ⟨rfl, id, rfl⟩ fun _ _ => rfl
  | closeListenerDone j₀ =>
    simp only [Engine.exec] at hx
    split at hx
    · cases hx
    · rename_i L₀ hL₀
      split at hx <;> cases hx
      exact goes_set hL₀ hL ⟨rfl, id, rfl⟩ fun _ _ => rfl
  | _ =>
    simp only [Engine.exec] at hx
    repeat' split at hx
    all_goals cases hx
    all_goals exact ⟨L, hL, rfl, id, rfl⟩

/-- A listener that was not there is new. -/
lemma Engine.exec_newListener (hx : e.exec x i = some (e', r)) (hnone : e.listeners[j]? = none)
    (hL : e'.listeners[j]? = some L) : ∃ scheme, L = { scheme } := by
  cases exec_listeners hx with
  | same h => rw [h, hnone] at hL; cases hL
  | write j₀ L₀ L₁ hL₀ h ht =>
    rcases getElem?_of_set (h ▸ hL) with ⟨rfl, -⟩ | hold
    · rw [hnone] at hL₀; cases hL₀
    · rw [hnone] at hold; cases hold
  | track j₀ L₀ hL₀ h | untrack j₀ L₀ hL₀ h =>
    rcases getElem?_of_set (h ▸ hL) with ⟨rfl, -⟩ | hold
    · rw [hnone] at hL₀; cases hL₀
    · rw [hnone] at hold; cases hold
  | new scheme h =>
    rcases getElem?_of_concat (h ▸ hL) with hold | ⟨-, rfl⟩
    · rw [hnone] at hold; cases hold
    · exact ⟨scheme, rfl⟩

/-- The goroutine that enters `closeOnce` is the first. -/
lemma Engine.exec_enter (hx : e.exec x (.closeOnceEnter j) = some (e', true)) :
    (∃ L, e.listeners[j]? = some L ∧ L.closeOnce = .idle) ∧
      ∃ L, e'.listeners[j]? = some L ∧ L.closeOnce ≠ .idle := by
  simp only [Engine.exec] at hx
  split at hx
  · cases hx
  · rename_i L₀ hL₀
    split at hx <;> cases hx
    rename_i hidle
    exact ⟨⟨L₀, hL₀, hidle⟩, _,
      List.getElem?_set_self (List.getElem?_eq_some_iff.mp hL₀).1, by simp⟩

/-- Only a `go` statement adds to what is to be started. -/
lemma Engine.exec_pending (hx : e.exec x i = some (e', r)) {l : ELabel} (hl : l ∈ e'.pending) :
    l ∈ e.pending ∨ i = .spawn l := by
  cases i with
  | adm a =>
    obtain ⟨b, -, heq⟩ := Option.map_eq_some_iff.mp hx
    cases heq
    exact .inl hl
  | trk j₀ a =>
    simp only [Engine.exec] at hx
    split at hx
    · cases hx
    · obtain ⟨b, -, heq⟩ := Option.map_eq_some_iff.mp hx
      cases heq
      exact .inl hl
  | spawn l' =>
    cases hx
    rcases List.mem_cons.mp hl with rfl | hl
    · exact .inr rfl
    · exact .inl hl
  | _ =>
    simp only [Engine.exec] at hx
    repeat' split at hx
    all_goals cases hx
    all_goals exact .inl hl

end Steps

lemma Engine.spawn_pending {e : Engine} {l : ELabel} {pending : List ELabel}
    (h : e.spawn l = some { e with pending }) : ∀ l' ∈ pending, l' ∈ e.pending := by
  have hsub : ∀ {e'}, e.spawn l = some e' → ∀ l' ∈ e'.pending, l' ∈ e.pending := by
    intro e' h
    cases l with
    | listen | dial | listenPacket | dialPacket | shutdown | close =>
      cases h
      exact fun _ => id
    | closeListener j | closeWSListener j | accept j =>
      obtain ⟨y, -, hy⟩ := Option.bind_eq_some_iff.mp h
      split at hy <;> cases hy
      exact fun _ => id
    | _ =>
      simp only [Engine.spawn] at h
      split at h <;> cases h
      first
      | exact fun _ => id
      | exact fun _ => List.mem_of_mem_erase
  exact hsub h

lemma Engine.spawn_serve {e e' : Engine} {j : ℕ} (h : e.spawn (.serve j) = some e') :
    .serve j ∈ e.pending := by
  simp only [Engine.spawn] at h
  split at h
  · assumption
  · cases h

/-! ### The invariant -/

/-- Listener `j` is a WebSocket listener. -/
def Engine.WS (e : Engine) (j : ℕ) : Prop := ∃ L, e.listeners[j]? = some L ∧ L.isWS = true

/-- The step enters the `closeOnce` of listener `j`. -/
def EInstr.enters (j : ℕ) : (i : EInstr) → i.Resp → Bool
  | .closeOnceEnter j', true => j' == j
  | _, _ => false

/-- How often the `closeOnce` of listener `j` was entered. -/
def entries (j : ℕ) (log : ELog) : ℕ := log.countP fun a => a.1.enters j a.2

/-- Who has recorded the errors of listeners, and that they are typed. -/
structure ListenerErrs (clean : Prop) (e : Engine) (cs : List EPast) : Prop where
  made : ∀ c ∈ cs, ∀ scheme j, ⟨.newListener scheme, j⟩ ∈ c.2 →
    ∃ L, e.listeners[j]? = some L ∧ L.scheme = scheme
  pending : ∀ j, .serve j ∈ e.pending → e.WS j
  serves : ∀ c ∈ cs, ∀ j, c.1 = .serve j → e.WS j
  entered : ∀ j, 0 < total (fun c => entries j c.2) cs →
    ∃ L, e.listeners[j]? = some L ∧ L.closeOnce ≠ .idle
  one : ∀ j, total (fun c => entries j c.2) cs ≤ 1
  wrote : ∀ c ∈ cs, ∀ j err log, ⟨.setErr j err, ()⟩ :: log <:+ c.2 →
    c.1 = .serve j ∨ 0 < entries j log
  recorded : ∀ c ∈ cs, ∀ j err, ⟨.setErr j err, ()⟩ ∈ c.2 → c.1 ≠ .serve j →
    ∀ L, e.listeners[j]? = some L → L.isWS = false → L.err = err
  typed : ∀ j L err, e.listeners[j]? = some L → L.isWS = false → L.err = some err →
    err.Typed clean ∨ ∃ c ∈ cs, FramerRecorded j err c

lemma entries_cons (j : ℕ) (i : EInstr) (r : i.Resp) (log : ELog) :
    entries j (⟨i, r⟩ :: log) = entries j log + if i.enters j r then 1 else 0 := by
  rw [entries, List.countP_cons]
  rfl

lemma entries_le_of_suffix {j : ℕ} {log log' : ELog} (h : log <:+ log') :
    entries j log ≤ entries j log' := h.sublist.countP_le

lemma ListenerEntry.isWS_iff (L : ListenerEntry) :
    L.isWS = true ↔ L.scheme = .ws ∨ L.scheme = .wss := by
  simp [ListenerEntry.isWS]

lemma ListenerEntry.Goes.isWS {i : EInstr} {j : ℕ} {L L' : ListenerEntry} (h : L.Goes i j L') :
    L'.isWS = L.isWS := by
  rw [ListenerEntry.isWS, ListenerEntry.isWS, h.scheme]

lemma EInstr.enters_true {i : EInstr} {j : ℕ} {r : i.Resp} (h : i.enters j r = true) :
    (⟨i, r⟩ : Sigma EInstr.Resp) = ⟨.closeOnceEnter j, true⟩ := by
  cases i with
  | closeOnceEnter j' =>
    cases r with
    | true => rw [eq_of_beq h]
    | false => cases h
  | _ => cases h

section Keep

variable {clean : Prop} {e e' : Engine} {x : EChoice} {cs : List EPast} {t : ℕ} {c : EPast}
  {i : EInstr} {r : i.Resp} {j : ℕ}

lemma Engine.WS.exec (h : e.WS j) (hx : e.exec x i = some (e', r)) : e'.WS j := by
  obtain ⟨L, hL, hws⟩ := h
  obtain ⟨L', hL', hgo⟩ := Engine.exec_goes hx hL
  exact ⟨L', hL', hgo.isWS.trans hws⟩

lemma Engine.WS.not_stream (h : e.WS j) {L : ListenerEntry} (hL : e.listeners[j]? = some L) :
    L.isWS ≠ false := by
  obtain ⟨L', hL', hws⟩ := h
  cases hL.symm.trans hL'
  simp [hws]

/-- The `closeOnce` of a listener is entered once, and is not idle afterwards. -/
lemma ListenerErrs.enter (hG : ListenerErrs clean e cs) (ht : cs[t]? = some c)
    (hx : e.exec x i = some (e', r)) :
    total (fun c => entries j c.2) (cs.set t (c.1, ⟨i, r⟩ :: c.2)) ≤ 1 ∧
      (0 < total (fun c => entries j c.2) (cs.set t (c.1, ⟨i, r⟩ :: c.2)) →
        ∃ L, e'.listeners[j]? = some L ∧ L.closeOnce ≠ .idle) := by
  have htotal := total_set (f := fun c : EPast => entries j c.2) (c.1, ⟨i, r⟩ :: c.2) ht
  simp only [entries_cons] at htotal
  have hone := hG.one j
  by_cases hi : i.enters j r = true
  · cases EInstr.enters_true hi
    obtain ⟨⟨L, hL, hidle⟩, hafter⟩ := Engine.exec_enter hx
    have hzero : ¬ 0 < total (fun c => entries j c.2) cs := fun hpos => by
      obtain ⟨L', hL', hne⟩ := hG.entered j hpos
      cases hL.symm.trans hL'
      exact hne hidle
    rw [if_pos hi] at htotal
    exact ⟨by omega, fun _ => hafter⟩
  · rw [if_neg hi] at htotal
    refine ⟨by omega, fun hpos => ?_⟩
    obtain ⟨L, hL, hne⟩ := hG.entered j (by omega)
    obtain ⟨L', hL', hgo⟩ := Engine.exec_goes hx hL
    exact ⟨L', hL', hgo.closeOnce hne⟩

/-- No goroutine but a `Serve` writes the error of a listener after another has. -/
lemma ListenerErrs.not_twice (hG : ListenerErrs clean e cs) (ht : cs[t]? = some c)
    {log : ELog} (hc : c.2 = ⟨.closeOnceEnter j, true⟩ :: log) {c₁ : EPast} (hc₁ : c₁ ∈ cs)
    {err : Option Err} (hmem : ⟨.setErr j err, ()⟩ ∈ c₁.2) : c₁.1 = .serve j := by
  by_contra hserve
  obtain ⟨older, newer, hsplit⟩ := List.append_of_mem hmem
  have hone := hG.one j
  have hsuffix : ⟨.setErr j err, ()⟩ :: newer <:+ c₁.2 := ⟨older, hsplit.symm⟩
  have hpos := (hG.wrote c₁ hc₁ j err newer hsuffix).resolve_left hserve
  have hnewer : entries j newer ≤ entries j c₁.2 :=
    entries_le_of_suffix ((List.suffix_cons _ _).trans hsuffix)
  have hcpos : entries j c.2 = entries j log + 1 := by
    rw [hc, entries_cons]
    simp [EInstr.enters]
  obtain ⟨t₁, ht₁⟩ := List.mem_iff_getElem?.mp hc₁
  by_cases hne : t₁ = t
  · -- its own earlier write came after an earlier entry
    subst hne
    cases ht.symm.trans ht₁
    have hlog : ⟨.setErr j err, ()⟩ :: newer <:+ log := by
      rcases List.suffix_cons_iff.mp (hc ▸ hsuffix) with heq | h
      · cases heq
      · exact h
    have hle : entries j newer ≤ entries j log :=
      entries_le_of_suffix ((List.suffix_cons _ _).trans hlog)
    have := le_total_of_getElem? (f := fun c : EPast => entries j c.2) ht
    omega
  · have := add_le_total (f := fun c : EPast => entries j c.2) hne ht₁ ht
    omega

lemma FramerRecorded.cons {err : Err} (h : FramerRecorded j err c) (a : Sigma EInstr.Resp) :
    FramerRecorded j err (c.1, a :: c.2) :=
  ⟨⟨h.1.1, List.mem_cons_of_mem _ h.1.2.1, h.1.2.2⟩, List.mem_cons_of_mem _ h.2⟩

lemma EInstr.errAfter_cases (i : EInstr) (j : ℕ) :
    (∀ old, i.errAfter j old = old) ∨ ∃ err, i = .setErr j err := by
  cases i with
  | setErr j' err =>
    by_cases hj : j' = j
    · exact .inr ⟨err, by rw [hj]⟩
    · exact .inl fun _ => if_neg hj
  | _ => exact .inl fun _ => rfl

/-- A goroutine other than `Serve` writes the error of a listener that is there. -/
lemma ListenerErrs.exists_of_pos (hG : ListenerErrs clean e cs) {c : EPast} (hc : c ∈ cs)
    (hpos : 0 < entries j c.2) : ∃ L, e.listeners[j]? = some L := by
  obtain ⟨L, hL, -⟩ := hG.entered j (Nat.lt_of_lt_of_le hpos
    (le_total (f := fun c : EPast => entries j c.2) hc))
  exact ⟨L, hL⟩

lemma ListenerErrs.exists_of_wrote (hG : ListenerErrs clean e cs) {c : EPast} (hc : c ∈ cs)
    {err : Option Err} (hmem : ⟨.setErr j err, ()⟩ ∈ c.2) (hserve : c.1 ≠ .serve j) :
    ∃ L, e.listeners[j]? = some L := by
  obtain ⟨older, newer, hsplit⟩ := List.append_of_mem hmem
  have hsuffix : ⟨.setErr j err, ()⟩ :: newer <:+ c.2 := ⟨older, hsplit.symm⟩
  have hpos := (hG.wrote c hc j err newer hsuffix).resolve_left hserve
  exact hG.exists_of_pos hc (Nat.lt_of_lt_of_le hpos
    (entries_le_of_suffix ((List.suffix_cons _ _).trans hsuffix)))

/-- Who writes the error of a stream listener has just entered its `closeOnce`. -/
lemma ListenerErrs.of_setErr (hG : ListenerErrs clean e cs) (ht : cs[t]? = some c)
    {err : Option Err} (hreq : listenerReq clean (.setErr j err) c) {L : ListenerEntry}
    (hL : e.listeners[j]? = some L) (hstream : L.isWS = false) :
    (∃ log, c.2 = ⟨.closeOnceEnter j, true⟩ :: log) ∧
      ∃ e, err = some e ∧ (e.Typed clean ∨ FramerFailed j e c) :=
  hreq.resolve_left fun hserve =>
    (hG.serves c (List.mem_of_getElem? ht) j hserve).not_stream hL hstream

lemma ListenerErrs.exec_recorded (hG : ListenerErrs clean e cs) (ht : cs[t]? = some c)
    (hreq : listenerReq clean i c) (hx : e.exec x i = some (e', r)) :
    ∀ c₁ ∈ cs.set t (c.1, ⟨i, r⟩ :: c.2), ∀ j err, ⟨.setErr j err, ()⟩ ∈ c₁.2 →
      c₁.1 ≠ .serve j → ∀ L, e'.listeners[j]? = some L → L.isWS = false → L.err = err := by
  have hc : c ∈ cs := List.mem_of_getElem? ht
  have hold : ∀ c₁ ∈ cs, ∀ j err, ⟨.setErr j err, ()⟩ ∈ c₁.2 → c₁.1 ≠ .serve j →
      ∀ L, e'.listeners[j]? = some L → L.isWS = false → L.err = err := by
    intro c₁ hc₁ j err hmem hserve L' hL' hstream
    obtain ⟨L, hL⟩ := hG.exists_of_wrote hc₁ hmem hserve
    obtain ⟨L₁, hL₁, hgo⟩ := Engine.exec_goes hx hL
    cases hL₁.symm.trans hL'
    rw [hgo.isWS] at hstream
    rcases i.errAfter_cases j with hsame | ⟨err', rfl⟩
    · rw [hgo.err, hsame]
      exact hG.recorded c₁ hc₁ j err hmem hserve L hL hstream
    · obtain ⟨⟨log, hlog⟩, -⟩ := hG.of_setErr ht hreq hL hstream
      exact absurd (hG.not_twice ht hlog hc₁ hmem) hserve
  refine forall_mem_set hold fun j err hmem hserve L' hL' hstream => ?_
  rcases List.mem_cons.mp hmem with heq | hmem
  · cases heq
    cases hL : e.listeners[j]? with
    | none =>
      obtain ⟨⟨log, hlog⟩, -⟩ := hreq.resolve_left hserve
      obtain ⟨L, hL⟩ := hG.exists_of_pos (j := j) hc (by
        rw [hlog, entries_cons]
        simp [EInstr.enters])
      simp_all
    | some L =>
      obtain ⟨L₁, hL₁, hgo⟩ := Engine.exec_goes hx hL
      cases hL₁.symm.trans hL'
      rw [hgo.err]
      exact if_pos rfl
  · exact hold c hc j err hmem hserve L' hL' hstream

lemma ListenerErrs.exec_typed (hG : ListenerErrs clean e cs) (ht : cs[t]? = some c)
    (hreq : listenerReq clean i c) (hx : e.exec x i = some (e', r)) (j : ℕ) (L' : ListenerEntry)
    (err : Err) (hL' : e'.listeners[j]? = some L') (hstream : L'.isWS = false)
    (herr : L'.err = some err) :
    err.Typed clean ∨ ∃ c₁ ∈ cs.set t (c.1, ⟨i, r⟩ :: c.2), FramerRecorded j err c₁ := by
  cases hL : e.listeners[j]? with
  | none =>
    obtain ⟨scheme, rfl⟩ := Engine.exec_newListener hx hL hL'
    cases herr
  | some L =>
    obtain ⟨L₁, hL₁, hgo⟩ := Engine.exec_goes hx hL
    cases hL₁.symm.trans hL'
    rw [hgo.isWS] at hstream
    rcases i.errAfter_cases j with hsame | ⟨err', rfl⟩
    · rw [hgo.err, hsame] at herr
      refine (hG.typed j L err hL hstream herr).imp_right fun h => ?_
      exact exists_mem_set ht h fun hrec => hrec.cons _
    · obtain ⟨-, e₁, rfl, htyped⟩ := hG.of_setErr ht hreq hL hstream
      have heq : e₁ = err := by
        rw [hgo.err] at herr
        exact Option.some.inj ((if_pos rfl).symm.trans herr)
      subst heq
      refine htyped.imp_right fun hfail => ?_
      refine ⟨_, List.mem_set (List.getElem?_eq_some_iff.mp ht).1 _, ⟨hfail.1, ?_, hfail.2.2⟩, ?_⟩
      · exact List.mem_cons_of_mem _ hfail.2.1
      · exact List.mem_cons_self

lemma ListenerErrs.exec (hG : ListenerErrs clean e cs) (ht : cs[t]? = some c)
    (hreq : listenerReq clean i c) (hx : e.exec x i = some (e', r)) :
    ListenerErrs clean e' (cs.set t (c.1, ⟨i, r⟩ :: c.2)) := by
  have hc : c ∈ cs := List.mem_of_getElem? ht
  have hmade : ∀ scheme (j : ℕ), (∃ L, e.listeners[j]? = some L ∧ L.scheme = scheme) →
      ∃ L, e'.listeners[j]? = some L ∧ L.scheme = scheme := fun scheme j ⟨L, hL, hs⟩ => by
    obtain ⟨L', hL', hgo⟩ := Engine.exec_goes hx hL
    exact ⟨L', hL', hgo.scheme.trans hs⟩
  refine ⟨?_, ?_, ?_, fun j => (hG.enter ht hx).2, fun j => (hG.enter ht hx).1, ?_, ?_, ?_⟩
  · refine forall_mem_set (fun c₁ hc₁ scheme j h => hmade scheme j (hG.made c₁ hc₁ scheme j h)) ?_
    intro scheme j hmem
    rcases List.mem_cons.mp hmem with heq | hmem
    · cases heq
      cases hx
      exact ⟨{ scheme }, by simp, rfl⟩
    · exact hmade scheme j (hG.made c hc scheme j hmem)
  · intro j hj
    rcases Engine.exec_pending hx hj with hj | rfl
    · exact (hG.pending j hj).exec hx
    · obtain ⟨scheme, hws, hmem⟩ := hreq
      obtain ⟨L, hL, rfl⟩ := hG.made c hc scheme j hmem
      exact Engine.WS.exec ⟨L, hL, L.isWS_iff.mpr hws⟩ hx
  · exact forall_mem_set (fun c₁ hc₁ j hj => (hG.serves c₁ hc₁ j hj).exec hx)
      fun j hj => (hG.serves c hc j hj).exec hx
  · refine forall_mem_set hG.wrote fun j err log hsuffix => ?_
    rcases List.suffix_cons_iff.mp hsuffix with heq | hsuffix
    · cases heq
      refine hreq.imp_right fun ⟨⟨log, hlog⟩, _⟩ => ?_
      rw [hlog, entries_cons]
      simp [EInstr.enters]
    · exact hG.wrote c hc j err log hsuffix
  · exact hG.exec_recorded ht hreq hx
  · exact hG.exec_typed ht hreq hx

lemma ListenerErrs.spawn (hG : ListenerErrs clean e cs) {l : ELabel} (hs : e.spawn l = some e') :
    ListenerErrs clean e' (cs ++ [(l, [])]) := by
  obtain ⟨pending, rfl⟩ := Engine.spawn_eq hs
  have hpending : ∀ l', l' ∈ pending → l' ∈ e.pending := Engine.spawn_pending hs
  have htotal : ∀ j, total (fun c : EPast => entries j c.2) (cs ++ [(l, [])]) =
      total (fun c => entries j c.2) cs := fun j => by simp [entries]
  refine ⟨forall_mem_concat hG.made nofun, fun j hj => hG.pending j (hpending _ hj),
    forall_mem_concat hG.serves fun j hj => ?_, fun j hpos => hG.entered j (htotal j ▸ hpos),
    fun j => htotal j ▸ hG.one j, forall_mem_concat hG.wrote fun j err log h => ?_,
    forall_mem_concat hG.recorded nofun, fun j L err hL hstream herr => ?_⟩
  · cases hj
    exact hG.pending j (Engine.spawn_serve hs)
  · cases List.suffix_nil.mp h
  · exact (hG.typed j L err hL hstream herr).imp_right
      fun ⟨c, hc, h⟩ => ⟨c, List.mem_append_left _ hc, h⟩

end Keep

/-! ### Runs -/

section Runs

variable {clean : Prop} {cfg : EngineConfig}

/-- The error that the outside gives in a step carries no `*transport.Error`. -/
def CleanChoice : EEvent → Prop
  | .run _ x => Bare x.err
  | _ => True

lemma Engine.exec_bare {e e' : Engine} {x : EChoice} {i : EInstr} {r : i.Resp}
    (hx : e.exec x i = some (e', r)) (hbare : Bare x.err) : i.Bare r := by
  cases i with
  | external op =>
    cases hx
    cases herr : x.err with
    | none => trivial
    | some err => exact hbare err herr
  | _ => trivial

lemma listener_sound : Outline.Sound (engineMachine cfg) (listenerOutline clean)
    (ListenerErrs clean) fun _ ev => clean → CleanChoice ev where
  body l₀ l _ hc := listener_body cfg l₀ l hc
  exec _ _ _ _ _ _ _ _ hok ht _ hG hreq hx :=
    ⟨fun h => Engine.exec_bare hx (hok h), hG.exec (Outline.ctxs_getElem? ht) hreq hx⟩
  spawn _ _ _ _ hG hs := ⟨fun _ => rfl, hG.spawn hs⟩
  env _ e := e.elim

lemma listenerErrs_init : ListenerErrs clean (Engine.init cfg) [] := by
  have hcs {P : EPast → Prop} : ∀ c ∈ ([] : List EPast), P c := by simp
  refine ⟨hcs, fun j hj => ?_, hcs, fun j hpos => ?_, fun j => Nat.zero_le 1, hcs, hcs,
    fun j L err hL => ?_⟩
  · cases hj
  · cases hpos
  · simp [Engine.init] at hL

/-- A goroutine of listener `j` has recorded an error of `newFramer` that is in no envelope. -/
def EProcess.FramerEnded (p : EProcess) (j : ℕ) (err : Err) : Prop :=
  ∃ th ∈ p.threads, FramerRecorded j err (th.entry, th.log)

lemma listenerErrs_run {es : List EEvent} {p : EProcess}
    (hrun : (engineMachine cfg).run (EProcess.init cfg) es = some p)
    (hclean : clean → ∀ ev ∈ es, CleanChoice ev) :
    ListenerErrs clean p.shared (p.threads.map fun th => (th.entry, th.log)) := by
  have hinit : (listenerOutline clean).Holds (ListenerErrs clean) (EProcess.init cfg) :=
    ⟨listenerErrs_init, by simp [EProcess.init]⟩
  have h := (listener_sound.run hinit hrun fun es₁ ev es₂ _ hes _ hc =>
    hclean hc ev (hes ▸ by simp)).shared
  rwa [listenerOutline, Outline.past_ctxs] at h

/-- What the error of a stream listener is, after a run with these steps. -/
structure EProcess.ListenerTyped (es : List EEvent) (p : EProcess) (j : ℕ) (L : ListenerEntry) :
    Prop where
  /-- The error is in the typed envelope exactly when it is not one of `newFramer`. -/
  typed : (∀ err, L.err = some err → err.hasOperational = true) ↔ ¬ ∃ err, p.FramerEnded j err
  /-- So are runtime timeouts, when the outside gives no `*transport.Error` of its own. -/
  timeouts : (∀ ev ∈ es, CleanChoice ev) → (¬ ∃ err, p.FramerEnded j err) →
    ∀ err, L.err = some err → err.TimeoutShaped

lemma listenerTyped_of_run {es : List EEvent} {p : EProcess}
    (hrun : (engineMachine cfg).run (EProcess.init cfg) es = some p) {j : ℕ} {L : ListenerEntry}
    (hL : p.shared.listeners[j]? = some L) (hstream : L.isWS = false) :
    p.ListenerTyped es j L := by
  have hG : ListenerErrs (∀ ev ∈ es, CleanChoice ev) p.shared
      (p.threads.map fun th => (th.entry, th.log)) := listenerErrs_run hrun id
  have htyped : ∀ err, L.err = some err → (¬ ∃ err, p.FramerEnded j err) →
      err.Typed (∀ ev ∈ es, CleanChoice ev) := fun err herr hno => by
    refine (hG.typed j L err hL hstream herr).resolve_right fun ⟨c, hc, hrec⟩ => hno ?_
    obtain ⟨th, hth, rfl⟩ := List.mem_map.mp hc
    exact ⟨err, th, hth, hrec⟩
  refine ⟨⟨fun h ⟨err, th, hth, hrec⟩ => ?_, fun hno err herr => (htyped err herr hno).1⟩,
    fun hclean hno err herr => ((htyped err herr hno).2 hclean).timeoutShaped⟩
  obtain ⟨⟨⟨scheme, raw, hentry⟩, -, hbare⟩, hmem⟩ := hrec
  have herr := hG.recorded _ (List.mem_map_of_mem hth) j _ hmem (by rw [hentry]; nofun) L hL hstream
  rw [h err herr] at hbare
  cases hbare

end Runs

end Ogrenet
