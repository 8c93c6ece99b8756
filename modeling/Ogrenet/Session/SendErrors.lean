import Ogrenet.Interleaving.Schedule
import Ogrenet.Session.Ending.Typed

/-!
# The typed envelope of send errors

A send returns nil, the cause of its own context or an error with the envelope, unless it is handed
a bare one or names no peer: the writer of a stream or a WebSocket acknowledges a failed write with
`ErrClosed` itself when it finds `Err()` nil, the terminal error of a stream may be the bare
`*TimeoutError` of its watchdog, and `Send` and `TrySend` on a packet socket that is not connected
return `ErrNotConnected`.
-/

namespace Ogrenet

open Interleaving Interleaving.Prog

/-! ### What the steps do to acks and contexts -/

section Steps

variable {cfg : SessionConfig} {s s' : Session} {x : Choice}

lemma Session.fire_acks {c : Case} {r : Fired} (h : s.fire cfg x c = some (s', r)) {v : Option Err}
    (hv : some v ∈ s'.acks) : some v ∈ s.acks := by
  cases c with
  | ctxDone k =>
    obtain ⟨e, -, h⟩ := Option.map_eq_some_iff.mp h
    cases h
    exact hv
  | timer =>
    cases h
    exact hv
  | pop =>
    simp only [fire] at h
    split at h <;> cases h
    exact hv
  | ack i =>
    simp only [fire] at h
    split at h <;> cases h
    exact (List.mem_or_eq_of_mem_set hv).resolve_right (by simp)
  | closed ch | drained | slot =>
    obtain ⟨-, h⟩ := Option.ite_none_right_eq_some.mp h
    cases h
    exact hv
  | push req =>
    obtain ⟨-, h⟩ := Option.ite_none_right_eq_some.mp h
    cases h
    simpa using hv
  | encoder | changedLocal g | changedGlobal g =>
    obtain ⟨-, h⟩ := Option.ite_none_left_eq_some.mp h
    cases h
    exact hv

/-- An ack was there before, or the step has sent it. -/
lemma Session.exec_acks {i : SInstr} {r : i.Resp} (h : s.exec cfg x i = some (s', r))
    {v : Option Err} (hv : some v ∈ s'.acks) : some v ∈ s.acks ∨ ∃ k, i = .ack k v := by
  cases i with
  | select cases dflt =>
    obtain ⟨c, -, h⟩ | ⟨-, -, rfl, -⟩ := select_cases h
    · exact .inl (fire_acks h hv)
    · exact .inl hv
  | ack k v' =>
    simp only [exec] at h
    split at h <;> cases h
    rcases List.mem_or_eq_of_mem_set hv with hv | hv
    · exact .inl hv
    · cases hv
      exact .inr ⟨k, rfl⟩
  | releaseSlot =>
    obtain ⟨-, h⟩ := Option.ite_none_left_eq_some.mp h
    cases h
    exact .inl hv
  | releaseEncoder | waitLoops =>
    obtain ⟨-, h⟩ := Option.ite_none_right_eq_some.mp h
    cases h
    exact .inl hv
  | encode msg | globalRelease n | onceEnter o | decodeOne src | wsRead | wsDecode text payload
  | request goal | abortSection reason publish | tryTerminal | wsWrite req | packetWrite req
  | deferRead e =>
    simp only [exec] at h
    split at h <;> cases h <;> exact .inl hv
  | _ =>
    cases h
    exact .inl hv

end Steps

/-! ### The outline -/

/-- The outline of what is handed to the senders. -/
def tellOutline (τ : Terms) (cfg : SessionConfig) : Outline SInstr SInstr.Resp SLabel SVal SPast :=
  .past (fun i _ => ∀ k v, i = .ack k v → Told τ.hands v) (fun i r _ => i.Answers τ r)
    (fun l c => c.1.Follows τ cfg l) fun v c => c.1.role = .sender → Leads τ cfg c.1 (.ret v)

/-- The buffered acks are as they should be. -/
def AcksTold (τ : Terms) (s : Session) (_ : List SPast) : Prop :=
  ∀ v, some v ∈ s.acks → Told τ.hands v

section Outline

variable {τ : Terms} {kind : SessionKind} {cfg : SessionConfig} {l₀ l : SLabel}

lemma SInstr.Fits.told {role : Role} {i : SInstr} (h : i.Fits τ kind role) (k : ℕ) (v : Option Err)
    (hi : i = .ack k v) : Told τ.hands v := by
  subst hi
  exact h.2

lemma SLabel.Follows.role_eq (h : l₀.Follows τ cfg l) : l.role = l₀.role := by
  cases l with
  | send | trySend | sendTo | trySendTo => exact congrArg SLabel.role (Eq.symm h)
  | acquireLocal a | acquireGlobal a => exact h.1.symm
  | _ => exact Role.Stays.role_eq (τ := τ) h

lemma SLabel.Follows.of_stays (hl : l.role ≠ .sender) (h : l₀.role.Stays τ (.goto l)) :
    l₀.Follows τ cfg l := by
  cases l with
  | send | trySend | sendTo | trySendTo | acquireLocal | acquireGlobal => exact absurd rfl hl
  | _ => exact h

lemma SLabel.Follows.stays (hl : l.role ≠ .sender) (h : l₀.Follows τ cfg l) :
    l₀.role.Stays τ (.goto l) := by
  cases l with
  | send | trySend | sendTo | trySendTo | acquireLocal | acquireGlobal => exact absurd rfl hl
  | _ => exact h

lemma tell_body (l₁ l : SLabel) {c : SPast} (hc : c.1.Follows τ cfg l) :
    (tellOutline τ cfg).wp (kind.body cfg l) ((tellOutline τ cfg).ends l₁) c := by
  have hrole := hc.role_eq
  -- what ends a session acknowledges nothing
  have hcall : ∀ role β (q : SProg β), EndCall τ.clean cfg role kind β q → ∀ c', c'.1 = c.1 →
      (tellOutline τ cfg).wp q (fun _ c' => c'.1 = c.1) c' := fun role β q hq c' hc' => by
    refine Outline.wp_of_within (hq.ending.imp (fun i hi c hc => ⟨?_, fun _ _ => hc⟩) fun _ => id)
      (fun _ _ _ hc => hc) hc'
    rintro k v rfl
    exact hi.elim
  by_cases hs : l.role = .sender
  · refine Outline.wp_of_made (J := fun c' => c'.1 = c.1) (made_sender hc hs)
      (fun i hi c' hc' => ⟨hi.told, fun r hr => ⟨hr, hc'⟩⟩) (fun _ _ h => h.elim) (hcall _)
      (fun n c' hn hc' => ?_) rfl
    rw [← hc'] at hn
    cases n with
    | goto l' =>
      have hsender : c'.1.role = .sender := by rw [hc', ← hrole, hs]
      cases l' with
      | acquireLocal a | acquireGlobal a => exact ⟨hsender, hn⟩
      | _ => exact hn.elim
    | ret v => exact fun _ => hn
  · have hother : ∀ c' : SPast, c'.1 = c.1 → c'.1.role ≠ .sender := fun c' hc' => by
      rwa [hc', ← hrole]
    refine Outline.wp_of_made (J := fun c' => c'.1 = c.1)
      (made_other (hrole ▸ hc.stays hs) hs)
      (fun i hi c' hc' => ⟨hi.told, fun r hr => ⟨hr, hc'⟩⟩) ?_ (hcall _) (fun n c' hn hc' => ?_) rfl
    · rintro i n ⟨rfl, -, rfl⟩ c' hc'
      exact ⟨nofun, fun _ _ hsender => absurd hsender (hother c' hc')⟩
    · rw [hrole, ← hc'] at hn
      cases n with
      | goto l' => exact .of_stays (hn.role_eq ▸ hother c' hc') hn
      | ret v => exact fun hsender => absurd hsender (hother c' hc')

/-- What a step hands over. -/
lemma Session.exec_answers {s s' : Session} {x : Choice} {i : SInstr} {r : i.Resp}
    (h : s.exec cfg x i = some (s', r)) (hclean : ¬ τ.clean)
    (hacks : ∀ v, some v ∈ s.acks → Told τ.hands v) (herr : Told τ.hands s.err)
    (hfound : i = .ackErr true → s.err = none → τ.hands (.sentinel .closed))
    (hcause : ∀ k e, s.cause k = some e → τ.causes k e) : i.Answers τ r := by
  cases i with
  | select cases dflt =>
    cases r with
    | ctxDone e =>
      obtain ⟨k, hk, he⟩ := cause_of_select h
      intro k' hone
      exact hone k hk ▸ hcause k e he
    | acked v =>
      obtain ⟨c, -, h⟩ | ⟨-, h, -⟩ := select_cases h
      · cases c with
        | ack i =>
          simp only [fire] at h
          split at h
          · rename_i hi
            cases h
            exact hacks v (List.mem_of_getElem? hi)
          · cases h
        | _ => exact (fire_from h (fun r => ∀ v, r ≠ .acked v) (by simp [Case.All]) v rfl).elim
      · cases h
    | _ => exact fun hc => absurd hc hclean
  | ctxCause k =>
    cases h
    exact fun e he => hcause k e he
  | err =>
    cases h
    exact herr
  | ackErr owed =>
    cases h
    refine ⟨herr, fun howed hnone => hfound ?_ hnone⟩
    rw [howed]
  | _ => exact fun hc => absurd hc hclean

end Outline

/-! ### All runs -/

/-- The step is that of a writer whose write has failed, and which has lost the abort or has no
error for it: it is about to read `Err()` for an ack that its sender waits for. -/
def SProcess.asksForAck (p : SProcess) : Event SLabel Choice SEnv → Bool
  | .run t _ =>
    match p.threads[t]? with
    | some ⟨_, .op (.ackErr true) _, _⟩ => true
    | _ => false
  | _ => false

/-- In this step a writer reads `Err()` for an ack, and `Err()` is nil. -/
def SProcess.FindsNoError (p : SProcess) (ev : Event SLabel Choice SEnv) : Prop :=
  p.asksForAck ev = true ∧ p.shared.err = none

/-- A step of the run is one in which a writer finds no error. -/
def FoundNoError (kind : SessionKind) (cfg : SessionConfig)
    (es : List (Event SLabel Choice SEnv)) : Prop :=
  ∃ n q ev, (sessionMachine kind cfg).StepAt (SProcess.init kind cfg) es n q ev ∧
    SProcess.FindsNoError q ev

/-- What is handed over in a run that ends in `p`. -/
def SProcess.terms (kind : SessionKind) (cfg : SessionConfig)
    (es : List (Event SLabel Choice SEnv)) (p : SProcess) : Terms where
  clean := False
  hands e := e.hasOperational = true ∨ (e = .sentinel .closed ∧ FoundNoError kind cfg es) ∨
    (∃ timeout, e = .timeoutError timeout) ∧ p.WatchdogEnded kind
  causes k e := p.shared.cause k = some e
  typed _ he := .inl he

section Runs

variable {kind : SessionKind} {cfg : SessionConfig} {p r : SProcess}
  {es : List (Event SLabel Choice SEnv)} {ev : Event SLabel Choice SEnv} {n : ℕ}

/-- The terminal error is one that may be handed over. -/
lemma told_err (hrun : (sessionMachine kind cfg).run (SProcess.init kind cfg) es = some p)
    (h : (sessionMachine kind cfg).StepAt (SProcess.init kind cfg) es n r ev) :
    Told (p.terms kind cfg es).hands r.shared.err := by
  intro e he
  have hT : TypedErr False kind r.shared (r.threads.map fun th => (th.entry, th.log)) :=
    typed_run h.2 nofun
  rcases hT.typed e he with ht | ⟨c, hc, hw⟩
  · exact .inl ht.1
  · obtain ⟨-, timeout, htimeout⟩ := hT.watchdog c hc hw
    obtain ⟨th, hth, rfl⟩ := List.mem_map.mp hc
    refine .inr (.inr ⟨⟨timeout, ?_⟩, ?_⟩)
    · exact Option.some.inj (he.symm.trans htimeout)
    · exact Machine.exists_past (P := WatchdogWon kind) (fun l a log hw => hw.cons a)
        (h.reaches hrun) ⟨th, hth, hw⟩

lemma tell_sound (hrun : (sessionMachine kind cfg).run (SProcess.init kind cfg) es = some p) :
    Outline.Sound (sessionMachine kind cfg) (tellOutline (p.terms kind cfg es) cfg)
      (AcksTold (p.terms kind cfg es)) fun r ev =>
        ∃ n, (sessionMachine kind cfg).StepAt (SProcess.init kind cfg) es n r ev where
  body l₁ l c hc := tell_body l₁ l hc
  exec r t x th i k s' a hok ht hprog hG hreq hx := by
    obtain ⟨n, hn⟩ := hok
    refine ⟨Session.exec_answers hx id hG (told_err hrun hn) (fun hi hnone => ?_)
      fun k e he => cause_reaches (hn.reaches hrun) he, fun v hv => ?_⟩
    · subst hi
      obtain ⟨l, prog, log⟩ := th
      cases hprog
      exact .inr (.inl ⟨rfl, n, r, _, hn, by simp [SProcess.asksForAck, ht], hnone⟩)
    · rcases Session.exec_acks hx hv with hv | ⟨j, hj⟩
      · exact hG v hv
      · exact hreq j v hj
  spawn r l s' _ hG hs := by
    have hacks : s'.acks = r.shared.acks := by
      obtain ⟨_, rfl⟩ := SessionKind.spawn_eq hs
      rfl
    refine ⟨?_, fun v hv => hG v (hacks ▸ hv)⟩
    show l.Follows _ cfg l
    cases l with
    | acquireLocal | acquireGlobal | decoding | failPending => cases kind <;> cases hs
    | _ => rfl
  env r e s' _ hG hs := by
    obtain ⟨_, _, _, rfl⟩ := Session.env_eq hs
    exact hG

lemma tell_run (hrun : (sessionMachine kind cfg).run (SProcess.init kind cfg) es = some p) :
    (tellOutline (p.terms kind cfg es) cfg).Holds (AcksTold (p.terms kind cfg es)) p := by
  refine (tell_sound hrun).run ⟨fun _ hv => absurd hv List.not_mem_nil, fun th hth => ?_⟩ hrun
    fun es₁ ev es₂ r hes hr => ?_
  · obtain ⟨l, hl, rfl⟩ := List.mem_map.mp hth
    refine tell_body l l ?_
    show l.Follows _ cfg l
    rcases mem_init hl with rfl | rfl | rfl | rfl | rfl <;> rfl
  · subst hes
    exact ⟨es₁.length, Machine.stepAt_append hr⟩

end Runs

/-! ### The results of the sends -/

/-- The error is the cause of the context that the call was given. -/
def SProcess.OwnCause (p : SProcess) (l : SLabel) (e : Err) : Prop :=
  ∃ k, l.ctx = some k ∧ p.shared.cause k = some e

/-- Every send has returned nil, the cause of its own context, or an error with the envelope. -/
def SProcess.SendsTyped (cfg : SessionConfig) (p : SProcess) : Prop :=
  ∀ th ∈ p.threads, th.entry.Sends cfg → ∀ e, th.prog = .done (.ret (.result (some e))) →
    p.OwnCause th.entry e ∨ e.hasOperational = true

/-- In every run in which no writer finds no error for an ack that it owes, no watchdog of a stream
has ended the session and no call on a packet socket lacks a peer, every send returns what it
should. In the others, these are all that can be wrong. -/
theorem send_errors_typed (kind : SessionKind) (cfg : SessionConfig)
    (es : List (Event SLabel Choice SEnv)) (p : SProcess)
    (hrun : (sessionMachine kind cfg).run (SProcess.init kind cfg) es = some p) :
    ((∀ n (q : SProcess) ev,
        (sessionMachine kind cfg).StepAt (SProcess.init kind cfg) es n q ev →
          ¬ q.FindsNoError ev) →
      ¬ p.WatchdogEnded kind → (∀ th ∈ p.threads, ¬ th.entry.Unaddressed cfg) →
        p.SendsTyped cfg) ∧
    ∀ th ∈ p.threads, th.entry.Sends cfg → ∀ e, th.prog = .done (.ret (.result (some e))) →
      p.OwnCause th.entry e ∨ e.hasOperational = true ∨
        (e = .sentinel .closed ∧ FoundNoError kind cfg es) ∨
          ((∃ timeout, e = .timeoutError timeout) ∧ p.WatchdogEnded kind) ∨
            th.entry.Unaddressed cfg := by
  have hserved : ∀ th ∈ p.threads, th.entry.Served cfg → ∀ e,
      th.prog = .done (.ret (.result (some e))) →
        p.OwnCause th.entry e ∨ (p.terms kind cfg es).hands e := fun th hth hs e he => by
    have hpost := (tell_run hrun).threads th hth
    rw [he, tellOutline, Outline.past_ctx] at hpost
    have hrole : th.entry.role = .sender := by
      have hs' := hs.1
      cases hl : th.entry <;> rw [hl] at hs' <;> first | rfl | exact hs'.elim
    exact (hpost hrole hs e rfl).symm
  constructor
  · intro hfound hwatch haddr th hth hs e he
    refine (hserved th hth ⟨hs, haddr th hth⟩ e he).imp_right fun h => ?_
    rcases h with h | ⟨-, n, q, ev, hstep, hq⟩ | h
    · exact h
    · exact absurd hq (hfound n q ev hstep)
    · exact absurd h.2 hwatch
  · intro th hth hs e he
    by_cases haddr : th.entry.Unaddressed cfg
    · exact .inr (.inr (.inr (.inr haddr)))
    · rcases hserved th hth ⟨hs, haddr⟩ e he with h | h | h | h
      · exact .inl h
      · exact .inr (.inl h)
      · exact .inr (.inr (.inl h))
      · exact .inr (.inr (.inr (.inl h)))

/-- The steps of a stream in which `Close` aborts it while a write is under way, and the write then
fails. -/
def SProcess.closeDuringWrite : List (Event SLabel Choice SEnv) := List.flatten [
    [.spawn (.send (some 0) ⟨.binary, [1]⟩), .run 3 {}, .run 3 {}, .run 3 { pick := some 2 },
      .run 3 { pick := some 2 }, .run 3 {}, .run 3 { data := [1] }, .run 3 {}, .run 3 {}, .run 3 {},
      .run 3 { pick := some 2 }, .run 0 {}, .run 0 { pick := some 2 }, .run 0 {}, .run 0 {}],
    .spawn .close :: List.replicate 11 (.run 4 {}),
    .run 0 { err := some (.plain "use of closed network connection") } ::
      List.replicate 8 (.run 0 {}),
    [.run 3 { pick := some 0 }, .run 3 {}]]

/-- The same on a WebSocket. -/
def SProcess.closeDuringWSWrite : List (Event SLabel Choice SEnv) := List.flatten [
    [.spawn (.send (some 0) ⟨.binary, [1]⟩), .run 3 {}, .run 3 {}, .run 3 { pick := some 2 },
      .run 3 { pick := some 2 }, .run 3 { data := [1] }, .run 3 {}, .run 3 {}, .run 3 {},
      .run 3 { pick := some 2 }, .run 0 {}, .run 0 { pick := some 2 }, .run 0 {}],
    .spawn .close :: List.replicate 11 (.run 4 {}),
    .run 0 { err := some (.plain "use of closed network connection") } ::
      List.replicate 10 (.run 0 {}),
    [.run 3 { pick := some 0 }, .run 3 {}]]

/-- The watchdog of a stream ends it while a send waits for its ack. -/
def SProcess.idleDuringSend : List (Event SLabel Choice SEnv) := List.flatten [
    [.spawn (.send (some 0) ⟨.binary, [1]⟩), .run 4 {}, .run 4 {}, .run 4 { pick := some 2 },
      .run 4 { pick := some 2 }, .run 4 {}, .run 4 { data := [1] }, .run 4 {}, .run 4 {}, .run 4 {},
      .run 4 { pick := some 2 }, .run 2 { pick := some 1 }],
    List.replicate 9 (.run 2 {}),
    [.run 4 { pick := some 2 }, .run 4 {}, .run 4 {}, .run 4 {}, .run 4 {}]]

/-- What a send whose context is not done has returned. -/
def SProcess.sendReturned (p : SProcess) (t : ℕ) : Option Err :=
  match p.threads[t]? with
  | some ⟨.send (some k) msg, .done (.ret (.result (some e))), _⟩ =>
    if msg.validate.isOk && (p.shared.cause k).isNone then some e else none
  | some ⟨.sendTo (some k) .unnamed _, .done (.ret (.result (some e))), _⟩ =>
    if (p.shared.cause k).isNone then some e else none
  | _ => none

lemma SProcess.not_sendsTyped {cfg : SessionConfig} {p : SProcess} {t : ℕ} {e : Err}
    (h : p.sendReturned t = some e) (he : e.hasOperational = false) : ¬ p.SendsTyped cfg := by
  intro htyped
  have hcause : ∀ l (k : ℕ), l.ctx = some k → (p.shared.cause k).isNone = true →
      ¬ (p.OwnCause l e ∨ e.hasOperational = true) := by
    rintro l k hl hk (⟨k', hk', hc⟩ | ht)
    · cases hl.symm.trans hk'
      rw [Option.isNone_iff_eq_none.mp hk] at hc
      cases hc
    · rw [he] at ht
      cases ht
  simp only [sendReturned] at h
  split at h
  · rename_i k msg e' log ht
    obtain ⟨hok, h⟩ := Option.ite_none_right_eq_some.mp h
    cases h
    rw [Bool.and_eq_true] at hok
    have hvalid : msg.validate = .ok () := by
      cases hv : msg.validate with
      | ok _ => rfl
      | error _ => simp [hv, Except.isOk, Except.toBool] at hok
    exact hcause _ k rfl hok.2 (htyped _ (List.mem_of_getElem? ht) ⟨rfl, hvalid⟩ e rfl)
  · rename_i k data e' log ht
    obtain ⟨hok, h⟩ := Option.ite_none_right_eq_some.mp h
    cases h
    exact hcause _ k rfl hok (htyped _ (List.mem_of_getElem? ht) ⟨rfl, trivial⟩ e rfl)
  · cases h

/-- Sends return `ErrClosed` itself, on a stream and on a WebSocket, the bare timeout of a watchdog,
and `ErrNotConnected` on a packet socket that is not connected. -/
theorem send_errors_bare :
    (∃ p : SProcess, (sessionMachine .conn .small).run (SProcess.init .conn .small)
        SProcess.closeDuringWrite = some p ∧ p.sendReturned 3 = some (.sentinel .closed) ∧
      ¬ p.SendsTyped .small) ∧
    (∃ p : SProcess, (sessionMachine .webSocket .small).run (SProcess.init .webSocket .small)
        SProcess.closeDuringWSWrite = some p ∧ p.sendReturned 3 = some (.sentinel .closed) ∧
      ¬ p.SendsTyped .small) ∧
    (∃ p : SProcess, (sessionMachine .conn { SessionConfig.small with activity := true }).run
        (SProcess.init .conn { SessionConfig.small with activity := true })
        SProcess.idleDuringSend = some p ∧
      p.sendReturned 4 = some (.timeoutError .connectionIdle) ∧
      ¬ p.SendsTyped { SessionConfig.small with activity := true }) ∧
    ∃ p : SProcess, (sessionMachine .packet { SessionConfig.small with connected := false }).run
        (SProcess.init .packet { SessionConfig.small with connected := false })
        [Event.spawn (SLabel.sendTo (some 0) .unnamed [1])] = some p ∧
      p.sendReturned 3 = some (.sentinel .notConnected) ∧
      ¬ p.SendsTyped { SessionConfig.small with connected := false } := by
  have hconn : ((sessionMachine .conn .small).run (SProcess.init .conn .small)
      SProcess.closeDuringWrite).map (SProcess.sendReturned · 3) =
        some (some (.sentinel .closed)) := by decide
  have hws : ((sessionMachine .webSocket .small).run (SProcess.init .webSocket .small)
      SProcess.closeDuringWSWrite).map (SProcess.sendReturned · 3) =
        some (some (.sentinel .closed)) := by decide
  have hidle : ((sessionMachine .conn { SessionConfig.small with activity := true }).run
      (SProcess.init .conn { SessionConfig.small with activity := true })
      SProcess.idleDuringSend).map (SProcess.sendReturned · 4) =
        some (some (.timeoutError .connectionIdle)) := by decide
  have hpacket : ((sessionMachine .packet { SessionConfig.small with connected := false }).run
      (SProcess.init .packet { SessionConfig.small with connected := false })
      [Event.spawn (SLabel.sendTo (some 0) .unnamed [1])]).map (SProcess.sendReturned · 3) =
        some (some (.sentinel .notConnected)) := by decide
  obtain ⟨p, hp, hpret⟩ := Option.map_eq_some_iff.mp hconn
  obtain ⟨q, hq, hqret⟩ := Option.map_eq_some_iff.mp hws
  obtain ⟨r, hr, hrret⟩ := Option.map_eq_some_iff.mp hidle
  obtain ⟨u, hu, huret⟩ := Option.map_eq_some_iff.mp hpacket
  exact ⟨⟨p, hp, hpret, SProcess.not_sendsTyped hpret rfl⟩,
    ⟨q, hq, hqret, SProcess.not_sendsTyped hqret rfl⟩,
    ⟨r, hr, hrret, SProcess.not_sendsTyped hrret rfl⟩, u, hu, huret,
    SProcess.not_sendsTyped huret rfl⟩

/-- A stream is closed, and then there is a send on it. -/
def SProcess.sendAfterClose : List (Event SLabel Choice SEnv) := List.flatten [
    .spawn .close :: List.replicate 11 (.run 3 {}),
    [.spawn (.send (some 0) ⟨.binary, [1]⟩), .run 4 {}, .run 4 {}]]

/-- The send returns `ErrClosed` in its envelope. -/
theorem send_errors_typed_closed : ∃ p : SProcess,
    (sessionMachine .conn .small).run (SProcess.init .conn .small) SProcess.sendAfterClose =
        some p ∧
      (p.sendReturned 4).map Err.hasOperational = some true ∧ p.SendsTyped .small := by
  have hrun : ((sessionMachine .conn .small).run (SProcess.init .conn .small)
      SProcess.sendAfterClose).map (fun p => ((SProcess.sendReturned p 4).map Err.hasOperational,
        p.threads.map fun th => th.entry)) =
      some (some true, [.writerLoop, .readerLoop, .finalizer, .close,
        .send (some 0) ⟨.binary, [1]⟩]) := by decide
  have hasks : ∀ n < 15, ((sessionMachine .conn .small).run (SProcess.init .conn .small)
      (SProcess.sendAfterClose.take n)).any (fun q =>
        (SProcess.sendAfterClose[n]?).any (SProcess.asksForAck q)) = false := by decide
  obtain ⟨p, hp, hobs⟩ := Option.map_eq_some_iff.mp hrun
  obtain ⟨hret, hentries⟩ := Prod.mk.inj hobs
  have hentry : ∀ th ∈ p.threads, th.entry ∈ [SLabel.writerLoop, .readerLoop, .finalizer, .close,
      .send (some 0) ⟨.binary, [1]⟩] := fun th hth => hentries ▸ List.mem_map_of_mem hth
  refine ⟨p, hp, hret, (send_errors_typed .conn .small _ p hp).1 ?_ ?_ ?_⟩
  · intro n q ev hn hfinds
    have h := hasks n hn.lt
    rw [hn.2, hn.1] at h
    exact absurd hfinds.1 (Bool.eq_false_iff.mp h)
  · rintro ⟨th, hth, -, hrole, -⟩
    have h := hentry th hth
    simp only [List.mem_cons, List.not_mem_nil, or_false] at h
    rcases h with h | h | h | h | h <;> rw [h] at hrole <;> cases hrole
  · intro th hth haddr
    have h := hentry th hth
    simp only [List.mem_cons, List.not_mem_nil, or_false] at h
    rcases h with h | h | h | h | h <;> rw [h] at haddr <;> exact haddr

end Ogrenet
