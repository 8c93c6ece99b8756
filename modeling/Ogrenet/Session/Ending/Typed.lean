import Ogrenet.Session.Ending.FirstCause
import Ogrenet.Session.Parts.Steps
import Ogrenet.Session.Writes

/-!
# The typed envelope of terminal errors

The error with which a session ends has gone through `classifyOperational`, with one exception: the
watchdog of a stream passes its `*TimeoutError` to `initiateClose` as it is.
-/

namespace Ogrenet

open Interleaving Interleaving.Prog

/-- The watchdog of a stream has ended the session. -/
def WatchdogWon (kind : SessionKind) (c : SPast) : Prop :=
  kind = .conn ∧ c.1.role = .watchdog ∧ wins kind c.1 c.2 ≠ []

/-- Where the error of a session comes from. -/
structure TypedErr (clean : Prop) (kind : SessionKind) (s : Session) (cs : List SPast) : Prop where
  pending : clean → Bare s.writeState.pendingRead
  typed : ∀ e, s.err = some e → e.Typed clean ∨ ∃ c ∈ cs, WatchdogWon kind c
  watchdog : ∀ c ∈ cs, WatchdogWon kind c →
    s.goal = .abort ∧ ∃ timeout, s.err = some (.timeoutError timeout)

/-- The error that the outside gives in a step carries no `*transport.Error`. -/
def CleanEvent : Event SLabel Choice SEnv → Prop
  | .run _ x => Bare x.err
  | _ => True

section Steps

variable {clean : Prop} {kind : SessionKind} {cfg : SessionConfig} {s s' : Session}
  {cs : List SPast} {t : ℕ} {c : SPast} {x : Choice}

lemma WatchdogWon.cons (h : WatchdogWon kind c) (a : Sigma SInstr.Resp) :
    WatchdogWon kind (c.1, a :: c.2) :=
  ⟨h.1, h.2.1, fun hnil => h.2.2 (List.append_eq_nil_iff.mp hnil).2⟩

/-- The watchdog wins by an abort only. -/
lemma WatchdogWon.of_cons {a : Sigma SInstr.Resp} (h : WatchdogWon kind (c.1, a :: c.2))
    (ha : c.1.role = .watchdog → winsAs .conn c a = none) : WatchdogWon kind c := by
  obtain ⟨rfl, hrole, hwins⟩ := h
  refine ⟨rfl, hrole, ?_⟩
  rw [wins, ha hrole] at hwins
  exact hwins

/-- What the answer of a step brings from outside. -/
lemma Session.exec_bare {i : SInstr} {r : i.Resp} (h : s.exec cfg x i = some (s', r))
    (hs : Bare s.writeState.pendingRead) (hx : Bare x.err) : i.Bare r := by
  cases i with
  | decodeOne src | wsRead | wsDecode text payload | wsWrite req | packetWrite req =>
    simp only [Session.exec] at h
    split at h <;> rename_i he <;> cases h
    · first | exact hx _ he | exact he ▸ hx
    · first
      | trivial
      | intro _ h
        cases h
  | setWriteDeadline | setReadDeadline | rawCloseWrite | wsClose | wsPing | rawWrite p | rawRead
  | packetRead =>
    cases h
    exact hx
  | writeTimeoutCause =>
    cases h
    show Bare (if _ then _ else _)
    split
    · exact hx
    · intro _ h
      cases h
  | writePendingRead | writeEnd =>
    cases h
    exact hs
  | _ => trivial

/-- A step that neither publishes an error nor lets the watchdog win. -/
lemma TypedErr.keep (hT : TypedErr clean kind s cs) (ht : cs[t]? = some c) {i : SInstr} {r : i.Resp}
    (herr : s'.err = s.err) (hgoal : s.goal = .abort → s'.goal = .abort)
    (hpending : clean → Bare s'.writeState.pendingRead)
    (hwins : c.1.role = .watchdog → winsAs .conn c ⟨i, r⟩ = none) :
    TypedErr clean kind s' (cs.set t (c.1, ⟨i, r⟩ :: c.2)) := by
  refine ⟨hpending, fun e he => ?_, forall_mem_set (fun d hd hw => ?_) fun hw => ?_⟩
  · exact (hT.typed e (herr ▸ he)).imp_right fun hex => exists_mem_set ht hex fun h => h.cons _
  · rw [herr]
    exact ⟨hgoal (hT.watchdog d hd hw).1, (hT.watchdog d hd hw).2⟩
  · have h := hT.watchdog c (List.mem_of_getElem? ht) (hw.of_cons hwins)
    rw [herr]
    exact ⟨hgoal h.1, h.2⟩

lemma TypedErr.abortSection (hT : TypedErr clean kind s cs) (ht : cs[t]? = some c)
    {reason : AbortReason} {publish : Option (Option Err)} {won : Bool}
    (hreq : (SInstr.abortSection reason publish).Ending clean kind c.1.role)
    (hx : s.exec cfg x (.abortSection reason publish) = some (s', won)) :
    TypedErr clean kind s' (cs.set t (c.1, ⟨.abortSection reason publish, won⟩ :: c.2)) := by
  have hw := Session.exec_writes hx
  have hwon := Session.exec_abortSection hx
  cases won with
  | false =>
    exact hT.keep ht hw.err (fun h => hw.goal.trans h) (hw.writeState ▸ hT.pending) fun _ => rfl
  | true =>
    obtain ⟨-, -, htyped, hwatch⟩ := hreq
    obtain ⟨-, hopen⟩ := hwon.mp rfl
    have herr : s'.err = publish.getD s.err := hw.err
    have hset : (c.1, ⟨.abortSection reason publish, true⟩ :: c.2) ∈
        cs.set t (c.1, ⟨.abortSection reason publish, true⟩ :: c.2) :=
      List.mem_set (List.getElem?_eq_some_iff.mp ht).1 _
    refine ⟨hw.writeState ▸ hT.pending, fun e he => ?_, forall_mem_set (fun d hd hd' => ?_)
      fun hnew => ⟨hw.goal, ?_⟩⟩
    · rw [herr] at he
      cases publish with
      | none =>
        exact (hT.typed e he).imp_right fun hex => exists_mem_set ht hex fun h => h.cons _
      | some published =>
        rcases htyped e (congrArg some he) with ht' | ⟨rfl, hrole⟩
        · exact Or.inl ht'
        · exact Or.inr ⟨_, hset, rfl, hrole, nofun⟩
    · exact absurd (hT.watchdog d hd hd').1 hopen
    · obtain ⟨timeout, hpub⟩ := hwatch hnew.1 hnew.2.1
      exact ⟨timeout, by rw [herr, hpub]; rfl⟩

lemma TypedErr.exec (hT : TypedErr clean kind s cs) (ht : cs[t]? = some c) {i : SInstr}
    {r : i.Resp} (hreq : i.Allowed clean kind c.1.role) (hclean : clean → Bare x.err)
    (hx : s.exec cfg x i = some (s', r)) :
    (clean → i.Bare r) ∧ TypedErr clean kind s' (cs.set t (c.1, ⟨i, r⟩ :: c.2)) := by
  refine ⟨fun hc => Session.exec_bare hx (hT.pending hc) (hclean hc), ?_⟩
  have hw := Session.exec_writes hx
  cases i with
  | abortSection reason publish =>
    exact hT.abortSection ht (hreq.resolve_left (by rintro ⟨⟨⟩⟩)) hx
  | request goal =>
    refine hT.keep ht hw.err (fun h => ?_) (hw.writeState ▸ hT.pending) fun _ => rfl
    obtain ⟨won, previous⟩ := r
    cases won with
    | false => exact hw.goal.trans h
    | true =>
      have hlt := ((Session.exec_request hx).2 rfl).2
      rw [h] at hlt
      cases goal <;> simp [CloseGoal.rank] at hlt
  | tryTerminal =>
    refine hT.keep ht hw.err (fun h => hw.goal.trans h) (hw.writeState ▸ hT.pending) fun hrole => ?_
    obtain ⟨-, hr⟩ := hreq.resolve_left (by rintro ⟨⟨⟩⟩)
    rw [hrole] at hr
    exact hr.elim (by simp) (by simp)
  | setErr e =>
    obtain ⟨rfl, he⟩ := hreq.resolve_left (by rintro ⟨⟨⟩⟩)
    refine ⟨hw.writeState ▸ hT.pending, fun e' he' => Or.inl ?_, fun _ _ h => by cases h.1⟩
    have : e = e' := Option.some.inj (hw.err.symm.trans he')
    exact this ▸ he
  | writeBegin | writeEnd =>
    refine hT.keep ht hw.err (fun h => hw.goal.trans h) (fun _ => ?_) fun _ => rfl
    rw [hw.writeState]
    intro _ h
    cases h
  | deferRead e =>
    refine hT.keep ht hw.err (fun h => hw.goal.trans h) (fun hc => ?_) fun _ => rfl
    have he : e.hasOperational = false := (hreq.resolve_right id).2 hc
    rw [hw.writeState]
    cases r with
    | false => exact hT.pending hc
    | true =>
      cases hp : s.writeState.pendingRead with
      | none => simpa [SInstr.writeStateAfter, hp] using Bare.of_eq he
      | some e' =>
        simpa [SInstr.writeStateAfter, hp] using Bare.of_eq (hT.pending hc e' hp)
  | onceEnter o =>
    refine hT.keep ht hw.err (fun h => hw.goal.trans h) (hw.writeState ▸ hT.pending) fun _ => ?_
    cases o with
    | close => cases r <;> rfl
    | _ => rfl
  | _ =>
    exact hT.keep ht hw.err (fun h => hw.goal.trans h) (hw.writeState ▸ hT.pending) fun _ => rfl

end Steps

/-! ### All runs -/

section Runs

variable {clean : Prop} {kind : SessionKind} {cfg : SessionConfig}

lemma typed_ctxs (p : SProcess) :
    (stepOutline clean kind).ctxs p.threads = p.threads.map fun th => (th.entry, th.log) :=
  Outline.past_ctxs p.threads

lemma typed_sound : Outline.Sound (sessionMachine kind cfg) (stepOutline clean kind)
    (TypedErr clean kind) fun _ ev => clean → CleanEvent ev where
  body l₀ l _ hc := step_body l₀ l hc
  exec p t x th i k s' r hok ht _ hT hreq hx := by
    have hc : ((stepOutline clean kind).ctxs p.threads)[t]? =
        some ((stepOutline clean kind).ctx th) := Outline.ctxs_getElem? ht
    exact hT.exec hc hreq hok hx
  spawn p l s' _ hT hs := by
    obtain ⟨_, rfl⟩ := SessionKind.spawn_eq hs
    refine ⟨SessionKind.spawn_stays hs, hT.pending, fun e he => ?_,
      forall_mem_concat hT.watchdog fun hw => absurd rfl hw.2.2⟩
    exact (hT.typed e he).imp_right fun ⟨c, hc, hw⟩ => ⟨c, List.mem_append_left _ hc, hw⟩
  env p e s' _ hT hs := by
    obtain ⟨_, _, _, rfl⟩ := Session.env_eq hs
    exact ⟨hT.pending, hT.typed, hT.watchdog⟩

lemma typed_init :
    (stepOutline clean kind).Holds (TypedErr clean kind) (SProcess.init kind cfg) := by
  refine ⟨⟨fun _ => nofun, nofun, fun c hc hw => ?_⟩, fun th hth => ?_⟩
  · rw [typed_ctxs] at hc
    obtain ⟨th, hth, rfl⟩ := List.mem_map.mp hc
    obtain ⟨l, -, rfl⟩ := List.mem_map.mp hth
    exact absurd rfl hw.2.2
  · obtain ⟨l, hl, rfl⟩ := List.mem_map.mp hth
    exact step_body l l (loopLabels_stays hl)

/-- Every run whose steps are clean, if that is asked for, keeps the account of the error. -/
lemma typed_run {es : List (Event SLabel Choice SEnv)} {p : SProcess}
    (hrun : (sessionMachine kind cfg).run (SProcess.init kind cfg) es = some p)
    (hclean : clean → ∀ ev ∈ es, CleanEvent ev) :
    TypedErr clean kind p.shared (p.threads.map fun th => (th.entry, th.log)) := by
  have h := (typed_sound.run typed_init hrun fun es₁ ev es₂ _ hes _ hc =>
    hclean hc ev (hes ▸ by simp)).shared
  rwa [typed_ctxs] at h

/-! ### The statement for sessions -/

/-- The watchdog of a stream has ended the session. -/
def SProcess.WatchdogEnded (kind : SessionKind) (p : SProcess) : Prop :=
  ∃ th ∈ p.threads, WatchdogWon kind (th.entry, th.log)

/-- What the error of a session is, after a run with these steps. -/
structure SProcess.EndsTyped (kind : SessionKind) (es : List (Event SLabel Choice SEnv))
    (p : SProcess) : Prop where
  /-- The terminal error is in the typed envelope exactly when no watchdog of a stream has won. -/
  typed : (∀ e, p.shared.err = some e → e.hasOperational = true) ↔ ¬ p.WatchdogEnded kind
  /-- So are runtime timeouts, when the outside gives no `*transport.Error` of its own. -/
  timeouts : (∀ ev ∈ es, CleanEvent ev) →
    ((∀ e, p.shared.err = some e → e.TimeoutShaped) ↔ ¬ p.WatchdogEnded kind)
  /-- `OnClose` gets the error that `Err()` gives. -/
  onClose : ∀ th ∈ p.threads, ∀ e, ⟨.callBegin (.onClose e), ()⟩ ∈ th.log → p.shared.err = e

lemma endsTyped_of_run {es : List (Event SLabel Choice SEnv)} {p : SProcess}
    (hrun : (sessionMachine kind cfg).run (SProcess.init kind cfg) es = some p) :
    p.EndsTyped kind es := by
  have hT : TypedErr (∀ ev ∈ es, CleanEvent ev) kind p.shared
      (p.threads.map fun th => (th.entry, th.log)) := typed_run hrun id
  have htyped : ∀ e, p.shared.err = some e → ¬ p.WatchdogEnded kind →
      e.Typed (∀ ev ∈ es, CleanEvent ev) := fun e he hno => by
    refine (hT.typed e he).resolve_right fun ⟨c, hc, hw⟩ => hno ?_
    obtain ⟨th, hth, rfl⟩ := List.mem_map.mp hc
    exact ⟨th, hth, hw⟩
  have hbare : p.WatchdogEnded kind → ∃ timeout, p.shared.err = some (.timeoutError timeout) :=
    fun ⟨th, hth, hw⟩ => (hT.watchdog _ (List.mem_map_of_mem hth) hw).2
  refine ⟨⟨fun h hw => ?_, fun hno e he => (htyped e he hno).1⟩, fun hclean =>
    ⟨fun h hw => ?_, fun hno e he => ((htyped e he hno).2 hclean).timeoutShaped⟩, ?_⟩
  · obtain ⟨timeout, he⟩ := hbare hw
    cases h _ he
  · obtain ⟨timeout, he⟩ := hbare hw
    obtain ⟨_, _, heq, -⟩ := h _ he rfl
    cases heq
  · intro th hth e he
    have hT := testimony_of_reaches ⟨es, hrun⟩ hth
    exact hT.saw e (hT.told e he)

end Runs

end Ogrenet
