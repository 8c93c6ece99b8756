import Ogrenet.Interleaving.Outline
import Ogrenet.Session.Conn
import Ogrenet.Session.WebSocket
import Ogrenet.Session.Packet

/-!
# The machine of a session

A session of one of the three kinds starts with its loops and the goroutine that finalizes it. Calls
of its methods start further goroutines, any number of them and at any time; contexts expire, and
other sessions use the engine-wide byte budget.
-/

namespace Ogrenet

open Interleaving Interleaving.Prog

namespace SessionKind

def body (cfg : SessionConfig) : SessionKind → SLabel → SProg SNext
  | .conn => Conn.body cfg
  | .webSocket => WebSocket.body cfg
  | .packet => Packet.body cfg

/-- Starts a goroutine at `l`: a method that anyone may call, or a goroutine that the session itself
has asked for. -/
def spawn (s : Session) : SessionKind → SLabel → Option Session
  | .conn, .send .. | .conn, .trySend _ | .conn, .closeWrite _ | .conn, .shutdown _
  | .conn, .close | .conn, .requestShutdown => some s
  | .webSocket, .send .. | .webSocket, .trySend _ | .webSocket, .shutdown _
  | .webSocket, .close | .webSocket, .requestShutdown => some s
  | .webSocket, .watchCloseTimeout =>
    if s.watchers = 0 then none else some { s with watchers := s.watchers - 1 }
  | .packet, .sendTo .. | .packet, .trySendTo .. | .packet, .close | .packet, .requestDrain
  | .packet, .watchContext _ => some s
  | _, _ => none

end SessionKind

/-- The steps of the environment. -/
inductive SEnv where
  /-- The context `k` is cancelled or its deadline passes. -/
  | expire (k : ℕ) (cause : Err)
  /-- Other sessions charge and release bytes of the engine-wide budget. -/
  | otherAcquire (n : ℕ)
  | otherRelease (n : ℕ)
  deriving DecidableEq, Repr

def Session.env (s : Session) : SEnv → Option Session
  | .expire k cause =>
    some (if (s.cause k).isSome then s else { s with expired := (k, cause) :: s.expired })
  | .otherAcquire n =>
    if s.global.used + n ≤ s.global.limit then
      some { s with global := { s.global with used := s.global.used + n }, others := s.others + n }
    else none
  | .otherRelease n =>
    if n ≤ s.others then
      some { s with global := s.global.release n, others := s.others - n }
    else none

def sessionMachine (kind : SessionKind) (cfg : SessionConfig) :
    Machine SInstr SInstr.Resp SLabel SVal Session Choice SEnv where
  body := kind.body cfg
  exec s i x := s.exec cfg x i
  spawn s l := kind.spawn s l
  env := Session.env

abbrev SThread := Thread SInstr SInstr.Resp SLabel SVal

abbrev SProcess := Process SInstr SInstr.Resp SLabel SVal Session

/-- The goroutines that `loops` waits for. -/
def loopLabels (kind : SessionKind) (cfg : SessionConfig) : List SLabel :=
  [SLabel.writerLoop, SLabel.readerLoop] ++
    (if kind = .webSocket ∧ cfg.ping then [SLabel.pingLoop] else []) ++
    (if cfg.activity then [SLabel.watchdog] else [])

/-- The state in which `start` leaves a session. -/
def Session.init (kind : SessionKind) (cfg : SessionConfig) : Session where
  quota := { limit := cfg.maxQueuedBytes }
  global := { limit := cfg.maxQueuedBytesTotal }
  loops := (loopLabels kind cfg).length

def SProcess.init (kind : SessionKind) (cfg : SessionConfig) : SProcess where
  shared := .init kind cfg
  threads := (loopLabels kind cfg ++ [SLabel.finalizer]).map fun l => ⟨l, kind.body cfg l, []⟩

lemma mem_init {kind : SessionKind} {cfg : SessionConfig} {l : SLabel}
    (hl : l ∈ loopLabels kind cfg ++ [SLabel.finalizer]) :
    l = .writerLoop ∨ l = .readerLoop ∨ l = .pingLoop ∨ l = .watchdog ∨ l = .finalizer := by
  simp only [loopLabels, List.mem_append, List.mem_cons, List.mem_ite_nil_right,
    List.not_mem_nil, or_false] at hl
  tauto

/-- A state of the session that some interleaving reaches. -/
def SessionReaches (kind : SessionKind) (cfg : SessionConfig) (p : SProcess) : Prop :=
  (sessionMachine kind cfg).Reaches (SProcess.init kind cfg) p

/-! ### Steps from outside -/

/-- The start of a goroutine takes at most one that the session has asked for. -/
lemma SessionKind.spawn_eq {kind : SessionKind} {s s' : Session} {l : SLabel}
    (h : kind.spawn s l = some s') : ∃ watchers, s' = { s with watchers } := by
  simp only [SessionKind.spawn] at h
  split at h
  all_goals first
    | (cases h <;> exact ⟨_, rfl⟩)
    | (obtain ⟨-, h⟩ := Option.ite_none_left_eq_some.mp h
       cases h
       exact ⟨_, rfl⟩)

/-- The environment touches contexts and the engine-wide budget. -/
lemma Session.env_eq {s s' : Session} {e : SEnv} (h : s.env e = some s') :
    ∃ expired global others, s' = { s with expired, global, others } := by
  cases e with
  | expire k cause =>
    cases h
    split <;> exact ⟨_, _, _, rfl⟩
  | otherAcquire n | otherRelease n =>
    obtain ⟨-, h⟩ := Option.ite_none_right_eq_some.mp h
    cases h
    exact ⟨_, _, _, rfl⟩

/-- The cause of a context never changes. -/
lemma Session.env_cause {s s' : Session} {e : SEnv} (h : s.env e = some s') {k : ℕ} {cause : Err}
    (hk : s.cause k = some cause) : s'.cause k = some cause := by
  cases e with
  | expire j c =>
    cases h
    split
    · exact hk
    · rename_i hnew
      have hne : j ≠ k := by
        rintro rfl
        rw [hk] at hnew
        exact hnew rfl
      simpa [Session.cause, List.find?_cons, hne] using hk
  | otherAcquire n | otherRelease n =>
    obtain ⟨-, h⟩ := Option.ite_none_right_eq_some.mp h
    cases h
    exact hk

/-! ### Answers of a `select` -/

/-- `P` holds of everything the case can do. -/
def Case.All (P : Fired → Prop) : Case → Prop
  | .ctxDone _ => ∀ cause, P (.ctxDone cause)
  | .closed ch => P (.closed ch)
  | .drained => P .drained
  | .slot => P .slot
  | .encoder => P .encoder
  | .push _ => ∀ i, P (.pushed i)
  | .pop => ∀ i req, P (.popped i req)
  | .ack _ => ∀ v, P (.acked v)
  | .changedLocal _ => P .changed
  | .changedGlobal _ => P .changed
  | .timer => ∀ kind, P (.timer kind)

/-- `P` holds of each of the cases. -/
def Case.Each (P : Case → Prop) : List Case → Prop
  | [] => True
  | [c] => P c
  | c :: cs => P c ∧ Case.Each P cs

lemma Case.Each.mem {P : Case → Prop} {cases : List Case} (h : Case.Each P cases) :
    ∀ c ∈ cases, P c := by
  induction cases with
  | nil => simp
  | cons c cs ih =>
    cases cs with
    | nil => simpa [Case.Each] using h
    | cons c' cs => exact List.forall_mem_cons.mpr ⟨h.1, ih h.2⟩

/-- The answer comes from one of the cases, or from the default. -/
def Fired.From (cases : List Case) (dflt : Bool) (r : Fired) : Prop :=
  (∃ c ∈ cases, ∀ P, c.All P → P r) ∨ (dflt = true ∧ r = .default)

lemma Fired.From.all {P : Fired → Prop} {cases : List Case} {dflt : Bool} {r : Fired}
    (hr : r.From cases dflt) (h : ∀ c ∈ cases, c.All P) (hd : dflt = true → P .default) :
    P r := by
  obtain ⟨c, hc, hr⟩ | ⟨hdflt, rfl⟩ := hr
  · exact hr P (h c hc)
  · exact hd hdflt

namespace Session

variable {cfg : SessionConfig} {s s' : Session} {x : Choice}

lemma fire_from {c : Case} {r : Fired} (h : s.fire cfg x c = some (s', r)) (P : Fired → Prop)
    (hP : c.All P) : P r := by
  cases c with
  | ctxDone k =>
    obtain ⟨e, -, h⟩ := Option.map_eq_some_iff.mp h
    cases h
    exact hP e
  | pop =>
    simp only [fire] at h
    split at h
    · cases h
      exact hP _ _
    · cases h
  | ack i =>
    simp only [fire] at h
    split at h
    · cases h
      exact hP _
    · cases h
  | timer =>
    cases h
    exact hP _
  | closed ch | drained | slot =>
    obtain ⟨-, h⟩ := Option.ite_none_right_eq_some.mp h
    cases h
    exact hP
  | push req =>
    obtain ⟨-, h⟩ := Option.ite_none_right_eq_some.mp h
    cases h
    exact hP _
  | encoder | changedLocal g | changedGlobal g =>
    obtain ⟨-, h⟩ := Option.ite_none_left_eq_some.mp h
    cases h
    exact hP

/-- What a `select` can do: one of its cases fires, or none is ready and it takes its default. -/
lemma select_cases {cases : List Case} {dflt : Bool} {r : Fired}
    (h : s.select cfg x cases dflt = some (s', r)) :
    (∃ c ∈ cases, s.fire cfg x c = some (s', r)) ∨
      (dflt = true ∧ r = .default ∧ s' = s ∧ ∀ c ∈ cases, s.fire cfg x c = none) := by
  simp only [select] at h
  split at h
  · obtain ⟨c, hc, h⟩ := Option.bind_eq_some_iff.mp h
    exact Or.inl ⟨c, List.mem_of_getElem? hc, h⟩
  · obtain ⟨hd, h⟩ := Option.ite_none_right_eq_some.mp h
    cases h
    simp only [Bool.and_eq_true, List.all_eq_true, Option.isNone_iff_eq_none] at hd
    exact Or.inr ⟨hd.1, rfl, rfl, hd.2⟩

lemma select_from {cases : List Case} {dflt : Bool} {r : Fired}
    (h : s.select cfg x cases dflt = some (s', r)) : r.From cases dflt := by
  obtain ⟨c, hc, h⟩ | ⟨hd, rfl, -, -⟩ := select_cases h
  · exact Or.inl ⟨c, hc, fire_from h⟩
  · exact Or.inr ⟨hd, rfl⟩

/-- A channel that fires is closed. -/
lemma closed_of_select {cases : List Case} {dflt : Bool} {ch : Signal}
    (h : s.select cfg x cases dflt = some (s', .closed ch)) : s.closed ch = true := by
  obtain ⟨c, -, h⟩ | ⟨-, h, -⟩ := select_cases h
  · cases c with
    | closed ch' =>
      obtain ⟨hc, h⟩ := Option.ite_none_right_eq_some.mp h
      cases h
      exact hc
    | ctxDone k =>
      obtain ⟨e, -, h⟩ := Option.map_eq_some_iff.mp h
      cases h
    | timer => cases h
    | pop | ack i =>
      simp only [fire] at h
      split at h <;> cases h
    | drained | slot | push req =>
      obtain ⟨-, h⟩ := Option.ite_none_right_eq_some.mp h
      cases h
    | encoder | changedLocal g | changedGlobal g =>
      obtain ⟨-, h⟩ := Option.ite_none_left_eq_some.mp h
      cases h
  · cases h

/-- A context that fires is done, with this cause. -/
lemma cause_of_select {cases : List Case} {dflt : Bool} {e : Err}
    (h : s.select cfg x cases dflt = some (s', .ctxDone e)) :
    ∃ k, .ctxDone k ∈ cases ∧ s.cause k = some e := by
  obtain ⟨c, hc, h⟩ | ⟨-, h, -⟩ := select_cases h
  · cases c with
    | ctxDone k =>
      obtain ⟨e', he, h⟩ := Option.map_eq_some_iff.mp h
      cases h
      exact ⟨k, hc, he⟩
    | _ => exact (fire_from h (fun r => ∀ e, r ≠ .ctxDone e) (by simp [Case.All]) e rfl).elim
  · cases h

end Session

end Ogrenet
