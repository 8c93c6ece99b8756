import Ogrenet.Interleaving.Calls
import Ogrenet.Session.Calls

/-!
# The lifecycle arbiter on its own

`transport/lifecycle.go`, called by any number of goroutines in any order and without the rules that
the sessions follow. A lock section is one step, and so is each `once.Do(close(ch))` after it: other
calls see every combination of channels in between. `abortWith` runs `publish` inside its section;
what it publishes is the error of the session.
-/

namespace Ogrenet

open Interleaving Interleaving.Prog Ses

/-- The calls on a `sessionLifecycle` that change it. -/
inductive LCall where
  | requestWithPrevious (goal : CloseGoal)
  | abortWith (reason : AbortReason) (publish : Option (Option Err))
  | tryMarkTerminal
  | markTerminal
  | markReadClosed
  | markWriteClosed
  deriving DecidableEq, Repr

inductive LVal where
  | owner (b : Bool) (previous : CloseGoal)
  | won (b : Bool)
  | unit
  deriving DecidableEq, Repr

abbrev LNext := Next LCall LVal

def LCall.body : LCall → SProg LNext
  | .requestWithPrevious goal => do
    let r ← Ogrenet.requestWithPrevious goal
    return .ret (.owner r.1 r.2)
  | .abortWith reason publish => do
    let b ← Ogrenet.abortWith reason publish
    return .ret (.won b)
  | .tryMarkTerminal => do
    let b ← Ogrenet.tryMarkTerminal
    return .ret (.won b)
  | .markTerminal => do
    Ogrenet.markTerminal
    return .ret .unit
  | .markReadClosed => do
    signal .readDone
    return .ret .unit
  | .markWriteClosed => do
    signal .writeDone
    return .ret .unit

abbrev LThread := Thread SInstr SInstr.Resp LCall LVal

abbrev LProcess := Process SInstr SInstr.Resp LCall LVal Session

/-- The steps are those of a session. -/
def arbiterMachine (cfg : SessionConfig) :
    Machine SInstr SInstr.Resp LCall LVal Session Choice Empty where
  body := LCall.body
  exec s i x := s.exec cfg x i
  spawn s _ := some s
  env _ e := e.elim

/-- A new lifecycle. The rest of the session does not matter here. -/
def LProcess.init : LProcess :=
  ⟨{ quota := { limit := 0 }, global := { limit := 0 }, loops := 0 }, []⟩

/-! ### What a call has been told -/

abbrev LLog := List (Sigma SInstr.Resp)

abbrev LPast := Outline.Past LCall SInstr.Resp

/-- The goal that a lock section has raised. -/
def goalTaken : Sigma SInstr.Resp → Option CloseGoal
  | ⟨.request goal, (true, _)⟩ => some goal
  | ⟨.abortSection _ _, true⟩ => some .abort
  | _ => none

/-- The level of which the call has become owner. -/
def claimed (log : LLog) : Option CloseGoal := log.findSome? goalTaken

/-- The call has won the end of the session. -/
def decided (log : LLog) : Bool :=
  log.any fun
    | ⟨.abortSection _ _, r⟩ => r
    | ⟨.tryTerminal, r⟩ => r
    | _ => false

/-- The call has made the session terminal. -/
def terminated (log : LLog) : Bool :=
  log.any fun
    | ⟨.tryTerminal, r⟩ => r
    | ⟨.setTerminal, _⟩ => true
    | _ => false

def signalled (ch : Signal) (log : LLog) : Bool :=
  log.any fun
    | ⟨.signal ch', _⟩ => ch' = ch
    | _ => false

/-- The least goal at which a channel may be closed. -/
def Signal.floor : Signal → ℕ
  | .writeReq => CloseGoal.write.rank
  | .fullReq => CloseGoal.full.rank
  | .aborted => CloseGoal.abort.rank
  | _ => 0

/-- The channels that are closed before this one. -/
def Signal.after : Signal → List Signal
  | .aborted => [.writeReq, .fullReq]
  | .terminal => [.readDone, .writeDone]
  | _ => []

/-! ### The outline of the calls -/

/-- What holds when a call is about to close a channel. -/
structure SignalReq (ch : Signal) (c : LPast) : Prop where
  /-- An abort has won, and so has published. -/
  won : ∀ reason publish, c.1 = .abortWith reason publish → claimed c.2 = some .abort
  floor : ch.floor = 0 ∨ ∃ goal, claimed c.2 = some goal ∧ ch.floor ≤ goal.rank
  after : ∀ ch' ∈ ch.after, signalled ch' c.2 = true
  terminal : ch = .terminal → terminated c.2 = true

/-- Each call has one lock section and starts with it. -/
def arbiterReq : SInstr → LPast → Prop
  | .request goal, c => c = (.requestWithPrevious goal, []) ∧ goal ≠ .abort
  | .abortSection reason publish, c => c = (.abortWith reason publish, [])
  | .tryTerminal, c => c = (.tryMarkTerminal, [])
  | .setTerminal, c => c = (.markTerminal, [])
  | .signal ch, c => SignalReq ch c
  | _, _ => False

/-- A call returns true when it has won. -/
def arbiterPost : LVal → LPast → Prop
  | .owner b _, c => b = true ↔ (claimed c.2).isSome = true
  | .won b, c => b = true ↔ decided c.2 = true
  | .unit, c => decided c.2 = false

def arbiterOutline : Outline SInstr SInstr.Resp LCall LVal LPast :=
  .past arbiterReq (fun _ _ _ => True) (fun l c => c = (l, [])) arbiterPost

/-- A channel that may be closed at any time, by a call that is no abort or has won. -/
lemma SignalReq.plain {ch : Signal} {c : LPast}
    (hwon : ∀ reason publish, c.1 = .abortWith reason publish → claimed c.2 = some .abort)
    (hfloor : ch.floor = 0) (hafter : ch.after = []) : SignalReq ch c where
  won := hwon
  floor := .inl hfloor
  after ch' h := by simp [hafter] at h
  terminal h := by simp [h, Signal.after] at hafter

/-- A channel of the goal that the call has raised. -/
lemma SignalReq.raised {ch : Signal} {c : LPast} {goal : CloseGoal}
    (hwon : ∀ reason publish, c.1 = .abortWith reason publish → claimed c.2 = some .abort)
    (hclaimed : claimed c.2 = some goal) (hfloor : ch.floor ≤ goal.rank)
    (hafter : ∀ ch' ∈ ch.after, signalled ch' c.2 = true) (hch : ch ≠ .terminal) :
    SignalReq ch c where
  won := hwon
  floor := .inr ⟨goal, hclaimed, hfloor⟩
  after := hafter
  terminal h := absurd h hch

lemma arbiter_request (l₀ : LCall) (goal : CloseGoal) :
    arbiterOutline.wp (LCall.requestWithPrevious goal).body (arbiterOutline.ends l₀)
      (.requestWithPrevious goal, []) := by
  cases goal with
  | running | abort => exact ⟨nofun, nofun⟩
  | write =>
    refine ⟨⟨rfl, nofun⟩, ?_⟩
    intro r _
    obtain ⟨_ | _, previous⟩ := r
    · exact ⟨nofun, nofun⟩
    · refine ⟨.raised nofun rfl (Nat.le_refl 1) nofun nofun, fun _ _ => ?_⟩
      exact ⟨fun _ => rfl, fun _ => rfl⟩
  | full =>
    refine ⟨⟨rfl, nofun⟩, ?_⟩
    intro r _
    obtain ⟨_ | _, previous⟩ := r
    · exact ⟨nofun, nofun⟩
    · refine ⟨.raised nofun rfl (by decide) nofun nofun, fun _ _ => ?_⟩
      refine ⟨.raised nofun rfl (Nat.le_refl 2) nofun nofun, fun _ _ => ?_⟩
      exact ⟨fun _ => rfl, fun _ => rfl⟩

lemma arbiter_abort (l₀ : LCall) (reason : AbortReason) (publish : Option (Option Err)) :
    arbiterOutline.wp (LCall.abortWith reason publish).body (arbiterOutline.ends l₀)
      (.abortWith reason publish, []) := by
  refine ⟨rfl, ?_⟩
  intro r _
  cases r with
  | false => exact ⟨nofun, nofun⟩
  | true =>
    refine ⟨.raised (fun _ _ _ => rfl) rfl (by decide) nofun nofun, fun _ _ => ?_⟩
    refine ⟨.raised (fun _ _ _ => rfl) rfl (by decide) nofun nofun, fun _ _ => ?_⟩
    refine ⟨.raised (fun _ _ _ => rfl) rfl (Nat.le_refl 3) ?_ nofun, fun _ _ => ?_⟩
    · simp [Signal.after, signalled, arbiterOutline, Outline.past]
    · refine ⟨.plain (fun _ _ _ => rfl) rfl rfl, fun _ _ => ?_⟩
      refine ⟨.plain (fun _ _ _ => rfl) rfl rfl, fun _ _ => ?_⟩
      exact ⟨fun _ => rfl, fun _ => rfl⟩

lemma arbiter_terminalChannels {c : LPast} (l₀ : LCall) (v : LVal)
    (hl : ∀ reason publish, c.1 ≠ .abortWith reason publish) (ht : terminated c.2 = true)
    (hpost : ∀ log : LLog, decided log = decided c.2 → arbiterPost v (c.1, log)) :
    arbiterOutline.wp (do markTerminalChannels; return .ret v) (arbiterOutline.ends l₀) c := by
  have hwon : ∀ {log : LLog} reason publish, c.1 = .abortWith reason publish →
      claimed log = some .abort := fun reason publish h => absurd h (hl reason publish)
  refine ⟨.plain hwon rfl rfl, fun _ _ => ?_⟩
  refine ⟨.plain hwon rfl rfl, fun _ _ => ?_⟩
  refine ⟨⟨hwon, .inl rfl, ?_, fun _ => ht⟩, fun _ _ => ?_⟩
  · simp [Signal.after, signalled, arbiterOutline, Outline.past]
  · exact hpost _ rfl

lemma arbiter_body (l₀ l : LCall) :
    arbiterOutline.wp l.body (arbiterOutline.ends l₀) (l, []) := by
  cases l with
  | requestWithPrevious goal => exact arbiter_request l₀ goal
  | abortWith reason publish => exact arbiter_abort l₀ reason publish
  | tryMarkTerminal =>
    refine ⟨rfl, ?_⟩
    intro r _
    cases r with
    | false => exact ⟨nofun, nofun⟩
    | true =>
      refine arbiter_terminalChannels l₀ (.won true) ?_ rfl ?_
      · exact fun _ _ => nofun
      · intro log hlog
        exact ⟨fun _ => hlog, fun _ => rfl⟩
  | markTerminal =>
    refine ⟨rfl, ?_⟩
    intro _ _
    refine arbiter_terminalChannels l₀ .unit ?_ rfl ?_
    · exact fun _ _ => nofun
    · intro log hlog
      exact hlog
  | markReadClosed | markWriteClosed =>
    refine ⟨.plain nofun rfl rfl, fun _ _ => ?_⟩
    rfl

/-! ### The invariant -/

/-- How often a level is owned, and the end won, by a call. -/
def owns (goal : CloseGoal) (c : LPast) : ℕ := (decide (claimed c.2 = some goal)).toNat

def victor (c : LPast) : ℕ := (decided c.2).toNat

structure ArbiterInv (s : Session) (cs : List LPast) : Prop where
  /-- An owner has raised the goal to its level, and no level has two owners. -/
  raised : ∀ c ∈ cs, ∀ goal, claimed c.2 = some goal → goal.rank ≤ s.goal.rank
  owners : ∀ goal, total (owns goal) cs ≤ 1
  /-- As long as the session is neither terminal nor aborted nobody has won. -/
  nobody : s.terminal = false → s.goal ≠ .abort → ∀ c ∈ cs, decided c.2 = false
  winners : total victor cs ≤ 1
  /-- The reason and the error are those of the abort that won. -/
  abort : s.goal = .abort → ∃ c ∈ cs, claimed c.2 = some .abort
  reason : ∀ c ∈ cs, claimed c.2 = some .abort →
    ∃ publish, c.1 = .abortWith s.why publish ∧ ∀ e, publish = some e → s.err = e
  unset : s.goal ≠ .abort → s.why = .none
  signals : ∀ c ∈ cs, ∀ ch, signalled ch c.2 = true → s.closed ch = true
  floor : ∀ ch, s.closed ch = true → ch.floor ≤ s.goal.rank
  after : ∀ ch, s.closed ch = true → ∀ ch' ∈ ch.after, s.closed ch' = true
  terminated : ∀ c ∈ cs, terminated c.2 = true → s.terminal = true
  terminal : s.closed .terminal = true → s.terminal = true

lemma CloseGoal.rank_le (goal : CloseGoal) : goal.rank ≤ CloseGoal.abort.rank := by
  cases goal <;> decide

lemma CloseGoal.eq_abort_of_rank {goal : CloseGoal} (h : CloseGoal.abort.rank ≤ goal.rank) :
    goal = .abort := by
  cases goal
  case abort => rfl
  all_goals exact absurd h (by decide)

namespace ArbiterInv

variable {s : Session} {cs : List LPast} {t : ℕ} {c c' : LPast}

lemma unclaimed_set (h : ArbiterInv s cs) (ht : cs[t]? = some c) (hc' : claimed c'.2 = none)
    (goal : CloseGoal) : total (owns goal) (cs.set t c') ≤ 1 := by
  have hset := total_set (f := owns goal) c' ht
  have hzero : owns goal c' = 0 := by simp [owns, hc']
  have hone := h.owners goal
  omega

lemma undecided_set (h : ArbiterInv s cs) (ht : cs[t]? = some c) (hc' : decided c'.2 = false) :
    total victor (cs.set t c') ≤ 1 := by
  have hset := total_set (f := victor) c' ht
  have hzero : victor c' = 0 := by simp [victor, hc']
  have hone := h.winners
  omega

/-- A step that tells the call nothing new. -/
lemma quiet (h : ArbiterInv s cs) (ht : cs[t]? = some c) (hclaimed : claimed c'.2 = none)
    (hdecided : decided c'.2 = false) (hterminated : Ogrenet.terminated c'.2 = false)
    (hsignalled : ∀ ch, signalled ch c'.2 = false) (hc : c.2 = []) :
    ArbiterInv s (cs.set t c') := by
  have hnone : claimed c.2 = none := by rw [hc]; rfl
  constructor
  · apply forall_mem_set h.raised
    simp [hclaimed]
  · exact h.unclaimed_set ht hclaimed
  · intro hterm hgoal
    exact forall_mem_set (h.nobody hterm hgoal) hdecided
  · exact h.undecided_set ht hdecided
  · intro hgoal
    apply exists_mem_set ht (h.abort hgoal)
    simp [hnone]
  · apply forall_mem_set h.reason
    simp [hclaimed]
  · exact h.unset
  · apply forall_mem_set h.signals
    simp [hsignalled]
  · exact h.floor
  · exact h.after
  · apply forall_mem_set h.terminated
    simp [hterminated]
  · exact h.terminal

/-- Nobody owns a level above the goal. -/
lemma no_owner (h : ArbiterInv s cs) {goal : CloseGoal} (hgoal : s.goal.rank < goal.rank) :
    total (owns goal) cs = 0 := by
  apply total_eq_zero_iff.mpr
  intro c hc
  have hne : claimed c.2 ≠ some goal := by
    intro hclaimed
    have := h.raised c hc goal hclaimed
    omega
  simp [owns, hne]

lemma no_winner (h : ArbiterInv s cs) (hterm : s.terminal = false) (hgoal : s.goal ≠ .abort) :
    total victor cs = 0 := by
  apply total_eq_zero_iff.mpr
  intro c hc
  simp [victor, h.nobody hterm hgoal c hc]

lemma no_abort (h : ArbiterInv s cs) (hgoal : s.goal ≠ .abort) :
    ∀ c ∈ cs, claimed c.2 ≠ some .abort := by
  intro c hc hclaimed
  exact hgoal (CloseGoal.eq_abort_of_rank (h.raised c hc .abort hclaimed))

/-- A new owner is alone on its level. -/
lemma claimed_set (h : ArbiterInv s cs) (ht : cs[t]? = some c) {level : CloseGoal}
    (hlevel : s.goal.rank < level.rank) (hc' : claimed c'.2 = some level) (goal : CloseGoal) :
    total (owns goal) (cs.set t c') ≤ 1 := by
  have hset := total_set (f := owns goal) c' ht
  by_cases hgoal : goal = level
  · subst hgoal
    have hzero := h.no_owner hlevel
    have hone : owns goal c' ≤ 1 := Bool.toNat_le _
    omega
  · have hzero : owns goal c' = 0 := by simp [owns, hc', Ne.symm hgoal]
    have hone := h.owners goal
    omega

/-- So is the winner. -/
lemma decided_set (h : ArbiterInv s cs) (ht : cs[t]? = some c) (hterm : s.terminal = false)
    (hgoal : s.goal ≠ .abort) : total victor (cs.set t c') ≤ 1 := by
  have hset := total_set (f := victor) c' ht
  have hzero := h.no_winner hterm hgoal
  have hone : victor c' ≤ 1 := Bool.toNat_le _
  omega

/-! #### The lock sections -/

lemma request (h : ArbiterInv s cs) {goal : CloseGoal} {r : Bool × CloseGoal} {s' : Session}
    {cfg : SessionConfig} {x : Choice} (ht : cs[t]? = some (.requestWithPrevious goal, []))
    (hgoal : goal ≠ .abort) (hx : s.exec cfg x (.request goal) = some (s', r)) :
    ArbiterInv s' (cs.set t (.requestWithPrevious goal, [⟨.request goal, r⟩])) := by
  simp only [Session.exec] at hx
  split at hx
  · cases hx
    exact h.quiet ht rfl rfl rfl (fun _ => rfl) rfl
  · rename_i hfree
    cases hx
    obtain ⟨hterm, hlt⟩ : s.terminal = false ∧ s.goal.rank < goal.rank := by simpa using hfree
    have hle := goal.rank_le
    have hnot : s.goal ≠ .abort := by
      intro heq
      rw [heq] at hlt
      omega
    constructor
    · apply forall_mem_set
      · intro c hc level hlevel
        exact Nat.le_trans (h.raised c hc level hlevel) (Nat.le_of_lt hlt)
      · intro level hlevel
        cases hlevel
        exact Nat.le_refl _
    · exact h.claimed_set ht hlt rfl
    · intro _ _
      exact forall_mem_set (h.nobody hterm hnot) rfl
    · exact h.undecided_set ht rfl
    · intro heq
      exact absurd heq hgoal
    · apply forall_mem_set
      · intro c hc hclaimed
        exact absurd hclaimed (h.no_abort hnot c hc)
      · intro hclaimed
        exact absurd (Option.some.inj hclaimed) hgoal
    · intro _
      exact h.unset hnot
    · exact forall_mem_set h.signals nofun
    · intro ch hch
      exact Nat.le_trans (h.floor ch hch) (Nat.le_of_lt hlt)
    · exact h.after
    · exact forall_mem_set h.terminated nofun
    · exact h.terminal

lemma abortSection (h : ArbiterInv s cs) {reason : AbortReason} {publish : Option (Option Err)}
    {r : Bool} {s' : Session} {cfg : SessionConfig} {x : Choice}
    (ht : cs[t]? = some (.abortWith reason publish, []))
    (hx : s.exec cfg x (.abortSection reason publish) = some (s', r)) :
    ArbiterInv s' (cs.set t (.abortWith reason publish, [⟨.abortSection reason publish, r⟩])) := by
  simp only [Session.exec] at hx
  split at hx
  · cases hx
    exact h.quiet ht rfl rfl rfl (fun _ => rfl) rfl
  · rename_i hfree
    cases hx
    obtain ⟨hterm, hnot⟩ : s.terminal = false ∧ s.goal ≠ .abort := by simpa using hfree
    have hlt : s.goal.rank < CloseGoal.abort.rank := by
      by_contra hge
      exact hnot (CloseGoal.eq_abort_of_rank (Nat.le_of_not_lt hge))
    have hlen := (List.getElem?_eq_some_iff.mp ht).1
    constructor
    · intro c _ level _
      exact level.rank_le
    · exact h.claimed_set ht hlt rfl
    · intro _ hne
      exact absurd rfl hne
    · exact h.decided_set ht hterm hnot
    · intro _
      exact ⟨_, List.mem_set hlen _, rfl⟩
    · apply forall_mem_set
      · intro c hc hclaimed
        exact absurd hclaimed (h.no_abort hnot c hc)
      · intro _
        refine ⟨publish, rfl, ?_⟩
        intro e he
        simp [he]
    · intro hne
      exact absurd rfl hne
    · exact forall_mem_set h.signals nofun
    · intro ch hch
      exact Nat.le_trans (h.floor ch hch) (Nat.le_of_lt hlt)
    · exact h.after
    · exact forall_mem_set h.terminated nofun
    · exact h.terminal

/-- A call makes the session terminal, and wins if it says so. -/
lemma terminate (h : ArbiterInv s cs) {l : LCall} {a : Sigma SInstr.Resp}
    (ht : cs[t]? = some (l, [])) (hclaimed : claimed [a] = none)
    (hsignalled : ∀ ch, signalled ch [a] = false)
    (hwins : decided [a] = true → s.terminal = false ∧ s.goal ≠ .abort) :
    ArbiterInv { s with terminal := true } (cs.set t (l, [a])) := by
  constructor
  · apply forall_mem_set h.raised
    simp [hclaimed]
  · exact h.unclaimed_set ht hclaimed
  · exact fun hterm => nomatch hterm
  · by_cases hdecided : decided [a] = true
    · exact h.decided_set ht (hwins hdecided).1 (hwins hdecided).2
    · exact h.undecided_set ht (Bool.eq_false_iff.mpr hdecided)
  · intro hgoal
    exact exists_mem_set ht (h.abort hgoal) nofun
  · apply forall_mem_set h.reason
    simp [hclaimed]
  · exact h.unset
  · apply forall_mem_set h.signals
    simp [hsignalled]
  · exact h.floor
  · exact h.after
  · exact fun _ _ _ => rfl
  · exact fun _ => rfl

lemma tryTerminal (h : ArbiterInv s cs) {r : Bool} {s' : Session} {cfg : SessionConfig}
    {x : Choice} (ht : cs[t]? = some (.tryMarkTerminal, []))
    (hx : s.exec cfg x .tryTerminal = some (s', r)) :
    ArbiterInv s' (cs.set t (.tryMarkTerminal, [⟨.tryTerminal, r⟩])) := by
  simp only [Session.exec] at hx
  split at hx
  · cases hx
    exact h.quiet ht rfl rfl rfl (fun _ => rfl) rfl
  · rename_i hfree
    cases hx
    apply h.terminate ht rfl (fun _ => rfl)
    intro _
    simpa using hfree

/-- A channel is closed by a call that may close it. -/
lemma signal (h : ArbiterInv s cs) {ch : Signal} (ht : cs[t]? = some c) (hreq : SignalReq ch c) :
    ArbiterInv (s.close ch) (cs.set t (c.1, ⟨.signal ch, ()⟩ :: c.2)) := by
  have hmem := List.mem_of_getElem? ht
  have hclosed : ∀ {ch'}, (s.close ch).closed ch' = true ↔ ch' = ch ∨ s.closed ch' = true := by
    intro ch'
    by_cases hch : ch' = ch
    · simp [Session.close, hch]
    · simp [Session.close, hch]
  constructor
  · exact forall_mem_set h.raised (h.raised c hmem)
  · intro goal
    exact Nat.le_trans (Nat.le_of_eq (total_set_eq ht rfl)) (h.owners goal)
  · intro hterm hgoal
    exact forall_mem_set (h.nobody hterm hgoal) (h.nobody hterm hgoal c hmem)
  · exact Nat.le_trans (Nat.le_of_eq (total_set_eq ht rfl)) h.winners
  · intro hgoal
    exact exists_mem_set ht (h.abort hgoal) id
  · exact forall_mem_set h.reason (h.reason c hmem)
  · exact h.unset
  · apply forall_mem_set
    · intro d hd ch' hch'
      exact hclosed.mpr (.inr (h.signals d hd ch' hch'))
    · intro ch' hch'
      apply hclosed.mpr
      obtain heq | hlog : ch = ch' ∨ signalled ch' c.2 = true := by simpa [signalled] using hch'
      · exact .inl heq.symm
      · exact .inr (h.signals c hmem ch' hlog)
  · intro ch' hch'
    obtain rfl | hch' := hclosed.mp hch'
    · obtain hzero | ⟨goal, hclaimed, hle⟩ := hreq.floor
      · exact Nat.le_trans (Nat.le_of_eq hzero) (Nat.zero_le _)
      · exact Nat.le_trans hle (h.raised c hmem goal hclaimed)
    · exact h.floor ch' hch'
  · intro ch' hch' earlier hearlier
    apply hclosed.mpr
    obtain rfl | hch' := hclosed.mp hch'
    · exact .inr (h.signals c hmem earlier (hreq.after earlier hearlier))
    · exact .inr (h.after ch' hch' earlier hearlier)
  · exact forall_mem_set h.terminated (h.terminated c hmem)
  · intro hch'
    obtain rfl | hch' := hclosed.mp hch'
    · exact h.terminated c hmem (hreq.terminal rfl)
    · exact h.terminal hch'

end ArbiterInv

lemma arbiter_exec {s s' : Session} {cs : List LPast} {t : ℕ} {c : LPast} {cfg : SessionConfig}
    {x : Choice} {i : SInstr} {r : i.Resp} (h : ArbiterInv s cs) (ht : cs[t]? = some c)
    (hreq : arbiterReq i c) (hx : s.exec cfg x i = some (s', r)) :
    ArbiterInv s' (cs.set t (c.1, ⟨i, r⟩ :: c.2)) := by
  cases i with
  | request goal =>
    obtain ⟨rfl, hgoal⟩ := hreq
    exact h.request ht hgoal hx
  | abortSection reason publish =>
    cases hreq
    exact h.abortSection ht hx
  | tryTerminal =>
    cases hreq
    exact h.tryTerminal ht hx
  | setTerminal =>
    cases hreq
    cases hx
    exact h.terminate ht rfl (fun _ => rfl) nofun
  | signal ch =>
    cases hx
    exact h.signal ht hreq
  | _ => exact hreq.elim

lemma arbiter_sound (cfg : SessionConfig) :
    Outline.Sound (arbiterMachine cfg) arbiterOutline ArbiterInv fun _ _ => True where
  body l₀ l c hc := by
    cases hc
    exact arbiter_body l₀ l
  exec _ _ _ _ _ _ _ _ _ ht _ hG hreq hx :=
    ⟨trivial, arbiter_exec hG (Outline.ctxs_getElem? ht) hreq hx⟩
  spawn _ l _ _ h hs := by
    cases hs
    refine ⟨rfl, ?_⟩
    constructor
    · exact forall_mem_concat h.raised nofun
    · intro goal
      rw [total_append]
      exact h.owners goal
    · intro hterm hgoal
      exact forall_mem_concat (h.nobody hterm hgoal) rfl
    · rw [total_append]
      exact h.winners
    · intro hgoal
      obtain ⟨c, hc, hclaimed⟩ := h.abort hgoal
      exact ⟨c, List.mem_append_left _ hc, hclaimed⟩
    · exact forall_mem_concat h.reason nofun
    · exact h.unset
    · exact forall_mem_concat h.signals nofun
    · exact h.floor
    · exact h.after
    · exact forall_mem_concat h.terminated nofun
    · exact h.terminal
  env _ e _ _ _ _ := e.elim

lemma arbiter_init : arbiterOutline.Holds ArbiterInv LProcess.init := by
  refine ⟨?_, fun _ hth => absurd hth List.not_mem_nil⟩
  constructor
  case unset => exact fun _ => rfl
  case owners => exact fun _ => Nat.zero_le 1
  case winners => exact Nat.zero_le 1
  all_goals exact nofun

/-! ### Monotonicity -/

/-- The goal does not go down, and the reason of an abort stays. -/
structure Session.Rises (s s' : Session) : Prop where
  goal : s.goal.rank ≤ s'.goal.rank
  why : s.goal = .abort → s'.why = s.why

lemma Session.Rises.refl (s : Session) : s.Rises s := ⟨Nat.le_refl _, fun _ => rfl⟩

lemma Session.Rises.trans {s₁ s₂ s₃ : Session} (h : s₁.Rises s₂) (h' : s₂.Rises s₃) :
    s₁.Rises s₃ := by
  refine ⟨Nat.le_trans h.goal h'.goal, ?_⟩
  intro hgoal
  have hgoal₂ : s₂.goal = .abort := CloseGoal.eq_abort_of_rank (hgoal ▸ h.goal)
  exact (h'.why hgoal₂).trans (h.why hgoal)

lemma Session.rises_exec {s s' : Session} {c : LPast} {cfg : SessionConfig} {x : Choice}
    {i : SInstr} {r : i.Resp} (hreq : arbiterReq i c) (hx : s.exec cfg x i = some (s', r)) :
    s.Rises s' := by
  cases i with
  | request goal =>
    simp only [Session.exec] at hx
    split at hx
    · cases hx
      exact .refl s
    · rename_i hfree
      cases hx
      obtain ⟨-, hlt⟩ : s.terminal = false ∧ s.goal.rank < goal.rank := by simpa using hfree
      exact ⟨Nat.le_of_lt hlt, fun _ => rfl⟩
  | abortSection reason publish =>
    simp only [Session.exec] at hx
    split at hx
    · cases hx
      exact .refl s
    · rename_i hfree
      cases hx
      obtain ⟨-, hnot⟩ : s.terminal = false ∧ s.goal ≠ .abort := by simpa using hfree
      exact ⟨s.goal.rank_le, fun hgoal => absurd hgoal hnot⟩
  | tryTerminal =>
    simp only [Session.exec] at hx
    split at hx
    · cases hx
      exact .refl s
    · cases hx
      exact ⟨Nat.le_refl _, fun _ => rfl⟩
  | setTerminal | signal _ =>
    cases hx
    exact ⟨Nat.le_refl _, fun _ => rfl⟩
  | _ => exact hreq.elim

/-! ### The arbiter -/

/-- An abort call that has won, for this reason. -/
def LThread.Aborted (reason : AbortReason) (th : LThread) : Prop :=
  claimed th.log = some .abort ∧ ∃ publish, th.entry = .abortWith reason publish

/-- What can be seen of a lifecycle at any moment. -/
structure LProcess.Arbitrated (p : LProcess) : Prop where
  /-- A call that has returned says whether it became owner, or won. -/
  returned : ∀ th ∈ p.threads, ∀ v, th.prog = .done (.ret v) → arbiterPost v (th.entry, th.log)
  /-- One owner for each level, and one winner. -/
  owners : ∀ goal, total (fun th => owns goal (th.entry, th.log)) p.threads ≤ 1
  winners : total (fun th => victor (th.entry, th.log)) p.threads ≤ 1
  /-- The reason is that of the abort that has won. -/
  abort : p.shared.goal = .abort ↔ ∃ th ∈ p.threads, claimed th.log = some .abort
  reason : ∀ th ∈ p.threads, claimed th.log = some .abort → LThread.Aborted p.shared.why th
  unset : (∀ th ∈ p.threads, claimed th.log ≠ some .abort) → p.shared.why = .none
  /-- An abort that is about to close a channel has published. -/
  published : ∀ th ∈ p.threads, ∀ reason e ch k, th.entry = .abortWith reason (some e) →
    th.prog = .op (.signal ch) k → p.shared.err = e
  writeReq : p.shared.closed .writeReq = true → CloseGoal.write.rank ≤ p.shared.goal.rank
  fullReq : p.shared.closed .fullReq = true → CloseGoal.full.rank ≤ p.shared.goal.rank
  aborted : p.shared.closed .aborted = true →
    p.shared.goal = .abort ∧ (∃ th ∈ p.threads, LThread.Aborted p.shared.why th) ∧
      p.shared.closed .writeReq = true ∧ p.shared.closed .fullReq = true
  terminal : p.shared.closed .terminal = true →
    p.shared.terminal = true ∧ p.shared.closed .readDone = true ∧ p.shared.closed .writeDone = true

lemma arbitrated_of_holds {p : LProcess} (h : arbiterOutline.Holds ArbiterInv p) :
    p.Arbitrated := by
  have hctx : ∀ th : LThread, arbiterOutline.ctx th = (th.entry, th.log) := Outline.past_ctx
  have hinv := h.shared
  rw [arbiterOutline, Outline.past_ctxs] at hinv
  have hmem : ∀ th ∈ p.threads, (th.entry, th.log) ∈ p.threads.map fun th => (th.entry, th.log) :=
    fun th hth => List.mem_map_of_mem hth
  have hreason : ∀ th ∈ p.threads, claimed th.log = some .abort →
      LThread.Aborted p.shared.why th := by
    intro th hth hclaimed
    obtain ⟨publish, hentry, -⟩ := hinv.reason _ (hmem th hth) hclaimed
    exact ⟨hclaimed, publish, hentry⟩
  have habort : p.shared.goal = .abort ↔ ∃ th ∈ p.threads, claimed th.log = some .abort := by
    constructor
    · intro hgoal
      obtain ⟨c, hc, hclaimed⟩ := hinv.abort hgoal
      obtain ⟨th, hth, rfl⟩ := List.mem_map.mp hc
      exact ⟨th, hth, hclaimed⟩
    · rintro ⟨th, hth, hclaimed⟩
      exact CloseGoal.eq_abort_of_rank (hinv.raised _ (hmem th hth) .abort hclaimed)
  constructor
  · intro th hth v hv
    have hpost := h.threads th hth
    rw [hv, hctx] at hpost
    exact hpost
  · intro goal
    simpa only [total_map] using hinv.owners goal
  · simpa only [total_map] using hinv.winners
  · exact habort
  · exact hreason
  · intro hnone
    apply hinv.unset
    intro hgoal
    obtain ⟨th, hth, hclaimed⟩ := habort.mp hgoal
    exact hnone th hth hclaimed
  · intro th hth reason e ch k hentry hprog
    have hwp := h.threads th hth
    rw [hprog, hctx] at hwp
    have hclaimed := hwp.1.won reason (some e) hentry
    obtain ⟨publish, hentry', herr⟩ := hinv.reason _ (hmem th hth) hclaimed
    have heq : LCall.abortWith reason (some e) = .abortWith p.shared.why publish :=
      hentry.symm.trans hentry'
    cases heq
    exact herr e rfl
  · exact hinv.floor .writeReq
  · exact hinv.floor .fullReq
  · intro hclosed
    have hgoal := CloseGoal.eq_abort_of_rank (hinv.floor .aborted hclosed)
    obtain ⟨th, hth, hclaimed⟩ := habort.mp hgoal
    refine ⟨hgoal, ⟨th, hth, hreason th hth hclaimed⟩, ?_, ?_⟩
    · exact hinv.after .aborted hclosed .writeReq (by simp [Signal.after])
    · exact hinv.after .aborted hclosed .fullReq (by simp [Signal.after])
  · intro hclosed
    refine ⟨hinv.terminal hclosed, ?_, ?_⟩
    · exact hinv.after .terminal hclosed .readDone (by simp [Signal.after])
    · exact hinv.after .terminal hclosed .writeDone (by simp [Signal.after])

/-- In every run of any calls the lifecycle is a monotone arbiter. -/
theorem lifecycle_arbitrates (cfg : SessionConfig) (es es' : List (Event LCall Choice Empty))
    (p q : LProcess) (hp : (arbiterMachine cfg).run LProcess.init es = some p)
    (hq : (arbiterMachine cfg).run p es' = some q) :
    p.Arbitrated ∧ p.shared.goal.rank ≤ q.shared.goal.rank ∧
      (p.shared.goal = .abort → q.shared.why = p.shared.why) := by
  have hhold := (arbiter_sound cfg).reaches arbiter_init ⟨es, hp⟩
  have hrises : p.shared.Rises q.shared :=
    (arbiter_sound cfg).run_le Session.Rises.refl (fun _ _ _ h h' => h.trans h')
      (fun _ _ _ _ _ _ _ _ _ _ hreq hx => Session.rises_exec hreq hx)
      (fun _ _ _ hs => Option.some.inj hs ▸ Session.Rises.refl _) (fun _ e _ _ => e.elim) hhold hq
      fun _ _ _ _ _ _ => trivial
  exact ⟨arbitrated_of_holds hhold, hrises.goal, hrises.why⟩

/-- A full request and an abort at the same time: the abort wins between the lock section of the
request and its first channel. -/
def LProcess.overtaken : List (Event LCall Choice Empty) :=
  [.spawn (.requestWithPrevious .full), .spawn (.abortWith .caller (some none)), .run 0 {},
    .run 1 {}, .run 0 {}, .run 1 {}, .run 1 {}, .run 1 {}, .run 0 {}]

theorem lifecycle_arbitrates_overtaken : ∃ p : LProcess,
    (arbiterMachine .small).run LProcess.init LProcess.overtaken = some p ∧
      p.shared.closed .aborted = true ∧ p.Arbitrated := by
  have hrun : ((arbiterMachine .small).run LProcess.init LProcess.overtaken).map
      (fun p => p.shared.closed .aborted) = some true := by decide
  obtain ⟨p, hp, hclosed⟩ := Option.map_eq_some_iff.mp hrun
  exact ⟨p, hp, hclosed, (lifecycle_arbitrates .small _ [] p p hp rfl).1⟩

end Ogrenet
