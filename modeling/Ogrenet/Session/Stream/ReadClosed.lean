import Mathlib.Data.Nat.Find
import Ogrenet.Interleaving.Schedule
import Ogrenet.Session.Parts.Steps
import Ogrenet.Session.Stream.Drain
import Ogrenet.Session.Writes

/-!
# Messages and `ReadClosed`

When a message can be delivered although `ReadClosed` has been closed.
-/

namespace Ogrenet

open Interleaving Interleaving.Prog

variable {cfg : SessionConfig}

/-! ### Aborts in the log of a goroutine -/

/-- The step won an abort. -/
def wonAbort : (i : SInstr) → i.Resp → Bool
  | .abortSection _ _, won => won
  | _, _ => false

def SInstr.closesRead : SInstr → Bool
  | .signal .readDone => true
  | _ => false

/-- The goroutine has won an abort. -/
def abortedIn (log : List (Sigma SInstr.Resp)) : Bool := log.any fun a => wonAbort a.1 a.2

/-- The goroutine has won an abort and then closed `ReadClosed`. -/
def closedReadInAbort : List (Sigma SInstr.Resp) → Bool
  | [] => false
  | a :: log => (a.1.closesRead && abortedIn log) || closedReadInAbort log

lemma closedReadInAbort_iff {log : List (Sigma SInstr.Resp)} :
    closedReadInAbort log = true ↔
      ∃ newer older, log = newer ++ ⟨.signal .readDone, ()⟩ :: older ∧ abortedIn older = true := by
  constructor
  · intro h
    induction log with
    | nil => cases h
    | cons a log ih =>
      rcases Bool.or_eq_true_iff.mp h with h | h
      · obtain ⟨hcloses, haborted⟩ := Bool.and_eq_true_iff.mp h
        obtain ⟨i, r⟩ := a
        cases i with
        | signal ch =>
          cases ch with
          | readDone => exact ⟨[], log, rfl, haborted⟩
          | _ => cases hcloses
        | _ => cases hcloses
      · obtain ⟨newer, older, rfl, haborted⟩ := ih h
        exact ⟨a :: newer, older, rfl, haborted⟩
  · rintro ⟨newer, older, rfl, h⟩
    induction newer with
    | nil => simp [closedReadInAbort, SInstr.closesRead, h]
    | cons a newer ih => simp [closedReadInAbort, ih]

lemma Life.upd_aborted (i : SInstr) (r : i.Resp) (c : Life) :
    (c.upd i r).aborted = (wonAbort i r || c.aborted) := by
  cases i with
  | select cases dflt =>
    cases r with
    | closed ch => cases ch <;> rfl
    | _ => rfl
  | signal ch => cases ch <;> rfl
  | abortSection reason publish => exact Bool.or_comm _ _
  | reason => cases r <;> rfl
  | _ => rfl

lemma Life.upd_marked (i : SInstr) (r : i.Resp) (c : Life) :
    (c.upd i r).marked = ((i.closesRead && c.aborted) || c.marked) := by
  cases i with
  | select cases dflt =>
    cases r with
    | closed ch => cases ch <;> rfl
    | _ => rfl
  | signal ch =>
    cases ch with
    | readDone => exact Bool.or_comm _ _
    | _ => rfl
  | reason => cases r <;> rfl
  | _ => rfl

lemma life_aborted (th : SThread) : (lifeOutline.ctx th).aborted = abortedIn th.log := by
  obtain ⟨l, prog, log⟩ := th
  induction log with
  | nil => rfl
  | cons a log ih =>
    rw [Outline.ctx_cons l prog prog]
    refine (Life.upd_aborted a.1 a.2 _).trans ?_
    rw [ih, abortedIn, abortedIn, List.any_cons]

lemma life_marked (th : SThread) : (lifeOutline.ctx th).marked = closedReadInAbort th.log := by
  obtain ⟨l, prog, log⟩ := th
  induction log with
  | nil => rfl
  | cons a log ih =>
    rw [Outline.ctx_cons l prog prog]
    refine (Life.upd_marked a.1 a.2 _).trans ?_
    rw [ih, life_aborted, closedReadInAbort]

/-! ### Deliveries -/

/-- The next step of the goroutine starts a call of `OnMessage`. -/
def startsMessage (th : SThread) : Bool :=
  match th.prog with
  | .op (.callBegin (.onMessage _)) _ => true
  | _ => false

/-- In step `n` goroutine `t` starts a call of `OnMessage`, from the state `p`. -/
def MessageAt (cfg : SessionConfig) (es : List (Event SLabel Choice SEnv)) (n t : ℕ)
    (p : SProcess) : Prop :=
  ∃ x th, (sessionMachine .conn cfg).StepAt (SProcess.init .conn cfg) es n p (.run t x) ∧
    p.threads[t]? = some th ∧ startsMessage th = true

/-- In step `k` goroutine `t` checks `closing` and finds it open. -/
def PassesAt (cfg : SessionConfig) (es : List (Event SLabel Choice SEnv)) (k t : ℕ) : Prop :=
  ∃ q c, (sessionMachine .conn cfg).Does (SProcess.init .conn cfg) es k q t c
    (.select [.closed .closing] true) .default

/-- In step `m` goroutine `u`, which has won an abort, closes `ReadClosed`. -/
def MarksReadAt (cfg : SessionConfig) (es : List (Event SLabel Choice SEnv)) (m u : ℕ) : Prop :=
  ∃ q c, (sessionMachine .conn cfg).Does (SProcess.init .conn cfg) es m q u c
    (.signal .readDone) () ∧ abortedIn c.2 = true

/-- In step `d` goroutine `u` closes `closing`. -/
def ClosesAt (cfg : SessionConfig) (es : List (Event SLabel Choice SEnv)) (d u : ℕ) : Prop :=
  ∃ q c, (sessionMachine .conn cfg).Does (SProcess.init .conn cfg) es d q u c (.signal .closing) ()

/-- The goroutine `t` that starts `OnMessage` in step `n` has last passed a check of `closing` in
step `k`. -/
structure DeliversAt (cfg : SessionConfig) (es : List (Event SLabel Choice SEnv)) (k n t : ℕ) :
    Prop where
  passes : PassesAt cfg es k t
  message : ∃ p, MessageAt cfg es n t p
  before : k < n
  last : ∀ k', k < k' → k' < n → ¬ PassesAt cfg es k' t

/-! ### The check before a message -/

/-- The goroutine has found `closing` open. -/
def Passed (c : SPast) : Prop :=
  (⟨.select [.closed .closing] true, .default⟩ : Sigma SInstr.Resp) ∈ c.2

/-- The reader delivers only after it has passed a check. -/
def checkOutline : Outline SInstr SInstr.Resp SLabel SVal SPast :=
  .past
    (fun
      | .callBegin (.onMessage _), c => c.1 = .readerLoop → Passed c
      | _, _ => True)
    (fun _ _ _ => True) (fun l c => c = (l, []) ∨ (c.1 = .readerLoop → Passed c))
    fun _ _ => True

lemma check_body (l₀ l : SLabel) {c : SPast} (hc : checkOutline.pre l c) :
    checkOutline.wp (Conn.body cfg l) (checkOutline.ends l₀) c := by
  -- once the check is passed, it stays passed
  have hpassed : (c.1 = .readerLoop → Passed c) →
      checkOutline.wp (Conn.body cfg l) (checkOutline.ends l₀) c := fun hc => by
    refine @wp_of_steps False .conn cfg _ _ (fun c => c.1 = .readerLoop → Passed c) _ l
      (Role.stays_self l) ?_ ?_ c hc
    · intro i _ c hc
      refine ⟨?_, fun r _ => ⟨False.elim, fun hl => List.mem_cons_of_mem _ (hc hl)⟩⟩
      cases i with
      | callBegin cb =>
        cases cb with
        | onMessage msg => exact hc
        | _ => trivial
      | _ => trivial
    · intro n c _ hc
      cases n with
      | ret v => trivial
      | goto l' => exact .inr hc
  rcases hc with rfl | hc
  · cases l with
    | readerLoop =>
      refine ⟨trivial, fun _ _ => ⟨trivial, fun _ _ => ⟨trivial, fun r _ => ?_⟩⟩⟩
      cases r with
      | default => exact .inr fun _ => List.mem_cons_self
      | _ => exact ⟨trivial, fun _ _ => trivial⟩
    | _ => exact hpassed nofun
  · exact hpassed hc

lemma check_reached {p : SProcess} (hp : SessionReaches .conn cfg p) :
    checkOutline.Holds (fun _ _ => True) p := by
  have hsound : checkOutline.Sound (sessionMachine .conn cfg) (fun _ _ => True) fun _ _ => True :=
    ⟨fun l₀ l c hc => check_body l₀ l hc, fun _ _ _ _ _ _ _ _ _ _ _ _ _ _ => ⟨trivial, trivial⟩,
      fun _ _ _ _ _ _ => ⟨.inl rfl, trivial⟩, fun _ _ _ _ _ _ => trivial⟩
  refine hsound.reaches ⟨trivial, fun th hth => ?_⟩ hp
  obtain ⟨l, -, rfl⟩ := List.mem_map.mp hth
  exact check_body l l (.inl rfl)

lemma Life.upd_reading {i : SInstr} {r : i.Resp} {c : Life} (h : (c.upd i r).reading = true) :
    c.reading = true := by
  cases i with
  | select cases dflt =>
    cases r with
    | closed ch => cases ch <;> exact h
    | _ => exact h
  | signal ch =>
    cases ch with
    | readDone => cases h
    | _ => exact h
  | loopDone => cases h
  | reason => cases r <;> exact h
  | _ => exact h

/-- Only `readerLoop` reads. -/
lemma entry_of_reading {th : SThread} (h : (lifeOutline.ctx th).reading = true) :
    th.entry = .readerLoop := by
  obtain ⟨l, prog, log⟩ := th
  induction log with
  | nil => exact beq_iff_eq.mp h
  | cons a log ih =>
    rw [Outline.ctx_cons l prog prog] at h
    exact ih (Life.upd_reading h)

lemma reading_of_startsMessage {p : SProcess} (hp : SessionReaches .conn cfg p) {th : SThread}
    (hth : th ∈ p.threads) (hs : startsMessage th = true) :
    (lifeOutline.ctx th).reading = true := by
  have hwp := (lifecycle_reached hp).2 th hth
  simp only [startsMessage] at hs
  split at hs
  · rename_i hprog
    rw [hprog] at hwp
    exact hwp.1
  · cases hs

/-- While the reader delivers, only an abort can have closed `ReadClosed`. -/
lemma readClosed_iff_of_startsMessage {p : SProcess} (hp : SessionReaches .conn cfg p)
    {th : SThread} (hth : th ∈ p.threads) (hs : startsMessage th = true) :
    p.shared.closed .readDone = true ↔ ∃ th' ∈ p.threads, closedReadInAbort th'.log = true := by
  obtain ⟨hL, -⟩ := lifecycle_reached hp
  have hreading := reading_of_startsMessage hp hth hs
  constructor
  · intro hclosed
    rcases hL.reading.readDone hclosed with ⟨c, hc, hm⟩ | hall
    · obtain ⟨th', hth', rfl⟩ := List.mem_map.mp hc
      exact ⟨th', hth', (life_marked th').symm.trans hm⟩
    · have := hall _ (List.mem_map_of_mem hth)
      rw [hreading] at this
      cases this
  · rintro ⟨th', hth', hm⟩
    exact (hL.knows _ (List.mem_map_of_mem hth')).marked ((life_marked th').trans hm)

section Schedule

variable {es : List (Event SLabel Choice SEnv)} {k n m t u d : ℕ} {p : SProcess}

lemma init_log (th : SThread) (hth : th ∈ (SProcess.init .conn cfg).threads) : th.log = [] := by
  obtain ⟨l, -, rfl⟩ := List.mem_map.mp hth
  rfl

/-- Before a message the reader has passed a check. -/
lemma MessageAt.exists_deliversAt (h : MessageAt cfg es n t p) : ∃ k, DeliversAt cfg es k n t := by
  have hmessage := h
  obtain ⟨x, th, hn, ht, hs⟩ := h
  have hp : SessionReaches .conn cfg p := ⟨_, hn.2⟩
  have hth := List.mem_of_getElem? ht
  have hentry := entry_of_reading (reading_of_startsMessage hp hth hs)
  have hpassed : Passed (th.entry, th.log) := by
    have hwp := (check_reached hp).threads th hth
    rw [checkOutline, Outline.past_ctx] at hwp
    simp only [startsMessage] at hs
    split at hs
    · rename_i hprog
      rw [hprog] at hwp
      exact hwp.1 hentry
    · cases hs
  obtain ⟨newer, older, hlog⟩ := List.append_of_mem hpassed
  obtain ⟨k, q, hk, hdoes⟩ := Machine.exists_does_before init_log hn ht hlog
  -- the last of the checks before the message
  classical
  have hpass : PassesAt cfg es k t := ⟨q, _, hdoes⟩
  have hbound : k ≤ n - 1 := by omega
  refine ⟨Nat.findGreatest (fun k => PassesAt cfg es k t) (n - 1),
    Nat.findGreatest_spec (P := fun k => PassesAt cfg es k t) hbound hpass, ⟨p, hmessage⟩, ?_,
    fun k' hlt hk' hpass' => ?_⟩
  · have := Nat.findGreatest_le (P := fun k => PassesAt cfg es k t) (n - 1)
    omega
  · exact Nat.findGreatest_is_greatest hlt (by omega) hpass'

/-- A check that is passed comes before `closing` is closed. -/
lemma PassesAt.lt_closes (h : PassesAt cfg es k t) (hd : ClosesAt cfg es d u) : k < d := by
  obtain ⟨q, c, hpass⟩ := h
  obtain ⟨q', c', hclose⟩ := hd
  rcases Nat.lt_trichotomy k d with hlt | rfl | hlt
  · exact hlt
  · cases (hpass.unique hclose).2
  · obtain ⟨x, f, s', ⟨-, hq⟩, -, hx⟩ := hpass
    obtain ⟨x', f', s'', hstep, ht', hx'⟩ := hclose
    obtain ⟨r, hr, hreach⟩ := hstep.next hlt hq
    simp only [Machine.step, ht', hx', Option.map_some, Option.some.injEq] at hr
    subst hr
    cases hx'
    have hclosed : q.shared.closed .closing = true :=
      closed_reaches hreach (by simp [Session.close])
    obtain ⟨c, hc, hfire⟩ | ⟨-, -, -, hnone⟩ := Session.select_cases hx
    · cases List.mem_singleton.mp hc
      obtain ⟨-, hfire⟩ := Option.ite_none_right_eq_some.mp hfire
      cases hfire
    · have hfire := hnone _ List.mem_cons_self
      rw [Session.fire, if_pos hclosed] at hfire
      cases hfire

/-- `ReadClosed` is closed when an abort has marked it before the message. -/
lemma MessageAt.closed_iff (h : MessageAt cfg es n t p) :
    p.shared.closed .readDone = true ↔ ∃ m u, m < n ∧ MarksReadAt cfg es m u := by
  obtain ⟨x, th, hn, ht, hs⟩ := h
  rw [readClosed_iff_of_startsMessage ⟨_, hn.2⟩ (List.mem_of_getElem? ht) hs]
  constructor
  · rintro ⟨th', hth', hmarked⟩
    obtain ⟨u, hu⟩ := List.getElem?_of_mem hth'
    obtain ⟨newer, older, hlog, haborted⟩ := closedReadInAbort_iff.mp hmarked
    obtain ⟨m, q, hm, hdoes⟩ := Machine.exists_does_before init_log hn hu hlog
    exact ⟨m, u, hm, q, _, hdoes, haborted⟩
  · rintro ⟨m, u, hm, q, c, hdoes, haborted⟩
    obtain ⟨th', hth', -, newer, hlog⟩ := hdoes.in_log hm hn.2
    exact ⟨th', List.mem_of_getElem? hth',
      closedReadInAbort_iff.mpr ⟨newer, c.2, hlog.symm, haborted⟩⟩

end Schedule

/-- In a run every `OnMessage` starts with `ReadClosed` open exactly when for each of them, with the
last check of `closing` before it, no abort closes `ReadClosed` between the two, and the check does
not fall between the close of `ReadClosed` and that of `closing` by an abort. -/
theorem no_message_after_readClosed_iff (cfg : SessionConfig)
    (es : List (Event SLabel Choice SEnv)) :
    (∀ n t p, MessageAt cfg es n t p → p.shared.closed .readDone = false) ↔
      ∀ k n t, DeliversAt cfg es k n t → ∀ m u, MarksReadAt cfg es m u →
        ¬ (k < m ∧ m < n) ∧ ¬ (m < k ∧ ∀ d, ClosesAt cfg es d u → k < d) := by
  constructor
  · intro h k n t hdel m u hmarks
    obtain ⟨p, hmessage⟩ := hdel.message
    have hopen := h n t p hmessage
    have hnot : ¬ m < n := fun hm => by
      have hclosed := hmessage.closed_iff.mpr ⟨m, u, hm, hmarks⟩
      rw [hopen] at hclosed
      cases hclosed
    exact ⟨fun hbetween => hnot hbetween.2, fun hbefore => hnot (hbefore.1.trans hdel.before)⟩
  · intro h n t p hmessage
    obtain ⟨k, hdel⟩ := hmessage.exists_deliversAt
    by_contra hclosed
    obtain ⟨m, u, hm, hmarks⟩ := hmessage.closed_iff.mp (Bool.not_eq_false _ ▸ hclosed)
    obtain ⟨hnotAfter, hnotBefore⟩ := h k n t hdel m u hmarks
    rcases Nat.lt_trichotomy m k with hlt | rfl | hlt
    · exact hnotBefore ⟨hlt, fun d hd => hdel.passes.lt_closes hd⟩
    · obtain ⟨q, c, hpass⟩ := hdel.passes
      obtain ⟨q', c', hmark, -⟩ := hmarks
      cases (hpass.unique hmark).2
    · exact hnotAfter ⟨hlt, hm⟩

/-- The reader has decoded a message when `Close` aborts the session. -/
def SProcess.lateMessage : List (Event SLabel Choice SEnv) :=
  [.run 1 {}, .run 1 {}, .run 1 {}, .run 1 {}, .run 1 { data := [1] }, .run 1 {},
    .run 1 { msg := ⟨.binary, [1]⟩, consumed := 1 }, .run 1 {}, .run 1 {},
    .spawn .close, .run 3 {}, .run 3 {}, .run 3 {}, .run 3 {}, .run 3 {}, .run 3 {}]

/-- `OnMessage` starts after `ReadClosed` has been closed. -/
theorem message_after_readClosed :
    ((sessionMachine .conn .small).run (SProcess.init .conn .small)
        (SProcess.lateMessage ++ [Event.run 1 ({} : Choice)])).isSome = true ∧
      ∃ n t p, MessageAt .small (SProcess.lateMessage ++ [Event.run 1 ({} : Choice)]) n t p ∧
        p.shared.closed .readDone = true := by
  refine ⟨by decide, ?_⟩
  have hrun : ((sessionMachine .conn .small).run (SProcess.init .conn .small)
      SProcess.lateMessage).map (fun p => (p.shared.closed .readDone,
        (p.threads[1]?).map fun th => startsMessage th)) = some (true, some true) := by decide
  obtain ⟨p, hp, hobs⟩ := Option.map_eq_some_iff.mp hrun
  obtain ⟨hclosed, hstarts⟩ := Prod.mk.inj hobs
  obtain ⟨th, hth, hs⟩ := Option.map_eq_some_iff.mp hstarts
  exact ⟨_, 1, p, ⟨{}, th, Machine.stepAt_append hp, hth, hs⟩, hclosed⟩

end Ogrenet
