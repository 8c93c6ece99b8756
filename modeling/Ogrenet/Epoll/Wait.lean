import Ogrenet.Epoll.Poller
import Ogrenet.Interleaving.Eval

/-!
# How long Wait waits

One call of `Wait` with a clock: time passes before every instruction, `epoll_wait` may be
interrupted, report events or expire, and it expires only after the milliseconds it was given. The
data of the events goes through the two 32-bit halves of `unix.EpollEvent`.
-/

namespace Ogrenet.Epoll

open Interleaving Interleaving.Prog

/-! ### The data of an event -/

/-- `unix.EpollEvent`. -/
structure EpollEvent where
  events : UInt32
  fd : Int32 := 0
  pad : Int32 := 0
  deriving DecidableEq, Repr

def putData (ev : EpollEvent) (data : UInt64) : EpollEvent :=
  { ev with fd := data.toUInt32.toInt32, pad := (data >>> 32).toUInt32.toInt32 }

def eventData (ev : EpollEvent) : UInt64 :=
  ev.fd.toUInt32.toUInt64 ||| ev.pad.toUInt32.toUInt64 <<< 32

lemma or_shiftLeft_halves (data : UInt64) :
    data.toUInt32.toUInt64 ||| (data >>> 32).toUInt32.toUInt64 <<< 32 = data := by
  apply UInt64.toNat_inj.mp
  have hlt := data.toNat_lt
  have hlow : data.toNat % 2 ^ 32 < 2 ^ 32 := Nat.mod_lt _ (by decide)
  have hhigh : data.toNat / 2 ^ 32 % 2 ^ 32 = data.toNat / 2 ^ 32 := by omega
  have hor := Nat.shiftLeft_add_eq_or_of_lt hlow (data.toNat / 2 ^ 32)
  rw [Nat.shiftLeft_eq, Nat.or_comm] at hor
  have hmul : data.toNat / 2 ^ 32 * 2 ^ 32 % 2 ^ 64 = data.toNat / 2 ^ 32 * 2 ^ 32 := by omega
  simp only [UInt64.toNat_or, UInt64.toNat_shiftLeft, UInt64.toNat_shiftRight,
    UInt32.toNat_toUInt64, UInt64.toNat_toUInt32, Nat.shiftRight_eq_div_pow, Nat.shiftLeft_eq,
    UInt64.reduceToNat, Nat.reduceMod, hhigh, hmul, ← hor]
  omega

lemma eventData_putData (ev : EpollEvent) (data : UInt64) : eventData (putData ev data) = data :=
  or_shiftLeft_halves data

/-- The event that `Wait` makes of what the kernel has written. -/
def EpollEvent.event (ev : EpollEvent) : Event := ⟨ev.events, eventData ev⟩

/-- What the kernel writes for ready events of a registration with some data. -/
def Event.written (ev : Event) : EpollEvent := putData { events := ev.events } ev.data

@[simp] lemma event_written (ev : Event) : ev.written.event = ev := by
  rw [EpollEvent.event, Event.written, eventData_putData]
  rfl

/-! ### The timeout -/

/-- The greatest timeout that `epoll_wait` takes, in nanoseconds. -/
def maxTimeout : ℤ := (2 ^ 31 - 1) * 1000000

lemma toInt_sub_of_nonneg {a b : Int64} (ha : 0 ≤ a.toInt) (hb : 0 ≤ b.toInt) :
    (a - b).toInt = a.toInt - b.toInt := by
  have ha' := a.toInt_lt
  have hb' := b.toInt_lt
  rw [Int64.toInt_sub]
  exact Int.bmod_eq_of_le (by omega) (by omega)

/-- The milliseconds cover the rest of a timeout that is not too long. -/
lemma le_add_timeoutMillis {timeout elapsed : Int64} (ht : 0 ≤ timeout) (he : 0 ≤ elapsed)
    (hmax : timeout.toInt ≤ maxTimeout) :
    timeout.toInt ≤ elapsed.toInt + timeoutMillis timeout elapsed * 1000000 := by
  have ht' : 0 ≤ timeout.toInt := Int64.le_iff_toInt_le.mp ht
  have he' : 0 ≤ elapsed.toInt := Int64.le_iff_toInt_le.mp he
  have hsub := toInt_sub_of_nonneg ht' he'
  rw [maxTimeout] at hmax
  simp only [timeoutMillis, Int64.lt_iff_toInt_lt, Int64.le_iff_toInt_le, hsub, Int64.toInt_zero]
  split_ifs <;> omega

/-- A longer timeout is cut. -/
lemma timeoutMillis_zero {timeout : Int64} (hmax : maxTimeout < timeout.toInt) :
    timeoutMillis timeout 0 = 2 ^ 31 - 1 := by
  rw [maxTimeout] at hmax
  simp only [timeoutMillis, Int64.lt_iff_toInt_lt, Int64.le_iff_toInt_le, Int64.sub_zero,
    Int64.toInt_zero]
  split_ifs <;> omega

/-! ### The clock and the kernel -/

/-- How an instruction is answered: the nanoseconds that pass before, what an atomic flag holds, the
error of a system call, and what `epoll_wait` reports, with the data that was registered. -/
structure Turn where
  tick : ℕ := 0
  flag : Bool := false
  err : Option Errno := none
  batch : List Event := []

/-- A call of `Wait`: the nanoseconds since it was made and until `started`, the turns to come,
whether `drainWake` was called, and the last batch of events. -/
structure Waiting where
  now : ℕ := 0
  started : ℕ := 0
  turns : List Turn
  woken : Bool := false
  batch : List Event := []

/-- The instructions that change nothing of a call but its time. -/
def EInstr.passive : EInstr → Bool
  | .loadClosed | .storeWaiting | .since | .rlock | .runlock => true
  | _ => false

namespace Waiting

/-- `time.Since(started)`, which does not grow past the greatest `time.Duration`. -/
def elapsed (st : Waiting) : Int64 := .ofNat (min (st.now - st.started) (2 ^ 63 - 1))

/-- `epoll_wait` fills at most the buffer, and expires only after the time it was given. -/
def Honours (t : Turn) (n : ℕ) (ms : ℤ) : Prop :=
  t.batch.length ≤ n ∧ (t.batch = [] → 0 ≤ ms ∧ ms * 1000000 ≤ t.tick)

instance (t : Turn) (n : ℕ) (ms : ℤ) : Decidable (Honours t n ms) :=
  inferInstanceAs (Decidable (_ ∧ _))

/-- The answers to the instructions of `Wait`. -/
def reply (st : Waiting) (t : Turn) : (i : EInstr) → Option (Waiting × i.Resp)
  | .loadClosed => some (st, t.flag)
  | .casWaiting => some ({ st with started := st.now }, !t.flag)
  | .storeWaiting | .rlock | .runlock => some (st, ())
  | .since => some (st, st.elapsed)
  | .epollWait n ms =>
    match t.err with
    | some e => some (st, .error e)
    | none =>
      if Honours t n ms then
        some ({ st with batch := t.batch }, .ok (t.batch.map fun ev => ev.written.event))
      else none
  | .read => some ({ st with woken := true }, t.err)
  | _ => none

def answer (st : Waiting) (i : EInstr) : Option (Waiting × i.Resp) :=
  match st.turns with
  | [] => none
  | t :: turns => reply { st with now := st.now + t.tick, turns } t i

/-- The call returns. -/
def Returns (n : ℕ) (timeout : Int64) (turns : List Turn) (st : Waiting) (out : List Event)
    (err : Option Err) : Prop :=
  ∃ k, follow ELabel.body answer k (Epoll.wait n timeout) { turns } = some (st, .waited out err)

/-! ### What a call returns -/

/-- Time has passed. -/
structure Passes (st st' : Waiting) : Prop where
  now : st.now ≤ st'.now
  started : st'.started = st.started
  woken : st'.woken = st.woken
  batch : st'.batch = st.batch

variable {st st' : Waiting} {n : ℕ} {timeout : Int64}

lemma passes_of_answer {i : EInstr} {r : i.Resp} (hi : i.passive = true)
    (h : st.answer i = some (st', r)) : st.Passes st' := by
  unfold answer at h
  split at h
  · cases h
  · cases i with
    | loadClosed | storeWaiting | since | rlock | runlock =>
      cases h
      exact ⟨Nat.le_add_right _ _, rfl, rfl, rfl⟩
    | _ => cases hi

lemma ensures_passive {α : Type} {Q : Waiting → α → Prop} {i : EInstr} {f : i.Resp → EProg α}
    (hi : i.passive = true) (h : ∀ st' r, st.Passes st' → Ensures answer (f r) st' Q) :
    Ensures answer (perform i >>= f) st Q := by
  apply ensures_perform
  intro st' r hr
  exact h st' r (passes_of_answer hi hr)

/-- What `Wait` promises: it returns nothing without an error and without a wake only after its
timeout, if that is not too long, and otherwise the last batch without the wakes. -/
def Promised (timeout : Int64) (st : Waiting) : EVal → Prop
  | .done _ => False
  | .waited out err =>
    (timeout.toInt ≤ maxTimeout → out = [] → err = none → st.woken = false →
      timeout.toInt ≤ st.now) ∧
    (out ≠ [] → err = none ∧ out = st.batch.filter fun ev => ev.data ≠ wakeData)

/-- What holds where the call comes to a label. -/
def AtLabel (timeout : Int64) : ELabel → Waiting → Prop
  | .polling _ t, st => t = timeout ∧ st.started ≤ st.now
  | .draining rest out _ t, st => t = timeout ∧
    ∃ seen, st.batch = seen ++ rest ∧ out = seen.filter fun ev => ev.data ≠ wakeData
  | _, _ => False

lemma promised_error (err : Err) : Promised timeout st (.waited [] (some err)) := by
  constructor
  · intro _ _ herr
    cases herr
  · intro hne
    exact absurd rfl hne

/-- The end of a call that returns an error. -/
lemma left_error (err : Err) :
    Ensures answer (left [] (some err)) st (NextSat (AtLabel timeout) (Promised timeout)) := by
  apply ensures_passive (i := .storeWaiting) rfl
  intro st' _ _
  apply ensures_pure
  exact promised_error err

/-- The end of a call that returns events or a timeout. -/
lemma left_none {out : List Event}
    (hearly : timeout.toInt ≤ maxTimeout → out = [] → st.woken = false → timeout.toInt ≤ st.now)
    (hout : out ≠ [] → out = st.batch.filter fun ev => ev.data ≠ wakeData) :
    Ensures answer (left out none) st (NextSat (AtLabel timeout) (Promised timeout)) := by
  apply ensures_passive (i := .storeWaiting) rfl
  intro st' _ hp
  apply ensures_pure
  constructor
  · intro hmax hnil _ hwoken
    have := hearly hmax hnil (hp.woken ▸ hwoken)
    have := hp.now
    omega
  · intro hne
    rw [hp.batch]
    exact ⟨rfl, hout hne⟩

/-- A batch whose events were gone through. -/
lemma waited_ok {out : List Event}
    (hearly : timeout.toInt ≤ maxTimeout → out = [] → st.woken = false → timeout.toInt ≤ st.now)
    (hout : out = st.batch.filter fun ev => ev.data ≠ wakeData) :
    Ensures answer (waited n timeout (.ok out)) st
      (NextSat (AtLabel timeout) (Promised timeout)) := by
  apply ensures_passive (i := .runlock) rfl
  intro st₁ _ h₁
  apply ensures_passive (i := .loadClosed) rfl
  intro st₂ closed h₂
  cases closed with
  | true => exact left_error _
  | false =>
    apply left_none
    · intro hmax hnil hwoken
      rw [h₂.woken, h₁.woken] at hwoken
      have := hearly hmax hnil hwoken
      have := h₁.now
      have := h₂.now
      omega
    · intro _
      rw [h₂.batch, h₁.batch]
      exact hout

lemma toInt_elapsed_le (st : Waiting) : st.elapsed.toInt ≤ st.now := by
  rw [elapsed, Int64.toInt_ofNat_of_lt (by omega)]
  omega

lemma since_eq {elapsed : Int64} (h : st.answer .since = some (st', elapsed)) :
    elapsed = st'.elapsed := by
  unfold answer at h
  split at h <;> cases h
  rfl

/-- A call of `epoll_wait` that failed. -/
lemma waited_error (e : Errno) (hstarted : st.started ≤ st.now) :
    Ensures answer (waited n timeout (.error e)) st
      (NextSat (AtLabel timeout) (Promised timeout)) := by
  apply ensures_passive (i := .runlock) rfl
  intro st₁ _ h₁
  apply ensures_passive (i := .loadClosed) rfl
  intro st₂ closed h₂
  have hstarted₂ : st₂.started ≤ st₂.now := by
    rw [h₂.started, h₁.started]
    exact Nat.le_trans hstarted (Nat.le_trans h₁.now h₂.now)
  cases closed with
  | true => exact left_error _
  | false =>
    simp only
    split
    · split
      · apply ensures_perform (i := EInstr.since)
        intro st₃ elapsed h₃
        have hp := passes_of_answer rfl h₃
        split
        · -- the time is over
          rename_i hover
          rw [since_eq h₃] at hover
          have := Int64.le_iff_toInt_le.mp hover
          have := st₃.toInt_elapsed_le
          apply left_none
          · intro _ _ _
            omega
          · intro hne
            exact absurd rfl hne
        · apply ensures_pure
          refine ⟨rfl, ?_⟩
          rw [hp.started]
          exact Nat.le_trans hstarted₂ hp.now
      · apply ensures_pure
        exact ⟨rfl, hstarted₂⟩
    · exact left_error _

/-- The rest of a batch is gone through, up to the next wake. -/
lemma received_ensures {rest out seen : List Event} (hbatch : st.batch = seen ++ rest)
    (hout : out = seen.filter fun ev => ev.data ≠ wakeData)
    (hearly : timeout.toInt ≤ maxTimeout → rest = [] → out = [] → st.woken = false →
      timeout.toInt ≤ st.now) :
    Ensures answer (received n timeout rest out) st
      (NextSat (AtLabel timeout) (Promised timeout)) := by
  induction rest generalizing seen out with
  | nil =>
    apply waited_ok
    · intro hmax
      exact hearly hmax rfl
    · rw [hbatch, List.append_nil]
      exact hout
  | cons ev rest ih =>
    have hsplit : st.batch = (seen ++ [ev]) ++ rest := by
      rw [hbatch, List.append_assoc, List.singleton_append]
    rw [received]
    split
    · rename_i hwake
      apply ensures_pure
      refine ⟨rfl, seen ++ [ev], hsplit, ?_⟩
      rw [List.filter_append, ← hout]
      simp [hwake]
    · rename_i hwake
      apply ih hsplit
      · rw [List.filter_append, ← hout]
        simp [hwake]
      · intro _ _ hnil
        cases List.append_ne_nil_of_right_ne_nil out (List.cons_ne_nil ev []) hnil

lemma elapsed_nonneg (st : Waiting) : 0 ≤ st.elapsed := by
  rw [Int64.le_iff_toInt_le, elapsed, Int64.toInt_ofNat_of_lt (by omega), Int64.toInt_zero]
  omega

/-- How `epoll_wait` answers. -/
lemma answer_epollWait {ms : ℤ} {r : Except Errno (List Event)}
    (h : st.answer (.epollWait n ms) = some (st', r)) :
    st'.started = st.started ∧ st.now ≤ st'.now ∧
      ∀ batch, r = .ok batch → st'.batch = batch ∧
        (batch = [] → st.now + ms * 1000000 ≤ st'.now) := by
  unfold answer at h
  split at h
  · cases h
  · rename_i t turns hturns
    simp only [reply] at h
    split at h
    · cases h
      exact ⟨rfl, Nat.le_add_right _ _, nofun⟩
    · obtain ⟨⟨-, hexpired⟩, h⟩ := Option.ite_none_right_eq_some.mp h
      cases h
      refine ⟨rfl, Nat.le_add_right _ _, ?_⟩
      intro batch hbatch
      have hwritten : t.batch = batch := by
        simpa using Except.ok.inj hbatch
      constructor
      · exact hwritten
      · intro hnil
        have := (hexpired (hwritten.trans hnil)).2
        show (st.now : ℤ) + ms * 1000000 ≤ ((st.now + t.tick : ℕ) : ℤ)
        omega

lemma polling_ensures (ht : 0 ≤ timeout) (hstarted : st.started ≤ st.now) :
    Ensures answer (polling n timeout) st (NextSat (AtLabel timeout) (Promised timeout)) := by
  apply ensures_passive (i := .rlock) rfl
  intro st₁ _ h₁
  apply ensures_passive (i := .loadClosed) rfl
  intro st₂ closed h₂
  cases closed with
  | true =>
    apply ensures_passive (i := .runlock) rfl
    intro _ _ _
    exact left_error _
  | false =>
    apply ensures_perform (i := EInstr.since)
    intro st₃ elapsed h₃
    have hp := passes_of_answer rfl h₃
    have hstarted₃ : st₃.started ≤ st₃.now := by
      rw [hp.started, h₂.started, h₁.started]
      have := h₁.now
      have := h₂.now
      have := hp.now
      omega
    apply ensures_perform (i := EInstr.epollWait n (timeoutMillis timeout elapsed))
    intro st₄ r h₄
    obtain ⟨hs, hnow, hok⟩ := answer_epollWait h₄
    cases r with
    | error e =>
      apply waited_error
      rw [hs]
      exact Nat.le_trans hstarted₃ hnow
    | ok batch =>
      obtain ⟨hbatch, hexpired⟩ := hok batch rfl
      have hsplit : st₄.batch = [] ++ batch := hbatch
      apply received_ensures hsplit rfl
      intro hmax hnil _ _
      -- the call has expired: the time before it and the milliseconds it got cover the timeout
      have hcover := le_add_timeoutMillis ht (elapsed_nonneg st₃) hmax
      rw [← since_eq h₃] at hcover
      have hle := st₃.toInt_elapsed_le
      rw [← since_eq h₃] at hle
      have := hexpired hnil
      omega

lemma answer_read {err : Option Errno} (h : st.answer .read = some (st', err)) :
    st'.woken = true ∧ st'.batch = st.batch := by
  unfold answer at h
  split at h
  · cases h
  · cases h
    exact ⟨rfl, rfl⟩

lemma draining_ensures {rest out seen : List Event} (hbatch : st.batch = seen ++ rest)
    (hout : out = seen.filter fun ev => ev.data ≠ wakeData) :
    Ensures answer (draining rest out n timeout) st
      (NextSat (AtLabel timeout) (Promised timeout)) := by
  apply ensures_perform (i := EInstr.read)
  intro st₁ err h₁
  obtain ⟨hwoken, hsame⟩ := answer_read h₁
  have hrest : Ensures answer (received n timeout rest out) st₁
      (NextSat (AtLabel timeout) (Promised timeout)) := by
    apply received_ensures (hsame.trans hbatch) hout
    intro _ _ _ hnot
    cases hwoken.symm.trans hnot
  cases err with
  | none => exact hrest
  | some e =>
    simp only
    split
    · apply ensures_pure
      exact ⟨rfl, seen, hsame.trans hbatch, hout⟩
    · exact hrest

lemma body_ensures (ht : 0 ≤ timeout) (l : ELabel) (st : Waiting) (h : AtLabel timeout l st) :
    Ensures answer l.body st (NextSat (AtLabel timeout) (Promised timeout)) := by
  cases l with
  | polling n t =>
    obtain ⟨rfl, hstarted⟩ := h
    exact polling_ensures ht hstarted
  | draining rest out n t =>
    obtain ⟨rfl, seen, hbatch, hout⟩ := h
    exact draining_ensures hbatch hout
  | _ => exact h.elim

lemma answer_casWaiting {won : Bool} (h : st.answer .casWaiting = some (st', won)) :
    st'.started ≤ st'.now := by
  unfold answer at h
  split at h
  · cases h
  · cases h
    exact Nat.le_refl _

lemma wait_ensures (n : ℕ) (timeout : Int64) (st : Waiting) :
    Ensures answer (Epoll.wait n timeout) st (NextSat (AtLabel timeout) (Promised timeout)) := by
  unfold Epoll.wait
  split
  · apply ensures_pure
    exact promised_error _
  · apply ensures_passive (i := .loadClosed) rfl
    intro st₁ closed h₁
    cases closed with
    | true =>
      apply ensures_pure
      exact promised_error _
    | false =>
      apply ensures_perform (i := EInstr.casWaiting)
      intro st₂ won h₂
      cases won with
      | false =>
        apply ensures_pure
        exact promised_error _
      | true =>
        apply ensures_pure
        exact ⟨rfl, answer_casWaiting h₂⟩

/-- Every call keeps its promise. -/
lemma Returns.promised (ht : 0 ≤ timeout) {turns : List Turn} {out : List Event} {err : Option Err}
    (h : Returns n timeout turns st out err) : Promised timeout st (.waited out err) := by
  obtain ⟨k, hk⟩ := h
  exact follow_ensures (body_ensures ht) (wait_ensures n timeout _) hk

/-! ### A timeout that is too long -/

/-- Nothing happens until `epoll_wait` expires. -/
def expiry : List Turn :=
  [{}, {}, {}, {}, {}, { tick := (2 ^ 31 - 1) * 1000000 }, {}, {}, {}]

lemma returns_expiry (hn : n ≠ 0) (hmax : maxTimeout < timeout.toInt) :
    ∃ st, Returns n timeout expiry st [] none ∧ st.woken = false ∧ st.now = maxTimeout := by
  have hms := timeoutMillis_zero hmax
  refine ⟨{ now := (2 ^ 31 - 1) * 1000000, turns := [] }, ⟨1, ?_⟩, rfl, rfl⟩
  simp [follow, Epoll.wait, hn, ELabel.body, polling, received, waited, left, loadClosed,
    casWaiting, rlock, runlock, since, epollWait, storeWaiting, perform, answer, reply, expiry,
    Honours, elapsed, hms]

/-- A call without a buffer returns an error. -/
lemma not_returns_zero {turns : List Turn} : ¬ Returns 0 timeout turns st [] none := by
  rintro ⟨k, hk⟩
  have hret : follow ELabel.body answer k (Epoll.wait 0 timeout) { turns } =
      some ({ turns }, .waited [] errNoEvents) := follow_of_ret rfl
  cases hret.symm.trans hk

end Waiting

open Waiting in
/-- `Wait` does not time out early exactly for the timeouts that fit the milliseconds of
`epoll_wait`, and it returns the events of the last batch other than wakes, in order and with the
data that was registered. -/
theorem wait_not_early_iff (n : ℕ) (timeout : Int64) (ht : 0 ≤ timeout) :
    ((∀ turns st, Returns n timeout turns st [] none → st.woken = false →
        timeout.toInt ≤ st.now) ↔ n = 0 ∨ timeout.toInt ≤ maxTimeout) ∧
      ∀ turns st out err, Returns n timeout turns st out err → out ≠ [] →
        err = none ∧ out = st.batch.filter fun ev => ev.data ≠ wakeData := by
  constructor
  · constructor
    · intro hall
      by_contra hlong
      obtain ⟨hn, hmax⟩ := not_or.mp hlong
      obtain ⟨st, hreturns, hwoken, hnow⟩ := returns_expiry hn (Int.not_le.mp hmax)
      have := hall _ _ hreturns hwoken
      omega
    · rintro (rfl | hmax) turns st hreturns hwoken
      · exact absurd hreturns not_returns_zero
      · exact (hreturns.promised ht).1 hmax rfl rfl hwoken
  · intro turns st out err hreturns hne
    exact (hreturns.promised ht).2 hne

open Waiting in
/-- A timeout of a second. -/
theorem wait_not_early_second : (0 : Int64) ≤ 1000000000 ∧
    ∀ turns st, Returns 8 1000000000 turns st [] none → st.woken = false →
      1000000000 ≤ st.now := by
  refine ⟨by decide, ?_⟩
  intro turns st hreturns hwoken
  have := (wait_not_early_iff 8 1000000000 (by decide)).1.mpr (.inr (by decide)) turns st hreturns
    hwoken
  exact Int.ofNat_le.mp this

open Waiting in
/-- A timeout of 2^31 milliseconds is over one millisecond early. -/
theorem wait_early : ∃ st, Returns 1 2147483648000000 expiry st [] none ∧ st.woken = false ∧
    st.now = 2147483647000000 := by
  obtain ⟨st, hreturns, hwoken, hnow⟩ :=
    @returns_expiry 1 2147483648000000 (by decide) (by decide)
  exact ⟨st, hreturns, hwoken, Int.ofNat_inj.mp hnow⟩

end Ogrenet.Epoll
