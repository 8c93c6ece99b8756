import Ogrenet.Session.Parts.Steps

/-!
# What the waiting calls of a stream do

`CloseWrite` and `Shutdown` ask for a goal, wait, and abort the session when their context ends
first and the phase they wait for is theirs. The outline of this module follows what a call has been
told on the way: whether its request has moved the goal, whether it has seen the write half closed,
and whether its context has ended.
-/

namespace Ogrenet

open Interleaving Interleaving.Prog Ses

/-! ### What a call has been told -/

namespace SInstr

/-- The goals before and after a request that has moved the goal. -/
def moved : (i : SInstr) → i.Resp → Option (CloseGoal × CloseGoal)
  | .request goal, (true, previous) => some (previous, goal)
  | _, _ => none

/-- The cause with which a `select` has found a context done. -/
def foundDone : (i : SInstr) → i.Resp → Option Err
  | .select _ _, .ctxDone cause => some cause
  | _, _ => none

/-- A `select` has found the write half closed. -/
def foundWritten : (i : SInstr) → i.Resp → Bool
  | .select _ _, .closed .writeDone => true
  | _, _ => false

/-- The step has aborted the session for its caller. -/
def abortedForCaller : (i : SInstr) → i.Resp → Bool
  | .abortSection .caller _, true => true
  | _, _ => false

end SInstr

/-- The goroutine has moved the goal from `previous` to `goal`. -/
def Moved (previous goal : CloseGoal) (log : SLog) : Prop :=
  ∃ a ∈ log, a.1.moved a.2 = some (previous, goal)

def MovedFrom (previous : CloseGoal) (log : SLog) : Prop :=
  ∃ a ∈ log, (a.1.moved a.2).map Prod.fst = some previous

def MovedTo (goal : CloseGoal) (log : SLog) : Prop :=
  ∃ a ∈ log, (a.1.moved a.2).map Prod.snd = some goal

/-- The goroutine has found a context done with this cause. -/
def FoundDone (cause : Err) (log : SLog) : Prop := ∃ a ∈ log, a.1.foundDone a.2 = some cause

/-- That was the latest it did. -/
def JustFound (cause : Err) : SLog → Prop
  | a :: _ => a.1.foundDone a.2 = some cause
  | [] => False

def FoundWritten (log : SLog) : Prop := ∃ a ∈ log, a.1.foundWritten a.2 = true

def AbortedForCaller (log : SLog) : Prop := ∃ a ∈ log, a.1.abortedForCaller a.2 = true

/-- The context of a waiting call. -/
def SLabel.awaits : SLabel → Option ℕ
  | .closeWrite ctx | .shutdown ctx => ctx
  | _ => none

section Told

variable {i : SInstr} {r : i.Resp} {log log' : SLog}

lemma moved_cons {previous goal : CloseGoal} : Moved previous goal (⟨i, r⟩ :: log) ↔
    i.moved r = some (previous, goal) ∨ Moved previous goal log := by
  simp [Moved]

lemma foundDone_cons {cause : Err} :
    FoundDone cause (⟨i, r⟩ :: log) ↔ i.foundDone r = some cause ∨ FoundDone cause log := by
  simp [FoundDone]

lemma foundWritten_cons :
    FoundWritten (⟨i, r⟩ :: log) ↔ i.foundWritten r = true ∨ FoundWritten log := by
  simp [FoundWritten]

lemma abortedForCaller_cons :
    AbortedForCaller (⟨i, r⟩ :: log) ↔ i.abortedForCaller r = true ∨ AbortedForCaller log := by
  simp [AbortedForCaller]

lemma movedTo_cons {goal : CloseGoal} : MovedTo goal (⟨i, r⟩ :: log) ↔
    (i.moved r).map Prod.snd = some goal ∨ MovedTo goal log := by
  simp [MovedTo]

lemma Moved.movedFrom {previous goal : CloseGoal} (h : Moved previous goal log) :
    MovedFrom previous log :=
  h.imp fun _ ha => ⟨ha.1, by rw [ha.2]; rfl⟩

lemma Moved.movedTo {previous goal : CloseGoal} (h : Moved previous goal log) :
    MovedTo goal log :=
  h.imp fun _ ha => ⟨ha.1, by rw [ha.2]; rfl⟩

lemma Moved.mono {previous goal : CloseGoal} (h : Moved previous goal log) (hsub : log ⊆ log') :
    Moved previous goal log' :=
  h.imp fun _ ha => ⟨hsub ha.1, ha.2⟩

lemma MovedTo.mono {goal : CloseGoal} (h : MovedTo goal log) (hsub : log ⊆ log') :
    MovedTo goal log' :=
  h.imp fun _ ha => ⟨hsub ha.1, ha.2⟩

lemma AbortedForCaller.mono (h : AbortedForCaller log) (hsub : log ⊆ log') :
    AbortedForCaller log' :=
  h.imp fun _ ha => ⟨hsub ha.1, ha.2⟩

end Told

/-! ### The outline -/

/-- What a call has done before it aborts the session for its caller: `CloseWrite` has moved the
goal away from Running; so has `Shutdown`, or it has moved the goal to Full and found the write half
closed. -/
def MayAbort : SPast → Prop
  | (.closeWrite _, log) => MovedFrom .running log
  | (.shutdown _, log) => Moved .running .full log ∨ MovedTo .full log ∧ FoundWritten log
  | _ => False

structure WaitReq (i : SInstr) (c : SPast) : Prop where
  abort : ∀ publish, i = .abortSection .caller publish → MayAbort c
  /-- `CloseWrite` asks for Write only. -/
  full : i = .request .full → ∀ ctx, c.1 ≠ .closeWrite ctx
  /-- A call waits for its own context. -/
  own : ∀ cases dflt, i = .select cases dflt → c.1.role = .waiter →
    ∀ k, .ctxDone k ∈ cases → c.1.awaits = some k
  /-- Once its context has ended, all that is left to a call is to abort the session, at once. -/
  after : c.1.role = .waiter → ∀ cause, FoundDone cause c.2 →
    AbortedForCaller c.2 ∨ JustFound cause c.2 ∧ ∃ publish, i = .abortSection .caller publish

/-- A request moves the goal forward. -/
def WaitAns (i : SInstr) (r : i.Resp) : Prop :=
  ∀ previous goal, i.moved r = some (previous, goal) → previous.rank < goal.rank

/-- A waiting call runs its own program, from the start. -/
def WaitPre (l : SLabel) (c : SPast) : Prop :=
  l.role = c.1.role ∧ (l.role = .waiter → c = (l, []))

/-- A call whose context has ended returns its cause. -/
def WaitPost (v : SVal) (c : SPast) : Prop :=
  c.1.role = .waiter → ∀ cause, FoundDone cause c.2 → v = .result (some cause)

def waitOutline : Outline SInstr SInstr.Resp SLabel SVal SPast :=
  .past WaitReq (fun i r _ => WaitAns i r) WaitPre WaitPost

lemma wait_ctx (th : SThread) : waitOutline.ctx th = (th.entry, th.log) := Outline.past_ctx th

/-! ### Programs -/

/-- The step neither asks for a goal nor waits nor aborts. -/
def SInstr.aside : SInstr → Bool
  | .request _ | .select _ _ | .abortSection _ _ => false
  | _ => true

section Programs

variable {α : Type} {i : SInstr} {r : i.Resp} {l₀ : SLabel} {c : SPast} {ctx : ℕ} {cause : Err}

/-- The call has found no context done, or it has aborted the session since. -/
def Excused (c : SPast) : Prop := (∀ cause, ¬ FoundDone cause c.2) ∨ AbortedForCaller c.2

lemma WaitReq.aside (hi : i.aside = true) (hc : Excused c) : WaitReq i c := by
  refine ⟨?_, ?_, ?_, fun _ cause h => .inl (hc.resolve_left fun hno => hno cause h)⟩
  · rintro publish rfl
    cases hi
  · rintro rfl
    cases hi
  · rintro cases dflt rfl
    cases hi

lemma foundDone_aside (hi : i.aside = true) {log : SLog} :
    FoundDone cause (⟨i, r⟩ :: log) ↔ FoundDone cause log := by
  rw [foundDone_cons, or_iff_right_iff_imp]
  intro h
  cases i with
  | select cases dflt => cases hi
  | _ => cases h

/-- What a call does on the side changes nothing of what it has been told. -/
lemma wp_aside {p : SProg α} {F : α → Prop} {Q : α → SPast → Prop}
    (hp : p.Within (fun i => i.aside = true) F) (hc : Excused c)
    (hQ : ∀ a c', F a → c'.1 = c.1 → c.2 ⊆ c'.2 →
      (∀ cause, FoundDone cause c'.2 → FoundDone cause c.2) → Q a c') :
    waitOutline.wp p Q c := by
  refine Outline.wp_of_within (J := fun c' => c'.1 = c.1 ∧ c.2 ⊆ c'.2 ∧
    ∀ cause, FoundDone cause c'.2 → FoundDone cause c.2)
    (hp.imp (fun i hi c' hc' => ⟨?_, fun r _ => ⟨hc'.1, ?_, ?_⟩⟩) fun _ => id)
    (fun a c' ha hc' => hQ a c' ha hc'.1 hc'.2.1 hc'.2.2) ⟨rfl, List.Subset.refl _, fun _ => id⟩
  · refine .aside hi (hc.imp (fun hno cause h => hno cause (hc'.2.2 cause h)) ?_)
    exact fun h => h.mono hc'.2.1
  · exact List.Subset.trans hc'.2.1 (List.subset_cons_self _ _)
  · exact fun cause h => hc'.2.2 cause ((foundDone_aside hi).mp h)

/-- A call that has found no context done. -/
def Waiting (c c' : SPast) : Prop := c'.1 = c.1 ∧ ∀ cause, ¬ FoundDone cause c'.2

/-- `requestWithPrevious`. -/
lemma wp_requestWithPrevious {goal : CloseGoal} (hgoal : goal = .write ∨ goal = .full)
    (hfull : goal = .full → ∀ ctx, c.1 ≠ .closeWrite ctx) (hc : ∀ cause, ¬ FoundDone cause c.2) :
    waitOutline.wp (requestWithPrevious goal) (fun r c' => Waiting c c' ∧
      (r.1 = true → Moved r.2 goal c'.2 ∧ r.2.rank < goal.rank)) c := by
  have hreq : WaitReq (.request goal) c :=
    ⟨nofun, fun h => hfull (SInstr.request.inj h), nofun, fun _ cause h => absurd h (hc cause)⟩
  have hno : ∀ r cause, ¬ FoundDone cause (⟨.request goal, r⟩ :: c.2) := fun r cause h =>
    hc cause ((foundDone_cons.mp h).resolve_left nofun)
  -- the two goals differ in the channels that are closed once the request has moved the goal
  have hwon : ∀ previous (p : SProg (Bool × CloseGoal)),
      WaitAns (.request goal) (true, previous) →
      p.Within (fun i => i.aside = true) (· = (true, previous)) → waitOutline.wp p
        (fun r c' => Waiting c c' ∧ (r.1 = true → Moved r.2 goal c'.2 ∧ r.2.rank < goal.rank))
        (c.1, ⟨.request goal, (true, previous)⟩ :: c.2) := fun previous p hans hp => by
    refine wp_aside hp (.inl (hno _)) ?_
    rintro _ c' rfl hentry hsub hfound
    refine ⟨⟨hentry, fun cause h => hno _ cause (hfound cause h)⟩, fun _ => ⟨?_, ?_⟩⟩
    · exact Moved.mono (moved_cons.mpr (.inl rfl)) hsub
    · exact hans previous goal rfl
  rcases hgoal with rfl | rfl
  · refine ⟨hreq, ?_⟩
    rintro ⟨_ | _, previous⟩ hans
    · exact ⟨⟨rfl, hno _⟩, nofun⟩
    · exact hwon previous _ hans ⟨rfl, fun _ => rfl⟩
  · refine ⟨hreq, ?_⟩
    rintro ⟨_ | _, previous⟩ hans
    · exact ⟨⟨rfl, hno _⟩, nofun⟩
    · exact hwon previous _ hans ⟨rfl, fun _ => ⟨rfl, fun _ => rfl⟩⟩

/-- The close of the gate after a request that has moved the goal. -/
lemma wp_gateCloseIf {owner : Bool} {a : α} {Q : α → SPast → Prop}
    (hc : ∀ cause, ¬ FoundDone cause c.2)
    (hQ : ∀ c', Waiting c c' → c.2 ⊆ c'.2 → Q a c') :
    waitOutline.wp (do
      if owner then gateClose
      return a) Q c := by
  show waitOutline.wp (if _ then _ else _) Q c
  split
  · refine wp_aside (F := (· = a)) ⟨rfl, fun _ => rfl⟩ (.inl hc) ?_
    rintro _ c' rfl hentry hsub hfound
    exact hQ c' ⟨hentry, fun cause h => hc cause (hfound cause h)⟩ hsub
  · exact hQ c ⟨rfl, hc⟩ (List.Subset.refl _)

lemma Conn.waits_requestWriteClose (hc : ∀ cause, ¬ FoundDone cause c.2) :
    waitOutline.wp Conn.requestWriteClose (fun owner c' => Waiting c c' ∧
      (owner = true → Moved .running .write c'.2)) c := by
  refine (Outline.wp_bind (requestWithPrevious .write) _ _ _).mpr (Outline.wp_mono ?_
    (wp_requestWithPrevious (.inl rfl) nofun hc))
  rintro ⟨owner, previous⟩ c₁ ⟨hw, hmoved⟩
  refine wp_gateCloseIf hw.2 fun c' hw' hsub => ⟨⟨hw'.1.trans hw.1, hw'.2⟩, fun howner => ?_⟩
  obtain ⟨hmoved, hrank⟩ := hmoved howner
  cases previous with
  | running => exact hmoved.mono hsub
  | _ => simp [CloseGoal.rank] at hrank

lemma Conn.waits_requestShutdown (hentry : ∀ ctx, c.1 ≠ .closeWrite ctx)
    (hc : ∀ cause, ¬ FoundDone cause c.2) :
    waitOutline.wp Conn.requestShutdown (fun r c' => Waiting c c' ∧
      (r.1 = true → MovedTo .full c'.2 ∧ (r.2 = true → Moved .running .full c'.2))) c := by
  refine (Outline.wp_bind (requestWithPrevious .full) _ _ _).mpr (Outline.wp_mono ?_
    (wp_requestWithPrevious (.inr rfl) (fun _ => hentry) hc))
  rintro ⟨owner, previous⟩ c₁ ⟨hw, hmoved⟩
  refine wp_gateCloseIf hw.2 fun c' hw' hsub => ⟨⟨hw'.1.trans hw.1, hw'.2⟩, fun howner => ?_⟩
  have hfull : Moved previous .full c'.2 := (hmoved howner).1.mono hsub
  refine ⟨hfull.movedTo, fun hprev => ?_⟩
  cases previous with
  | running => exact hfull
  | _ => cases hprev

/-- The branch of a context that has ended. -/
lemma Conn.waits_callerDone {owner : Bool} (hjust : JustFound cause c.2)
    (hfound : ∀ e, FoundDone e c.2 → e = cause)
    (howner : owner = true → MayAbort c) :
    waitOutline.wp (Conn.callerDone cause owner) (waitOutline.ends l₀) c := by
  have hpost : ∀ c' : SPast, (∀ e, FoundDone e c'.2 → FoundDone e c.2) →
      WaitPost (.result (some cause)) c' := fun c' h _ e he => by rw [hfound e (h e he)]
  cases owner with
  | false => exact hpost c fun _ => id
  | true =>
    have hreq : WaitReq (.abortSection .caller (some none)) c :=
      ⟨fun _ _ => howner rfl, nofun, nofun, fun _ e he => .inr ⟨hfound e he ▸ hjust, _, rfl⟩⟩
    have hsame : ∀ won e, FoundDone e (⟨.abortSection .caller (some none), won⟩ :: c.2) →
        FoundDone e c.2 := fun won e h => (foundDone_cons.mp h).resolve_left nofun
    refine ⟨hreq, ?_⟩
    rintro (_ | _) -
    · exact hpost _ (hsame false)
    · -- the session is aborted, and what follows only announces it
      refine wp_aside (F := (· = .ret (.result (some cause)))) ?_
        (.inr ⟨_, List.mem_cons_self, rfl⟩) ?_
      · refine ⟨rfl, fun _ => ⟨rfl, fun _ => ⟨rfl, fun _ => ⟨rfl, fun _ => ⟨rfl, fun _ =>
          ⟨rfl, ?_⟩⟩⟩⟩⟩⟩
        rintro (_ | _)
        · rfl
        · exact ⟨rfl, fun _ => ⟨rfl, fun _ => ⟨rfl, fun _ => ⟨rfl, fun _ => rfl⟩⟩⟩⟩
      · rintro _ c' rfl - - hno
        exact hpost c' fun e he => hsame true e (hno e he)

/-- A call that has found no context done may return anything. -/
lemma Conn.waits_lifecycleResult (hc : ∀ cause, ¬ FoundDone cause c.2) :
    waitOutline.wp (do returnErr (← Conn.lifecycleResult)) (waitOutline.ends l₀) c := by
  refine wp_aside (F := fun n => ∃ v, n = .ret v) ⟨rfl, ?_⟩ (.inl hc) ?_
  · rintro (_ | e)
    · refine ⟨rfl, fun why => ?_⟩
      cases why <;> exact ⟨_, rfl⟩
    · exact ⟨_, rfl⟩
  · rintro _ c' ⟨v, rfl⟩ - - hno
    exact fun _ cause h => absurd (hno cause h) (hc cause)

/-- A `select` of a waiting call, whose cases include its own context. -/
lemma wp_await {cases : List Case} {f : Fired → SProg α} {Q : α → SPast → Prop}
    (hown : ∀ k, .ctxDone k ∈ cases → c.1.awaits = some k) (hc : ∀ cause, ¬ FoundDone cause c.2)
    (hdone : ∀ cause, (∀ e, FoundDone e (⟨.select cases false, .ctxDone cause⟩ :: c.2) →
      e = cause) → waitOutline.wp (f (.ctxDone cause)) Q
        (c.1, ⟨.select cases false, .ctxDone cause⟩ :: c.2))
    (hother : ∀ r, (∀ cause, ¬ FoundDone cause (⟨.select cases false, r⟩ :: c.2)) →
      waitOutline.wp (f r) Q (c.1, ⟨.select cases false, r⟩ :: c.2)) :
    waitOutline.wp (do f (← select cases)) Q c := by
  have hreq : WaitReq (.select cases false) c := by
    refine ⟨nofun, nofun, ?_, fun _ cause h => absurd h (hc cause)⟩
    rintro _ _ h - k hk
    cases h
    exact hown k hk
  refine ⟨hreq, fun r _ => ?_⟩
  cases r with
  | ctxDone cause =>
    refine hdone cause fun e he => ?_
    rcases foundDone_cons.mp he with he | he
    · exact (Option.some.inj he).symm
    · exact absurd he (hc e)
  | _ => exact hother _ fun cause he => hc cause ((foundDone_cons.mp he).resolve_left nofun)

/-- Before the context is looked at, nothing has been found. -/
lemma not_foundDone_nil : ¬ FoundDone cause [] := by simp [FoundDone]

/-- The checks with which a waiting call begins. -/
lemma wp_checkCtx {f : SProg SNext} (hf : ∀ c' : SPast, c'.1 = c.1 →
      (∀ cause, ¬ FoundDone cause c'.2) → waitOutline.wp f (waitOutline.ends l₀) c')
    (hc : ∀ cause, ¬ FoundDone cause c.2) :
    waitOutline.wp (do
      match ← ctxCause ctx with
      | some cause => returnErr (some cause)
      | none => f) (waitOutline.ends l₀) c := by
  have hno : ∀ r cause, ¬ FoundDone cause (⟨.ctxCause ctx, r⟩ :: c.2) := fun r cause h =>
    hc cause ((foundDone_cons.mp h).resolve_left nofun)
  refine ⟨.aside rfl (.inl hc), ?_⟩
  rintro (_ | cause) -
  · exact hf _ rfl (hno none)
  · exact fun _ e he => absurd he (hno (some cause) e)

lemma Conn.waits_closeWrite (ctx : Option ℕ) :
    waitOutline.wp (Conn.closeWrite ctx) (waitOutline.ends l₀) (.closeWrite ctx, []) := by
  cases ctx with
  | none => exact fun _ cause h => absurd h not_foundDone_nil
  | some ctx =>
    refine wp_checkCtx (fun c hentry hno => ?_) fun _ => not_foundDone_nil
    refine (Outline.wp_bind Conn.requestWriteClose _ _ _).mpr
      (Outline.wp_mono ?_ (Conn.waits_requestWriteClose hno))
    rintro owner c₁ ⟨⟨hentry₁, hno₁⟩, howner⟩
    have hcall : c₁.1 = .closeWrite (some ctx) := hentry₁.trans hentry
    refine wp_await (fun k hk => ?_) hno₁ (fun cause hfound => ?_) fun r hno₂ => ?_
    · rw [hcall]
      simpa [SLabel.awaits, eq_comm] using hk
    · refine Conn.waits_callerDone rfl hfound fun how => ?_
      rw [hcall]
      exact ((howner how).mono (List.subset_cons_self _ _)).movedFrom
    · cases r with
      | ctxDone cause => exact absurd (foundDone_cons.mpr (.inl rfl)) (hno₂ cause)
      | _ => exact Conn.waits_lifecycleResult hno₂

lemma Conn.waits_shutdown (ctx : Option ℕ) :
    waitOutline.wp (Conn.shutdown ctx) (waitOutline.ends l₀) (.shutdown ctx, []) := by
  cases ctx with
  | none => exact fun _ cause h => absurd h not_foundDone_nil
  | some ctx =>
    refine wp_checkCtx (fun c hentry hno => ?_) fun _ => not_foundDone_nil
    refine (Outline.wp_bind Conn.requestShutdown _ _ _).mpr
      (Outline.wp_mono ?_ (Conn.waits_requestShutdown (by rw [hentry]; exact nofun) hno))
    rintro ⟨owner, ownsWrite⟩ c₁ ⟨⟨hentry₁, hno₁⟩, howner⟩
    have hcall : c₁.1 = .shutdown (some ctx) := hentry₁.trans hentry
    have hown : ∀ {ch ch' : Signal} k, .ctxDone k ∈ [.closed ch, .closed ch', Case.ctxDone ctx] →
        c₁.1.awaits = some k := fun k hk => by
      rw [hcall]
      simpa [SLabel.awaits, eq_comm] using hk
    refine wp_await hown hno₁ (fun cause hfound => ?_) fun r hno₂ => ?_
    · -- in the first wait only the owner of the write phase aborts
      refine Conn.waits_callerDone rfl hfound fun how => ?_
      rw [Bool.and_eq_true] at how
      rw [hcall]
      exact .inl (((howner how.1).2 how.2).mono (List.subset_cons_self _ _))
    · cases r with
      | ctxDone cause => exact absurd (foundDone_cons.mpr (.inl rfl)) (hno₂ cause)
      | closed ch =>
        cases ch with
        | writeDone =>
          refine wp_await hown hno₂ (fun cause hfound => ?_) fun r hno₃ => ?_
          · refine Conn.waits_callerDone rfl hfound fun how => ?_
            rw [hcall]
            refine .inr ⟨(howner how).1.mono ?_,
              _, List.mem_cons_of_mem _ List.mem_cons_self, rfl⟩
            exact List.subset_cons_of_subset _ (List.subset_cons_self _ _)
          · cases r with
            | ctxDone cause => exact absurd (foundDone_cons.mpr (.inl rfl)) (hno₃ cause)
            | _ => exact Conn.waits_lifecycleResult hno₃
        | _ => exact Conn.waits_lifecycleResult hno₂
      | _ => exact Conn.waits_lifecycleResult hno₂

/-! ### All programs -/

/-- Whoever is not a waiting call never aborts for a caller. -/
lemma SInstr.Allowed.waitReq {kind : SessionKind} {role : Role} (h : i.Allowed False kind role)
    (hrole : role ≠ .waiter) (hc : c.1.role = role) : WaitReq i c := by
  have hwaiter : c.1.role ≠ .waiter := hc ▸ hrole
  refine ⟨?_, fun _ ctx hctx => hwaiter (by rw [hctx]; rfl), fun _ _ _ h => absurd h hwaiter,
    fun h => absurd h hwaiter⟩
  rintro publish rfl
  rcases h with h | h
  · cases h
  · exact absurd (h.2.1 rfl) hrole

lemma wait_body (cfg : SessionConfig) (l : SLabel) (hc : WaitPre l c) :
    waitOutline.wp (SessionKind.conn.body cfg l) (waitOutline.ends l₀) c := by
  by_cases hrole : l.role = .waiter
  · cases hc.2 hrole
    cases l with
    | closeWrite ctx => exact Conn.waits_closeWrite ctx
    | shutdown ctx => exact Conn.waits_shutdown ctx
    | _ => cases hrole
  · refine wp_of_steps (J := fun c' => c'.1.role = l.role) (Role.stays_self l)
      (fun i hi c' hc' => ⟨hi.waitReq hrole hc', fun r _ => ⟨nofun, hc'⟩⟩) (fun n c' hn hc' => ?_)
      hc.1.symm
    cases n with
    | goto l' =>
      have hl' : l'.role = l.role := hn.role_eq
      exact ⟨hl'.trans hc'.symm, fun h => absurd (hl'.symm.trans h) hrole⟩
    | ret v => exact fun h => absurd (hc'.symm.trans h) hrole

end Programs

end Ogrenet
