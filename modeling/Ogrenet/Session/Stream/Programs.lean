import Ogrenet.Session.Parts.Packet
import Ogrenet.Session.Stream.Steps

/-!
# The programs of a stream session keep to its lifecycle
-/

namespace Ogrenet

open Interleaving Interleaving.Prog Ses

variable {α : Type} {c : Life}

/-! ### Rules -/

lemma wp_selectLife {cases : List Case} {k : Fired → SProg α} {Q : α → Life → Prop}
    (hc : Case.Each (fun x => c.caseReq x ∧
      x.All fun r => lifeOutline.wp (k r) Q (c.fired cases r)) cases) :
    lifeOutline.wp (.op (.select cases false) k) Q c :=
  ⟨fun x hm => (hc.mem x hm).1, fun _ hr => hr.all (fun x hm => (hc.mem x hm).2) nofun⟩

lemma wp_pollLife {cases : List Case} {k : Fired → SProg α} {Q : α → Life → Prop}
    (hc : Case.Each (fun x => c.caseReq x ∧
      x.All fun r => lifeOutline.wp (k r) Q (c.fired cases r)) cases)
    (hd : lifeOutline.wp (k .default) Q (c.fired cases .default)) :
    lifeOutline.wp (.op (.select cases true) k) Q c :=
  ⟨fun x hm => (hc.mem x hm).1, fun _ hr => hr.all (fun x hm => (hc.mem x hm).2) fun _ => hd⟩

lemma Life.post_some (e : Err) (c : Life) : c.post (.result (some e)) := by
  simp only [Life.post]
  split <;> simp_all

lemma Life.post_unit (c : Life) : c.post .unit := by
  simp only [Life.post]
  split <;> simp_all

lemma Life.Other.post (hc : c.Other) (v : SVal) : c.post v := by
  simp only [Life.post]
  split
  · rename_i he
    simp [Life.Other, he] at hc
  · rename_i he
    simp [Life.Other, he] at hc
  · trivial

lemma Life.upd_entry (i : SInstr) (r : i.Resp) (c : Life) : (c.upd i r).entry = c.entry := by
  cases i with
  | select cases dflt => cases r with
    | closed ch => cases ch <;> rfl
    | _ => rfl
  | signal ch => cases ch <;> rfl
  | reason => cases r <;> rfl
  | _ => rfl

lemma Life.req_sender {i : SInstr} (hi : i.plain .conn .sender = true) (c : Life) : c.req i := by
  cases i with
  | select cases dflt =>
    intro x hx
    have hfits := List.all_eq_true.mp hi x hx
    cases x with
    | pop => cases hfits
    | _ => trivial
  | request goal => exact bne_iff_ne.mp hi
  | signal ch => cases ch <;> trivial
  | callBegin cb => cases cb <;> cases hi
  | _ => trivial

/-- What a call into another part of the session leaves of a goroutine. -/
structure Life.Keeps (c c' : Life) : Prop where
  entry : c'.entry = c.entry
  loop : c'.loop = c.loop
  waited : c'.waited = c.waited

namespace Conn

variable {cfg : SessionConfig} {l₀ : SLabel}

/-! ### Closers -/

/-- The `closeOnce` of `abort` and `maybeFinishGraceful`. -/
lemma life_shut {Q : Unit → Life → Prop} (ho : c.isOver = true) (hQ : Q () c) :
    lifeOutline.wp (onceDo .close do gateClose; signal .closing; rawClose) Q c := by
  refine ⟨trivial, ?_⟩
  rintro (_ | _) -
  · exact hQ
  · exact ⟨trivial, fun _ _ => ⟨ho, fun _ _ => ⟨trivial, fun _ _ => ⟨trivial, fun _ _ => hQ⟩⟩⟩⟩

/-- After an abort, won or lost, the session is over and the goroutine writes no more. -/
lemma life_abort {reason : AbortReason} {cause : Option Err} {Q : Bool → Life → Prop}
    (hr : reason ≠ .none)
    (hQ : ∀ b c', c.Keeps c' → c'.isOver = true → c'.phase = .stopped → Q b c') :
    lifeOutline.wp (abort reason cause) Q c := by
  refine ⟨hr, ?_⟩
  rintro (_ | _) -
  · exact hQ _ _ ⟨rfl, rfl, rfl⟩ rfl rfl
  · have ha : (c.aborted || true) = true := Bool.or_true _
    refine ⟨trivial, fun _ _ => ⟨trivial, fun _ _ => ⟨ha, fun _ _ => ⟨Or.inl ha, fun _ _ =>
      ⟨Or.inl rfl, fun _ _ => ?_⟩⟩⟩⟩⟩
    refine (Outline.wp_bind (onceDo .close _) _ _ _).mpr (life_shut rfl ?_)
    exact hQ _ _ ⟨rfl, rfl, rfl⟩ rfl rfl

lemma life_initiateClose {cause : Option Err} {Q : Unit → Life → Prop}
    (hQ : ∀ c', c.Keeps c' → c'.isOver = true → c'.phase = .stopped → Q () c') :
    lifeOutline.wp (initiateClose cause) Q c :=
  (Outline.wp_bind (abort .failure cause) _ _ _).mpr (life_abort nofun fun _ => hQ)

lemma life_requestWithPrevious {goal : CloseGoal} {Q : Bool × CloseGoal → Life → Prop}
    (hQ : ∀ a, Q a c) : lifeOutline.wp (requestWithPrevious goal) Q c := by
  cases goal with
  | running | abort => exact hQ _
  | write =>
    refine ⟨nofun, ?_⟩
    rintro ⟨_ | _, previous⟩ -
    · exact hQ _
    · exact ⟨trivial, fun _ _ => hQ _⟩
  | full =>
    refine ⟨nofun, ?_⟩
    rintro ⟨_ | _, previous⟩ -
    · exact hQ _
    · exact ⟨trivial, fun _ _ => ⟨trivial, fun _ _ => hQ _⟩⟩

lemma life_requestWriteClose {Q : Bool → Life → Prop} (hQ : ∀ a, Q a c) :
    lifeOutline.wp requestWriteClose Q c := by
  refine (Outline.wp_bind (requestWithPrevious .write) _ _ _).mpr (life_requestWithPrevious ?_)
  rintro ⟨_ | _, previous⟩
  · exact hQ _
  · exact ⟨trivial, fun _ _ => hQ _⟩

lemma life_requestShutdown {Q : Bool × Bool → Life → Prop} (hQ : ∀ a, Q a c) :
    lifeOutline.wp requestShutdown Q c := by
  refine (Outline.wp_bind (requestWithPrevious .full) _ _ _).mpr (life_requestWithPrevious ?_)
  rintro ⟨_ | _, previous⟩
  · exact hQ _
  · exact ⟨trivial, fun _ _ => hQ _⟩

lemma life_callerDone {cause : Err} {owner : Bool} :
    lifeOutline.wp (callerDone cause owner) (lifeOutline.ends l₀) c := by
  cases owner with
  | false => exact Life.post_some cause c
  | true =>
    exact (Outline.wp_bind (abort .caller none) _ _ _).mpr
      (life_abort nofun fun _ c' _ _ _ => Life.post_some cause c')

/-- A closer that returns nil has seen a clean end of the write side. -/
lemma life_lifecycleResult (ho : c.isOver = true) :
    lifeOutline.wp (do returnErr (← lifecycleResult)) (lifeOutline.ends l₀) c := by
  refine ⟨trivial, ?_⟩
  rintro (_ | e) -
  · refine ⟨trivial, fun r _ => ?_⟩
    cases r with
    | none =>
      show Life.post _ { c with clean := c.clean || c.isOver }
      have hclean : (c.clean || c.isOver) = true := by rw [ho, Bool.or_true]
      simp only [Life.post]
      split
      · exact hclean
      · exact hclean
      · trivial
    | explicit | caller | failure => exact Life.post_some _ c
  · exact Life.post_some e c

lemma life_closeWrite (ctx : Option ℕ) :
    lifeOutline.wp (closeWrite ctx) (lifeOutline.ends l₀) c := by
  cases ctx with
  | none => exact Life.post_some _ c
  | some ctx =>
    refine ⟨trivial, ?_⟩
    rintro (_ | cause) -
    · refine (Outline.wp_bind requestWriteClose _ _ _).mpr (life_requestWriteClose fun owner => ?_)
      exact wp_selectLife ⟨⟨trivial, life_lifecycleResult rfl⟩,
        ⟨trivial, life_lifecycleResult rfl⟩, ⟨trivial, fun _ => life_callerDone⟩⟩
    · exact Life.post_some _ c

lemma life_shutdown (ctx : Option ℕ) :
    lifeOutline.wp (shutdown ctx) (lifeOutline.ends l₀) c := by
  cases ctx with
  | none => exact Life.post_some _ c
  | some ctx =>
    refine ⟨trivial, ?_⟩
    rintro (_ | cause) -
    · refine (Outline.wp_bind requestShutdown _ _ _).mpr (life_requestShutdown fun owner => ?_)
      refine wp_selectLife ⟨⟨trivial, ?_⟩, ⟨trivial, life_lifecycleResult rfl⟩,
        ⟨trivial, fun _ => life_callerDone⟩⟩
      exact wp_selectLife ⟨⟨trivial, life_lifecycleResult rfl⟩,
        ⟨trivial, life_lifecycleResult rfl⟩, ⟨trivial, fun _ => life_callerDone⟩⟩
    · exact Life.post_some _ c

lemma life_close (hc : c.entry = .close) :
    lifeOutline.wp close (lifeOutline.ends l₀) c := by
  have hpost : ∀ c' : Life, c'.entry = .close → ∀ v, c'.post v := fun c' he v => by
    simp [Life.post, he]
  refine wp_pollLife ⟨trivial, ?_⟩ ?_
  · exact hpost _ hc _
  · exact (Outline.wp_bind (abort .explicit none) _ _ _).mpr
      (life_abort nofun fun _ c' hk _ _ => hpost c' (hk.entry.trans hc) _)

/-- What `maybeFinishGraceful` sees is what it needs to end the session. -/
lemma life_maybeFinishGraceful {Q : Unit → Life → Prop}
    (hQ : ∀ c', c.Keeps c' → c'.phase = c.phase → Q () c') :
    lifeOutline.wp maybeFinishGraceful Q c := by
  have hdone : ∀ {c'}, c.Keeps c' → c'.phase = c.phase → Q () c' := fun {c'} => hQ c'
  refine wp_pollLife ⟨trivial, ?_⟩ ?_
  · refine wp_pollLife ⟨trivial, ?_⟩ ?_
    · refine ⟨rfl, ?_⟩
      rintro (_ | _) -
      · exact hdone ⟨rfl, rfl, rfl⟩ rfl
      · refine ⟨Or.inr (Or.inr (Or.inl rfl)), fun _ _ => ⟨Or.inl rfl, fun _ _ =>
          ⟨trivial, fun _ _ => ?_⟩⟩⟩
        exact life_shut rfl (hdone ⟨rfl, rfl, rfl⟩ rfl)
    · exact hdone ⟨rfl, rfl, rfl⟩ rfl
  · exact hdone ⟨rfl, rfl, rfl⟩ rfl

/-! ### Senders -/

/-- A send is made of steps that need nothing of the lifecycle. -/
lemma life_sender {l : SLabel} (hl : l.role = .sender) (hc : c.Other) :
    lifeOutline.wp (body cfg l) (lifeOutline.ends l₀) c := by
  have hother : ∀ {c c' : Life}, c'.entry = c.entry → c.Other → c'.Other := fun he hc => by
    rwa [Life.Other, he]
  refine Outline.wp_of_made (J := Life.Other)
    (made_sender (τ := .any False) (SLabel.follows_self hl) hl) (fun i hi c hc => ?_)
    (fun _ _ h => h.elim) (fun β q hq c hc => ?_) (fun n c hn hc => ?_) hc
  · exact ⟨Life.req_sender hi.plain.plain c, fun r _ =>
      ⟨.of_bare False.elim, hother (Life.upd_entry i r c) hc⟩⟩
  · cases hq with
    | connAbort h => exact life_abort h.named fun _ c' hk _ _ => hother hk.entry hc
    | connFinish h => exact h.elim nofun nofun
    | connFinalize h => cases h
  · cases n with
    | goto l' => cases l' <;> first | exact hc | exact hn.elim
    | ret v => exact hc.post v

/-! ### The writer -/

lemma life_finishOutbound {at_ : WriterAt} {i : ℕ} {req : Request} {result : Option Err}
    {rest : Bytes} (hc : c.Writes at_ (.inside rest))
    (hrest : result = none → rest = [] ∧ c.broken = false) :
    lifeOutline.wp (finishOutbound cfg at_ i req result) (lifeOutline.ends l₀) c := by
  obtain ⟨he, hl, hph, hd⟩ := hc
  refine ⟨⟨he, rest, hph, fun ok => (hrest (Option.isNone_iff_eq_none.mp ok)).1⟩, fun _ _ =>
    ⟨trivial, fun _ _ => ⟨trivial, fun _ _ => ⟨trivial, fun _ _ => ?_⟩⟩⟩⟩
  cases result with
  | none =>
    refine ⟨trivial, fun _ _ => ⟨trivial, fun _ _ => ?_⟩⟩
    show lifeOutline.wp (if _ then _ else _) _ _
    split
    · exact ⟨trivial, fun _ _ => ⟨⟨he, hl, rfl, hd⟩, (hrest rfl).2⟩⟩
    · exact ⟨⟨he, hl, rfl, hd⟩, (hrest rfl).2⟩
  | some e =>
    have hack : ∀ {c' : Life} {v : Option Err}, c'.entry = .writerLoop → c'.loop = true →
        c'.phase = .stopped → lifeOutline.wp
          (if req.hasAck then (do ack i v; pure (.goto .writerExit)) else
            pure (.goto .writerExit)) (lifeOutline.ends l₀) c' := fun he' hl' hp' => by
      split
      · exact ⟨trivial, fun _ _ => ⟨he', hl', hp'⟩⟩
      · exact ⟨he', hl', hp'⟩
    refine (Outline.wp_bind (abort .failure _) _ _ _).mpr (life_abort nofun ?_)
    rintro (_ | _) c' hk - hp'
    · refine ⟨trivial, ?_⟩
      rintro (_ | terminal) -
      · exact hack (hk.entry.trans he) (hk.loop.trans hl) hp'
      · exact hack (hk.entry.trans he) (hk.loop.trans hl) hp'
    · exact hack (hk.entry.trans he) (hk.loop.trans hl) hp'

lemma life_finishWrite {at_ : WriterAt} {i : ℕ} {req : Request} {e : Option Err} {rest : Bytes}
    (hc : c.Writes at_ (.inside rest)) (hrest : e = none → rest = [] ∧ c.broken = false) :
    lifeOutline.wp (finishWrite cfg at_ i req e) (lifeOutline.ends l₀) c := by
  refine ⟨trivial, fun clearErr _ => ?_⟩
  cases e with
  | some e => exact life_finishOutbound hc nofun
  | none =>
    cases clearErr with
    | some clearErr => exact life_finishOutbound hc nofun
    | none =>
      show lifeOutline.wp (finishOutbound cfg at_ i req none) _ _
      exact life_finishOutbound hc hrest

lemma life_handleOutbound {at_ : WriterAt} {i : ℕ} {req : Request}
    (hc : lifeOutline.pre (.writing at_ i req req.frame) c) :
    lifeOutline.wp (handleOutbound cfg at_ i req) (lifeOutline.ends l₀) c := by
  refine ⟨trivial, ?_⟩
  rintro (_ | e) -
  · exact hc
  · exact life_finishOutbound hc.1 nofun

lemma life_writing {at_ : WriterAt} {i : ℕ} {req : Request} {rest : Bytes}
    (hc : lifeOutline.pre (.writing at_ i req rest) c) :
    lifeOutline.wp (writing cfg at_ i req rest) (lifeOutline.ends l₀) c := by
  obtain ⟨hc, hb⟩ := hc
  simp only [writing]
  split
  · rename_i hrest
    exact life_finishWrite hc fun _ => ⟨hrest, hb⟩
  · refine ⟨⟨hc.entry, hc.phase_eq, hb⟩, ?_⟩
    rintro ⟨n, e⟩ -
    have hc' : Life.Writes at_ (.inside (rest.drop n)) (c.upd (.rawWrite rest) (n, e)) :=
      ⟨hc.entry, hc.loop, rfl, hc.sawDrained⟩
    cases e with
    | some e =>
      show lifeOutline.wp (finishWrite cfg at_ i req (some e)) _ _
      exact life_finishWrite hc' (by simp)
    | none =>
      show lifeOutline.wp (if n = 0 then _ else _) _ _
      split
      · exact life_finishWrite hc' (by simp)
      · rename_i hn
        refine ⟨hc', ?_⟩
        show (c.broken || (false || n == 0)) = false
        simp [hb, hn]

/-- `closeProtocolWrite` returns nil only after the write side was closed. -/
lemma life_closeProtocolWrite {Q : Option Err → Life → Prop}
    (hreq : c.req .rawCloseWrite)
    (hsome : ∀ e c', c.Keeps c' → Q (some e) c')
    (hnone : Q none { c with phase := .stopped, clean := true }) :
    lifeOutline.wp (closeProtocolWrite cfg) Q c := by
  have hfail : ∀ {e c'}, c.Keeps c' → Q (some e) c' := fun {e c'} => hsome e c'
  simp only [closeProtocolWrite]
  split
  · refine ⟨trivial, ?_⟩
    rintro (_ | e) -
    · refine ⟨hreq, fun e _ => ⟨trivial, fun clearErr _ => ?_⟩⟩
      cases e with
      | some e => exact hfail ⟨rfl, rfl, rfl⟩
      | none =>
        cases clearErr with
        | some clearErr => exact hfail ⟨rfl, rfl, rfl⟩
        | none => exact hnone
    · exact hfail ⟨rfl, rfl, rfl⟩
  · split
    · refine ⟨hreq, ?_⟩
      rintro (_ | e) -
      · exact hnone
      · exact hfail ⟨rfl, rfl, rfl⟩
    · exact hfail ⟨rfl, rfl, rfl⟩

lemma life_writer {at_ : WriterAt} (hc : lifeOutline.pre (.writer at_) c) :
    lifeOutline.wp (writer cfg at_) (lifeOutline.ends l₀) c := by
  obtain ⟨⟨he, hl, hph, hd⟩, hb⟩ := hc
  have hpop : c.caseReq .pop := ⟨he, fun rest h => by rw [hph] at h; cases h⟩
  have htake : ∀ req : Request, c.phase.take req.frame = .inside req.frame := fun req => by
    rw [hph, WirePhase.take]
  cases at_ with
  | running =>
    exact wp_selectLife ⟨⟨trivial, ⟨he, hl, rfl⟩⟩, ⟨trivial, ⟨⟨he, hl, hph, nofun⟩, hb⟩⟩,
      ⟨hpop, fun i req => life_handleOutbound ⟨⟨he, hl, htake req, nofun⟩, hb⟩⟩⟩
  | graceful =>
    exact wp_selectLife ⟨⟨trivial, ⟨he, hl, rfl⟩⟩,
      ⟨hpop, fun i req => life_handleOutbound ⟨⟨he, hl, htake req, nofun⟩, hb⟩⟩,
      ⟨trivial, ⟨⟨he, hl, hph, fun _ => rfl⟩, hb⟩⟩⟩
  | drain =>
    refine wp_pollLife ⟨hpop, fun i req => life_handleOutbound ⟨⟨he, hl, htake req, hd⟩, hb⟩⟩ ?_
    have hempty : (c.sawEmpty || (c.sawDrained && offersPop [.pop])) = true := by
      rw [hd rfl]
      exact Bool.or_true _
    refine (Outline.wp_bind (closeProtocolWrite cfg) _ _ _).mpr
      (life_closeProtocolWrite ⟨he, hph, hb, hempty⟩ (fun e c' hk => ?_) ?_)
    · refine (Outline.wp_bind (initiateClose _) _ _ _).mpr
        (life_initiateClose fun c'' hk' _ hp => ⟨?_, ?_, hp⟩)
      · exact (hk'.entry.trans hk.entry).trans he
      · exact (hk'.loop.trans hk.loop).trans hl
    · refine ⟨Or.inr rfl, fun _ _ => ⟨trivial, fun _ _ => ?_⟩⟩
      refine (Outline.wp_bind maybeFinishGraceful _ _ _).mpr
        (life_maybeFinishGraceful fun c' hk hp => ?_)
      exact ⟨hk.entry.trans he, hk.loop.trans hl, hp⟩

lemma life_failPending {e : Option Err} (hc : lifeOutline.pre (.failPending e) c) :
    lifeOutline.wp (failPending e) (lifeOutline.ends l₀) c := by
  obtain ⟨he, hl, hph⟩ := hc
  refine wp_pollLife ⟨⟨he, fun rest h => by rw [hph] at h; cases h⟩, fun i req => ?_⟩
    ⟨trivial, fun _ _ => ⟨hl, fun _ _ => Life.post_unit _⟩⟩
  have htake : c.phase.take req.frame = .stopped := by rw [hph, WirePhase.take]; nofun
  refine ⟨trivial, fun _ _ => ⟨trivial, fun _ _ => ⟨trivial, fun _ _ => ?_⟩⟩⟩
  show lifeOutline.wp (if _ then _ else _) _ _
  split
  · exact ⟨trivial, fun _ _ => ⟨he, hl, htake⟩⟩
  · exact ⟨he, hl, htake⟩

/-! ### The reader and the other goroutines -/

lemma life_endLoop (hl : c.loop = true) : lifeOutline.wp endLoop (lifeOutline.ends l₀) c :=
  ⟨hl, fun _ _ => Life.post_unit _⟩

lemma life_failRead {cause : Err} {hint : ClassifyHint} (hl : c.loop = true) :
    lifeOutline.wp (failRead cfg cause hint) (lifeOutline.ends l₀) c :=
  (Outline.wp_bind (initiateClose _) _ _ _).mpr
    (life_initiateClose fun _ hk _ _ => life_endLoop (hk.loop.trans hl))

/-- The check of `closing` at the end of a round. -/
lemma life_unlessClosing {p : SProg SNext} (hl : c.loop = true)
    (hp : lifeOutline.wp p (lifeOutline.ends l₀) (c.fired [.closed .closing] .default)) :
    lifeOutline.wp (do
      match ← isClosing with
      | true => endLoop
      | false => p) (lifeOutline.ends l₀) c :=
  wp_pollLife ⟨trivial, life_endLoop hl⟩ hp

lemma life_readerTail {pending : Bytes} {readErr : Option Err}
    (hc : lifeOutline.pre (.reader pending) c) :
    lifeOutline.wp (readerTail cfg pending readErr) (lifeOutline.ends l₀) c := by
  have hl := hc.2.1
  cases readErr with
  | none => exact life_unlessClosing hl hc
  | some readErr =>
    refine life_unlessClosing hl ?_
    split
    · exact life_failRead hl
    · split
      · exact life_failRead hl
      · refine ⟨Or.inr (Or.inl hc.2.2), fun _ _ => ?_⟩
        exact (Outline.wp_bind maybeFinishGraceful _ _ _).mpr
          (life_maybeFinishGraceful fun c' hk _ => life_endLoop (hk.loop.trans hl))

lemma life_readerGot {pending data : Bytes} {readErr : Option Err}
    (hc : lifeOutline.pre (.reader pending) c) :
    lifeOutline.wp (readerGot cfg pending data readErr) (lifeOutline.ends l₀) c := by
  simp only [readerGot]
  split
  · exact life_readerTail hc
  · exact hc

lemma life_reader {pending : Bytes} (hc : lifeOutline.pre (.reader pending) c) :
    lifeOutline.wp (reader cfg pending) (lifeOutline.ends l₀) c := by
  have hl := hc.2.1
  simp only [reader]
  split
  · refine ⟨trivial, ?_⟩
    rintro (_ | e) -
    · refine ⟨trivial, ?_⟩
      rintro ⟨data, readErr⟩ -
      refine ⟨trivial, fun clearErr _ => ?_⟩
      cases clearErr with
      | none => exact life_readerGot hc
      | some e =>
        cases readErr with
        | none => exact life_failRead hl
        | some e' => exact life_readerGot hc
    · exact life_failRead hl
  · exact ⟨trivial, fun r _ => life_readerGot hc⟩

lemma life_afterDecode {pending : Bytes} {consumed : ℕ} {readErr : Option Err}
    (hc : lifeOutline.pre (.reader pending) c) :
    lifeOutline.wp (afterDecode cfg pending consumed readErr) (lifeOutline.ends l₀) c := by
  simp only [afterDecode]
  split
  · exact ⟨trivial, fun _ _ => life_failRead hc.2.1⟩
  · exact life_readerTail hc

lemma life_decoding {pending : Bytes} {consumed : ℕ} {readErr : Option Err}
    (hc : lifeOutline.pre (.reader pending) c) :
    lifeOutline.wp (decoding cfg pending consumed readErr) (lifeOutline.ends l₀) c := by
  have hl := hc.2.1
  simp only [decoding]
  split
  · refine ⟨trivial, ?_⟩
    rintro (e | ⟨msg, k⟩) -
    · show lifeOutline.wp (if _ then _ else _) _ _
      split
      · exact life_afterDecode hc
      · exact ⟨trivial, fun _ _ => life_failRead hl⟩
    · show lifeOutline.wp (if _ then _ else _) _ _
      split
      · exact ⟨trivial, fun _ _ => life_failRead hl⟩
      · cases msg.validate with
        | error e => exact ⟨trivial, fun _ _ => life_failRead hl⟩
        | ok _ =>
          exact ⟨trivial, fun _ _ => ⟨trivial, fun _ _ => ⟨hc.2.2, fun _ _ => ⟨trivial,
            fun _ _ => life_unlessClosing hl hc⟩⟩⟩⟩
  · exact life_afterDecode hc

lemma life_markTerminal {Q : Unit → Life → Prop} (ho : c.isOver = true) (hw : c.waited = true)
    (hQ : ∀ c', c.Keeps c' → Q () c') : lifeOutline.wp markTerminal Q c :=
  ⟨ho, fun _ _ => ⟨Or.inr (Or.inr (Or.inr hw)), fun _ _ => ⟨Or.inl ho, fun _ _ =>
    ⟨trivial, fun _ _ => hQ _ ⟨rfl, rfl, rfl⟩⟩⟩⟩⟩

lemma life_settleTerminal {Q : Unit → Life → Prop} (hw : c.waited = true)
    (hQ : ∀ c', c.Keeps c' → Q () c') : lifeOutline.wp settleTerminal Q c := by
  refine wp_pollLife ⟨trivial, hQ _ ⟨rfl, rfl, rfl⟩⟩ ?_
  refine wp_pollLife ⟨trivial, life_markTerminal rfl hw fun c' hk => hQ c' ⟨hk.1, hk.2, hk.3⟩⟩ ?_
  refine (Outline.wp_bind (initiateClose none) _ _ _).mpr
    (life_initiateClose fun c' hk ho _ => ?_)
  exact life_markTerminal ho (hk.waited.trans hw) fun c'' hk' => hQ c''
    ⟨hk'.entry.trans hk.entry, hk'.loop.trans hk.loop, hk'.waited.trans hk.waited⟩

lemma life_finalize {Q : Unit → Life → Prop} (hw : c.waited = true) (hQ : ∀ c', Q () c') :
    lifeOutline.wp finalize Q c := by
  refine ⟨trivial, ?_⟩
  rintro (_ | _) -
  · exact hQ _
  · refine (Outline.wp_bind (settleTerminal >>= _) _ _ _).mpr ((Outline.wp_bind settleTerminal _ _
      _).mpr (life_settleTerminal hw fun _ _ => ?_))
    exact ⟨trivial, fun _ _ => ⟨trivial, fun _ _ => ⟨trivial, fun _ _ => ⟨trivial, fun _ _ =>
      ⟨trivial, fun _ _ => ⟨trivial, fun _ _ => hQ _⟩⟩⟩⟩⟩⟩

lemma life_finalizer : lifeOutline.wp finalizer (lifeOutline.ends l₀) c :=
  ⟨trivial, fun _ _ => (Outline.wp_bind finalize _ _ _).mpr
    (life_finalize rfl fun c' => Life.post_unit c')⟩

lemma life_watchdog (hl : c.loop = true) : lifeOutline.wp watchdog (lifeOutline.ends l₀) c :=
  wp_selectLife ⟨⟨trivial, life_endLoop hl⟩, ⟨trivial, fun _ =>
    (Outline.wp_bind (initiateClose _) _ _ _).mpr
      (life_initiateClose fun _ hk _ _ => life_endLoop (hk.loop.trans hl))⟩⟩

/-- Every program of a stream session keeps to the outline of its lifecycle. -/
lemma life_body (l : SLabel) (hc : lifeOutline.pre l c) :
    lifeOutline.wp (body cfg l) (lifeOutline.ends l₀) c := by
  cases l with
  | send ctx msg | trySend msg =>
    cases hc
    exact life_sender rfl trivial
  | acquireLocal a | acquireGlobal a => exact life_sender rfl hc
  | closeWrite ctx => exact life_closeWrite ctx
  | shutdown ctx => exact life_shutdown ctx
  | close =>
    cases hc
    exact life_close rfl
  | requestShutdown =>
    exact (Outline.wp_bind requestShutdown _ _ _).mpr
      (life_requestShutdown fun _ => Life.post_unit c)
  | writerLoop =>
    cases hc
    exact ⟨⟨rfl, rfl, rfl, nofun⟩, rfl⟩
  | writer at_ => exact life_writer hc
  | writing at_ i req rest => exact life_writing hc
  | writerExit => exact wp_selectLife ⟨trivial, hc⟩
  | failPending e => exact life_failPending hc
  | readerLoop =>
    cases hc
    exact ⟨trivial, fun _ _ => ⟨trivial, fun _ _ => life_unlessClosing rfl ⟨trivial, rfl, rfl⟩⟩⟩
  | reader pending => exact life_reader hc
  | decoding pending consumed readErr => exact life_decoding hc
  | watchdog =>
    cases hc
    exact life_watchdog rfl
  | finalizer => exact life_finalizer
  | _ => exact Life.post_unit c

end Conn

end Ogrenet
