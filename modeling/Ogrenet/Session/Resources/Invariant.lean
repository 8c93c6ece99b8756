import Ogrenet.Session.Resources.Hand

/-!
# The resources of a session

`Resources` relates the shared state of a session to what its goroutines have in hand. It is cut
into groups over the parts of the state they speak of, so that a step only has to argue for the
groups it touches.
-/

namespace Ogrenet

open Interleaving Interleaving.Prog

/-! ### The invariant -/

/-- What the hands know of a single goroutine, whatever the shared state. -/
structure Hand.Ok (cfg : SessionConfig) (h : Hand) : Prop where
  /-- Only the writer holds anything outside the gate. -/
  outside : h.inGate = false → h.entry ≠ .writerLoop → h.Free
  gate : h.entry = .writerLoop → h.inGate = false
  /-- The writer leaves its loop with empty hands. -/
  ended : h.entry = .writerLoop → h.loop = false →
    h.sawEmpty = true ∧ h.Free ∧ h.Acked ∧ h.Counted
  /-- The request in hand owns exactly what is held. -/
  spending : ∀ e ∈ h.spent.head?, e.slots + h.slots = 1 ∧ e.own + h.own = e.req.bytes ∧
    e.shared + h.shared = cfg.globalCharge e.req.bytes ∧ e.acks ≤ e.req.acks
  settled : ∀ e ∈ h.spent.tail, e.Settled cfg
  sender : h.entry ≠ .writerLoop → h.spent = [] ∧ h.Counted
  one : h.slots ≤ 1

/-- What a goroutine has observed is still so. -/
structure Hand.Knows (cfg : SessionConfig) (sent : List Request) (results : List Bool)
    (drained : Bool) (loops : ℕ) (h : Hand) : Prop where
  pushed : ∀ i req, h.pushed = some (i, req) →
    sent[i]? = some req ∧ Carries cfg h.encoded req h.entry
  confirmed : ∀ i, h.confirmed = some i → results[i]? = some true
  drained : h.sawDrained = true → drained = true
  waited : h.waited = true → loops = 0

/-- The writer has taken the first `received` requests off the queue, in order. -/
structure Hand.Consumed (sent : List Request) (received : ℕ) (results : List Bool) (drained : Bool)
    (h : Hand) : Prop where
  indices : h.spent.map Spent.index = (List.range received).reverse
  reqs : ∀ e ∈ h.spent, sent[e.index]? = some e.req
  result_eq : ∀ e ∈ h.spent, results[e.index]? = e.result
  empty : h.sawEmpty = true → drained = true ∧ sent.length ≤ received

/-- The gate, the slots and the byte budgets are shared out between the hands and the queue. -/
structure Budgets (cfg : SessionConfig) (gate : SendGate) (slots : ℕ) (queue : List Request)
    (quota global : ByteQuota) (others : ℕ) (cs : List Hand) : Prop where
  active : gate.active = total (fun h => h.inGate.toNat) cs
  drained : gate.drained = (gate.closed && gate.active == 0)
  slots : slots = total Hand.slots cs + queue.length
  own : quota.used = total Hand.own cs + total Request.bytes queue
  shared : global.used =
    others + total Hand.shared cs + total (fun r => cfg.globalCharge r.bytes) queue
  limit : global.limit = cfg.maxQueuedBytesTotal

/-- The requests whose write returned nil. -/
def writtenOf (sent : List Request) (results : List Bool) : List Request :=
  ((sent.zip results).filter Prod.snd).map Prod.fst

/-- Acks, and the counters of what was written. -/
structure Records (kind : SessionKind) (sent : List Request) (acks : List (Option (Option Err)))
    (results : List Bool) (bytesTX messagesTX : ℕ) (cs : List Hand) : Prop where
  acks_length : acks.length = sent.length
  acked : ∀ i : ℕ, acks[i]? = some (some none) → results[i]? = some true
  bytes : bytesTX + total Hand.owedBytes cs =
    total kind.txBytes (writtenOf sent results)
  messages : messagesTX + total Hand.owedMessages cs = (writtenOf sent results).length

def Hand.writers (h : Hand) : ℕ := if h.entry = .writerLoop then 1 else 0

/-- There is one writer, and `done` is closed after all loops have ended. -/
structure Loops (n : ℕ) (done : Bool) (cs : List Hand) : Prop where
  one : total Hand.writers cs = 1
  loops : n = total (fun h => h.loop.toNat) cs
  done : done = true → n = 0

structure Resources (kind : SessionKind) (cfg : SessionConfig) (s : Session) (cs : List Hand) :
    Prop where
  hands : ∀ h ∈ cs, h.Ok cfg
  budgets : Budgets cfg s.gate s.slots s.queue s.quota s.global s.others cs
  knows : ∀ h ∈ cs, h.Knows cfg s.sent s.results s.gate.drained s.loops
  received_le : s.received ≤ s.sent.length
  results_le : s.results.length ≤ s.received
  consumed : ∀ h ∈ cs, h.entry = .writerLoop →
    h.Consumed s.sent s.received s.results s.gate.drained
  records : Records kind s.sent s.acks s.results (s.counters .bytesTX) (s.counters .messagesTX) cs
  loops : Loops s.loops (s.closed .done) cs

/-! ### The record of what was written -/

lemma writtenOf_concat {sent : List Request} {results : List Bool} {req : Request}
    (h : sent[results.length]? = some req) (ok : Bool) :
    writtenOf sent (results ++ [ok]) = writtenOf sent results ++ if ok then [req] else [] := by
  induction results generalizing sent with
  | nil =>
    cases sent with
    | nil => simp at h
    | cons a as =>
      cases h
      cases ok <;> simp [writtenOf]
  | cons b bs ih =>
    cases sent with
    | nil => simp at h
    | cons a as =>
      have ih' := @ih as (by simpa using h)
      simp only [writtenOf] at ih' ⊢
      cases b <;> simp [ih']

lemma writtenOf_append {sent : List Request} {results : List Bool}
    (h : results.length ≤ sent.length) (more : List Request) :
    writtenOf (sent ++ more) results = writtenOf sent results := by
  induction results generalizing sent with
  | nil => simp [writtenOf]
  | cons b bs ih =>
    cases sent with
    | nil => simp at h
    | cons a as =>
      have ih' := @ih as (by simpa using h)
      simp only [writtenOf] at ih' ⊢
      cases b <;> simp [ih']

/-- The request in hand, not yet written, is the first one without a result. -/
lemma Hand.Consumed.in_hand {sent : List Request} {received : ℕ} {results : List Bool}
    {drained : Bool} {h : Hand} (hc : h.Consumed sent received results drained) {e : Spent}
    {es : List Spent} (hsp : h.spent = e :: es) (hn : e.result = none)
    (hes : ∀ e' ∈ es, e'.result ≠ none) : received = e.index + 1 ∧ results.length = e.index := by
  have hi := hc.indices
  have hr := hc.result_eq
  rw [hsp] at hi hr
  obtain ⟨n, rfl⟩ : ∃ n, received = n + 1 := by
    cases received with
    | zero => simp at hi
    | succ n => exact ⟨n, rfl⟩
  rw [List.range_succ, List.reverse_append, List.map_cons] at hi
  obtain ⟨hindex, htail⟩ := List.cons.inj hi
  have hle : results.length ≤ e.index := List.getElem?_eq_none_iff.mp ((hr e (by simp)).trans hn)
  refine ⟨by rw [hindex], Nat.le_antisymm hle ?_⟩
  cases n with
  | zero => rw [hindex]; exact Nat.zero_le _
  | succ n =>
    -- the request before it has a result
    cases es with
    | nil => simp at htail
    | cons d ds =>
      rw [List.map_cons, List.range_succ, List.reverse_append] at htail
      have hd : d.index = n := (List.cons.inj htail).1
      have hsome := hes d (by simp)
      rw [← hr d (by simp), hd] at hsome
      have := List.getElem?_eq_none_iff.not.mp hsome
      omega

/-! ### Frames -/

section Frames

variable {kind : SessionKind} {cfg : SessionConfig} {cs : List Hand} {t : ℕ} {h h' : Hand}

lemma Loops.writer_eq {n : ℕ} {b : Bool} (hl : Loops n b cs) {i j : ℕ} {a d : Hand}
    (hi : cs[i]? = some a) (hj : cs[j]? = some d) (ha : a.entry = .writerLoop)
    (hd : d.entry = .writerLoop) : i = j := by
  by_contra hij
  have hle := add_le_total (f := Hand.writers) hij hi hj
  have hone := hl.one
  simp only [Hand.writers, ha, hd, if_true] at hle hone
  omega

lemma Loops.set {n n' : ℕ} {b b' : Bool} (hl : Loops n b cs) (ht : cs[t]? = some h)
    (he : h'.entry = h.entry) (hn : n' + h.loop.toNat = n + h'.loop.toNat)
    (hb : b' = true → n' = 0) : Loops n' b' (cs.set t h') := by
  have hloop := total_set (f := fun h : Hand => h.loop.toNat) h' ht
  have hle := le_total_of_getElem? (f := fun h : Hand => h.loop.toNat) ht
  have hloops := hl.loops
  refine ⟨?_, by omega, hb⟩
  rw [total_set_eq ht (by simp only [Hand.writers, he])]
  exact hl.one

/-- What the writer has consumed, after a step of some goroutine. -/
lemma consumed_set {n : ℕ} {b : Bool} (hl : Loops n b cs) (ht : cs[t]? = some h)
    {P P' : Hand → Prop} (hP : ∀ h ∈ cs, h.entry = .writerLoop → P h)
    (he : h'.entry = h.entry) (hother : h.entry ≠ .writerLoop → ∀ d, P d → P' d)
    (hself : h.entry = .writerLoop → P h → P' h') :
    ∀ d ∈ cs.set t h', d.entry = .writerLoop → P' d :=
  forall_mem_set_of_unique ht (fun hh _ _ hj hd => hl.writer_eq ht hj hh hd) (fun hw => he ▸ hw) hP
    (fun hne d _ => hother hne d) hself

lemma Records.set {sent : List Request} {acks : List (Option (Option Err))} {results : List Bool}
    {b m : ℕ} (hr : Records kind sent acks results b m cs)
    (ht : cs[t]? = some h) (hb : h'.owedBytes = h.owedBytes)
    (hm : h'.owedMessages = h.owedMessages) :
    Records kind sent acks results b m (cs.set t h') :=
  ⟨hr.acks_length, hr.acked, by rw [total_set_eq ht hb]; exact hr.bytes,
    by rw [total_set_eq ht hm]; exact hr.messages⟩

lemma Budgets.set {gate : SendGate} {slots others : ℕ} {queue : List Request}
    {quota global : ByteQuota} (hb : Budgets cfg gate slots queue quota global others cs)
    (ht : cs[t]? = some h) (hg : h'.inGate = h.inGate) (hs : h'.slots = h.slots)
    (ho : h'.own = h.own) (hsh : h'.shared = h.shared) :
    Budgets cfg gate slots queue quota global others (cs.set t h') := by
  refine ⟨?_, hb.drained, ?_, ?_, ?_, hb.limit⟩
  · rw [total_set_eq ht (by rw [hg])]
    exact hb.active
  · rw [total_set_eq ht hs]
    exact hb.slots
  · rw [total_set_eq ht ho]
    exact hb.own
  · rw [total_set_eq ht hsh]
    exact hb.shared

/-- A step that moves resources between the shared state and one hand, or the queue. -/
lemma Budgets.step {gate gate' : SendGate} {slots slots' others : ℕ} {queue queue' : List Request}
    {quota quota' global global' : ByteQuota}
    (hb : Budgets cfg gate slots queue quota global others cs) (ht : cs[t]? = some h)
    (hgate : gate'.active + h.inGate.toNat = gate.active + h'.inGate.toNat)
    (hdrained : gate'.drained = (gate'.closed && gate'.active == 0))
    (hslots : slots' + h.slots + queue.length = slots + h'.slots + queue'.length)
    (hown : quota'.used + h.own + total Request.bytes queue =
      quota.used + h'.own + total Request.bytes queue')
    (hshared : global'.used + h.shared + total (fun r => cfg.globalCharge r.bytes) queue =
      global.used + h'.shared + total (fun r => cfg.globalCharge r.bytes) queue')
    (hlimit : global'.limit = global.limit) :
    Budgets cfg gate' slots' queue' quota' global' others (cs.set t h') := by
  obtain ⟨h₁, -, h₂, h₃, h₄, h₅⟩ := hb
  have e₁ := total_set (f := fun h : Hand => h.inGate.toNat) h' ht
  have e₂ := total_set (f := Hand.slots) h' ht
  have e₃ := total_set (f := Hand.own) h' ht
  have e₄ := total_set (f := Hand.shared) h' ht
  exact ⟨by omega, hdrained, by omega, by omega, by omega, hlimit.trans h₅⟩

lemma Hand.Ok.of_sender (hne : h'.entry ≠ .writerLoop) (hsp : h'.spent = [] ∧ h'.Counted)
    (hout : h'.inGate = false → h'.Free) (hone : h'.slots ≤ 1) : h'.Ok cfg := by
  refine ⟨fun hg _ => hout hg, fun hw => absurd hw hne, fun hw => absurd hw hne, ?_, ?_,
    fun _ => hsp, hone⟩
  · simp [hsp.1]
  · simp [hsp.1]

/-- Giving something back for the request in hand. -/
lemma Hand.Ok.settle (hok : h.Ok cfg) {f : Spent → Spent} (he : h'.entry = h.entry)
    (hg : h'.inGate = h.inGate) (hl : h'.loop = h.loop) (hs : h'.sawEmpty = h.sawEmpty)
    (hspent : h'.spent = h.spent.modifyHead f) (hreq : ∀ e, (f e).req = e.req)
    (hslots : ∀ e, (f e).slots + h'.slots = e.slots + h.slots)
    (hown : ∀ e, (f e).own + h'.own = e.own + h.own)
    (hshared : ∀ e, (f e).shared + h'.shared = e.shared + h.shared)
    (hacks : ∀ e ∈ h.spent.head?, (f e).acks ≤ e.req.acks) (hfree : h.Free → h'.Free)
    (hcounted : h.Counted → h.entry ≠ .writerLoop ∨ h.loop = false → h'.Counted)
    (hacked : h.entry = .writerLoop → h.loop = false → h.Acked → h'.Acked)
    (hone : h'.slots ≤ h.slots) : h'.Ok cfg := by
  refine ⟨?_, ?_, ?_, ?_, ?_, ?_, Nat.le_trans hone hok.one⟩
  · rw [he, hg]
    exact fun h₁ h₂ => hfree (hok.outside h₁ h₂)
  · rw [he, hg]
    exact hok.gate
  · rw [he, hl, hs]
    intro h₁ h₂
    obtain ⟨h₃, h₄, h₅, h₆⟩ := hok.ended h₁ h₂
    exact ⟨h₃, hfree h₄, hacked h₁ h₂ h₅, hcounted h₆ (Or.inr h₂)⟩
  · intro e he'
    rw [hspent, List.head?_modifyHead, Option.mem_def, Option.map_eq_some_iff] at he'
    obtain ⟨d, hd, rfl⟩ := he'
    obtain ⟨h₁, h₂, h₃, -⟩ := hok.spending d hd
    rw [hslots, hown, hshared, hreq]
    exact ⟨h₁, h₂, h₃, hacks d hd⟩
  · rw [hspent, List.tail_modifyHead]
    exact hok.settled
  · rw [he]
    intro hw
    obtain ⟨hsp, hc⟩ := hok.sender hw
    rw [hspent, hsp]
    exact ⟨rfl, hcounted hc (Or.inl hw)⟩

/-- Counting what was written. -/
lemma Hand.Ok.recount (hok : h.Ok cfg) {owedBytes owedMessages : ℕ}
    (hb : owedBytes ≤ h.owedBytes) (hm : owedMessages ≤ h.owedMessages) :
    Hand.Ok cfg { h with owedBytes, owedMessages } := by
  have hc : h.Counted → owedBytes = 0 ∧ owedMessages = 0 := fun ⟨h₁, h₂⟩ => by omega
  refine ⟨hok.1, hok.2, fun hw hl => ?_, hok.4, hok.5, fun hne => ?_, hok.7⟩
  · obtain ⟨h₁, h₂, h₃, h₄⟩ := hok.ended hw hl
    exact ⟨h₁, h₂, h₃, hc h₄⟩
  · exact ⟨(hok.sender hne).1, hc (hok.sender hne).2⟩

/-- Booking on the request in hand changes none of what the writer has consumed. -/
lemma Hand.Consumed.settle {sent : List Request} {received : ℕ} {results : List Bool}
    {drained : Bool} (hc : h.Consumed sent received results drained) {f : Spent → Spent}
    (hs : h'.sawEmpty = h.sawEmpty) (hspent : h'.spent = h.spent.modifyHead f)
    (hf : ∀ e, (f e).index = e.index ∧ (f e).req = e.req ∧ (f e).result = e.result) :
    h'.Consumed sent received results drained := by
  obtain ⟨h₁, h₂, h₃, h₄⟩ := hc
  rw [← hs] at h₄
  cases hsp : h.spent with
  | nil =>
    simp only [hsp, List.modifyHead_nil] at hspent h₁ h₂ h₃
    exact ⟨by rw [hspent]; exact h₁, by simp [hspent], by simp [hspent], h₄⟩
  | cons e es =>
    obtain ⟨hi, hr, hres⟩ := hf e
    simp only [hsp, List.modifyHead_cons] at hspent
    simp only [hsp, List.forall_mem_cons] at h₂ h₃
    rw [hsp] at h₁
    refine ⟨?_, ?_, ?_, h₄⟩
    · rw [hspent, ← h₁, List.map_cons, List.map_cons, hi]
    · rw [hspent, List.forall_mem_cons, hi, hr]
      exact h₂
    · rw [hspent, List.forall_mem_cons, hi, hres]
      exact h₃

lemma Hand.Knows.mono {sent sent' : List Request} {results results' : List Bool}
    {drained drained' : Bool} {loops loops' : ℕ} (hk : h.Knows cfg sent results drained loops)
    (hsent : sent <+: sent') (hres : results <+: results') (hd : drained = true → drained' = true)
    (hl : loops' ≤ loops) : h.Knows cfg sent' results' drained' loops' := by
  refine ⟨fun i req hp => ?_, fun i hi => ?_, fun hs => hd (hk.drained hs), fun hw => ?_⟩
  · exact ⟨getElem?_mono hsent (hk.pushed i req hp).1, (hk.pushed i req hp).2⟩
  · exact getElem?_mono hres (hk.confirmed i hi)
  · have := hk.waited hw
    omega

end Frames

/-! ### Steps that touch none of it -/

def Case.neutral : Case → Bool
  | .ctxDone _ | .closed _ | .encoder | .changedLocal _ | .changedGlobal _ | .timer => true
  | _ => false

/-- The step neither needs nor changes what a goroutine has in hand. -/
def SInstr.neutral : SInstr → Bool
  | .gateEnter | .gateLeave | .releaseSlot | .encode _ | .localSection _ | .localTry _
  | .localRelease _ | .globalSection _ | .globalTry _ | .globalRelease _ | .setWriteDeadline
  | .rawWrite _ | .wsWrite _ | .packetWrite _ | .wrote _
  | .count .bytesTX _ | .count .messagesTX _ | .ack _ _ | .loopDone | .waitLoops
  | .signal .done => false
  | .select cases _ => cases.all Case.neutral
  | _ => true

lemma offersPop_of_neutral {cases : List Case} (h : cases.all Case.neutral = true) :
    offersPop cases = false := by
  induction cases with
  | nil => rfl
  | cons c cs ih =>
    simp only [List.all_cons, Bool.and_eq_true] at h
    cases c with
    | pop => exact absurd h.1 (by decide)
    | _ => exact ih h.2

lemma Hand.req_neutral {kind : SessionKind} {cfg : SessionConfig} {i : SInstr}
    (hi : i.neutral = true) (h : Hand) : h.req kind cfg i := by
  cases i with
  | select cases dflt =>
    intro c hc
    have hn := List.all_eq_true.mp hi c hc
    cases c <;> trivial
  | count c n => cases c <;> trivial
  | signal ch => cases ch <;> trivial
  | _ => trivial

lemma Hand.fired_neutral {cfg : SessionConfig} {cases : List Case} {dflt : Bool} {r : Fired}
    (hc : cases.all Case.neutral = true) (hr : r.From cases dflt) (h : Hand) :
    h.fired cfg cases r = h := by
  obtain ⟨c, hmem, hr⟩ | ⟨-, rfl⟩ := hr
  · have hn := List.all_eq_true.mp hc c hmem
    refine hr (fun r => h.fired cfg cases r = h) ?_
    cases c <;> first | rfl | exact fun _ => rfl | cases hn
  · simp only [Hand.fired, offersPop_of_neutral hc, Bool.and_false, Bool.or_false]

lemma Hand.upd_neutral {kind : SessionKind} {cfg : SessionConfig} {i : SInstr} {r : i.Resp}
    (hi : i.neutral = true) (h : Hand) (hr : (resourceOutline kind cfg).ans i r h) :
    h.upd kind cfg i r = h := by
  cases i with
  | select cases dflt => exact Hand.fired_neutral hi hr h
  | count c n => cases c <;> first | rfl | cases hi
  | signal ch => cases ch <;> rfl
  | _ => first | rfl | cases hi

/-- The part of the state that `Resources` speaks of. -/
def Session.view (s : Session) :=
  (s.gate, s.slots, s.sent, s.received, s.acks, s.quota, s.global, s.others, s.results,
    s.counters .bytesTX, s.counters .messagesTX, s.loops, s.closed .done)

lemma Session.fire_view {cfg : SessionConfig} {s s' : Session} {x : Choice} {c : Case} {r : Fired}
    (hc : c.neutral = true) (h : s.fire cfg x c = some (s', r)) : s'.view = s.view := by
  cases c with
  | ctxDone k =>
    obtain ⟨e, -, h⟩ := Option.map_eq_some_iff.mp h
    cases h
    rfl
  | closed ch =>
    obtain ⟨-, h⟩ := Option.ite_none_right_eq_some.mp h
    cases h
    rfl
  | timer =>
    cases h
    rfl
  | encoder | changedLocal g | changedGlobal g =>
    obtain ⟨-, h⟩ := Option.ite_none_left_eq_some.mp h
    cases h
    rfl
  | _ => cases hc

lemma Session.close_view (s : Session) {ch : Signal} (h : ch ≠ .done) :
    (s.close ch).view = s.view := by
  simp [view, close, Function.update_of_ne h.symm]

lemma Session.exec_view {cfg : SessionConfig} {s s' : Session} {x : Choice} {i : SInstr}
    {r : i.Resp} (hi : i.neutral = true) (hg : i ≠ .gateClose)
    (h : s.exec cfg x i = some (s', r)) : s'.view = s.view := by
  cases i with
  | gateClose => exact absurd rfl hg
  | select cases dflt =>
    obtain ⟨c, hc, h⟩ | ⟨-, -, rfl, -⟩ := select_cases h
    · exact fire_view (List.all_eq_true.mp hi c hc) h
    · rfl
  | signal ch =>
    cases h
    exact close_view s (fun hch => by subst hch; cases hi)
  | count c n =>
    cases h
    cases c <;> first | rfl | cases hi
  | releaseEncoder =>
    obtain ⟨-, h⟩ := Option.ite_none_right_eq_some.mp h
    cases h
    rfl
  | request goal | abortSection reason publish | tryTerminal | deferRead e =>
    simp only [exec] at h
    split at h <;> cases h <;> rfl
  | onceEnter o =>
    simp only [exec] at h
    split at h <;> cases h <;> rfl
  | decodeOne src | wsRead | wsDecode text payload =>
    simp only [exec] at h
    split at h <;> cases h <;> rfl
  | _ => first | (cases h; rfl) | cases hi

/-- A write of a message or a datagram touches the connection only. -/
lemma Session.exec_view_write {cfg : SessionConfig} {s s' : Session} {x : Choice} {req : Request}
    {r : Option Err} (h : s.exec cfg x (.wsWrite req) = some (s', r) ∨
      s.exec cfg x (.packetWrite req) = some (s', r)) : s'.view = s.view := by
  rcases h with h | h <;> simp only [exec] at h <;> split at h <;> cases h <;> rfl

end Ogrenet
