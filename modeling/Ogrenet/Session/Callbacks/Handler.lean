import Mathlib.Data.List.Induction
import Ogrenet.Interleaving.Trace
import Ogrenet.Session.Parts.Steps
import Ogrenet.Session.Resources.Hand

/-!
# The handler of a session

The order in which a handler is to be called, as a partial state machine over the starts and returns
of its callbacks, and the outline of the goroutines that call it: the reader, and after all loops
have ended the finalizer.
-/

namespace Ogrenet

open Interleaving Interleaving.Prog

/-- The start or the return of a callback. -/
inductive Mark where
  | begins (cb : Callback)
  | ends (cb : Callback)
  deriving DecidableEq, Repr

def SInstr.mark : SInstr → Option Mark
  | .callBegin cb => some (.begins cb)
  | .callEnd cb => some (.ends cb)
  | _ => none

/-- What the handler has seen so far. -/
inductive HandlerState where
  | fresh
  | busy (cb : Callback)
  | opened
  | closed
  deriving DecidableEq, Repr

/-- The state of the handler once a callback has returned. -/
def Callback.after : Callback → HandlerState
  | .onClose _ => .closed
  | _ => .opened

/-- `OnOpen`, any number of `OnMessage`, then `OnClose`, each returning before the next starts. -/
def HandlerState.next : HandlerState → Mark → Option HandlerState
  | .fresh, .begins .onOpen => some (.busy .onOpen)
  | .opened, .begins (.onMessage msg) => some (.busy (.onMessage msg))
  | .opened, .begins (.onClose e) => some (.busy (.onClose e))
  | .busy cb, .ends cb' => if cb = cb' then some cb.after else none
  | _, _ => none

/-- The starts and returns of callbacks among the steps of a run. -/
def marksOf (steps : List (Sigma SInstr.Resp)) : List Mark := steps.filterMap fun a => a.1.mark

/-- The state of the handler after some steps, if they call it in the right order. -/
def handlerAfter (steps : List (Sigma SInstr.Resp)) : Option HandlerState :=
  (marksOf steps).foldlM HandlerState.next .fresh

lemma handlerAfter_concat (steps : List (Sigma SInstr.Resp)) (a : Sigma SInstr.Resp) :
    handlerAfter (steps ++ [a]) =
      (handlerAfter steps).bind fun h => (a.1.mark).elim (some h) h.next := by
  rw [handlerAfter, handlerAfter, marksOf, List.filterMap_append, List.foldlM_append]
  cases ha : a.1.mark with
  | none => simp [ha, marksOf]
  | some m => simp [ha, marksOf]

/-! ### What an ordered handler has seen -/

/-- The calls of a handler up to some messages, and up to its end. -/
def openCalls (msgs : List Message) : List Mark :=
  [Mark.begins .onOpen, Mark.ends .onOpen] ++
    msgs.flatMap fun msg => [Mark.begins (.onMessage msg), Mark.ends (.onMessage msg)]

def allCalls (msgs : List Message) (e : Option Err) : List Mark :=
  openCalls msgs ++ [Mark.begins (.onClose e), Mark.ends (.onClose e)]

lemma openCalls_concat (msgs : List Message) (msg : Message) : openCalls (msgs ++ [msg]) =
    openCalls msgs ++ [Mark.begins (.onMessage msg), Mark.ends (.onMessage msg)] := by
  simp [openCalls]

/-- The calls that lead to a state of the handler. -/
def HandlerState.Seen : HandlerState → List Mark → Prop
  | .fresh, ms => ms = []
  | .busy .onOpen, ms => ms = [.begins .onOpen]
  | .busy (.onMessage msg), ms => ∃ msgs, ms = openCalls msgs ++ [Mark.begins (.onMessage msg)]
  | .busy (.onPacket _), _ => False
  | .busy (.onClose e), ms => ∃ msgs, ms = openCalls msgs ++ [Mark.begins (.onClose e)]
  | .opened, ms => ∃ msgs, ms = openCalls msgs
  | .closed, ms => ∃ msgs e, ms = allCalls msgs e

lemma HandlerState.Seen.next {h h' : HandlerState} {m : Mark} {ms : List Mark} (hseen : h.Seen ms)
    (hm : h.next m = some h') : h'.Seen (ms ++ [m]) := by
  cases h with
  | fresh =>
    cases m with
    | begins cb =>
      cases cb <;> cases hm
      rw [show ms = [] from hseen]
      rfl
    | ends cb => cases hm
  | opened =>
    obtain ⟨msgs, rfl⟩ := hseen
    cases m with
    | begins cb => cases cb <;> cases hm <;> exact ⟨msgs, rfl⟩
    | ends cb => cases hm
  | busy cb =>
    cases m with
    | begins cb' => cases hm
    | ends cb' =>
      obtain ⟨rfl, hafter⟩ := Option.ite_none_right_eq_some.mp hm
      cases hafter
      cases cb with
      | onOpen =>
        rw [show ms = [.begins .onOpen] from hseen]
        exact ⟨[], rfl⟩
      | onMessage msg =>
        obtain ⟨msgs, rfl⟩ := hseen
        exact ⟨msgs ++ [msg], by simp [openCalls_concat]⟩
      | onPacket data => exact hseen.elim
      | onClose e =>
        obtain ⟨msgs, rfl⟩ := hseen
        exact ⟨msgs, e, by simp [allCalls]⟩
  | closed => cases m <;> cases hm

lemma seen_of_handlerAfter {steps : List (Sigma SInstr.Resp)} {h : HandlerState}
    (hh : handlerAfter steps = some h) : h.Seen (marksOf steps) := by
  suffices hall : ∀ (ms : List Mark) h, ms.foldlM HandlerState.next .fresh = some h → h.Seen ms from
    hall _ h hh
  intro ms
  induction ms using List.reverseRecOn with
  | nil =>
    intro h hh
    cases hh
    rfl
  | append_singleton ms m ih =>
    intro h hh
    rw [List.foldlM_append] at hh
    obtain ⟨h₁, hh₁, hm⟩ := Option.bind_eq_some_iff.mp hh
    exact (ih h₁ hh₁).next (by simpa using hm)

/-- An ordered handler has seen the beginning of a whole session. -/
lemma HandlerState.Seen.isPrefix {h : HandlerState} {ms : List Mark} (hseen : h.Seen ms) :
    ∃ msgs e, ms <+: allCalls msgs e := by
  cases h with
  | fresh =>
    rw [show ms = [] from hseen]
    exact ⟨[], none, List.nil_prefix⟩
  | opened =>
    obtain ⟨msgs, rfl⟩ := hseen
    exact ⟨msgs, none, _, rfl⟩
  | busy cb =>
    cases cb with
    | onOpen =>
      rw [show ms = [.begins .onOpen] from hseen]
      exact ⟨[], none, _, rfl⟩
    | onMessage msg =>
      obtain ⟨msgs, rfl⟩ := hseen
      refine ⟨msgs ++ [msg], none, [.ends (.onMessage msg), .begins (.onClose none),
        .ends (.onClose none)], ?_⟩
      simp [allCalls, openCalls_concat]
    | onPacket data => exact hseen.elim
    | onClose e =>
      obtain ⟨msgs, rfl⟩ := hseen
      exact ⟨msgs, e, [.ends (.onClose e)], by simp [allCalls]⟩
  | closed =>
    obtain ⟨msgs, e, rfl⟩ := hseen
    exact ⟨msgs, e, List.prefix_rfl⟩

/-! ### The outline -/

/-- What matters of a goroutine to the handler. -/
structure Calling where
  entry : SLabel
  /-- It is a loop that has not ended. -/
  loop : Bool := false
  /-- Where its own calls have brought the handler. The finalizer finds it open. -/
  state : Option HandlerState := some .fresh
  waited : Bool := false
  /-- It knows that `ReadClosed` is closed. -/
  readShut : Bool := false

namespace Calling

def start (l : SLabel) : Calling :=
  { entry := l, loop := l.isLoop, state := some (if l = .finalizer then .opened else .fresh) }

def fired : Fired → Calling → Calling
  | .closed .terminal, c => { c with readShut := true }
  | _, c => c

def upd : (i : SInstr) → i.Resp → Calling → Calling
  | .callBegin cb, _, c => { c with state := c.state.bind (HandlerState.next · (.begins cb)) }
  | .callEnd cb, _, c => { c with state := c.state.bind (HandlerState.next · (.ends cb)) }
  | .loopDone, _, c => { c with loop := false }
  | .waitLoops, _, c => { c with waited := true }
  | .signal .readDone, _, c => { c with readShut := true }
  | .select _ _, r, c => c.fired r
  | _, _, c => c

/-- A loop that has ended does nothing any more. -/
def Running (c : Calling) : Prop := c.entry.isLoop = true → c.loop = true

/-- Who calls the handler. -/
def mayCall (kind : SessionKind) (c : Calling) : Callback → Prop
  | .onClose _ => c.entry = .finalizer ∧ c.waited = true ∧ (kind = .conn → c.readShut = true)
  | _ => c.entry = .readerLoop

def special (kind : SessionKind) : SInstr → Calling → Prop
  | .callBegin cb, c =>
    c.mayCall kind cb ∧ (c.state.bind (HandlerState.next · (.begins cb))).isSome = true
  | .callEnd cb, c =>
    c.mayCall kind cb ∧ (c.state.bind (HandlerState.next · (.ends cb))).isSome = true
  | .loopDone, c => c.loop = true ∧ (c.entry = .readerLoop → c.state = some .opened)
  | .signal .terminal, c => c.readShut = true
  | .signal .done, c => c.entry = .finalizer ∧ c.state = some .closed
  | _, _ => True

/-- The reader, whose calls have brought the handler to `st`. -/
structure Reads (st : HandlerState) (c : Calling) : Prop where
  entry : c.entry = .readerLoop
  loop : c.loop = true
  state : c.state = some st

/-- A goroutine that does not call the handler. -/
structure Plays (r : Role) (c : Calling) : Prop where
  role : c.entry.role = r
  loop : r.isLoop = true → c.loop = true

def pre : SLabel → Calling → Prop
  | .readerLoop, c => c.Reads .fresh
  | .reader _, c | .decoding .., c => c.Reads .opened
  | .finalizer, c => c = start .finalizer
  | l, c => c.Plays l.role

end Calling

/-- The outline of the calls of the handler. -/
def callOutline (kind : SessionKind) : Outline SInstr SInstr.Resp SLabel SVal Calling where
  start := Calling.start
  upd i r c := c.upd i r
  req i c := c.Running ∧ c.special kind i
  ans
    | .select cases dflt, r, _ => Fired.From cases dflt r
    | _, _, _ => True
  pre := Calling.pre
  post _ v c := c.entry.isLoop = true → v = .unit

/-- The step neither calls the handler nor ends anything. -/
def SInstr.ordinary : SInstr → Bool
  | .callBegin _ | .callEnd _ | .loopDone | .signal .terminal | .signal .done => false
  | _ => true

lemma SLabel.isLoop_role {l : SLabel} (h : l.isLoop = true) : l.role.isLoop = true := by
  cases l <;> first | rfl | cases h

namespace Calling

variable {kind : SessionKind} {c c' : Calling}

/-- Nothing has changed but what the goroutine knows. -/
structure Same (c c' : Calling) : Prop where
  entry : c'.entry = c.entry
  loop : c'.loop = c.loop
  state : c'.state = c.state
  waited : c.waited = true → c'.waited = true
  readShut : c.readShut = true → c'.readShut = true

lemma Same.refl (c : Calling) : c.Same c := ⟨rfl, rfl, rfl, id, id⟩

lemma Same.trans {c'' : Calling} (h : c.Same c') (h' : c'.Same c'') : c.Same c'' :=
  ⟨h'.entry.trans h.entry, h'.loop.trans h.loop, h'.state.trans h.state,
    fun hw => h'.waited (h.waited hw), fun hr => h'.readShut (h.readShut hr)⟩

lemma Same.running (h : c.Same c') (hc : c.Running) : c'.Running := by
  intro hl
  rw [h.loop]
  exact hc (h.entry ▸ hl)

lemma Same.reads {st : HandlerState} (h : c.Same c') (hc : c.Reads st) : c'.Reads st :=
  ⟨h.entry.trans hc.entry, h.loop.trans hc.loop, h.state.trans hc.state⟩

lemma Same.plays {role : Role} (h : c.Same c') (hc : c.Plays role) : c'.Plays role :=
  ⟨(congrArg SLabel.role h.entry).trans hc.role, fun hl => h.loop.trans (hc.loop hl)⟩

lemma Reads.running {st : HandlerState} (hc : c.Reads st) : c.Running := fun _ => hc.loop

lemma Plays.running {role : Role} (hc : c.Plays role) : c.Running := fun hl =>
  hc.loop (hc.role ▸ SLabel.isLoop_role hl)

lemma special_of_ordinary {i : SInstr} (hi : i.ordinary = true) : c.special kind i := by
  cases i with
  | callBegin cb | callEnd cb | loopDone => cases hi
  | signal ch => cases ch <;> trivial
  | _ => trivial

lemma fired_same (r : Fired) : c.Same (c.fired r) := by
  cases r with
  | closed ch => cases ch <;> exact ⟨rfl, rfl, rfl, id, by simp [fired]⟩
  | _ => exact .refl c

lemma upd_same {i : SInstr} (hi : i.ordinary = true) (r : i.Resp) : c.Same (c.upd i r) := by
  cases i with
  | callBegin cb | callEnd cb | loopDone => cases hi
  | signal ch => cases ch <;> first | exact .refl c | exact ⟨rfl, rfl, rfl, id, fun _ => rfl⟩
  | waitLoops => exact ⟨rfl, rfl, rfl, fun _ => rfl, id⟩
  | select cases dflt => exact fired_same r
  | _ => exact .refl c

end Calling

end Ogrenet
