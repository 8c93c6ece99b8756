import Ogrenet.Session.Parts.Packet

/-!
# Who ends a session, read off the past

A goroutine ends a session by the step that settles the matter: an abort that was not too late, the
end of a graceful close, or, for a packet connection, being the first to enter `closeOnce`. Here are
the parts of a goroutine's past that matter to how the session ends, and the outline of it.
-/

namespace Ogrenet

open Interleaving Interleaving.Prog Ses

/-- The kinds of closers. -/
inductive Closer where
  | explicit
  | caller
  | failure
  | graceful
  deriving DecidableEq, Repr

def Closer.ofReason : AbortReason → Closer
  | .explicit => .explicit
  | .caller => .caller
  | .none | .failure => .failure

/-- The last `select` of the goroutine found the queue empty. -/
def foundEmpty : SLog → Bool
  | [] => false
  | ⟨.select cases _, r⟩ :: _ => cases == [.pop] && r == .default
  | _ :: log => foundEmpty log

/-- What it means that the goroutine closes a packet connection. -/
def packetCloser (c : SPast) : Closer :=
  match c.1.role with
  | .closer => .explicit
  | .contextWatcher => .caller
  | .writer => if foundEmpty c.2 then .graceful else .failure
  | _ => .failure

/-- The step ends the session, in the given way. -/
def winsAs (kind : SessionKind) (c : SPast) : Sigma SInstr.Resp → Option Closer
  | ⟨.abortSection reason _, true⟩ => some (.ofReason reason)
  | ⟨.tryTerminal, true⟩ => some .graceful
  | ⟨.onceEnter .close, true⟩ => if kind = .packet then some (packetCloser c) else none
  | _ => none

/-- The ways in which the goroutine has ended the session. -/
def wins (kind : SessionKind) (l : SLabel) : SLog → List Closer
  | [] => []
  | a :: log => (winsAs kind (l, log) a).toList ++ wins kind l log

/-- The step comes after the error of a packet connection was written, or is that write. -/
def SInstr.publishes : SInstr → Bool
  | .gateClose | .setErr _ => true
  | _ => false

/-- The goroutine has ended the session, and it will not change the error any more. -/
def settled (kind : SessionKind) (l : SLabel) : SLog → Bool
  | [] => false
  | a :: log => settled kind l log ||
    if kind = .packet then a.1.publishes && !(wins kind l log).isEmpty
    else (winsAs kind (l, log) a).isSome

/-- The channels that are closed only when a session ends. -/
def Signal.final : Signal → Bool
  | .closing | .aborted | .done | .terminal => true
  | _ => false

/-- The step shows that the session has been ended. -/
def showsEnd (kind : SessionKind) : Sigma SInstr.Resp → Bool
  | ⟨.abortSection _ _, _⟩ | ⟨.tryTerminal, _⟩ => true
  | ⟨.select _ _, .closed ch⟩ => ch.final
  | ⟨.onceEnter .close, false⟩ => kind == .packet
  | _ => false

/-- The goroutine knows that the session has been ended. -/
def knowsEnd (kind : SessionKind) (c : SPast) : Bool :=
  settled kind c.1 c.2 || c.2.any (showsEnd kind)

/-- `Err()` has returned `e` to the goroutine after the session had been ended. -/
def SawErr (kind : SessionKind) (e : Option Err) (l : SLabel) : SLog → Prop
  | [] => False
  | a :: log => (a = ⟨.err, e⟩ ∧ knowsEnd kind (l, log) = true) ∨ SawErr kind e l log

/-- The close of a channel by which the end of a session is observed. -/
def SInstr.announces : SInstr → Bool
  | .signal .closing | .signal .aborted | .signal .readDone | .signal .done => true
  | _ => false

/-- The goroutine has closed such a channel after it had ended the session. -/
def announced (kind : SessionKind) (l : SLabel) : SLog → Bool
  | [] => false
  | a :: log => announced kind l log || (a.1.announces && !(wins kind l log).isEmpty)

/-! ### The outline -/

def endReq (kind : SessionKind) : SInstr → SPast → Prop
  | .abortSection reason publish, _ => kind ≠ .packet ∧
      (Closer.ofReason reason ≠ .failure → publish.getD none = none)
  | .tryTerminal, _ => kind ≠ .packet
  | .setTerminal, c => knowsEnd kind c = true
  | .setErr _, c => kind = .packet ∧ wins kind c.1 c.2 = [.failure] ∧
      settled kind c.1 c.2 = false
  | .signal ch, c => (ch.final = true → knowsEnd kind c = true) ∧
      (ch = .readDone → kind ≠ .packet)
  | .onceExit .close, c => kind = .packet → knowsEnd kind c = true
  | .callBegin (.onClose e), c => SawErr kind e c.1 c.2
  | .request goal, _ => goal ≠ .abort
  | _, _ => True

def endAns (kind : SessionKind) : (i : SInstr) → i.Resp → SPast → Prop
  | .select cases dflt, r, _ => Fired.From cases dflt r
  | .onceEnter .close, true, c => kind = .packet → wins kind c.1 c.2 = []
  | _, _, _ => True

/-- The outline of how a session ends. -/
def endOutline (kind : SessionKind) : Outline SInstr SInstr.Resp SLabel SVal SPast :=
  .past (endReq kind) (endAns kind) (fun l c => c.1.role = l.role) fun _ _ => True

/-! ### Facts about pasts -/

section Past

variable {kind : SessionKind} {l : SLabel} {log : SLog} {a : Sigma SInstr.Resp}

lemma settled_of_not_packet (hk : kind ≠ .packet) :
    settled kind l log = !(wins kind l log).isEmpty := by
  induction log with
  | nil => rfl
  | cons a log ih =>
    rw [settled, if_neg hk, ih, wins]
    cases winsAs kind (l, log) a with
    | none => simp
    | some w => simp

/-- Whoever has settled the end has ended the session. -/
lemma wins_of_settled (h : settled kind l log = true) : wins kind l log ≠ [] := by
  induction log with
  | nil => cases h
  | cons a log ih =>
    rw [wins]
    rw [settled, Bool.or_eq_true] at h
    rcases h with h | h
    · exact fun hnil => ih h (List.append_eq_nil_iff.mp hnil).2
    · split at h
      · rw [Bool.and_eq_true, Bool.not_eq_true', List.isEmpty_eq_false_iff] at h
        exact fun hnil => h.2 (List.append_eq_nil_iff.mp hnil).2
      · obtain ⟨w, hw⟩ := Option.isSome_iff_exists.mp h
        rw [hw]
        exact nofun

lemma settled_cons (h : settled kind l log = true) : settled kind l (a :: log) = true := by
  rw [settled, h, Bool.true_or]

lemma knowsEnd_cons (h : knowsEnd kind (l, log) = true) : knowsEnd kind (l, a :: log) = true := by
  simp only [knowsEnd, List.any_cons, Bool.or_eq_true] at h ⊢
  rcases h with h | h
  · exact Or.inl (settled_cons h)
  · exact Or.inr (Or.inr h)

lemma knowsEnd_of_showsEnd (h : showsEnd kind a = true) : knowsEnd kind (l, a :: log) = true := by
  rw [knowsEnd, List.any_cons, h, Bool.true_or, Bool.or_true]

lemma knowsEnd_of_settled (h : settled kind l log = true) : knowsEnd kind (l, log) = true := by
  rw [knowsEnd, h, Bool.true_or]

lemma knowsEnd_of_sawErr {e : Option Err} (h : SawErr kind e l log) :
    knowsEnd kind (l, log) = true := by
  induction log with
  | nil => exact h.elim
  | cons a log ih =>
    rcases h with ⟨-, h⟩ | h
    · exact knowsEnd_cons h
    · exact knowsEnd_cons (ih h)

end Past

end Ogrenet
