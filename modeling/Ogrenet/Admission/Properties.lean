import Ogrenet.Admission.Steps

/-!
# Exact admission accounting

The admission code on its own: any number of goroutines calling the functions of
`transport/limits.go` over any number of leases, peers and listeners. In every state that is reached
the accounts balance, no clamp is ever needed, leases only move forward, and a rejected acquisition
has given back all it took.
-/

namespace Ogrenet

open Interleaving Interleaving.Prog

/-- The calls a goroutine can make on the admission code. -/
inductive AdmCall where
  | acquireOpening (peer : String)
  | acquireOpeningWithListener (peer : String) (listener : Option ℕ)
  | acquireConnection (peer : String)
  | activate (l : ℕ)
  | beginDrain (l : ℕ)
  | release (l : ℕ)
  | acquireHandshake
  | acquireUpgrade
  | releaseActivity (l : ℕ)
  deriving DecidableEq, Repr

/-- What a call returns. -/
inductive AdmResult where
  | acquired (r : Except LimitError ℕ)
  | moved (b : Bool)
  | released
  deriving DecidableEq

def AdmCall.body : AdmCall → AdmProg (Next AdmCall AdmResult)
  | .acquireOpening peer => return .ret (.acquired (← Ogrenet.acquireOpening peer))
  | .acquireOpeningWithListener peer listener =>
    return .ret (.acquired (← Ogrenet.acquireOpeningWithListener peer listener))
  | .acquireConnection peer => return .ret (.acquired (← Ogrenet.acquireConnection peer))
  | .activate l => return .ret (.moved (← ConnectionLease.activate l))
  | .beginDrain l => return .ret (.moved (← ConnectionLease.beginDrain l))
  | .release l => do
    ConnectionLease.release l
    return .ret .released
  | .acquireHandshake => return .ret (.acquired (← Ogrenet.acquireHandshake))
  | .acquireUpgrade => return .ret (.acquired (← Ogrenet.acquireUpgrade))
  | .releaseActivity l => return .ret (.moved (← ActivityLease.release l))

/-- The environment opens new listeners, each with its own limit. -/
def admissionMachine : Machine AdmInstr AdmInstr.Resp AdmCall AdmResult Admission Unit ℕ where
  body := AdmCall.body
  exec s i _ := s.exec i
  spawn s _ := some s
  env s limit := some { s with listeners := s.listeners ++ [newListenerCapacity limit] }

abbrev AdmProcess := Process AdmInstr AdmInstr.Resp AdmCall AdmResult Admission

/-- A new Engine's admission, before anything has called it. -/
def AdmProcess.init (limits : Limits) : AdmProcess := ⟨{ ctl := newAdmissionController limits }, []⟩

/-- Calls start and return with nothing in hand. -/
def admissionOutline : Outline AdmInstr AdmInstr.Resp AdmCall AdmResult Hold where
  start _ := {}
  upd := Hold.upd
  req := Hold.req
  ans _ _ _ := True
  pre _ c := c = {}
  post _ _ c := c = {}

section Calls

variable {Q : Except LimitError ℕ → Hold → Prop}

lemma wp_acquireCharged (peer : String) (listener : Option ℕ) (hQ : ∀ r, Q r {}) :
    admissionOutline.wp (acquireCharged peer listener) Q { token := listener } := by
  refine ⟨rfl, ?_⟩
  rintro (e | lease) -
  · cases listener with
    | none => exact hQ _
    | some j => exact ⟨rfl, fun _ _ => hQ _⟩
  · exact hQ _

lemma wp_acquireOpeningWithListener (peer : String) (listener : Option ℕ) (hQ : ∀ r, Q r {}) :
    admissionOutline.wp (acquireOpeningWithListener peer listener) Q {} := by
  cases listener with
  | none => exact wp_acquireCharged peer none hQ
  | some j =>
    refine ⟨rfl, ?_⟩
    rintro (limit | ⟨⟩) -
    · exact ⟨trivial, fun _ _ => hQ _⟩
    · exact wp_acquireCharged peer (some j) hQ

lemma wp_activate {Q : Bool → Hold → Prop} (l : ℕ) (hQ : ∀ b, Q b {}) :
    admissionOutline.wp (ConnectionLease.activate l) Q {} := by
  refine ⟨rfl, fun st _ => ?_⟩
  cases st with
  | opening => exact ⟨rfl, fun _ _ => hQ _⟩
  | active => exact ⟨⟨_, rfl⟩, fun _ _ => hQ _⟩
  | draining => exact ⟨⟨_, rfl⟩, fun _ _ => hQ _⟩
  | released => exact ⟨⟨_, rfl⟩, fun _ _ => hQ _⟩

lemma wp_beginDrain {Q : Bool → Hold → Prop} (l : ℕ) (hQ : ∀ b, Q b {}) :
    admissionOutline.wp (ConnectionLease.beginDrain l) Q {} := by
  refine ⟨rfl, fun st _ => ?_⟩
  cases st with
  | active => exact ⟨rfl, fun _ _ => hQ _⟩
  | opening => exact ⟨⟨_, rfl⟩, fun _ _ => hQ _⟩
  | draining => exact ⟨⟨_, rfl⟩, fun _ _ => hQ _⟩
  | released => exact ⟨⟨_, rfl⟩, fun _ _ => hQ _⟩

lemma wp_release {Q : Unit → Hold → Prop} (l : ℕ) (hQ : ∀ r, Q r {}) :
    admissionOutline.wp (ConnectionLease.release l) Q {} := by
  refine ⟨⟨rfl, rfl, rfl⟩, ?_⟩
  rintro (- | ⟨peer, _ | j, state, mu⟩) -
  · exact hQ _
  · exact ⟨⟨rfl, _, rfl, rfl, rfl⟩, fun _ _ => hQ _⟩
  · -- the unit of the lease is in hand after the subtraction and goes back to the listener
    exact ⟨⟨rfl, _, rfl, rfl, rfl⟩, fun _ _ => ⟨rfl, fun _ _ => hQ _⟩⟩

lemma wp_releaseActivity {Q : Bool → Hold → Prop} (l : ℕ) (hQ : ∀ b, Q b {}) :
    admissionOutline.wp (ActivityLease.release l) Q {} := by
  refine ⟨rfl, ?_⟩
  rintro (- | kind) -
  · exact hQ _
  · exact ⟨rfl, fun _ _ => hQ _⟩

end Calls

lemma wp_body (call₀ call : AdmCall) :
    admissionOutline.wp call.body (admissionOutline.ends call₀) {} := by
  cases call with
  | acquireOpening peer =>
    exact (Outline.wp_bind _ _ _ _).mpr (wp_acquireOpeningWithListener peer none fun _ => rfl)
  | acquireOpeningWithListener peer listener =>
    exact (Outline.wp_bind _ _ _ _).mpr (wp_acquireOpeningWithListener peer listener fun _ => rfl)
  | acquireConnection peer =>
    refine (Outline.wp_bind _ _ _ _).mpr ((Outline.wp_bind _ _ _ _).mpr
      (wp_acquireOpeningWithListener peer none fun r => ?_))
    cases r with
    | error e => rfl
    | ok lease => exact (Outline.wp_bind _ _ _ _).mpr (wp_activate lease fun _ => rfl)
  | activate l => exact (Outline.wp_bind _ _ _ _).mpr (wp_activate l fun _ => rfl)
  | beginDrain l => exact (Outline.wp_bind _ _ _ _).mpr (wp_beginDrain l fun _ => rfl)
  | release l => exact (Outline.wp_bind _ _ _ _).mpr (wp_release l fun _ => rfl)
  | acquireHandshake => exact ⟨trivial, fun _ _ => rfl⟩
  | acquireUpgrade => exact ⟨trivial, fun _ _ => rfl⟩
  | releaseActivity l => exact (Outline.wp_bind _ _ _ _).mpr (wp_releaseActivity l fun _ => rfl)

/-- The outline of the admission code is sound for every interleaving. -/
lemma admissionOutline_sound :
    admissionOutline.Sound admissionMachine Ledger fun _ _ => True where
  body call₀ call c hc := by
    subst hc
    exact wp_body call₀ call
  exec p t x th i k s' r _ ht _ hG hreq hx :=
    ⟨trivial, hG.exec (Outline.ctxs_getElem? ht) hreq hx⟩
  spawn p call s' _ hG hs := by
    cases hs
    exact ⟨rfl, hG.spawn⟩
  env p limit s' _ hG hs := by
    cases hs
    exact hG.newListener limit

lemma ledger_init (limits : Limits) : Ledger { ctl := newAdmissionController limits } [] := by
  refine ⟨⟨fun st hst => ?_, fun p => rfl, fun _ => Nat.zero_le _, fun _ p => Nat.zero_le _⟩,
    ⟨fun j cap hj => by simp at hj, fun j cap hj => by simp at hj, fun _ _ => rfl⟩,
    ⟨fun k => by cases k <;> rfl, fun k hk => by cases k <;> exact Nat.zero_le _⟩,
    ⟨fun l lease hl => by simp at hl, fun c hc => by simp at hc⟩, fun c hc => by simp at hc⟩
  cases st <;> rfl

/-- Every process that is reached is inside the outline. -/
lemma admission_holds {limits : Limits} {p : AdmProcess}
    (h : admissionMachine.Reaches (AdmProcess.init limits) p) : admissionOutline.Holds Ledger p :=
  admissionOutline_sound.reaches ⟨ledger_init limits, fun t ht => by simp [AdmProcess.init] at ht⟩ h

/-! ### Rejected acquisitions -/

/-- One for a unit of the listener's capacity that a goroutine was given. -/
def tookUnit (j : ℕ) : Sigma AdmInstr.Resp → ℕ
  | ⟨.capacityAcquire i, .ok _⟩ => if i = j then 1 else 0
  | _ => 0

/-- One for a unit of the listener's capacity that a goroutine gave back. -/
def gaveUnit (j : ℕ) : Sigma AdmInstr.Resp → ℕ
  | ⟨.capacityRelease i, _⟩ => if i = j then 1 else 0
  | _ => 0

/-- One for a lease of either kind that was counted and handed out. -/
def leased : Sigma AdmInstr.Resp → ℕ
  | ⟨.openSection _ _, .ok _⟩ => 1
  | ⟨.acquireActivity _, .ok _⟩ => 1
  | _ => 0

/-- The steps of a goroutine changed no account for good. -/
structure NoNetChange (log : List (Sigma AdmInstr.Resp)) : Prop where
  units : ∀ j, total (tookUnit j) log = total (gaveUnit j) log
  leases : total leased log = 0

/-- The outline that only remembers the steps of a call, and says of a rejected acquisition that
they had no net effect. -/
def rejectionOutline : Outline AdmInstr AdmInstr.Resp AdmCall AdmResult
    (List (Sigma AdmInstr.Resp)) where
  start _ := []
  upd i r log := ⟨i, r⟩ :: log
  req _ _ := True
  ans _ _ _ := True
  pre _ log := log = []
  post _ v log := ∀ e, v = .acquired (.error e) → NoNetChange log

lemma rejectionOutline_ctx (t : Thread AdmInstr AdmInstr.Resp AdmCall AdmResult) :
    rejectionOutline.ctx t = t.log := by
  obtain ⟨entry, prog, log⟩ := t
  induction log with
  | nil => rfl
  | cons a log ih => rw [Outline.ctx_cons, ih]; rfl

/-- What an acquisition says of its own steps: an error means they had no net effect. -/
abbrev RejectsClean (r : Except LimitError ℕ) (log : List (Sigma AdmInstr.Resp)) : Prop :=
  ∀ e, r = .error e → NoNetChange log

lemma rejects_acquireOpeningWithListener (peer : String) (listener : Option ℕ) :
    rejectionOutline.wp (acquireOpeningWithListener peer listener) RejectsClean [] := by
  cases listener with
  | none =>
    refine ⟨trivial, ?_⟩
    rintro (e | lease) -
    · exact fun _ _ => ⟨fun _ => rfl, rfl⟩
    · nofun
  | some j =>
    refine ⟨trivial, ?_⟩
    rintro (limit | ⟨⟩) -
    · exact ⟨trivial, fun _ _ _ _ => ⟨fun _ => rfl, rfl⟩⟩
    · refine ⟨trivial, ?_⟩
      rintro (e | lease) -
      · -- the unit taken first is the one given back last
        exact ⟨trivial, fun _ _ _ _ =>
          ⟨fun _ => by simp [rejectionOutline, tookUnit, gaveUnit], rfl⟩⟩
      · nofun

/-- The rest of an acquired connection's call returns no error. -/
lemma rejects_activate (l lease : ℕ) (log : List (Sigma AdmInstr.Resp)) :
    rejectionOutline.wp (do let _ ← ConnectionLease.activate l; pure (Except.ok lease))
      RejectsClean log := by
  refine ⟨trivial, fun st _ => ?_⟩
  cases st <;> exact ⟨trivial, fun _ _ => nofun⟩

lemma rejects_body (call₀ call : AdmCall) :
    rejectionOutline.wp call.body (rejectionOutline.ends call₀) [] := by
  cases call with
  | acquireOpening peer =>
    refine (Outline.wp_bind _ _ _ _).mpr (Outline.wp_mono ?_
      (rejects_acquireOpeningWithListener peer none))
    rintro r log h e ⟨⟩
    exact h e rfl
  | acquireOpeningWithListener peer listener =>
    refine (Outline.wp_bind _ _ _ _).mpr (Outline.wp_mono ?_
      (rejects_acquireOpeningWithListener peer listener))
    rintro r log h e ⟨⟩
    exact h e rfl
  | acquireConnection peer =>
    refine (Outline.wp_bind _ _ _ _).mpr (Outline.wp_mono (Q := RejectsClean) ?_
      ((Outline.wp_bind _ _ _ _).mpr (Outline.wp_mono ?_
        (rejects_acquireOpeningWithListener peer none))))
    · rintro r log h e ⟨⟩
      exact h e rfl
    · rintro (e | lease) log h
      · exact h
      · exact rejects_activate lease lease log
  | acquireHandshake | acquireUpgrade =>
    refine ⟨trivial, ?_⟩
    rintro (e | lease) -
    · exact fun _ _ => ⟨fun _ => rfl, rfl⟩
    · nofun
  | activate l | beginDrain l =>
    refine ⟨trivial, fun st _ => ?_⟩
    cases st <;> exact ⟨trivial, fun _ _ => nofun⟩
  | release l =>
    refine ⟨trivial, ?_⟩
    rintro (- | ⟨peer, _ | j, state, mu⟩) -
    · nofun
    · exact ⟨trivial, fun _ _ => nofun⟩
    · exact ⟨trivial, fun _ _ => ⟨trivial, fun _ _ => nofun⟩⟩
  | releaseActivity l =>
    refine ⟨trivial, ?_⟩
    rintro (- | kind) -
    · nofun
    · exact ⟨trivial, fun _ _ => nofun⟩

lemma rejectionOutline_sound :
    rejectionOutline.Sound admissionMachine (fun _ _ => True) fun _ _ => True where
  body call₀ call c hc := by
    subst hc
    exact rejects_body call₀ call
  exec _ _ _ _ _ _ _ _ _ _ _ _ _ _ := ⟨trivial, trivial⟩
  spawn _ _ _ _ _ _ := ⟨rfl, trivial⟩
  env _ _ _ _ _ _ := trivial

/-! ### The accounts of every reached state -/

/-- What a goroutine holds of the admission accounts. -/
def AdmProcess.holdings (p : AdmProcess) : List Hold := admissionOutline.ctxs p.threads

lemma forward_of_reaches {p q : AdmProcess} (hp : admissionOutline.Holds Ledger p)
    (h : admissionMachine.Reaches p q) : p.shared.Forward q.shared := by
  obtain ⟨es, h⟩ := h
  refine admissionOutline_sound.run_le (fun s => .of_leases rfl) (fun _ _ _ => .trans) ?_ ?_ ?_ hp h
    fun _ _ _ _ _ _ => trivial
  · intro s cs t c i x s' a hG hc hreq hx
    exact hG.forward hc hreq hx
  · rintro s call s' ⟨⟩
    exact .of_leases rfl
  · rintro s limit s' ⟨⟩
    exact .of_leases rfl

/-- Admission accounting is exact. In every state that any interleaving reaches, the counters are
the numbers of leases behind them and respect the limits (`Ledger`); no goroutine is about to
decrement a counter that is zero; leases only move forward from there; and a call that returned a
rejection holds nothing and has changed no account. -/
theorem admission_exact (limits : Limits) (p : AdmProcess)
    (h : admissionMachine.Reaches (AdmProcess.init limits) p) :
    Ledger p.shared p.holdings ∧
      (∀ t ∈ p.threads, ∀ i k, t.prog = .op i k → i.Unclamped p.shared) ∧
      (∀ q, admissionMachine.Reaches p q → p.shared.Forward q.shared) ∧
      ∀ t ∈ p.threads, ∀ e, t.prog = .done (.ret (.acquired (.error e))) →
        admissionOutline.ctx t = {} ∧ NoNetChange t.log := by
  have hp := admission_holds h
  have hlog : rejectionOutline.Holds (fun _ _ => True) p :=
    rejectionOutline_sound.reaches ⟨trivial, fun t ht => by simp [AdmProcess.init] at ht⟩ h
  refine ⟨hp.shared, fun t ht i k hprog => ?_, fun q => forward_of_reaches hp,
    fun t ht e hprog => ⟨?_, ?_⟩⟩
  · obtain ⟨n, hn⟩ := List.mem_iff_getElem?.mp ht
    have hwp := hp.threads t ht
    rw [hprog] at hwp
    exact hp.shared.unclamped (Outline.ctxs_getElem? hn) hwp.1
  · have hwp := hp.threads t ht
    rw [hprog] at hwp
    exact hwp
  · have hwp := hlog.threads t ht
    rw [hprog, rejectionOutline_ctx] at hwp
    exact hwp e rfl

/-- A run in which the second of two connections is rejected by `MaxConnections`, in the middle of
the first one's release. -/
def AdmProcess.flood : List (Event AdmCall Unit ℕ) :=
  [.env 2, .spawn (.acquireOpeningWithListener "a" (some 0)), .run 0 (), .run 0 (),
    .spawn (.acquireOpeningWithListener "b" (some 0)), .run 1 (), .run 1 (), .run 1 (),
    .spawn (.release 0), .run 2 ()]

theorem admission_exact_flood : ∃ p : AdmProcess,
    admissionMachine.run (AdmProcess.init { maxConnections := 1 }) AdmProcess.flood = some p ∧
      (p.shared.ctl.opening, p.holdings.map Hold.releasing) =
        (1, [none, none, some ⟨"a", some 0, .opening, false⟩]) ∧
      Ledger p.shared p.holdings := by
  have hrun : ((admissionMachine.run (AdmProcess.init { maxConnections := 1 })
      AdmProcess.flood).map fun p => (p.shared.ctl.opening,
        (AdmProcess.holdings p).map Hold.releasing)) =
      some (1, [none, none, some ⟨"a", some 0, .opening, false⟩]) := by decide
  obtain ⟨p, hp, hobs⟩ := Option.map_eq_some_iff.mp hrun
  exact ⟨p, hp, hobs, (admission_exact _ p ⟨_, hp⟩).1⟩

end Ogrenet
