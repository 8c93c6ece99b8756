import Ogrenet.Session.Resources.Conn
import Ogrenet.Session.Resources.WebSocket
import Ogrenet.Session.Resources.Packet

/-!
# The resources of a session in every run

For each kind of session and every interleaving of its senders, its writer and those who close it,
the goroutines are inside the outline of the send path, and nothing is left in their hands once the
loops have ended.
-/

namespace Ogrenet

open Interleaving Interleaving.Prog

variable {kind : SessionKind} {cfg : SessionConfig}

/-! ### The outline is sound -/

lemma SessionKind.spawn_some {s s' : Session} {l : SLabel} (h : kind.spawn s l = some s') :
    l.isLoop = false ∧ s'.view = s.view ∧ (resourceOutline kind cfg).pre l (.start l) := by
  cases kind with
  | conn =>
    cases l with
    | send _ _ | trySend _ =>
      cases h
      exact ⟨rfl, rfl, rfl⟩
    | closeWrite _ | shutdown _ | close | requestShutdown =>
      cases h
      exact ⟨rfl, rfl, _, rfl, rfl, rfl⟩
    | _ => cases h
  | webSocket =>
    cases l with
    | send _ _ | trySend _ =>
      cases h
      exact ⟨rfl, rfl, rfl⟩
    | shutdown _ | close | requestShutdown =>
      cases h
      exact ⟨rfl, rfl, _, rfl, rfl, rfl⟩
    | watchCloseTimeout =>
      obtain ⟨-, h⟩ := Option.ite_none_left_eq_some.mp h
      cases h
      exact ⟨rfl, rfl, _, rfl, rfl, rfl⟩
    | _ => cases h
  | packet =>
    cases l with
    | sendTo _ _ _ | trySendTo _ _ =>
      cases h
      exact ⟨rfl, rfl, rfl⟩
    | close | requestDrain | watchContext _ =>
      cases h
      exact ⟨rfl, rfl, _, rfl, rfl, rfl⟩
    | _ => cases h

lemma Resources.spawn {s : Session} {cs : List Hand} (hR : Resources kind cfg s cs) {l : SLabel}
    (hl : l.isLoop = false) : Resources kind cfg s (cs ++ [Hand.start l]) := by
  have hne : (Hand.start l).entry ≠ .writerLoop := fun hw => by
    rw [show l = .writerLoop from hw] at hl
    cases hl
  have hw : (Hand.start l).writers = 0 := if_neg hne
  refine ⟨?_, ⟨?_, hR.budgets.drained, ?_, ?_, ?_, hR.budgets.limit⟩, ?_, hR.received_le,
    hR.results_le, ?_, ⟨hR.records.acks_length, hR.records.acked, ?_, ?_⟩,
    ⟨?_, ?_, hR.loops.done⟩⟩
  · refine List.forall_mem_append.mpr ⟨hR.hands, List.forall_mem_singleton.mpr ?_⟩
    exact .of_sender hne ⟨rfl, rfl, rfl⟩ (fun _ => ⟨rfl, rfl, rfl⟩) (Nat.zero_le 1)
  · simpa [Hand.start] using hR.budgets.active
  · simpa [Hand.start] using hR.budgets.slots
  · simpa [Hand.start] using hR.budgets.own
  · simpa [Hand.start] using hR.budgets.shared
  · refine List.forall_mem_append.mpr ⟨hR.knows, List.forall_mem_singleton.mpr ?_⟩
    exact ⟨nofun, nofun, nofun, nofun⟩
  · exact List.forall_mem_append.mpr ⟨hR.consumed,
      List.forall_mem_singleton.mpr fun hw => absurd hw hne⟩
  · simpa [Hand.start] using hR.records.bytes
  · simpa [Hand.start] using hR.records.messages
  · simpa [hw] using hR.loops.one
  · simpa [Hand.start, hl] using hR.loops.loops

lemma Resources.env {s s' : Session} {cs : List Hand} (hR : Resources kind cfg s cs) {e : SEnv}
    (he : s.env e = some s') : Resources kind cfg s' cs := by
  cases e with
  | expire k cause =>
    simp only [Session.env] at he
    split at he <;> cases he
    · exact hR
    · exact hR.of_view rfl
  | otherAcquire n =>
    obtain ⟨-, he⟩ := Option.ite_none_right_eq_some.mp he
    cases he
    obtain ⟨h₁, h₂, h₃, h₄, h₅, h₆⟩ := hR.budgets
    refine ⟨hR.hands, ⟨h₁, h₂, h₃, h₄, ?_, h₆⟩, hR.knows, hR.received_le, hR.results_le,
      hR.consumed, hR.records, hR.loops⟩
    simp only [Session.queue] at h₅ ⊢
    omega
  | otherRelease n =>
    obtain ⟨hn, he⟩ := Option.ite_none_right_eq_some.mp he
    cases he
    obtain ⟨h₁, h₂, h₃, h₄, h₅, h₆⟩ := hR.budgets
    refine ⟨hR.hands, ⟨h₁, h₂, h₃, h₄, ?_, (ByteQuota.release_limit _ _).trans h₆⟩, hR.knows,
      hR.received_le, hR.results_le, hR.consumed, hR.records, hR.loops⟩
    simp only [ByteQuota.release_used, Session.queue] at h₅ ⊢
    omega

lemma resourceOutline_sound (kind : SessionKind) (cfg : SessionConfig) :
    (resourceOutline kind cfg).Sound (sessionMachine kind cfg) (Resources kind cfg)
      fun _ _ => True where
  body l₀ l h hh := by
    cases kind with
    | conn => exact Conn.wp_body l hh
    | webSocket => exact WebSocket.wp_body l hh
    | packet => exact Packet.wp_body l hh
  exec p t x th i k s' r _ ht _ hG hreq hx := hG.exec (Outline.ctxs_getElem? ht) hreq hx
  spawn p l s' _ hG hs := by
    obtain ⟨hl, hv, hpre⟩ := SessionKind.spawn_some hs
    exact ⟨hpre, (hG.of_view hv).spawn hl⟩
  env p e s' _ hG he := hG.env he

/-! ### The start of a session -/

/-- What the goroutines of a process have in hand. -/
def SProcess.hands (kind : SessionKind) (cfg : SessionConfig) (p : SProcess) : List Hand :=
  (resourceOutline kind cfg).ctxs p.threads

lemma hands_init (kind : SessionKind) (cfg : SessionConfig) :
    (SProcess.init kind cfg).hands kind cfg =
      (loopLabels kind cfg ++ [SLabel.finalizer]).map Hand.start := by
  simp [SProcess.hands, SProcess.init, Outline.ctxs, Function.comp_def, resourceOutline]

/-- A goroutine that has just started, other than a writer. -/
lemma ok_start {l : SLabel} (hl : l ≠ .writerLoop) : (Hand.start l).Ok cfg :=
  .of_sender hl ⟨rfl, rfl, rfl⟩ (fun _ => ⟨rfl, rfl, rfl⟩) (Nat.zero_le 1)

lemma resources_init (kind : SessionKind) (cfg : SessionConfig) :
    Resources kind cfg (Session.init kind cfg) ((SProcess.init kind cfg).hands kind cfg) := by
  rw [hands_init]
  have hlabels : ∀ f : Hand → ℕ, f (.start .finalizer) = 0 →
      total f ((loopLabels kind cfg ++ [SLabel.finalizer]).map Hand.start) =
        total (fun l => f (.start l)) (loopLabels kind cfg) := fun f hf => by simp [hf]
  have hzero : ∀ f : Hand → ℕ, (∀ l, f (.start l) = 0) →
      total f ((loopLabels kind cfg ++ [SLabel.finalizer]).map Hand.start) = 0 := fun f hf => by
    rw [total_map, total_eq_zero_iff]
    exact fun l _ => hf l
  refine ⟨?_, ⟨(hzero _ fun _ => rfl).symm, rfl, (hzero _ fun _ => rfl).symm,
    (hzero _ fun _ => rfl).symm, ?_, rfl⟩, ?_, Nat.le_refl 0, Nat.le_refl 0, ?_,
    ⟨rfl, nofun, ?_, ?_⟩, ⟨?_, ?_, nofun⟩⟩
  · intro h hh
    obtain ⟨l, hl, rfl⟩ := List.mem_map.mp hh
    rcases mem_init hl with rfl | rfl | rfl | rfl | rfl
    · exact ⟨fun _ hne => absurd rfl hne, fun _ => rfl, nofun, nofun, nofun,
        fun hne => absurd rfl hne, Nat.zero_le 1⟩
    all_goals exact ok_start nofun
  · rw [hzero _ fun _ => rfl]
    rfl
  · intro h hh
    obtain ⟨l, -, rfl⟩ := List.mem_map.mp hh
    exact ⟨nofun, nofun, nofun, nofun⟩
  · intro h hh _
    obtain ⟨l, -, rfl⟩ := List.mem_map.mp hh
    exact ⟨rfl, nofun, nofun, nofun⟩
  · rw [hzero _ fun _ => rfl]
    rfl
  · rw [hzero _ fun _ => rfl]
    rfl
  · rw [hlabels _ rfl]
    simp only [loopLabels]
    split <;> split <;> rfl
  · rw [hlabels _ rfl]
    simp only [Session.init, loopLabels]
    split <;> split <;> rfl

lemma pre_start {l : SLabel} (hl : l ∈ loopLabels kind cfg ++ [SLabel.finalizer]) :
    (resourceOutline kind cfg).pre l (.start l) := by
  rcases mem_init hl with rfl | rfl | rfl | rfl | rfl
  · rfl
  · exact ⟨_, rfl, rfl, rfl⟩
  · exact ⟨_, rfl, rfl, rfl⟩
  · exact ⟨_, rfl, rfl, rfl⟩
  · rfl

/-- Every state that is reached is inside the outline. -/
lemma resources_reached {p : SProcess} (hp : SessionReaches kind cfg p) :
    (resourceOutline kind cfg).Holds (Resources kind cfg) p := by
  refine (resourceOutline_sound kind cfg).reaches ⟨resources_init kind cfg, fun th hth => ?_⟩ hp
  obtain ⟨l, hl, rfl⟩ := List.mem_map.mp hth
  exact (resourceOutline_sound kind cfg).body l l _ (pre_start hl)

/-! ### The end -/

/-- What one goroutine has in hand. -/
def handOf (kind : SessionKind) (cfg : SessionConfig) (th : SThread) : Hand :=
  (resourceOutline kind cfg).ctx th

lemma handOf_entry (th : SThread) : (handOf kind cfg th).entry = th.entry := by
  obtain ⟨l, prog, log⟩ := th
  induction log with
  | nil => rfl
  | cons a log ih => exact (Hand.upd_entry kind cfg a.1 a.2 _).trans ih

lemma Loops.exists_writer {n : ℕ} {b : Bool} {cs : List Hand} (hl : Loops n b cs) :
    ∃ w ∈ cs, w.entry = .writerLoop := by
  by_contra hnone
  have hzero : total Hand.writers cs = 0 :=
    total_eq_zero_iff.mpr fun h hh => if_neg fun he => hnone ⟨h, hh, he⟩
  rw [hl.one] at hzero
  cases hzero

/-- After the loops have ended the queue and every hand are empty, and nobody is inside the gate. -/
lemma Resources.free_of_loops {s : Session} {cs : List Hand} (hR : Resources kind cfg s cs)
    (hzero : s.loops = 0) :
    s.queue = [] ∧ ∀ h ∈ cs, h.inGate = false ∧ h.Free ∧ h.Counted := by
  have hloops : ∀ h ∈ cs, h.loop = false := fun h hh => by
    have := total_eq_zero_iff.mp (hR.loops.loops.symm.trans hzero) h hh
    cases hl : h.loop with
    | false => rfl
    | true => simp [hl] at this
  obtain ⟨w, hw, hentry⟩ := hR.loops.exists_writer
  have hended := fun h hh (he : h.entry = .writerLoop) => (hR.hands h hh).ended he (hloops h hh)
  obtain ⟨hdrained, hempty⟩ := (hR.consumed w hw hentry).empty (hended w hw hentry).1
  have hactive : s.gate.active = 0 := by
    rw [hR.budgets.drained, Bool.and_eq_true, beq_iff_eq] at hdrained
    exact hdrained.2
  refine ⟨List.drop_eq_nil_of_le hempty, fun h hh => ?_⟩
  by_cases he : h.entry = .writerLoop
  · obtain ⟨-, hfree, -, hcounted⟩ := hended h hh he
    exact ⟨(hR.hands h hh).gate he, hfree, hcounted⟩
  · have hout : h.inGate = false := by
      have := total_eq_zero_iff.mp (hR.budgets.active.symm.trans hactive) h hh
      cases hg : h.inGate with
      | false => rfl
      | true => simp [hg] at this
    exact ⟨hout, (hR.hands h hh).outside hout he, ((hR.hands h hh).sender he).2⟩

end Ogrenet
