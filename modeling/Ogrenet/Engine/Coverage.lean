import Ogrenet.Engine.Done

/-!
# Shutdown covers every resource

What a shutdown finds is what it asks to end: nothing is tracked once the engine has left `running`,
the snapshots contain all that is tracked, and after `beginGracefulShutdown` every lease of a
tracked session is draining.
-/

namespace Ogrenet

open Interleaving Interleaving.Prog

/-! ### Snapshots -/

lemma Engine.mem_keys {α : Type} {p : α → Bool} {xs : List α} {i : ℕ} {a : α}
    (h : xs[i]? = some a) (hp : p a = true) : i ∈ keys p xs := by
  simp only [keys, List.mem_filter, List.mem_range, h, Option.any_some, hp, and_true]
  exact (List.getElem?_eq_some_iff.mp h).1

namespace EngineShutdownSet

def sessions (set : EngineShutdownSet) : SessionKind → List ℕ
  | .conn => set.streams
  | .webSocket => set.websockets
  | .packet => set.packets

def listeners (set : EngineShutdownSet) (isWS : Bool) : List ℕ :=
  if isWS then set.wsListeners else set.streamListeners

/-- The set contains everything that the engine tracks, each resource among those of its kind. -/
structure Covers (set : EngineShutdownSet) (e : Engine) : Prop where
  sessions : ∀ (k : ℕ) s, e.sessions[k]? = some s → s.tracked = true → k ∈ set.sessions s.kind
  listeners : ∀ (j : ℕ) L, e.listeners[j]? = some L → L.tracked = true →
    j ∈ set.listeners L.isWS

end EngineShutdownSet

lemma Engine.covers_snapshot (e : Engine) : e.snapshotShutdownSetLocked.Covers e := by
  refine ⟨fun k s hs ht => ?_, fun j L hL ht => ?_⟩
  · obtain ⟨kind, admitted, tracked, lease, done⟩ := s
    cases kind <;> exact mem_keys hs (by simpa using ht)
  · cases hws : L.isWS <;> exact mem_keys hL (by simp [ht, hws])

/-! ### Nothing is added after the engine has left `running` -/

/-- Everything that `e'` tracks, `e` has tracked as well. -/
structure Engine.TracksWithin (e' e : Engine) : Prop where
  sessions : ∀ (k : ℕ) s', e'.sessions[k]? = some s' → s'.tracked = true →
    ∃ s, e.sessions[k]? = some s ∧ s.tracked = true
  listeners : ∀ (j : ℕ) L', e'.listeners[j]? = some L' → L'.tracked = true →
    ∃ L, e.listeners[j]? = some L ∧ L.tracked = true

/-- Only the step that adds a session makes it tracked. -/
lemma Engine.SessionsStep.tracked {e e' : Engine} {i : EInstr} {r : i.Resp}
    (h : e.SessionsStep e' i r) {k : ℕ} {s' : SessionEntry} (hs' : e'.sessions[k]? = some s')
    (ht : s'.tracked = true) :
    (∃ kind l, i = .trackSession kind l) ∨ ∃ s, e.sessions[k]? = some s ∧ s.tracked = true := by
  cases h with
  | same h => exact .inr ⟨s', by rwa [← h], ht⟩
  | track kind l k' h => exact .inl ⟨kind, l, rfl⟩
  | untrack k' s₀ hs₀ h =>
    rcases getElem?_of_set (h ▸ hs') with ⟨rfl, rfl⟩ | hold
    · cases ht
    · exact .inr ⟨s', hold, ht⟩
  | finish k' s₀ hs₀ hdone h =>
    rcases getElem?_of_set (h ▸ hs') with ⟨rfl, rfl⟩ | hold
    · exact .inr ⟨s₀, hs₀, ht⟩
    · exact .inr ⟨s', hold, ht⟩

section Steps

variable {e e' : Engine} {cs : List Custody} {t : ℕ} {c : Custody} {x : EChoice} {i : EInstr}
  {r : i.Resp} {l : ℕ}

lemma Engine.not_running_exec (hne : e.state ≠ .running) (hx : e.exec x i = some (e', r)) :
    e'.state ≠ .running := by
  rw [(exec_writes hx).state]
  cases i with
  | startDraining | startAborting reason | setDone => exact nofun
  | _ => exact hne

lemma Sections.not_seen_running (h : Sections e cs) (hc : cs[t]? = some c)
    (hne : e.state ≠ .running) : c.seen ≠ some .running :=
  fun hseen => hne (h.seen c (List.mem_of_getElem? hc) _ hseen)

lemma Engine.tracksWithin_exec (h : Sections e cs) (hc : cs[t]? = some c) (hreq : c.req i)
    (hne : e.state ≠ .running) (hx : e.exec x i = some (e', r)) : e'.TracksWithin e := by
  have hseen := h.not_seen_running hc hne
  refine ⟨fun k s' hs' ht => ?_, fun j L' hL' ht => ?_⟩
  · rcases (exec_sessions hx).tracked hs' ht with ⟨kind, l, rfl⟩ | hold
    · exact absurd hreq.1 hseen
    · exact hold
  · rcases (exec_listeners hx).tracked hL' ht with rfl | hold
    · exact absurd hreq hseen
    · exact hold

lemma Engine.mem_leases_exec (h : Sections e cs) (hc : cs[t]? = some c) (hreq : c.req i)
    (hne : e.state ≠ .running) (hx : e.exec x i = some (e', r)) (hl : l ∈ e'.leases) :
    l ∈ e.leases := by
  obtain ⟨s', hs', hsl⟩ := List.mem_filterMap.mp hl
  cases exec_sessions hx with
  | same h => rwa [leases, h] at hl
  | track kind l' k h' => exact absurd hreq.1 (h.not_seen_running hc hne)
  | untrack k s₀ hs₀ h =>
    rw [h] at hs'
    rcases List.mem_or_eq_of_mem_set hs' with hold | rfl
    · exact List.mem_filterMap.mpr ⟨s', hold, hsl⟩
    · cases hsl
  | finish k s₀ hs₀ hdone h =>
    rw [h] at hs'
    rcases List.mem_or_eq_of_mem_set hs' with hold | rfl
    · exact List.mem_filterMap.mpr ⟨s', hold, hsl⟩
    · exact List.mem_filterMap.mpr ⟨s₀, List.mem_of_getElem? hs₀, hsl⟩

/-! ### Every lease is drained -/

/-- A lease leaves the list of those that are left to drain when it is draining. -/
lemma Custody.drains_exec (hL : Ledger e.adm (cs.map Custody.hold)) (hc : cs[t]? = some c)
    (hreq : c.req i) (hne : i ≠ .startDraining) (hx : e.exec x i = some (e', r))
    (hl : l ∈ c.drains) :
    l ∈ (c.upd i r).drains ∨ e'.adm.stateOf l = some .draining := by
  have hhold : c.hold ∈ cs.map Custody.hold := List.mem_map_of_mem (List.mem_of_getElem? hc)
  cases i with
  | adm a =>
    cases a with
    | unlockLease m =>
      by_cases hlm : l = m
      · subst hlm
        obtain ⟨lease, hlease, hst⟩ := hL.mutexes.locked _ hhold _ _ (hreq.2 hl)
        obtain ⟨-, heq⟩ | ⟨m, st, hw, -⟩ := Engine.exec_stateOf hL hc hreq hx
        · exact .inr (by rw [heq, Admission.stateOf, hlease, Option.map_some, hst])
        · cases hw
      · exact .inl ((List.mem_erase_of_ne hlm).mpr hl)
    | drainSection m =>
      by_cases hlm : l = m
      · subst hlm
        obtain ⟨hw, -⟩ | ⟨m, st, hw, -, heq⟩ := Engine.exec_stateOf hL hc hreq hx
        · cases hw
        · cases hw
          exact .inr (by rw [heq, Function.update_self])
      · exact .inl ((List.mem_erase_of_ne hlm).mpr hl)
    | openSection peer listener => cases r <;> exact .inl hl
    | lockLease m =>
      refine .inl ?_
      show l ∈ (if c.holds m then { c with own := _ } else c).drains
      split <;> exact hl
    | markReleased m => cases r <;> exact .inl hl
    | _ => exact .inl hl
  | trk j a => exact .inl (by rwa [show (c.upd (.trk j a) r).drains = _ from trkUpd_drains a r c])
  | cellSet d m physical => cases r <;> exact .inl hl
  | startDraining => exact absurd rfl hne
  | _ => exact .inl hl

lemma Custody.upd_graceful (hg : (c.upd i r).graceful = true) :
    c.graceful = true ∨ i = .startDraining := by
  cases i with
  | adm a => exact .inl ((admUpd_same a r c).graceful.symm.trans hg)
  | trk j a => exact .inl ((trkUpd_same a r c).graceful.symm.trans hg)
  | cellSet d m physical => cases r <;> exact .inl hg
  | startDraining => exact .inr rfl
  | _ => exact .inl hg

/-- Whoever has seen the engine idle or has begun the graceful shutdown finds it stopped, and each
lease in the maps is then draining or left for the latter to drain. -/
structure EngineDrained (e : Engine) (cs : List Custody) : Prop where
  sawIdle : ∀ c ∈ cs, c.sawIdle = true → e.state ≠ .running
  graceful : ∀ c ∈ cs, c.graceful = true → e.state ≠ .running
  leases : ∀ c ∈ cs, c.graceful = true → ∀ l ∈ e.leases,
    e.adm.stateOf l = some .draining ∨ l ∈ c.drains

lemma EngineDrained.leases_exec (h : EngineDrained e cs) (hG : Custodial e cs)
    (hc : cs[t]? = some c)
    (hreq : c.req i) (hx : e.exec x i = some (e', r)) {c' : Custody} (hc' : c' ∈ cs)
    (hg : c'.graceful = true) (hl : l ∈ e'.leases) :
    e'.adm.stateOf l = some .draining ∨ l ∈ c'.drains := by
  have hl := Engine.mem_leases_exec hG.sections hc hreq (h.graceful c' hc' hg) hx hl
  refine (h.leases c' hc' hg l hl).imp_left fun hst => ?_
  exact (hG.owned.stateOf_mapped hG.ledger hc hreq hx hl).elim (·.trans hst) id

lemma EngineDrained.exec (h : EngineDrained e cs) (hG : Custodial e cs) (hc : cs[t]? = some c)
    (hreq : c.req i) (hx : e.exec x i = some (e', r)) :
    EngineDrained e' (cs.set t (c.upd i r)) := by
  have hmem := List.mem_of_getElem? hc
  refine ⟨?_, ?_, ?_⟩
  · refine forall_mem_set (fun c' hc' hsaw => Engine.not_running_exec (h.sawIdle c' hc' hsaw) hx)
      fun hsaw => ?_
    rcases Custody.upd_sawIdle hx hsaw with hsaw | ⟨rfl, hidle⟩
    · exact Engine.not_running_exec (h.sawIdle c hmem hsaw) hx
    · exact (Engine.quiet_iff.mpr hidle).state
  · refine forall_mem_set (fun c' hc' hg => Engine.not_running_exec (h.graceful c' hc' hg) hx)
      fun hg => ?_
    rcases Custody.upd_graceful hg with hg | rfl
    · exact Engine.not_running_exec (h.graceful c hmem hg) hx
    · cases hx
      exact nofun
  · refine forall_mem_set (fun c' hc' hg l hl => h.leases_exec hG hc hreq hx hc' hg hl)
      fun hg l hl => ?_
    by_cases hi : i = .startDraining
    · subst hi
      cases hx
      exact .inr hl
    · have hg := (Custody.upd_graceful hg).resolve_right hi
      rcases h.leases_exec hG hc hreq hx hmem hg hl with hst | hl
      · exact .inl hst
      · exact (Custody.drains_exec hG.ledger hc hreq hi hx hl).symm

end Steps

lemma drained_sound (cfg : EngineConfig) :
    engineOutline.Sound (engineMachine cfg) (fun e cs => Custodial e cs ∧ EngineDrained e cs)
      fun _ _ => True where
  body := engineOutline_body cfg
  exec p t x th i k s' r hok ht hprog hG hreq hx := by
    obtain ⟨hans, hcust⟩ := (engineOutline_sound cfg).exec p t x th i k s' r hok ht hprog hG.1
      hreq hx
    exact ⟨hans, hcust, hG.2.exec hG.1 (Outline.ctxs_getElem? ht) hreq hx⟩
  spawn p l s' hok hG hs := by
    obtain ⟨hpre, hcust⟩ := (engineOutline_sound cfg).spawn p l s' hok hG.1 hs
    obtain ⟨pending, rfl⟩ := Engine.spawn_eq hs
    exact ⟨hpre, hcust, forall_mem_concat hG.2.sawIdle nofun,
      forall_mem_concat hG.2.graceful nofun, forall_mem_concat hG.2.leases nofun⟩
  env p e s' _ _ _ := e.elim

lemma drained_holds {cfg : EngineConfig} {p : EProcess} (h : EngineReaches cfg p) :
    engineOutline.Holds (fun e cs => Custodial e cs ∧ EngineDrained e cs) p := by
  have hdrained : EngineDrained (Engine.init cfg) [] := ⟨by simp, by simp, by simp⟩
  exact (drained_sound cfg).reaches ⟨⟨custodial_init cfg, hdrained⟩, by simp [EProcess.init]⟩ h

/-- Once the engine has left `running`, nothing is tracked that was not. -/
lemma tracksWithin_of_reaches {cfg : EngineConfig} {p q : EProcess} (hp : EngineReaches cfg p)
    (hne : p.shared.state ≠ .running) (h : (engineMachine cfg).Reaches p q) :
    q.shared.TracksWithin p.shared := by
  obtain ⟨es, hrun⟩ := h
  refine ((engineOutline_sound cfg).run_le
    (r := fun e e' => e.state ≠ .running → e'.state ≠ .running ∧ e'.TracksWithin e)
    (fun e hne => ⟨hne, fun _ s hs ht => ⟨s, hs, ht⟩, fun _ L hL ht => ⟨L, hL, ht⟩⟩) ?_ ?_ ?_
    (fun _ e => e.elim) (engine_holds hp) hrun fun _ _ _ _ _ _ => trivial) hne |>.2
  · intro e₁ e₂ e₃ h₁₂ h₂₃ hne
    obtain ⟨hne₂, hs₁₂, hl₁₂⟩ := h₁₂ hne
    obtain ⟨hne₃, hs₂₃, hl₂₃⟩ := h₂₃ hne₂
    refine ⟨hne₃, fun k s hs ht => ?_, fun j L hL ht => ?_⟩
    · obtain ⟨s₂, hs₂, ht₂⟩ := hs₂₃ k s hs ht
      exact hs₁₂ k s₂ hs₂ ht₂
    · obtain ⟨L₂, hL₂, ht₂⟩ := hl₂₃ j L hL ht
      exact hl₁₂ j L₂ hL₂ ht₂
  · intro e cs t c i x e' a hG hc hreq hx hne
    exact ⟨Engine.not_running_exec hne hx, Engine.tracksWithin_exec hG.sections hc hreq hne hx⟩
  · intro e l e' hs hne
    obtain ⟨pending, rfl⟩ := Engine.spawn_eq hs
    exact ⟨hne, fun _ s hs ht => ⟨s, hs, ht⟩, fun _ L hL ht => ⟨L, hL, ht⟩⟩

end Ogrenet
