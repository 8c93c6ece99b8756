import Ogrenet.Engine.Ownership

/-!
# Ownership is kept

Every step of the engine keeps each lease in exactly one place.
-/

namespace Ogrenet

open Interleaving Interleaving.Prog

/-! ### What the steps do to sessions and to the states of leases -/

/-- What a step may do to the sessions. -/
inductive Engine.SessionsStep (e e' : Engine) : (i : EInstr) → i.Resp → Prop
  | same {i : EInstr} {r : i.Resp} (h : e'.sessions = e.sessions) : SessionsStep e e' i r
  | track (kind : SessionKind) (l k : ℕ)
      (h : e'.sessions = e.sessions ++ [{ kind, admitted := l, lease := some l }]) :
      SessionsStep e e' (.trackSession kind l) k
  | untrack (k : ℕ) (s : SessionEntry) (hs : e.sessions[k]? = some s)
      (h : e'.sessions = e.sessions.set k { s with tracked := false, lease := none }) :
      SessionsStep e e' (.untrackSession k) s.lease
  | finish (k : ℕ) (s : SessionEntry) (hs : e.sessions[k]? = some s) (hdone : s.done = false)
      (h : e'.sessions = e.sessions.set k { s with done := true }) :
      SessionsStep e e' (.closeSessionDone k) ()

lemma Engine.exec_sessions {e e' : Engine} {x : EChoice} {i : EInstr} {r : i.Resp}
    (h : e.exec x i = some (e', r)) : e.SessionsStep e' i r := by
  cases i with
  | adm i =>
    obtain ⟨a, -, ha⟩ := Option.map_eq_some_iff.mp h
    cases ha
    exact .same rfl
  | trk j i =>
    simp only [Engine.exec] at h
    split at h
    · cases h
    · obtain ⟨a, -, ha⟩ := Option.map_eq_some_iff.mp h
      cases ha
      exact .same rfl
  | trackSession kind l =>
    cases h
    exact .track kind l _ rfl
  | untrackSession k =>
    simp only [Engine.exec] at h
    split at h <;> cases h
    exact .untrack k _ (by assumption) rfl
  | closeSessionDone k =>
    simp only [Engine.exec] at h
    split at h
    · cases h
    · rename_i s hs
      split at h
      · cases h
      · rename_i hdone
        cases h
        exact .finish k s hs (by simpa using hdone) rfl
  | _ =>
    simp only [Engine.exec] at h
    repeat' split at h
    all_goals cases h
    all_goals exact .same rfl

/-- The lease whose state the step writes, and the new state. -/
def EInstr.writes : (i : EInstr) → i.Resp → Option (ℕ × ConnectionLeaseState)
  | .adm i, r => i.writes r
  | _, _ => none

section Steps

variable {e e' : Engine} {cs : List Custody} {t : ℕ} {c : Custody} {x : EChoice} {i : EInstr}
  {r : i.Resp} {l : ℕ}

/-- A step leaves the states of all leases alone or is one of the four writes. -/
lemma Engine.exec_stateOf (hL : Ledger e.adm (cs.map Custody.hold)) (hc : cs[t]? = some c)
    (hreq : c.req i) (hx : e.exec x i = some (e', r)) :
    (i.writes r = none ∧ e'.adm.stateOf = e.adm.stateOf) ∨
      ∃ m st, i.writes r = some (m, st) ∧ LeaseWrite e.adm c m st ∧
        e'.adm.stateOf = Function.update e.adm.stateOf m (some st) := by
  cases i with
  | adm a =>
    obtain ⟨b, hb, heq⟩ := Option.map_eq_some_iff.mp hx
    cases heq
    have hst := Admission.stateOf_exec hb
    cases hw : a.writes b.2 with
    | none =>
      rw [hw] at hst
      exact .inl ⟨hw, hst⟩
    | some w =>
      obtain ⟨m, st⟩ := w
      rw [hw] at hst
      exact .inr ⟨m, st, hw, leaseWrite_of_exec hL hc hreq hb hw, hst⟩
  | trk j i =>
    simp only [Engine.exec] at hx
    split at hx
    · cases hx
    · obtain ⟨a, -, ha⟩ := Option.map_eq_some_iff.mp hx
      cases ha
      exact .inl ⟨rfl, rfl⟩
  | _ =>
    simp only [Engine.exec] at hx
    repeat' split at hx
    all_goals cases hx
    all_goals exact .inl ⟨rfl, rfl⟩

/-- All that a step may do to a lease in the maps is to drain it. -/
lemma Owned.stateOf_mapped (h : Owned e cs) (hL : Ledger e.adm (cs.map Custody.hold))
    (hc : cs[t]? = some c) (hreq : c.req i) (hx : e.exec x i = some (e', r)) (hl : l ∈ e.leases) :
    e'.adm.stateOf l = e.adm.stateOf l ∨ e'.adm.stateOf l = some .draining := by
  obtain ⟨s, hs, hsl⟩ := List.mem_filterMap.mp hl
  have hold := (h.mapped s hs l hsl).2
  obtain ⟨-, heq⟩ | ⟨m, st, -, hwrite, heq⟩ := Engine.exec_stateOf hL hc hreq hx
  · rw [heq]
    exact .inl rfl
  · rw [heq]
    by_cases hlm : l = m
    · subst hlm
      rw [Function.update_self]
      cases hwrite with
      | opened hst => simp [hst] at hold
      | activated hst _ => simp [hst] at hold
      | drained _ _ => exact .inr rfl
      | released _ _ hcl => exact absurd hl (h.not_mapped (List.mem_of_getElem? hc) hcl)
    · exact .inl (Function.update_of_ne hlm _ _)

/-- A lease in the maps is active or draining after the step as well. -/
lemma Owned.mapped_exec (h : Owned e cs) (hL : Ledger e.adm (cs.map Custody.hold))
    (hc : cs[t]? = some c) (hreq : c.req i) (hx : e.exec x i = some (e', r)) (hl : l ∈ e.leases) :
    e'.adm.stateOf l = some .active ∨ e'.adm.stateOf l = some .draining := by
  obtain ⟨s, hs, hsl⟩ := List.mem_filterMap.mp hl
  rcases h.stateOf_mapped hL hc hreq hx hl with heq | hst
  · rw [heq]
    exact (h.mapped s hs l hsl).2
  · exact .inr hst

/-- Only its owner moves an active lease that is in hand. -/
lemma Owned.active_exec (h : Owned e cs) (hL : Ledger e.adm (cs.map Custody.hold))
    (hc : cs[t]? = some c) (hreq : c.req i) (hx : e.exec x i = some (e', r)) {j : ℕ} {c₂ : Custody}
    (hj : cs[j]? = some c₂) (hl : c₂.holds l) (hst : e.adm.stateOf l = some .active) :
    e'.adm.stateOf l = some .active ∨ (t = j ∧ i.writes r = some (l, .released)) := by
  obtain ⟨-, heq⟩ | ⟨m, st, hw, hwrite, heq⟩ := Engine.exec_stateOf hL hc hreq hx
  · exact .inl (by rw [heq, hst])
  · by_cases hlm : l = m
    · subst hlm
      cases hwrite with
      | opened hst' => simp [hst] at hst'
      | activated hst' _ => simp [hst] at hst'
      | drained _ hd =>
        exact absurd (h.drains c (List.mem_of_getElem? hc) l hd)
          (h.not_mapped (List.mem_of_getElem? hj) hl)
      | released _ _ hcl => exact .inr ⟨h.alone hc hcl hj hl, hw⟩
    · exact .inl (by rw [heq, Function.update_of_ne hlm, hst])

/-- The mutex of a lease is taken with its state. -/
lemma Engine.exec_lockLease {st : ConnectionLeaseState}
    (hx : e.exec x (.adm (.lockLease l)) = some (e', st)) :
    e.adm.stateOf l = some st ∧ e'.adm.stateOf = e.adm.stateOf := by
  obtain ⟨b, hb, heq⟩ := Option.map_eq_some_iff.mp hx
  cases heq
  refine ⟨?_, Admission.stateOf_exec hb⟩
  simp only [Admission.exec] at hb
  split at hb
  · cases hb
  · rename_i lease hlease
    split at hb <;> cases hb
    rw [Admission.stateOf, hlease, Option.map_some]

lemma not_active_of_map {o : Option ℕ} : (o.map fun l => (l, false)) ≠ some (l, true) := by
  cases o <;> simp

/-- A lease that the goroutine of the step has activated is active. -/
lemma Owned.active_self (h : Owned e cs) (hL : Ledger e.adm (cs.map Custody.hold))
    (hc : cs[t]? = some c) (hreq : c.req i) (hx : e.exec x i = some (e', r))
    (hown : (c.upd i r).own = some (l, true)) : e'.adm.stateOf l = some .active := by
  have hkeep (hold : c.own = some (l, true)) (hw : i.writes r ≠ some (l, .released)) :
      e'.adm.stateOf l = some .active :=
    (h.active_exec hL hc hreq hx hc (Custody.holds_of_own hold)
      (h.active c (List.mem_of_getElem? hc) l hold)).resolve_right fun hr => hw hr.2
  cases i with
  | adm a =>
    cases a with
    | openSection peer listener =>
      cases r with
      | error err => exact hkeep hown (by rintro ⟨⟩)
      | ok m => simp [Custody.upd, Custody.admUpd] at hown
    | lockLease m =>
      simp only [Custody.upd, Custody.admUpd] at hown
      split at hown
      · obtain ⟨hst, heq⟩ := Engine.exec_lockLease hx
        simp only [Option.some.injEq, Prod.mk.injEq, beq_iff_eq] at hown
        obtain ⟨rfl, rfl⟩ := hown
        rw [heq, hst]
      · exact hkeep hown (by rintro ⟨⟩)
    | activateSection m =>
      obtain ⟨b, hb, heq⟩ := Option.map_eq_some_iff.mp hx
      cases heq
      cases hown
      have hst := Admission.stateOf_exec hb
      simp only [AdmInstr.writes] at hst
      rw [hst, Function.update_self]
    | markReleased m =>
      cases r with
      | none => exact hkeep hown (by rintro ⟨⟩)
      | some old => cases hown
    | _ => exact hkeep hown (by rintro ⟨⟩)
  | trk j a =>
    cases a with
    | register conn m => cases hown
    | takeSection n =>
      cases r with
      | none => exact hkeep hown (by rintro ⟨⟩)
      | some taken => cases hown
    | releaseSection n =>
      cases r with
      | none => exact hkeep hown (by rintro ⟨⟩)
      | some m => cases hown
    | _ => exact hkeep hown (by rintro ⟨⟩)
  | trackSession kind m => cases hown
  | untrackSession k => exact absurd hown not_active_of_map
  | cellTake d => exact absurd hown not_active_of_map
  | cellRelease d => exact absurd hown not_active_of_map
  | cellSet d m physical =>
    cases r with
    | false => exact hkeep hown (by rintro ⟨⟩)
    | true => cases hown
  | _ => exact hkeep hown (by rintro ⟨⟩)

/-- Sessions stay where they are, and once done stay done. -/
lemma Engine.session_forward (hx : e.exec x i = some (e', r)) {k : ℕ} {s : SessionEntry}
    (hs : e.sessions[k]? = some s) : ∃ s', e'.sessions[k]? = some s' ∧ s'.kind = s.kind ∧
      s'.admitted = s.admitted ∧ (s.done = true → s'.done = true) := by
  have hset {k' : ℕ} {s₀ s₁ : SessionEntry} (hs₀ : e.sessions[k']? = some s₀)
      (h : e'.sessions = e.sessions.set k' s₁) (h₁ : s₁.kind = s₀.kind)
      (h₂ : s₁.admitted = s₀.admitted) (h₃ : s₀.done = true → s₁.done = true) :
      ∃ s', e'.sessions[k]? = some s' ∧ s'.kind = s.kind ∧
        s'.admitted = s.admitted ∧ (s.done = true → s'.done = true) := by
    rw [h]
    by_cases hk : k' = k
    · subst hk
      rw [hs] at hs₀
      cases hs₀
      exact ⟨s₁, List.getElem?_set_self (List.getElem?_eq_some_iff.mp hs).1, h₁, h₂, h₃⟩
    · exact ⟨s, (List.getElem?_set_ne hk).trans hs, rfl, rfl, id⟩
  cases exec_sessions hx with
  | same h => exact ⟨s, by rw [h]; exact hs, rfl, rfl, id⟩
  | track kind l k' h =>
    refine ⟨s, ?_, rfl, rfl, id⟩
    rw [h, List.getElem?_append_left (List.getElem?_eq_some_iff.mp hs).1]
    exact hs
  | untrack k' s₀ hs₀ h => exact hset hs₀ h rfl rfl id
  | finish k' s₀ hs₀ hdone h => exact hset hs₀ h rfl rfl fun _ => rfl

/-- A lease leaves the maps only into the hands of the goroutine that removes its session. -/
lemma Engine.leases_exec (hreq : c.req i) (hx : e.exec x i = some (e', r)) (hl : l ∈ e.leases) :
    l ∈ e'.leases ∨ ((c.upd i r).holds l ∧ ∃ k, i = .untrackSession k ∧ c.closed = some k) := by
  obtain ⟨s, hs, hsl⟩ := List.mem_filterMap.mp hl
  cases exec_sessions hx with
  | same h => exact .inl (by rw [leases, h]; exact hl)
  | track kind l' k' h =>
    refine .inl (List.mem_filterMap.mpr ⟨s, ?_, hsl⟩)
    rw [h]
    exact List.mem_append_left _ hs
  | untrack k s₀ hs₀ h =>
    by_cases hl₀ : s₀.lease = some l
    · refine .inr ⟨?_, k, rfl, hreq.2.2.1⟩
      simp [Custody.holds, Custody.upd, hl₀]
    · refine .inl (List.mem_filterMap.mpr ?_)
      rw [h]
      obtain ⟨s', hs', hP⟩ := exists_mem_set (P := fun s : SessionEntry => s.lease = some l)
        (b := { s₀ with tracked := false, lease := none }) hs₀ ⟨s, hs, hsl⟩ fun h => absurd h hl₀
      exact ⟨s', hs', hP⟩
  | finish k s₀ hs₀ hdone h =>
    refine .inl (List.mem_filterMap.mpr ?_)
    rw [h]
    obtain ⟨s', hs', hP⟩ := exists_mem_set (P := fun s : SessionEntry => s.lease = some l)
      (b := { s₀ with done := true }) hs₀ ⟨s, hs, hsl⟩ id
    exact ⟨s', hs', hP⟩

/-- The sessions after a step agree with their leases. -/
structure SessionEntry.Mapped (s : SessionEntry) (stateOf : ℕ → Option ConnectionLeaseState) :
    Prop where
  tracked : s.tracked = s.lease.isSome
  mapped : ∀ l, s.lease = some l →
    l = s.admitted ∧ (stateOf l = some .active ∨ stateOf l = some .draining)
  undone : s.done = false → s.lease = some s.admitted

lemma Owned.sessions_exec (h : Owned e cs) (hL : Ledger e.adm (cs.map Custody.hold))
    (hc : cs[t]? = some c) (hreq : c.req i) (hx : e.exec x i = some (e', r)) :
    ∀ s ∈ e'.sessions, s.Mapped e'.adm.stateOf := by
  have hmem := List.mem_of_getElem? hc
  have hold : ∀ s ∈ e.sessions, s.Mapped e'.adm.stateOf := fun s hs =>
    ⟨h.tracked s hs, fun l hl => ⟨(h.mapped s hs l hl).1,
      h.mapped_exec hL hc hreq hx (List.mem_filterMap.mpr ⟨s, hs, hl⟩)⟩, h.undone s hs⟩
  cases Engine.exec_sessions hx with
  | same hs => rwa [hs]
  | track kind l k hs =>
    rw [hs]
    intro s hmem'
    rcases List.mem_append.mp hmem' with hmem' | hmem'
    · exact hold s hmem'
    · cases List.mem_singleton.mp hmem'
      refine ⟨rfl, ?_, fun _ => rfl⟩
      rintro _ ⟨⟩
      have hact := h.active c hmem l hreq.2.1
      obtain ⟨-, heq⟩ | ⟨m, st, hw, -⟩ := Engine.exec_stateOf hL hc hreq hx
      · exact ⟨rfl, .inl (heq ▸ hact)⟩
      · cases hw
  | untrack k s₀ hs₀ hs =>
    rw [hs]
    refine forall_mem_set hold ⟨rfl, nofun, fun hdone => ?_⟩
    -- the session was done before it was removed
    obtain ⟨s', hs', hdone'⟩ := h.closed c hmem k hreq.2.2.1
    rw [hs₀] at hs'
    cases hs'
    rw [hdone'] at hdone
    cases hdone
  | finish k s₀ hs₀ hdone hs =>
    rw [hs]
    have h₀ := hold s₀ (List.mem_of_getElem? hs₀)
    exact forall_mem_set hold ⟨h₀.tracked, h₀.mapped, nofun⟩

/-- The session whose `done` a goroutine has closed. -/
lemma Custody.upd_closed (hreq : c.req i) {k : ℕ} (h : (c.upd i r).closed = some k) :
    c.closed = some k ∨ i = .closeSessionDone k := by
  cases i with
  | adm a => exact .inl ((admUpd_same a r c).closed.symm.trans h)
  | trk j a => exact .inl ((trkUpd_same a r c).closed.symm.trans h)
  | cellSet d m physical => exact .inl (by cases r <;> exact h)
  | closeSessionDone k' =>
    cases h
    exact .inr rfl
  | _ => exact .inl h

lemma Owned.closed_exec (h : Owned e cs) (hc : cs[t]? = some c) (hreq : c.req i)
    (hx : e.exec x i = some (e', r)) : ∀ c' ∈ cs.set t (c.upd i r), ∀ k, c'.closed = some k →
      ∃ s, e'.sessions[k]? = some s ∧ s.done = true := by
  have hold {c' : Custody} (hc' : c' ∈ cs) {k : ℕ} (hk : c'.closed = some k) :
      ∃ s, e'.sessions[k]? = some s ∧ s.done = true := by
    obtain ⟨s, hs, hdone⟩ := h.closed c' hc' k hk
    obtain ⟨s', hs', -, -, hdone'⟩ := Engine.session_forward hx hs
    exact ⟨s', hs', hdone' hdone⟩
  refine forall_mem_set (fun c' hc' k hk => hold hc' hk) fun k hk => ?_
  rcases Custody.upd_closed hreq hk with hk | rfl
  · exact hold (List.mem_of_getElem? hc) hk
  · simp only [Engine.exec] at hx
    split at hx
    · cases hx
    · rename_i s hs
      split at hx <;> cases hx
      exact ⟨{ s with done := true },
        List.getElem?_set_self (List.getElem?_eq_some_iff.mp hs).1, rfl⟩

/-- The list of the leases to drain starts as the leases in the maps. -/
lemma Custody.upd_drains (hx : e.exec x i = some (e', r)) (hl : l ∈ (c.upd i r).drains) :
    l ∈ c.drains ∨ (i = .startDraining ∧ l ∈ e.leases) := by
  cases i with
  | adm a =>
    refine .inl ?_
    change l ∈ (c.admUpd a r).drains at hl
    unfold admUpd at hl
    split at hl
    case h_2 => split at hl <;> exact hl
    all_goals first | exact hl | exact List.mem_of_mem_erase hl
  | trk j a =>
    rw [show (c.upd (.trk j a) r).drains = _ from trkUpd_drains a r c] at hl
    exact .inl hl
  | cellSet d m physical => exact .inl (by cases r <;> exact hl)
  | startDraining =>
    cases hx
    exact .inr ⟨rfl, hl⟩
  | _ => exact .inl hl

lemma Owned.drains_exec (h : Owned e cs) (hS : Sections e cs) (hc : cs[t]? = some c)
    (hreq : c.req i) (hx : e.exec x i = some (e', r)) :
    ∀ c' ∈ cs.set t (c.upd i r), ∀ l ∈ c'.drains, l ∈ e'.leases := by
  intro c' hc' l hl
  obtain ⟨j, hj⟩ := List.mem_iff_getElem?.mp hc'
  by_cases htj : t = j
  · subst htj
    rw [List.getElem?_set_self (List.getElem?_eq_some_iff.mp hc).1] at hj
    cases hj
    rcases Custody.upd_drains hx hl with hold | ⟨rfl, hl⟩
    · rcases Engine.leases_exec hreq hx (h.drains c (List.mem_of_getElem? hc) l hold) with
        hl' | ⟨-, k, rfl, -⟩
      · exact hl'
      · rw [hreq.2.2.2.2] at hold
        cases hold
    · cases hx
      exact hl
  · rw [List.getElem?_set_ne htj] at hj
    have hmem := List.mem_of_getElem? hj
    rcases Engine.leases_exec hreq hx (h.drains c' hmem l hl) with hl' | ⟨-, k, rfl, -⟩
    · exact hl'
    · -- the goroutine that removes a session has the mutex, so that nobody drains
      have hmu' : c'.mu = true := by
        by_contra hmu
        rw [(hS.inside c' hmem (by simpa using hmu)).2.2] at hl
        cases hl
      exact absurd (hS.alone hc hreq.1 hj hmu') htj

/-- What a goroutine that has a lease may do with it. -/
lemma Custody.holds_upd (hreq : c.req i) (hx : e.exec x i = some (e', r)) (hl : c.holds l) :
    (c.upd i r).holds l ∨ i.writes r = some (l, .released) ∨ l ∈ e'.leases ∨ c.closed = none := by
  have hne : c.own ≠ none := fun hn => by simp [holds, hn] at hl
  cases i with
  | adm a =>
    cases a with
    | openSection peer listener => exact absurd hreq.2.1 hne
    | lockLease m =>
      refine .inl ?_
      simp only [upd, admUpd]
      split
      · rename_i hm
        rw [holds, show c.own.map Prod.fst = some m from hm] at hl
        cases hl
        rfl
      · exact hl
    | activateSection m =>
      rw [holds, show c.own.map Prod.fst = some m from hreq.2] at hl
      cases hl
      exact .inl rfl
    | markReleased m =>
      cases r with
      | none => exact .inl hl
      | some old =>
        rw [holds, show c.own.map Prod.fst = some m from hreq.2] at hl
        cases hl
        exact .inr (.inl rfl)
    | _ => exact .inl hl
  | trk j a =>
    cases a with
    | register conn m => exact .inr (.inr (.inr hreq.2.closed))
    | takeSection n | releaseSection n => exact absurd hreq hne
    | _ => exact .inl hl
  | trackSession kind m =>
    rw [holds, hreq.2.1] at hl
    cases hl
    cases hx
    exact .inr (.inr (.inl (by simp [Engine.leases])))
  | untrackSession k => exact absurd hreq.2.1 hne
  | cellTake d | cellRelease d => exact absurd hreq.1 hne
  | cellSet d m physical => exact .inr (.inr (.inr hreq.2.2.1))
  | _ => exact .inl hl

lemma Custody.closed_upd (hreq : c.req i) (h : c.closed ≠ none) : (c.upd i r).closed ≠ none := by
  cases i with
  | adm a => rwa [show (c.upd (.adm a) r).closed = _ from (admUpd_same a r c).closed]
  | trk j a => rwa [show (c.upd (.trk j a) r).closed = _ from (trkUpd_same a r c).closed]
  | cellSet d m physical => cases r <;> exact h
  | closeSessionDone k => exact nofun
  | _ => exact h

lemma Owned.draining_exec (h : Owned e cs) (hL : Ledger e.adm (cs.map Custody.hold))
    (hc : cs[t]? = some c) (hreq : c.req i) (hx : e.exec x i = some (e', r))
    (hst : e'.adm.stateOf l = some .draining) :
    l ∈ e'.leases ∨ ∃ c' ∈ cs.set t (c.upd i r), c'.holds l ∧ c'.closed ≠ none := by
  have hself : c.upd i r ∈ cs.set t (c.upd i r) :=
    List.mem_set (List.getElem?_eq_some_iff.mp hc).1 _
  -- a lease in the maps stays there or comes into the hands of the step's goroutine
  have hmap (hl : l ∈ e.leases) :
      l ∈ e'.leases ∨ ∃ c' ∈ cs.set t (c.upd i r), c'.holds l ∧ c'.closed ≠ none := by
    rcases Engine.leases_exec hreq hx hl with hl | ⟨hl, k, rfl, hk⟩
    · exact .inl hl
    · exact .inr ⟨_, hself, hl, Custody.closed_upd hreq (by rw [hk]; exact nofun)⟩
  have hkeep (hold : e.adm.stateOf l = some .draining)
      (hw : i.writes r ≠ some (l, .released)) :
      l ∈ e'.leases ∨ ∃ c' ∈ cs.set t (c.upd i r), c'.holds l ∧ c'.closed ≠ none := by
    rcases h.draining l hold with hl | ⟨c₂, hc₂, hl, hclosed⟩
    · exact hmap hl
    · obtain ⟨j, hj⟩ := List.mem_iff_getElem?.mp hc₂
      by_cases htj : t = j
      · subst htj
        rw [hc] at hj
        cases hj
        rcases Custody.holds_upd hreq hx hl with hl' | hw' | hl' | hn
        · exact .inr ⟨_, hself, hl', Custody.closed_upd hreq hclosed⟩
        · exact absurd hw' hw
        · exact .inl hl'
        · exact absurd hn hclosed
      · exact .inr ⟨c₂, List.mem_of_getElem? ((List.getElem?_set_ne htj).trans hj), hl, hclosed⟩
  obtain ⟨hw, heq⟩ | ⟨m, st, hw, hwrite, heq⟩ := Engine.exec_stateOf hL hc hreq hx
  · exact hkeep (heq ▸ hst) (by rw [hw]; exact nofun)
  · by_cases hlm : l = m
    · subst hlm
      rw [heq, Function.update_self] at hst
      cases hst
      cases hwrite with
      | drained _ hd => exact hmap (h.drains c (List.mem_of_getElem? hc) l hd)
    · refine hkeep (by rwa [heq, Function.update_of_ne hlm] at hst) fun hw' => hlm ?_
      rw [hw] at hw'
      cases hw'
      rfl

/-- Every step keeps the leases in their places. -/
lemma Owned.exec (h : Owned e cs) (hL : Ledger e.adm (cs.map Custody.hold)) (hS : Sections e cs)
    (hc : cs[t]? = some c) (hreq : c.req i) (hx : e.exec x i = some (e', r)) :
    Owned e' (cs.set t (c.upd i r)) := by
  have hsessions := h.sessions_exec hL hc hreq hx
  refine ⟨fun l => ?_, fun c' hc' l hl => ?_, fun s hs => (hsessions s hs).tracked,
    fun s hs => (hsessions s hs).mapped, fun s hs => (hsessions s hs).undone,
    h.closed_exec hc hreq hx, h.drains_exec hS hc hreq hx,
    fun l hst => h.draining_exec hL hc hreq hx hst⟩
  · have howners := h.owners l
    have hset := total_set (f := Custody.owns l) (c.upd i r) hc
    have hheld := Engine.held_exec (l := l) hreq hx
    have hlive : e'.adm.live l + ifOne (i.frees r) l = e.adm.live l + ifOne (i.opens r) l := by
      cases i with
      | adm a =>
        obtain ⟨b, hb, heq⟩ := Option.map_eq_some_iff.mp hx
        cases heq
        exact Admission.live_exec hL hc hreq hb
      | _ =>
        obtain ⟨-, heq⟩ | ⟨m, st, hw, -⟩ := Engine.exec_stateOf hL hc hreq hx
        · simp only [Admission.live, heq]
          rfl
        · cases hw
    omega
  · obtain ⟨j, hj⟩ := List.mem_iff_getElem?.mp hc'
    by_cases htj : t = j
    · subst htj
      rw [List.getElem?_set_self (List.getElem?_eq_some_iff.mp hc).1] at hj
      cases hj
      exact h.active_self hL hc hreq hx hl
    · rw [List.getElem?_set_ne htj] at hj
      have hst := h.active c' (List.mem_of_getElem? hj) l hl
      exact (h.active_exec hL hc hreq hx hj (Custody.holds_of_own hl) hst).resolve_right
        fun hr => htj hr.1

/-- The steps are answered as the outline says. -/
lemma Owned.ans (h : Owned e cs) (hc : cs[t]? = some c) (hreq : c.req i)
    (hx : e.exec x i = some (e', r)) : c.ans i r := by
  have hmem := List.mem_of_getElem? hc
  cases i with
  | adm a =>
    cases a with
    | lockLease l =>
      obtain ⟨hst, -⟩ := Engine.exec_lockLease hx
      refine ⟨fun hl => ?_, fun hl hclosed => ?_⟩
      · obtain ⟨s, hs, hsl⟩ := List.mem_filterMap.mp (h.drains c hmem l hl)
        simpa [hst] using (h.mapped s hs l hsl).2
      · obtain ⟨st, hst', hne⟩ := h.stateOf_hand hmem hl
        rw [hst] at hst'
        cases hst'
        have hdrain : r ≠ .draining := by
          rintro rfl
          rcases h.draining l hst with hl' | ⟨c₂, hc₂, hl₂, hclosed₂⟩
          · exact h.not_mapped hmem hl hl'
          · obtain ⟨j, hj⟩ := List.mem_iff_getElem?.mp hc₂
            obtain rfl := h.alone hc hl hj hl₂
            rw [hc] at hj
            cases hj
            exact hclosed₂ hclosed
        cases r <;> simp_all
    | markReleased l =>
      rintro rfl
      obtain ⟨b, hb, heq⟩ := Option.map_eq_some_iff.mp hx
      obtain ⟨st, hst, hne⟩ := h.stateOf_hand hmem hreq.2
      simp only [Admission.exec] at hb
      split at hb
      · cases hb
      · rename_i lease hlease
        rw [Admission.stateOf, hlease, Option.map_some] at hst
        cases hst
        split at hb
        · cases hb
        · cases hb
          cases heq
    | _ => trivial
  | _ => trivial

end Steps

/-! ### The outline is sound -/

/-- The engine's accounts, its mutex and its leases are in order. -/
structure Custodial (e : Engine) (cs : List Custody) : Prop where
  ledger : Ledger e.adm (cs.map Custody.hold)
  sections : Sections e cs
  owned : Owned e cs

lemma Custodial.exec {e e' : Engine} {cs : List Custody} {t : ℕ} {c : Custody} {x : EChoice}
    {i : EInstr} {r : i.Resp} (h : Custodial e cs) (hc : cs[t]? = some c) (hreq : c.req i)
    (hx : e.exec x i = some (e', r)) : Custodial e' (cs.set t (c.upd i r)) :=
  ⟨ledger_exec h.ledger hc hreq hx, h.sections.exec hc hreq hx,
    h.owned.exec h.ledger h.sections hc hreq hx⟩

/-- Starting a goroutine only takes it off the list of those that were asked for. -/
lemma Engine.spawn_eq {e e' : Engine} {l : ELabel} (h : e.spawn l = some e') :
    ∃ pending, e' = { e with pending } := by
  cases l with
  | listen | dial | listenPacket | dialPacket | shutdown | close =>
    cases h
    exact ⟨_, rfl⟩
  | closeListener j | closeWSListener j | accept j =>
    obtain ⟨y, -, hy⟩ := Option.bind_eq_some_iff.mp h
    split at hy <;> cases hy
    exact ⟨_, rfl⟩
  | _ =>
    simp only [Engine.spawn] at h
    split at h <;> cases h
    exact ⟨_, rfl⟩

lemma Custodial.spawn {e : Engine} {cs : List Custody} (h : Custodial e cs) (l : ELabel)
    (pending : List ELabel) :
    Custodial { e with pending } (cs ++ [engineOutline.start l]) := by
  obtain ⟨hL, hS, hO⟩ := h
  refine ⟨?_, ⟨?_, forall_mem_concat hS.inside fun _ => ⟨rfl, rfl, rfl⟩,
      forall_mem_concat hS.seen nofun, ?_⟩,
    ⟨fun m => ?_, forall_mem_concat hO.active nofun, hO.tracked, hO.mapped, hO.undone,
      forall_mem_concat hO.closed nofun, forall_mem_concat hO.drains nofun, fun m hst => ?_⟩⟩
  · rw [List.map_append]
    exact hL.spawn
  · rw [total_append, hS.mutex]
    rfl
  · rw [total_append, hS.ops]
    rfl
  · rw [total_append]
    exact hO.owners m
  · exact (hO.draining m hst).imp_right fun ⟨c, hc, hP⟩ => ⟨c, List.mem_append_left _ hc, hP⟩

/-- The outline of the engine is sound for every interleaving. -/
lemma engineOutline_sound (cfg : EngineConfig) :
    engineOutline.Sound (engineMachine cfg) Custodial fun _ _ => True where
  body := engineOutline_body cfg
  exec p t x th i k s' r _ ht _ hG hreq hx :=
    ⟨hG.owned.ans (Outline.ctxs_getElem? ht) hreq hx, hG.exec (Outline.ctxs_getElem? ht) hreq hx⟩
  spawn p l s' _ hG hs := by
    obtain ⟨pending, rfl⟩ := Engine.spawn_eq hs
    refine ⟨⟨_, rfl, ⟨rfl, rfl, rfl, rfl⟩, ?_⟩, hG.spawn l pending⟩
    cases l <;> first | rfl | trivial
  env p e s' _ _ _ := e.elim

lemma custodial_init (cfg : EngineConfig) : Custodial (Engine.init cfg) [] := by
  have hcs {P : Custody → Prop} : ∀ c ∈ ([] : List Custody), P c := by simp
  have hsessions {P : SessionEntry → Prop} : ∀ s ∈ (Engine.init cfg).sessions, P s := by
    simp [Engine.init]
  refine ⟨ledger_init cfg.limits, ⟨rfl, hcs, hcs, rfl⟩, ⟨fun l => rfl, hcs, hsessions, hsessions,
    hsessions, hcs, hcs, fun l h => ?_⟩⟩
  simp [Engine.init, Admission.stateOf] at h

/-- The contexts of the goroutines. -/
abbrev EProcess.custody (p : EProcess) : List Custody := engineOutline.ctxs p.threads

lemma engineOutline_ctx_entry (t : EThread) : (engineOutline.ctx t).entry = t.entry := by
  obtain ⟨entry, prog, log⟩ := t
  induction log with
  | nil => rfl
  | cons a log ih =>
    rw [Outline.ctx_cons _ prog prog]
    exact (Custody.upd_entry _ _).trans ih

/-- All goroutines have returned. -/
def EProcess.returned (p : EProcess) : Bool :=
  p.threads.all fun t => match t.prog with
    | .done (.ret _) => true
    | _ => false

/-- Every process that is reached is inside the outline. -/
lemma engine_holds {cfg : EngineConfig} {p : EProcess} (h : EngineReaches cfg p) :
    engineOutline.Holds Custodial p :=
  (engineOutline_sound cfg).reaches ⟨custodial_init cfg, by simp [EProcess.init]⟩ h

end Ogrenet
