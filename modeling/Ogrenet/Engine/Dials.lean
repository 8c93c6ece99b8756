import Ogrenet.Engine.Handover

/-!
# Leases of WebSocket dials

A dial callback acquires a lease and hands it to `dialWebSocket` through a `wsDialAdmission`.
`dialWebSocket` empties the cell when it returns. A callback that is still running may set the cell
after that, and then nobody takes the lease out again.
-/

namespace Ogrenet

open Interleaving Interleaving.Prog

/-- One for the goroutine that has made the cell. -/
def Custody.makes (d : ℕ) (c : Custody) : ℕ := ifOne (c.dial.map Prod.fst) d

/-- Where a lease that a callback of dial `d` has acquired may be. -/
structure Origin (e : Engine) (cs : List Custody) (d l : ℕ) : Prop where
  hands : ∀ c ∈ cs, c.holds l → (∃ tls, c.entry = .dialCallback d tls) ∨
    (∃ isOver, c.dial = some (d, isOver)) ∨ ∃ k, c.entry = .finalizer k
  holders : ∀ j ∈ e.listeners, j.holds l = 0
  cells : ∀ (n : ℕ) (a : WSDialAdmission), e.cells[n]? = some a → a.lease = some l → n = d
  sessions : ∀ s ∈ e.sessions, s.lease = some l → s.kind = .webSocket

/-- The cells and the leases that go through them. -/
structure Dials (e : Engine) (cs : List Custody) : Prop where
  makers : ∀ d, total (Custody.makes d) cs = if d < e.cells.length then 1 else 0
  isOver : ∀ c ∈ cs, ∀ (d : ℕ) o, c.dial = some (d, o) →
    ∃ a : WSDialAdmission, e.cells[d]? = some a ∧ a.isOver = o
  empty : ∀ (d : ℕ) (a : WSDialAdmission), e.cells[d]? = some a → a.isOver = true → a.lease = none
  known : ∀ c ∈ cs, ∀ l ∈ c.got, e.adm.stateOf l ≠ none
  origin : ∀ c ∈ cs, ∀ d tls, c.entry = .dialCallback d tls → ∀ l ∈ c.got, Origin e cs d l

/-! ### What the steps do to cells -/

/-- What a step may do to the cells. -/
inductive Engine.CellsStep (e e' : Engine) : (i : EInstr) → i.Resp → Prop
  | same {i : EInstr} {r : i.Resp} (h : e'.cells = e.cells) : CellsStep e e' i r
  | new (h : e'.cells = e.cells ++ [({} : WSDialAdmission)]) :
      CellsStep e e' .newCell e.cells.length
  | set (d l physical : ℕ) (a : WSDialAdmission) (ha : e.cells[d]? = some a)
      (hfree : a.lease = none)
      (h : e'.cells = e.cells.set d { a with lease := some l, physical := some physical }) :
      CellsStep e e' (.cellSet d l physical) true
  | take (d : ℕ) (a : WSDialAdmission) (ha : e.cells[d]? = some a)
      (h : e'.cells = e.cells.set d { a with lease := none, physical := none }) :
      CellsStep e e' (.cellTake d) a.lease
  | release (d : ℕ) (a : WSDialAdmission) (ha : e.cells[d]? = some a)
      (h : e'.cells = e.cells.set d { a with lease := none, physical := none, isOver := true }) :
      CellsStep e e' (.cellRelease d) a.lease

lemma Engine.exec_cells {e e' : Engine} {x : EChoice} {i : EInstr} {r : i.Resp}
    (h : e.exec x i = some (e', r)) : e.CellsStep e' i r := by
  cases i with
  | adm i =>
    obtain ⟨a, -, ha⟩ := Option.map_eq_some_iff.mp h
    cases ha
    exact .same rfl
  | trk j i =>
    simp only [Engine.exec] at h
    split at h
    · cases h
    · obtain ⟨a, -, ha⟩ := Option.map_eq_some_iff.mp h
      cases ha
      exact .same rfl
  | newCell =>
    cases h
    exact .new rfl
  | cellSet d l physical =>
    simp only [Engine.exec] at h
    split at h
    · cases h
    · split at h
      · cases h
        exact .same rfl
      · rename_i a ha hfree
        cases h
        exact .set d l physical a ha (Option.not_isSome_iff_eq_none.mp hfree) rfl
  | cellTake d =>
    simp only [Engine.exec] at h
    split at h <;> cases h
    exact .take d _ (by assumption) rfl
  | cellRelease d =>
    simp only [Engine.exec] at h
    split at h <;> cases h
    exact .release d _ (by assumption) rfl
  | _ =>
    simp only [Engine.exec] at h
    repeat' split at h
    all_goals cases h
    all_goals exact .same rfl

section Steps

variable {e e' : Engine} {cs : List Custody} {t : ℕ} {c : Custody} {x : EChoice} {i : EInstr}
  {r : i.Resp} {d l : ℕ}

/-- Cells stay where they are. -/
lemma Engine.cell_forward (hx : e.exec x i = some (e', r)) {a : WSDialAdmission}
    (ha : e.cells[d]? = some a) : ∃ a' : WSDialAdmission, e'.cells[d]? = some a' ∧
      (a'.isOver = a.isOver ∨ (i = .cellRelease d ∧ a'.isOver = true)) := by
  have hset {d' : ℕ} {a₀ a₁ : WSDialAdmission} (ha₀ : e.cells[d']? = some a₀)
      (h : e'.cells = e.cells.set d' a₁) :
      (d' = d ∧ a₀ = a ∧ e'.cells[d]? = some a₁) ∨ e'.cells[d]? = some a := by
    rw [h]
    by_cases hd : d' = d
    · subst hd
      rw [ha] at ha₀
      cases ha₀
      exact .inl ⟨rfl, rfl, List.getElem?_set_self (List.getElem?_eq_some_iff.mp ha).1⟩
    · exact .inr ((List.getElem?_set_ne hd).trans ha)
  cases exec_cells hx with
  | same h => exact ⟨a, by rwa [h], .inl rfl⟩
  | new h =>
    refine ⟨a, ?_, .inl rfl⟩
    rw [h, List.getElem?_append_left (List.getElem?_eq_some_iff.mp ha).1]
    exact ha
  | set d' l' physical a₀ ha₀ hfree h =>
    rcases hset ha₀ h with ⟨rfl, rfl, ha'⟩ | ha'
    · exact ⟨_, ha', .inl rfl⟩
    · exact ⟨_, ha', .inl rfl⟩
  | take d' a₀ ha₀ h =>
    rcases hset ha₀ h with ⟨rfl, rfl, ha'⟩ | ha'
    · exact ⟨_, ha', .inl rfl⟩
    · exact ⟨_, ha', .inl rfl⟩
  | release d' a₀ ha₀ h =>
    rcases hset ha₀ h with ⟨rfl, rfl, ha'⟩ | ha'
    · exact ⟨_, ha', .inr ⟨rfl, rfl⟩⟩
    · exact ⟨_, ha', .inl rfl⟩

lemma Engine.cells_length (hx : e.exec x i = some (e', r)) :
    (i = .newCell ∧ e'.cells.length = e.cells.length + 1) ∨
      (i ≠ .newCell ∧ e'.cells.length = e.cells.length) := by
  by_cases hi : i = .newCell
  · subst hi
    cases hx
    exact .inl ⟨rfl, by simp⟩
  · refine .inr ⟨hi, ?_⟩
    cases exec_cells hx with
    | same h => rw [h]
    | new h => exact absurd rfl hi
    | set d l physical a ha hfree h => rw [h, List.length_set]
    | take d a ha h => rw [h, List.length_set]
    | release d a ha h => rw [h, List.length_set]

/-- A goroutine makes one cell and keeps it. -/
lemma Custody.upd_dial (hreq : c.req i) (hx : e.exec x i = some (e', r)) :
    (c.upd i r).dial = c.dial ∨
      (i = .newCell ∧ c.dial = none ∧ (c.upd i r).dial = some (e.cells.length, false)) ∨
      ∃ d, i = .cellRelease d ∧ c.dial = some (d, false) ∧ (c.upd i r).dial = some (d, true) := by
  cases i with
  | adm a => exact .inl (admUpd_same a r c).dial
  | trk j a => exact .inl (trkUpd_same a r c).dial
  | cellSet d l physical => exact .inl (by cases r <;> rfl)
  | newCell =>
    cases hx
    exact .inr (.inl ⟨rfl, hreq, rfl⟩)
  | cellRelease d => exact .inr (.inr ⟨d, rfl, hreq.2, rfl⟩)
  | _ => exact .inl rfl

lemma Custody.dial_of_makes (h : c.makes d ≠ 0) : ∃ isOver, c.dial = some (d, isOver) := by
  unfold makes ifOne at h
  split at h
  · obtain ⟨⟨n, isOver⟩, hdial, rfl⟩ := Option.map_eq_some_iff.mp (by assumption)
    exact ⟨isOver, hdial⟩
  · exact absurd rfl h

lemma Dials.makers_exec (h : Dials e cs) (hc : cs[t]? = some c) (hreq : c.req i)
    (hx : e.exec x i = some (e', r)) (d : ℕ) :
    total (Custody.makes d) (cs.set t (c.upd i r)) = if d < e'.cells.length then 1 else 0 := by
  have hset := total_set (f := Custody.makes d) (c.upd i r) hc
  have hmakers := h.makers d
  rcases Custody.upd_dial hreq hx with hd | ⟨rfl, hnone, hd⟩ | ⟨n, rfl, hn, hd⟩
  · simp only [Custody.makes, hd] at hset
    rcases Engine.cells_length hx with ⟨rfl, -⟩ | ⟨-, hlen⟩
    · rw [show c.dial = none from hreq] at hd
      cases hd
    · rw [hlen, ← hmakers]
      exact Nat.add_right_cancel hset
  · rcases Engine.cells_length hx with ⟨-, hlen⟩ | ⟨hne, -⟩
    · simp only [Custody.makes, hd, hnone, Option.map_none, Option.map_some] at hset
      simp only [ifOne] at hset
      rw [hlen]
      by_cases hdn : e.cells.length = d
      · subst hdn
        simp_all
      · have : (d < e.cells.length + 1) ↔ d < e.cells.length := by omega
        simp_all
    · exact absurd rfl hne
  · simp only [Custody.makes, hd, hn, Option.map_some] at hset
    rcases Engine.cells_length hx with ⟨hi, -⟩ | ⟨-, hlen⟩
    · cases hi
    · rw [hlen, ← hmakers]
      exact Nat.add_right_cancel hset

/-- Two goroutines have not made the same cell. -/
lemma Dials.alone (h : Dials e cs) (hc : cs[t]? = some c) {o o' : Bool} (hd : c.dial = some (d, o))
    {t' : ℕ} {c' : Custody} (hc' : cs[t']? = some c') (hd' : c'.dial = some (d, o')) : t = t' := by
  by_contra hne
  have hle := add_le_total (f := Custody.makes d) hne hc hc'
  have hmakers := h.makers d
  simp only [Custody.makes, hd, hd', ifOne, Option.map_some, if_true] at hle
  split at hmakers <;> omega

lemma Dials.over_exec (h : Dials e cs) (hc : cs[t]? = some c) (hreq : c.req i)
    (hx : e.exec x i = some (e', r)) : ∀ c' ∈ cs.set t (c.upd i r), ∀ (d : ℕ) o,
      c'.dial = some (d, o) → ∃ a : WSDialAdmission, e'.cells[d]? = some a ∧ a.isOver = o := by
  have hmem := List.mem_of_getElem? hc
  intro c' hc' d o hd
  obtain ⟨j, hj⟩ := List.mem_iff_getElem?.mp hc'
  by_cases htj : t = j
  · subst htj
    rw [List.getElem?_set_self (List.getElem?_eq_some_iff.mp hc).1] at hj
    cases hj
    rcases Custody.upd_dial hreq hx with heq | ⟨rfl, -, heq⟩ | ⟨n, rfl, hn, heq⟩
    · rw [heq] at hd
      obtain ⟨a, ha, ho⟩ := h.isOver c hmem d o hd
      obtain ⟨a', ha', ho' | ⟨rfl, -⟩⟩ := Engine.cell_forward hx ha
      · exact ⟨a', ha', ho'.trans ho⟩
      · rw [hreq.2] at heq
        cases heq
    · rw [heq] at hd
      cases hd
      cases hx
      exact ⟨{}, by simp, rfl⟩
    · rw [heq] at hd
      cases hd
      obtain ⟨a, ha, -⟩ := h.isOver c hmem d false hn
      simp only [Engine.exec, ha] at hx
      cases hx
      exact ⟨_, List.getElem?_set_self (List.getElem?_eq_some_iff.mp ha).1, rfl⟩
  · rw [List.getElem?_set_ne htj] at hj
    obtain ⟨a, ha, ho⟩ := h.isOver c' (List.mem_of_getElem? hj) d o hd
    obtain ⟨a', ha', ho' | ⟨rfl, -⟩⟩ := Engine.cell_forward hx ha
    · exact ⟨a', ha', ho'.trans ho⟩
    · exact absurd (h.alone hc hreq.2 hj hd) htj

/-- The step puts a lease into a cell that has been released. -/
def EInstr.Strands (e : Engine) : EInstr → Prop
  | .cellSet d _ _ => ∃ a : WSDialAdmission, e.cells[d]? = some a ∧ a.lease = none ∧ a.isOver = true
  | _ => False

lemma Dials.empty_exec (h : Dials e cs) (hok : ¬ i.Strands e) (hx : e.exec x i = some (e', r)) :
    ∀ (d : ℕ) (a : WSDialAdmission), e'.cells[d]? = some a → a.isOver = true → a.lease = none := by
  have hset {n : ℕ} {a₀ a₁ : WSDialAdmission} (ha₀ : e.cells[n]? = some a₀)
      (heq : e'.cells = e.cells.set n a₁) (h₁ : a₁.isOver = true → a₁.lease = none) :
      ∀ (d : ℕ) (a : WSDialAdmission), e'.cells[d]? = some a → a.isOver = true →
        a.lease = none := by
    intro d a ha ho
    rw [heq] at ha
    by_cases hd : n = d
    · subst hd
      rw [List.getElem?_set_self (List.getElem?_eq_some_iff.mp ha₀).1] at ha
      cases ha
      exact h₁ ho
    · exact h.empty d a ((List.getElem?_set_ne hd).symm.trans ha) ho
  cases Engine.exec_cells hx with
  | same heq =>
    rw [heq]
    exact h.empty
  | new heq =>
    intro d a ha ho
    rw [heq] at ha
    rcases Nat.lt_or_ge d e.cells.length with hd | hd
    · exact h.empty d a (by rwa [List.getElem?_append_left hd] at ha) ho
    · rw [List.getElem?_append_right hd] at ha
      cases List.mem_singleton.mp (List.mem_of_getElem? ha)
      rfl
  | set n m physical a₀ ha₀ hfree heq =>
    exact hset ha₀ heq fun ho => absurd ⟨a₀, ha₀, hfree, ho⟩ hok
  | take n a₀ ha₀ heq => exact hset ha₀ heq fun _ => rfl
  | release n a₀ ha₀ heq => exact hset ha₀ heq fun _ => rfl

/-- The leases that a goroutine was given. -/
lemma Custody.upd_got (hm : l ∈ (c.upd i r).got) : l ∈ c.got ∨ i.opens r = some l := by
  cases i with
  | adm a =>
    cases a with
    | openSection peer listener =>
      cases r with
      | error err => exact .inl hm
      | ok m =>
        rcases List.mem_cons.mp hm with rfl | hm
        · exact .inr rfl
        · exact .inl hm
    | lockLease m =>
      simp only [upd, admUpd] at hm
      split at hm <;> exact .inl hm
    | markReleased m => exact .inl (by cases r <;> exact hm)
    | _ => exact .inl hm
  | trk j a =>
    refine .inl ?_
    change l ∈ (c.trkUpd a r).got at hm
    unfold trkUpd at hm
    split at hm <;> exact hm
  | cellSet n m physical => exact .inl (by cases r <;> exact hm)
  | _ => exact .inl hm

/-- A lease that is handed out was not there before. -/
lemma Engine.stateOf_opens (hx : e.exec x i = some (e', r)) (hm : i.opens r = some l) :
    e.adm.stateOf l = none ∧ e'.adm.stateOf l = some .opening := by
  cases i with
  | adm a =>
    obtain ⟨b, hb, heq⟩ := Option.map_eq_some_iff.mp hx
    cases heq
    have hst := Admission.stateOf_exec hb
    cases a with
    | openSection peer listener =>
      simp only [Admission.exec] at hb
      split at hb
      · cases hb
        cases hm
      · cases hb
        cases hm
        exact ⟨Admission.stateOf_length, by rw [hst]; exact Function.update_self ..⟩
    | _ => cases hm
  | _ => cases hm

lemma Engine.stateOf_known (hL : Ledger e.adm (cs.map Custody.hold)) (hc : cs[t]? = some c)
    (hreq : c.req i) (hx : e.exec x i = some (e', r)) (h : e.adm.stateOf l ≠ none) :
    e'.adm.stateOf l ≠ none := by
  obtain ⟨-, heq⟩ | ⟨m, st, -, -, heq⟩ := exec_stateOf hL hc hreq hx
  · rwa [heq]
  · rw [heq]
    by_cases hlm : l = m
    · subst hlm
      simp
    · rwa [Function.update_of_ne hlm]

lemma Dials.known_exec (h : Dials e cs) (hL : Ledger e.adm (cs.map Custody.hold))
    (hc : cs[t]? = some c) (hreq : c.req i) (hx : e.exec x i = some (e', r)) :
    ∀ c' ∈ cs.set t (c.upd i r), ∀ l ∈ c'.got, e'.adm.stateOf l ≠ none := by
  refine forall_mem_set (fun c' hc' l hl => Engine.stateOf_known hL hc hreq hx
    (h.known c' hc' l hl)) fun l hl => ?_
  rcases Custody.upd_got hl with hl | hopen
  · exact Engine.stateOf_known hL hc hreq hx (h.known c (List.mem_of_getElem? hc) l hl)
  · rw [(Engine.stateOf_opens hx hopen).2]
    exact nofun

/-- How a goroutine comes to have a lease that was known before. -/
lemma Custody.holds_of_upd (hreq : c.req i) (hx : e.exec x i = some (e', r))
    (hl : (c.upd i r).holds l) (hnew : i.opens r ≠ some l) : c.holds l ∨
      (∃ j a, i = .trk j a ∧ ∃ L, e.listeners[j]? = some L ∧ L.holds l ≠ 0) ∨
      (∃ d, (i = .cellTake d ∨ i = .cellRelease d) ∧
        ∃ a : WSDialAdmission, e.cells[d]? = some a ∧ a.lease = some l) ∨
      ∃ k, i = .untrackSession k := by
  cases i with
  | adm a =>
    refine .inl ?_
    cases a with
    | openSection peer listener =>
      cases r with
      | error err => exact hl
      | ok m =>
        cases hl
        exact absurd rfl hnew
    | lockLease m =>
      simp only [upd, admUpd] at hl
      split at hl
      · rename_i hm
        cases hl
        exact hm
      · exact hl
    | activateSection m =>
      cases hl
      exact hreq.2
    | markReleased m =>
      cases r with
      | none => exact hl
      | some old => cases hl
    | _ => exact hl
  | trk j a =>
    by_cases hold : c.holds l
    · exact .inl hold
    · simp only [Engine.exec] at hx
      split at hx
      · cases hx
      · rename_i L hL
        obtain ⟨b, hb, heq⟩ := Option.map_eq_some_iff.mp hx
        cases heq
        refine .inr (.inl ⟨j, a, rfl, L, hL, fun hzero => ?_⟩)
        have howns := Custody.owns_trk (l := l) (j := j) hreq hb
        rw [Custody.owns, Custody.owns, if_pos hl, if_neg hold,
          show total (HTTPConnLease.holds l) L.tracker.holders = 0 from hzero] at howns
        omega
  | untrackSession k => exact .inr (.inr (.inr ⟨k, rfl⟩))
  | cellTake d | cellRelease d =>
    simp only [Engine.exec] at hx
    split at hx <;> cases hx
    rename_i a ha
    refine .inr (.inr (.inl ⟨d, by simp, a, ha, ?_⟩))
    cases hlease : a.lease with
    | none =>
      rw [holds, upd, hlease] at hl
      cases hl
    | some m =>
      rw [holds, upd, hlease] at hl
      cases hl
      rfl
  | cellSet n m physical =>
    cases r with
    | false => exact .inl hl
    | true => cases hl
  | trackSession kind m => cases hl
  | _ => exact .inl hl

/-- Only steps on the tracker of a listener change its holders. -/
lemma Engine.exec_holders (hx : e.exec x i = some (e', r)) {L' : ListenerEntry}
    (hL' : L' ∈ e'.listeners) : L'.holds l = 0 ∨ (∃ L ∈ e.listeners, L'.holds l = L.holds l) ∨
      ∃ j a, i = .trk j a := by
  have hset {j : ℕ} {L₀ L₁ : ListenerEntry} (hL₀ : e.listeners[j]? = some L₀)
      (heq : e'.listeners = e.listeners.set j L₁) (h₁ : L₁.tracker = L₀.tracker) :
      ∃ L ∈ e.listeners, L'.holds l = L.holds l := by
    rw [heq] at hL'
    rcases List.mem_or_eq_of_mem_set hL' with hmem | rfl
    · exact ⟨L', hmem, rfl⟩
    · exact ⟨L₀, List.mem_of_getElem? hL₀, by rw [ListenerEntry.holds, h₁]; rfl⟩
  cases i with
  | trk j a => exact .inr (.inr ⟨j, a, rfl⟩)
  | adm a =>
    obtain ⟨b, -, heq⟩ := Option.map_eq_some_iff.mp hx
    cases heq
    exact .inr (.inl ⟨L', hL', rfl⟩)
  | newListener scheme =>
    cases hx
    rcases List.mem_append.mp hL' with hmem | hmem
    · exact .inr (.inl ⟨L', hmem, rfl⟩)
    · cases List.mem_singleton.mp hmem
      exact .inl rfl
  | _ =>
    simp only [Engine.exec] at hx
    repeat' split at hx
    all_goals cases hx
    all_goals first
      | exact .inr (.inl ⟨L', hL', rfl⟩)
      | (refine .inr (.inl ?_)
         apply hset <;> first | assumption | rfl)

/-- The goroutines that may have the lease of dial `d` in hand register no holder. -/
lemma Origin.not_plain (h : Origin e cs d l) (hc : c ∈ cs) (hl : c.holds l) : ¬ c.Plain := by
  rintro ⟨hentry, hdial, -⟩
  rcases h.hands c hc hl with ⟨tls, he⟩ | ⟨o, hd⟩ | ⟨k, he⟩
  · rw [he] at hentry
    exact hentry
  · rw [hd] at hdial
    cases hdial
  · rw [he] at hentry
    exact hentry

lemma Origin.holders_exec (h : Origin e cs d l) (hc : cs[t]? = some c) (hreq : c.req i)
    (hx : e.exec x i = some (e', r)) : ∀ L ∈ e'.listeners, L.holds l = 0 := by
  intro L' hL'
  rcases Engine.exec_holders (l := l) hx hL' with hzero | ⟨L, hL, heq⟩ | ⟨j, a, rfl⟩
  · exact hzero
  · rw [heq, h.holders L hL]
  · simp only [Engine.exec] at hx
    split at hx
    · cases hx
    · rename_i L hL
      obtain ⟨b, hb, heq⟩ := Option.map_eq_some_iff.mp hx
      cases heq
      rcases List.mem_or_eq_of_mem_set hL' with hmem | rfl
      · exact h.holders L' hmem
      · have hzero := h.holders L (List.mem_of_getElem? hL)
        have howns := Custody.owns_trk (l := l) (j := j) hreq hb
        rw [show total (HTTPConnLease.holds l) L.tracker.holders = 0 from hzero] at howns
        show total (HTTPConnLease.holds l) b.1.holders = 0
        by_cases hl : c.holds l
        · -- what the goroutine has in hand it keeps, since it may not register it
          have hne : c.own ≠ none := fun hn => by simp [Custody.holds, hn] at hl
          have hkeep : (c.upd (.trk j a) b.2).holds l := by
            cases a with
            | register conn m => exact absurd hreq.2 (h.not_plain (List.mem_of_getElem? hc) hl)
            | takeSection n | releaseSection n => exact absurd hreq hne
            | _ => exact hl
          rw [Custody.owns, Custody.owns, if_pos hl, if_pos hkeep] at howns
          omega
        · rw [show c.owns l = 0 from if_neg hl] at howns
          omega

lemma Origin.hands_exec (h : Origin e cs d l) (hc : cs[t]? = some c) (hreq : c.req i)
    (hx : e.exec x i = some (e', r)) (hknown : e.adm.stateOf l ≠ none) :
    ∀ c' ∈ cs.set t (c.upd i r), c'.holds l → (∃ tls, c'.entry = .dialCallback d tls) ∨
      (∃ isOver, c'.dial = some (d, isOver)) ∨ ∃ k, c'.entry = .finalizer k := by
  refine forall_mem_set h.hands fun hl => ?_
  have hentry : (c.upd i r).entry = c.entry := Custody.upd_entry i r
  rw [hentry]
  have hnew : i.opens r ≠ some l := fun ho => hknown (Engine.stateOf_opens hx ho).1
  rcases Custody.holds_of_upd hreq hx hl hnew with hold | ⟨j, a, rfl, L, hL, hne⟩ |
    ⟨n, hi, a, ha, hlease⟩ | ⟨k, rfl⟩
  · rcases h.hands c (List.mem_of_getElem? hc) hold with hcall | ⟨o, hd⟩ | hfin
    · exact .inl hcall
    · refine .inr (.inl ?_)
      rcases Custody.upd_dial hreq hx with heq | ⟨-, hn, -⟩ | ⟨n, -, hn, heq⟩
      · exact ⟨o, heq.trans hd⟩
      · rw [hd] at hn
        cases hn
      · rw [hd] at hn
        cases hn
        exact ⟨true, heq⟩
    · exact .inr (.inr hfin)
  · exact absurd (h.holders L (List.mem_of_getElem? hL)) hne
  · obtain rfl := h.cells n a ha hlease
    rcases hi with rfl | rfl
    · exact .inr (.inl ⟨false, hreq.2⟩)
    · exact .inr (.inl ⟨true, rfl⟩)
  · exact .inr (.inr ⟨k, hreq.2.2.2.1⟩)

lemma Origin.cells_exec (h : Origin e cs d l) (hc : cs[t]? = some c) (hreq : c.req i)
    (hx : e.exec x i = some (e', r)) (n : ℕ) (a : WSDialAdmission) (ha : e'.cells[n]? = some a)
    (hlease : a.lease = some l) : n = d := by
  have hset {m : ℕ} {a₀ a₁ : WSDialAdmission} (ha₀ : e.cells[m]? = some a₀)
      (heq : e'.cells = e.cells.set m a₁) : (m = n ∧ a₁ = a) ∨ e.cells[n]? = some a := by
    rw [heq] at ha
    by_cases hm : m = n
    · subst hm
      rw [List.getElem?_set_self (List.getElem?_eq_some_iff.mp ha₀).1] at ha
      exact .inl ⟨rfl, Option.some.inj ha⟩
    · exact .inr ((List.getElem?_set_ne hm).symm.trans ha)
  cases Engine.exec_cells hx with
  | same heq => exact h.cells n a (by rwa [heq] at ha) hlease
  | new heq =>
    rw [heq] at ha
    rcases Nat.lt_or_ge n e.cells.length with hn | hn
    · exact h.cells n a (by rwa [List.getElem?_append_left hn] at ha) hlease
    · rw [List.getElem?_append_right hn] at ha
      cases List.mem_singleton.mp (List.mem_of_getElem? ha)
      cases hlease
  | set m l' physical a₀ ha₀ hfree heq =>
    rcases hset ha₀ heq with ⟨rfl, rfl⟩ | hold
    · -- the callback of the cell sets it
      cases hlease
      obtain ⟨hl, hdial, -, tls, hentry⟩ := hreq
      rcases h.hands c (List.mem_of_getElem? hc) hl with ⟨tls', he⟩ | ⟨o, hd⟩ | ⟨k, he⟩
      · rw [he] at hentry
        cases hentry
        rfl
      · rw [hd] at hdial
        cases hdial
      · rw [he] at hentry
        cases hentry
    · exact h.cells n a hold hlease
  | take m a₀ ha₀ heq =>
    rcases hset ha₀ heq with ⟨rfl, rfl⟩ | hold
    · cases hlease
    · exact h.cells n a hold hlease
  | release m a₀ ha₀ heq =>
    rcases hset ha₀ heq with ⟨rfl, rfl⟩ | hold
    · cases hlease
    · exact h.cells n a hold hlease

lemma Origin.sessions_exec (h : Origin e cs d l) (hc : cs[t]? = some c) (hreq : c.req i)
    (hx : e.exec x i = some (e', r)) :
    ∀ s ∈ e'.sessions, s.lease = some l → s.kind = .webSocket := by
  cases Engine.exec_sessions hx with
  | same heq =>
    rw [heq]
    exact h.sessions
  | track kind m k heq =>
    rw [heq]
    intro s hs hlease
    rcases List.mem_append.mp hs with hs | hs
    · exact h.sessions s hs hlease
    · cases List.mem_singleton.mp hs
      cases hlease
      by_contra hkind
      exact h.not_plain (List.mem_of_getElem? hc) (Custody.holds_of_own hreq.2.1)
        (hreq.2.2 hkind)
  | untrack k s₀ hs₀ heq =>
    rw [heq]
    exact forall_mem_set h.sessions nofun
  | finish k s₀ hs₀ hdone heq =>
    rw [heq]
    exact forall_mem_set h.sessions (h.sessions s₀ (List.mem_of_getElem? hs₀))

lemma Origin.exec (h : Origin e cs d l) (hc : cs[t]? = some c) (hreq : c.req i)
    (hx : e.exec x i = some (e', r)) (hknown : e.adm.stateOf l ≠ none) :
    Origin e' (cs.set t (c.upd i r)) d l :=
  ⟨h.hands_exec hc hreq hx hknown, h.holders_exec hc hreq hx, h.cells_exec hc hreq hx,
    h.sessions_exec hc hreq hx⟩

/-- A lease that nobody knows is nowhere. -/
lemma Owned.nowhere (h : Owned e cs) (hst : e.adm.stateOf l = none) :
    (∀ c ∈ cs, ¬ c.holds l) ∧ (∀ s ∈ e.sessions, s.lease ≠ some l) ∧
      (∀ L ∈ e.listeners, L.holds l = 0) ∧ ∀ a ∈ e.cells, a.lease ≠ some l := by
  have howners := h.owners l
  rw [Admission.live, hst] at howners
  simp only [Engine.held] at howners
  refine ⟨fun c hc hl => ?_, fun s hs hl => ?_, fun L hL => ?_, fun a ha hl => ?_⟩
  · have hle := le_total (f := Custody.owns l) hc
    rw [Owned.holds_pos hl] at hle
    omega
  · have hle := le_total (f := SessionEntry.holds l) hs
    rw [SessionEntry.holds, if_pos hl] at hle
    omega
  · have hle := le_total (f := ListenerEntry.holds l) hL
    omega
  · have hle := le_total (f := WSDialAdmission.holds l) ha
    rw [WSDialAdmission.holds, if_pos hl] at hle
    omega

/-- The callback that is given a lease is the only one who has it. -/
lemma origin_of_opens {tls : Bool} (hO : Owned e cs)
    (hx : e.exec x i = some (e', r)) (hopen : i.opens r = some l)
    (hentry : c.entry = .dialCallback d tls) : Origin e' (cs.set t (c.upd i r)) d l := by
  obtain ⟨hhands, hsessions, hholders, hcells⟩ := hO.nowhere (Engine.stateOf_opens hx hopen).1
  cases i with
  | adm a =>
    obtain ⟨b, -, heq⟩ := Option.map_eq_some_iff.mp hx
    cases heq
    refine ⟨forall_mem_set (fun c' hc' hl => absurd hl (hhands c' hc')) fun _ => .inl ⟨tls, ?_⟩,
      hholders, fun n a ha hl => absurd hl (hcells a (List.mem_of_getElem? ha)),
      fun s hs hl => absurd hl (hsessions s hs)⟩
    exact (Custody.upd_entry _ _).trans hentry
  | _ => cases hopen

/-- Every step that does not strand a lease keeps the dials in order. -/
lemma Dials.exec (h : Dials e cs) (hG : Custodial e cs) (hok : ¬ i.Strands e)
    (hc : cs[t]? = some c) (hreq : c.req i) (hx : e.exec x i = some (e', r)) :
    Dials e' (cs.set t (c.upd i r)) := by
  have hmem := List.mem_of_getElem? hc
  refine ⟨h.makers_exec hc hreq hx, h.over_exec hc hreq hx, h.empty_exec hok hx,
    h.known_exec hG.ledger hc hreq hx, ?_⟩
  have hold {c' : Custody} (hc' : c' ∈ cs) {d : ℕ} {tls : Bool}
      (hentry : c'.entry = .dialCallback d tls) {l : ℕ} (hl : l ∈ c'.got) :
      Origin e' (cs.set t (c.upd i r)) d l :=
    (h.origin c' hc' d tls hentry l hl).exec hc hreq hx (h.known c' hc' l hl)
  refine forall_mem_set (fun c' hc' d tls hentry l hl => hold hc' hentry hl) ?_
  intro d tls hentry l hl
  rw [show (c.upd i r).entry = c.entry from Custody.upd_entry i r] at hentry
  rcases Custody.upd_got hl with hl | hopen
  · exact hold hmem hentry hl
  · exact origin_of_opens hG.owned hx hopen hentry

end Steps

/-! ### Runs -/

/-- The step puts a lease into a cell that `dialWebSocket` has already released. -/
def EProcess.Strands (p : EProcess) (ev : EEvent) : Prop :=
  ∃ t x th i k, ev = .run t x ∧ p.threads[t]? = some th ∧ th.prog = .op i k ∧ i.Strands p.shared

lemma dials_sound (cfg : EngineConfig) :
    engineOutline.Sound (engineMachine cfg) (fun e cs => Custodial e cs ∧ Dials e cs)
      fun p ev => ¬ EProcess.Strands p ev where
  body := engineOutline_body cfg
  exec p t x th i k s' r hok ht hprog hG hreq hx := by
    obtain ⟨hans, hcust⟩ := (engineOutline_sound cfg).exec p t x th i k s' r trivial ht hprog hG.1
      hreq hx
    refine ⟨hans, hcust, hG.2.exec hG.1 (fun h => ?_) (Outline.ctxs_getElem? ht) hreq hx⟩
    exact hok ⟨t, x, th, i, k, rfl, ht, hprog, h⟩
  spawn p l s' _ hG hs := by
    obtain ⟨hpre, hcust⟩ := (engineOutline_sound cfg).spawn p l s' trivial hG.1 hs
    obtain ⟨pending, rfl⟩ := Engine.spawn_eq hs
    obtain ⟨-, hD⟩ := hG
    refine ⟨hpre, hcust, fun d => ?_, forall_mem_concat hD.isOver nofun, hD.empty,
      forall_mem_concat hD.known nofun,
      forall_mem_concat (fun c hc d tls hentry m hm => ?_) nofun⟩
    · rw [total_append]
      exact hD.makers d
    · obtain ⟨h₁, h₂, h₃, h₄⟩ := hD.origin c hc d tls hentry m hm
      exact ⟨forall_mem_concat h₁ nofun, h₂, h₃, h₄⟩
  env p e s' _ _ _ := e.elim

lemma dials_init (cfg : EngineConfig) : Dials (Engine.init cfg) [] :=
  ⟨fun _ => rfl, by simp, by simp [Engine.init], by simp, by simp⟩

/-! ### Releases -/

/-- One for a step that has released the lease. -/
def releasedBy (l : ℕ) (a : Sigma EInstr.Resp) : ℕ := ifOne (a.1.frees a.2) l

/-- How often the lease was released. -/
def EProcess.releases (p : EProcess) (l : ℕ) : ℕ :=
  total (fun t : EThread => total (releasedBy l) t.log) p.threads

/-- The state of a lease says whether it was released, and it is released only once. -/
def EProcess.ReleasedOnce (p : EProcess) : Prop :=
  ∀ l, p.releases l = if p.shared.adm.stateOf l = some .released then 1 else 0

lemma EInstr.frees_eq_some {i : EInstr} {r : i.Resp} {l : ℕ} :
    i.frees r = some l ↔ i.writes r = some (l, .released) := by
  cases i with
  | adm a =>
    show a.frees r = some l ↔ a.writes r = some (l, .released)
    rw [AdmInstr.frees_eq]
    cases hw : a.writes r with
    | none => simp
    | some w =>
      obtain ⟨m, st⟩ := w
      cases st <;> simp
  | _ => simp [EInstr.frees, EInstr.writes]

/-- A step releases the leases whose state it sets to released. -/
lemma Engine.released_exec {e e' : Engine} {cs : List Custody} {t : ℕ} {c : Custody} {x : EChoice}
    {i : EInstr} {r : i.Resp} (hL : Ledger e.adm (cs.map Custody.hold)) (hc : cs[t]? = some c)
    (hreq : c.req i) (hx : e.exec x i = some (e', r)) (l : ℕ) :
    (if e'.adm.stateOf l = some .released then 1 else 0) =
      ifOne (i.frees r) l + if e.adm.stateOf l = some .released then 1 else 0 := by
  have hfree := EInstr.frees_eq_some (i := i) (r := r) (l := l)
  simp only [ifOne, hfree]
  obtain ⟨hw, heq⟩ | ⟨m, st, hw, hwrite, heq⟩ := exec_stateOf hL hc hreq hx
  · simp [hw, heq]
  · rw [hw, heq]
    by_cases hlm : l = m
    · subst hlm
      rw [Function.update_self]
      cases hwrite with
      | opened h => simp [h]
      | activated h _ => simp [h]
      | drained h _ => simp [h]
      | released h hold _ => simp [h, hold]
    · have hml : m ≠ l := fun h => hlm h.symm
      simp [Function.update_of_ne hlm, hml]

lemma releasedOnce_step {cfg : EngineConfig} {p q : EProcess} {ev : EEvent}
    (hp : engineOutline.Holds Custodial p) (hr : p.ReleasedOnce)
    (h : (engineMachine cfg).step p ev = some q) : q.ReleasedOnce := by
  intro m
  have hm := hr m
  obtain ⟨t, x, l, i, k, log, e', r, rfl, ht, hx, rfl⟩ | ⟨t, x, l, l', log, rfl, ht, rfl⟩ |
    ⟨l, e', rfl, hs, rfl⟩ | ⟨x, e', rfl, hs, rfl⟩ := (engineMachine cfg).step_cases h
  · have hexec := Engine.released_exec hp.shared.ledger (Outline.ctxs_getElem? ht)
      (hp.threads _ (List.mem_of_getElem? ht)).1 hx m
    have hset := total_set (f := fun t : EThread => total (releasedBy m) t.log)
      ⟨l, k r, ⟨i, r⟩ :: log⟩ ht
    simp only [total_cons] at hset
    simp only [EProcess.releases] at hm ⊢
    rw [hexec, ← hm]
    simp only [releasedBy] at hset ⊢
    omega
  · refine Eq.trans (total_set_eq ht rfl) hm
  · obtain ⟨pending, rfl⟩ := Engine.spawn_eq hs
    rw [EProcess.releases, total_append]
    exact hm
  · exact x.elim

lemma releasedOnce {cfg : EngineConfig} {p : EProcess} (h : EngineReaches cfg p) :
    p.ReleasedOnce := by
  refine (Machine.reaches_induction (P := fun p => EngineReaches cfg p ∧ EProcess.ReleasedOnce p)
    ?_ ⟨⟨[], rfl⟩, fun l => rfl⟩ h).2
  rintro p ev q ⟨⟨es, hp⟩, hr⟩ hstep
  refine ⟨⟨es ++ [ev], ?_⟩, releasedOnce_step (engine_holds ⟨es, hp⟩) hr hstep⟩
  exact Machine.run_append.mpr ⟨p, hp, by simp [Machine.run, hstep]⟩

/-! ### What becomes of a lease -/

def Returned (t : EThread) : Prop := ∃ v, t.prog = .done (.ret v)

/-- The goroutine is a callback of dial `d` or the call of `dialWebSocket` behind it. -/
def OfDial (d : ℕ) (t : EThread) : Prop :=
  (∃ tls, t.entry = .dialCallback d tls) ∨ ∃ isOver, (engineOutline.ctx t).dial = some (d, isOver)

/-- What becomes of a lease that a callback of dial `d` has acquired: it is released once and then
nowhere, and until then in exactly one place. That is a goroutine of the dial, the goroutine that
removes the session, the cell of the dial before it is released, or a tracked `wsSession`. -/
structure EProcess.DialLease (p : EProcess) (d l : ℕ) : Prop where
  releases : p.releases l = if p.shared.adm.stateOf l = some .released then 1 else 0
  places : total (Custody.owns l) p.custody + total (WSDialAdmission.holds l) p.shared.cells +
    total (SessionEntry.holds l) p.shared.sessions =
      if p.shared.adm.stateOf l = some .released then 0 else 1
  hands : ∀ t ∈ p.threads, (engineOutline.ctx t).holds l →
    ¬ Returned t ∧ (OfDial d t ∨ ∃ k, t.entry = .finalizer k)
  cells : ∀ (n : ℕ) (a : WSDialAdmission), p.shared.cells[n]? = some a → a.lease = some l →
    n = d ∧ a.isOver = false
  sessions : ∀ s ∈ p.shared.sessions, s.lease = some l → s.kind = .webSocket ∧ s.tracked = true

/-- No dial strands its lease. -/
structure EProcess.DialsSettled (p : EProcess) : Prop where
  /-- The cell is empty once `dialWebSocket` has released it. -/
  released : ∀ (d : ℕ) (a : WSDialAdmission), p.shared.cells[d]? = some a → a.isOver = true →
    a.lease = none
  /-- The cell is empty once the dial and its callbacks have returned. -/
  returned : ∀ d, (∀ t ∈ p.threads, OfDial d t → Returned t) →
    ∀ a : WSDialAdmission, p.shared.cells[d]? = some a → a.lease = none
  leases : ∀ t ∈ p.threads, ∀ d tls, t.entry = .dialCallback d tls →
    ∀ l ∈ (engineOutline.ctx t).got, p.DialLease d l

section Settled

variable {p : EProcess} (hp : engineOutline.Holds (fun e cs => Custodial e cs ∧ Dials e cs) p)
include hp

/-- A goroutine that has returned has no lease and has released its cell. -/
lemma finished_of_returned {t : EThread} (ht : t ∈ p.threads) (hret : Returned t) :
    (engineOutline.ctx t).toDuty.Finished := by
  obtain ⟨v, hv⟩ := hret
  have hwp := hp.threads t ht
  rw [hv] at hwp
  obtain ⟨d, hd, hfin⟩ := hwp
  rw [hd]
  exact hfin

lemma cell_empty_of_returned {d : ℕ} (hd : ∀ t ∈ p.threads, OfDial d t → Returned t)
    {a : WSDialAdmission} (ha : p.shared.cells[d]? = some a) : a.lease = none := by
  have hD := hp.shared.2
  have hmakers := hD.makers d
  rw [if_pos (List.getElem?_eq_some_iff.mp ha).1] at hmakers
  obtain ⟨c, hc, hmakes⟩ : ∃ c ∈ p.custody, Custody.makes d c ≠ 0 := by
    by_contra hno
    simp only [not_exists, not_and, not_not] at hno
    rw [total_eq_zero_iff.mpr hno] at hmakers
    cases hmakers
  obtain ⟨isOver, hover⟩ := Custody.dial_of_makes hmakes
  obtain ⟨t, ht, rfl⟩ := List.mem_map.mp hc
  have hfin := finished_of_returned hp ht (hd t ht (.inr ⟨isOver, hover⟩))
  obtain ⟨a', ha', hover'⟩ := hD.isOver _ hc d isOver hover
  rw [ha] at ha'
  cases ha'
  exact hD.empty d a ha (hover'.trans (hfin.dial d isOver hover))

/-- The lease of a dial is in one place. -/
lemma dialLease_of_got (hr : p.ReleasedOnce) {t : EThread} (ht : t ∈ p.threads) {d l : ℕ}
    {tls : Bool} (hentry : t.entry = .dialCallback d tls)
    (hl : l ∈ (engineOutline.ctx t).got) : p.DialLease d l := by
  obtain ⟨hcust, hD⟩ := hp.shared
  have hmem : engineOutline.ctx t ∈ p.custody := List.mem_map.mpr ⟨t, ht, rfl⟩
  have horigin := hD.origin _ hmem d tls ((engineOutline_ctx_entry t).trans hentry) l hl
  refine ⟨hr l, ?_, fun t' ht' hl' => ⟨fun hret => ?_, ?_⟩, fun n a ha hlease => ?_,
    fun s hs hlease => ⟨horigin.sessions s hs hlease, ?_⟩⟩
  · have howners := hcust.owned.owners l
    have hholders : total (ListenerEntry.holds l) p.shared.listeners = 0 :=
      total_eq_zero_iff.mpr horigin.holders
    have hlive : p.shared.adm.live l =
        if p.shared.adm.stateOf l = some .released then 0 else 1 := by
      have hknown := hD.known _ hmem l hl
      unfold Admission.live
      split
      · contradiction
      · simp_all
      · simp_all
    rw [← hlive, ← howners, Engine.held, hholders]
    show total (Custody.owns l) (engineOutline.ctxs p.threads) + _ + _ = _
    omega
  · have hnone := (finished_of_returned hp ht' hret).own
    simp [Custody.holds, hnone] at hl'
  · rcases horigin.hands _ (List.mem_map.mpr ⟨t', ht', rfl⟩) hl' with ⟨tls', he⟩ | hdial | ⟨k, he⟩
    · exact .inl (.inl ⟨tls', (engineOutline_ctx_entry t').symm.trans he⟩)
    · exact .inl (.inr hdial)
    · exact .inr ⟨k, (engineOutline_ctx_entry t').symm.trans he⟩
  · refine ⟨horigin.cells n a ha hlease, ?_⟩
    by_contra hover
    rw [hD.empty n a ha (by simpa using hover)] at hlease
    cases hlease
  · rw [hcust.owned.tracked s hs, hlease]
    rfl

end Settled

/-- A step that strands a lease can be made, and leaves it in a cell that nobody empties. -/
lemma EProcess.Strands.step (cfg : EngineConfig) {p : EProcess} {ev : EEvent} (h : p.Strands ev) :
    ∃ q : EProcess, (engineMachine cfg).step p ev = some q ∧ ¬ q.DialsSettled := by
  obtain ⟨t, x, ⟨l, prog, log⟩, i, k, rfl, ht, rfl, hi⟩ := h
  cases i with
  | cellSet d m physical =>
    obtain ⟨a, ha, hfree, hover⟩ := hi
    have hx : p.shared.exec x (.cellSet d m physical) = some (p.shared.setCell d
        { a with lease := some m, physical := some physical }, true) := by
      simp [Engine.exec, ha, hfree]
    refine ⟨⟨p.shared.setCell d { a with lease := some m, physical := some physical }, _⟩,
      by simp only [Machine.step, ht, engineMachine, hx]; rfl, fun hset => ?_⟩
    cases hset.released d { a with lease := some m, physical := some physical }
      (List.getElem?_set_self (List.getElem?_eq_some_iff.mp ha).1) hover
  | _ => exact hi.elim

/-- Along every run, no dial strands its lease in any state exactly when no callback puts a lease
into the cell of its dial after `dialWebSocket` has released it. -/
theorem dialsSettled_iff_not_strands (cfg : EngineConfig) (es : List EEvent) :
    (∀ es₁ es₂ q, es = es₁ ++ es₂ →
        (engineMachine cfg).run (EProcess.init cfg) es₁ = some q → EProcess.DialsSettled q) ↔
      ∀ es₁ ev es₂ q, es = es₁ ++ ev :: es₂ →
        (engineMachine cfg).run (EProcess.init cfg) es₁ = some q → ¬ EProcess.Strands q ev := by
  constructor
  · intro h es₁ ev es₂ q hes hq hstrands
    obtain ⟨q', hstep, hnot⟩ := hstrands.step cfg
    refine hnot (h (es₁ ++ [ev]) es₂ q' (by simp [hes]) ?_)
    simp [Machine.run_append, hq, Machine.run, hstep]
  · intro h es₁ es₂ q hes hq
    have hq' : engineOutline.Holds (fun e cs => Custodial e cs ∧ Dials e cs) q := by
      refine (dials_sound cfg).run ⟨⟨custodial_init cfg, dials_init cfg⟩, by simp [EProcess.init]⟩
        hq fun es₃ ev es₄ q' hes' hq' => ?_
      exact h es₃ ev (es₄ ++ es₂) q' (by simp [hes, hes']) hq'
    exact ⟨hq'.shared.2.empty, fun d hd a ha => cell_empty_of_returned hq' hd ha,
      fun t ht d tls hentry l hl => dialLease_of_got hq' (releasedOnce ⟨es₁, hq⟩) ht hentry hl⟩

/-- A callback has acquired its lease when the dial is cancelled and returns. The callback then sets
the cell, and the engine is closed. -/
def EProcess.stranded : List EEvent := List.flatten [
    .spawn (.dial false .ws) :: List.replicate 10 (.run 0 {}),
    .spawn (.dialCallback 0 false) :: List.replicate 3 (.run 1 {}),
    List.replicate 12 (.run 0 { err := some (.sentinel .closed) }),
    .run 1 {} :: .spawn .close :: List.replicate 5 (.run 2 {})]

/-- Everybody has returned, the cell still has the lease, and the engine can never be done. -/
theorem dial_stranded : ∃ p : EProcess,
    (engineMachine {}).run (EProcess.init {}) EProcess.stranded = some p ∧
      EProcess.returned p = true ∧
      p.shared.cells = [{ lease := some 0, physical := some 0, isOver := true }] ∧
      p.shared.adm.ctl.opening = 1 ∧ p.shared.state = .aborting ∧ p.shared.done = false ∧
      ¬ EProcess.DialsSettled p := by
  have hrun : (((engineMachine {}).run (EProcess.init {}) EProcess.stranded).map fun p =>
      (EProcess.returned p, p.shared.cells, p.shared.adm.ctl.opening, p.shared.state,
        p.shared.done)) =
      some (true, [{ lease := some 0, physical := some 0, isOver := true }], 1, .aborting,
        false) := by
    decide
  obtain ⟨p, hp, hobs⟩ := Option.map_eq_some_iff.mp hrun
  simp only [Prod.mk.injEq] at hobs
  obtain ⟨hret, hcells, hopening, hstate, hdone⟩ := hobs
  refine ⟨p, hp, hret, hcells, hopening, hstate, hdone, fun h => ?_⟩
  cases h.released 0 { lease := some 0, physical := some 0, isOver := true }
    (by rw [hcells]; rfl) rfl

end Ogrenet
