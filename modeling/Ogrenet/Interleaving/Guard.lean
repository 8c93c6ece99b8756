import Ogrenet.Interleaving.Calls
import Ogrenet.Interleaving.Total

/-!
# A resource behind a readers-writer lock

Users of the resource take the lock for reading and look at a flag before they use it. One goroutine
claims the flag, may use the resource until it has released it, and releases it with the lock taken
for writing. `Grip` is what one goroutine has done of this protocol, and `Grip.May` what it may do
next; when every goroutine keeps to it, the resource is never used after it was released, and is
released at most once.
-/

namespace Interleaving

/-- The lock, the flag, and whether the resource has not been released. -/
structure Guard where
  readers : ℕ := 0
  writer : Bool := false
  closed : Bool := false
  live : Bool := true

namespace Guard

inductive Act where
  | rlock
  | runlock
  | lock
  | unlock
  /-- The flag is read, with this answer. -/
  | check (closed : Bool)
  /-- The compare-and-swap of the flag, with this answer. -/
  | claim (won : Bool)
  | use
  | release
  | skip

/-- The effect of a step; `none` when it has to wait or has another answer. -/
def act (g : Guard) : Act → Option Guard
  | .rlock => if g.writer then none else some { g with readers := g.readers + 1 }
  | .runlock => if g.readers = 0 then none else some { g with readers := g.readers - 1 }
  | .lock => if g.writer || g.readers != 0 then none else some { g with writer := true }
  | .unlock => some { g with writer := false }
  | .check closed => if g.closed = closed then some g else none
  | .claim won => if g.closed = won then none else some { g with closed := true }
  | .use | .skip => some g
  | .release => some { g with live := false }

/-- The step of a state with a guard: what the step does to the rest of the state, with the guard
that follows its answer put in. -/
def exec {S R : Type} (g : Guard) (act : R → Act) (put : S → Guard → S) (native : Option (S × R)) :
    Option (S × R) :=
  native.bind fun a => (g.act (act a.2)).map fun g' => (put a.1 g', a.2)

lemma exec_eq {S R : Type} {g : Guard} {act : R → Act} {put : S → Guard → S}
    {native : Option (S × R)} {s' : S} {r : R} (hx : g.exec act put native = some (s', r)) :
    ∃ s₁ g', native = some (s₁, r) ∧ g.act (act r) = some g' ∧ s' = put s₁ g' := by
  obtain ⟨⟨s₁, r₁⟩, hnative, hx⟩ := Option.bind_eq_some_iff.mp hx
  obtain ⟨g', hact, heq⟩ := Option.map_eq_some_iff.mp hx
  cases heq
  exact ⟨s₁, g', hnative, hact, rfl⟩

/-- Only the release ends the resource. -/
lemma live_act {g g' : Guard} {a : Act} (hact : g.act a = some g') (ha : a ≠ .release) :
    g'.live = g.live := by
  cases a with
  | release => exact absurd rfl ha
  | rlock | runlock | lock | check closed | claim won =>
    simp only [act] at hact
    split at hact <;> cases hact
    rfl
  | _ =>
    cases hact
    rfl

/-- The flag stays set. -/
lemma closed_act {g g' : Guard} {a : Act} (hact : g.act a = some g') (hclosed : g.closed = true) :
    g'.closed = true := by
  cases a with
  | rlock | runlock | lock | check closed =>
    simp only [act] at hact
    split at hact <;> cases hact
    exact hclosed
  | claim won =>
    simp only [act] at hact
    split at hact <;> cases hact
    rfl
  | _ =>
    cases hact
    exact hclosed

end Guard

open Guard

/-- What a goroutine has done: it holds the lock for reading, has seen the flag clear since, holds
the lock for writing, has claimed the flag, has released the resource. -/
structure Grip where
  reading : Bool := false
  fresh : Bool := false
  writing : Bool := false
  owner : Bool := false
  released : Bool := false

namespace Grip

def act (h : Grip) : Act → Grip
  | .rlock => { h with reading := true, fresh := false }
  | .runlock => { h with reading := false, fresh := false }
  | .lock => { h with writing := true }
  | .unlock => { h with writing := false }
  | .check closed => { h with fresh := h.fresh || (h.reading && !closed) }
  | .claim won => { h with owner := h.owner || won }
  | .use | .skip => h
  | .release => { h with released := true }

lemma owner_act {h : Grip} {a : Act} (howner : h.owner = true) : (h.act a).owner = true := by
  cases a with
  | claim won => exact Bool.or_eq_true_iff.mpr (.inl howner)
  | _ => exact howner

lemma released_act {h : Grip} {a : Act} (hreleased : h.released = true) :
    (h.act a).released = true := by
  cases a with
  | release => rfl
  | _ => exact hreleased

/-- What the protocol allows next. -/
def May (h : Grip) : Act → Prop
  | .rlock => h.reading = false
  | .runlock => h.reading = true
  | .lock => h.writing = false
  | .unlock => h.writing = true
  | .claim _ => h.owner = false
  | .use => h.fresh = true ∨ h.owner = true ∧ h.released = false
  | .release => h.writing = true ∧ h.owner = true ∧ h.released = false
  | .check _ | .skip => True

end Grip

/-- The lock and the flag count what the goroutines hold, and who has seen the flag clear finds the
resource live. -/
structure Guard.Inv (g : Guard) (hs : List Grip) : Prop where
  readers : total (fun h => h.reading.toNat) hs = g.readers
  writers : total (fun h => h.writing.toNat) hs = g.writer.toNat
  apart : g.writer = true → g.readers = 0
  owners : total (fun h => h.owner.toNat) hs = g.closed.toNat
  released : total (fun h => h.released.toNat) hs = (!g.live).toNat
  shape : ∀ h ∈ hs, (h.fresh = true → h.reading = true) ∧ (h.released = true → h.owner = true)
  fresh : ∀ h ∈ hs, h.fresh = true → g.live = true

namespace Guard.Inv

variable {g g' : Guard} {hs : List Grip} {t : ℕ} {h : Grip} {a : Act}

lemma init : Guard.Inv {} [] := ⟨rfl, rfl, nofun, rfl, rfl, by simp, by simp⟩

/-- A goroutine that starts holds nothing. -/
lemma spawn (hG : g.Inv hs) : g.Inv (hs ++ [({} : Grip)]) := by
  refine ⟨?_, ?_, hG.apart, ?_, ?_, forall_mem_concat hG.shape ⟨nofun, nofun⟩,
    forall_mem_concat hG.fresh nofun⟩
  · simpa using hG.readers
  · simpa using hG.writers
  · simpa using hG.owners
  · simpa using hG.released

/-- While the flag is clear the resource is live. -/
lemma live_of_open (hG : g.Inv hs) (hopen : g.closed = false) : g.live = true := by
  have hzero : total (fun h => h.owner.toNat) hs = 0 := by rw [hG.owners, hopen]; rfl
  have hreleased : total (fun h => h.released.toNat) hs = 0 := by
    refine total_eq_zero_iff.mpr fun h hh => ?_
    have howner := total_eq_zero_iff.mp hzero h hh
    cases hr : h.released with
    | false => rfl
    | true =>
      rw [(hG.shape h hh).2 hr] at howner
      cases howner
  rw [hG.released] at hreleased
  cases hlive : g.live with
  | true => rfl
  | false =>
    rw [hlive] at hreleased
    cases hreleased

lemma exists_released (hG : g.Inv hs) (hdead : g.live = false) :
    ∃ h ∈ hs, h.released = true := by
  by_contra hnone
  have hzero : total (fun h => h.released.toNat) hs = 0 := by
    refine total_eq_zero_iff.mpr fun h hh => ?_
    have hr : h.released = false := Bool.eq_false_iff.mpr fun hr => hnone ⟨h, hh, hr⟩
    rw [hr]
    rfl
  rw [hG.released, hdead] at hzero
  cases hzero

/-- There is one owner. -/
lemma eq_of_owner (hG : g.Inv hs) {t' : ℕ} {h' : Grip} (ht : hs[t]? = some h)
    (ht' : hs[t']? = some h') (howner : h.owner = true) (howner' : h'.owner = true) : t = t' := by
  by_contra hne
  have htwo := add_le_total (f := fun h : Grip => h.owner.toNat) hne ht ht'
  rw [howner, howner', hG.owners] at htwo
  have hle := Bool.toNat_le g.closed
  simp only [Bool.toNat_true] at htwo
  omega

/-- Who may use the resource finds it live. -/
lemma live_of_use (hG : g.Inv hs) (hh : h ∈ hs) (hmay : h.May .use) : g.live = true := by
  rcases hmay with hfresh | ⟨howner, hreleased⟩
  · exact hG.fresh h hh hfresh
  · -- the owner, of which there is one, has not released
    by_contra hdead
    obtain ⟨h', hh', hr⟩ := hG.exists_released (Bool.eq_false_iff.mpr hdead)
    obtain ⟨t, ht⟩ := List.mem_iff_getElem?.mp hh
    obtain ⟨t', ht'⟩ := List.mem_iff_getElem?.mp hh'
    cases hG.eq_of_owner ht ht' howner ((hG.shape h' hh').2 hr)
    cases ht.symm.trans ht'
    rw [hreleased] at hr
    cases hr

/-- No goroutine reads while one writes. -/
lemma not_reading (hG : g.Inv hs) (hwriter : g.writer = true) : ∀ h ∈ hs, h.reading = false := by
  have hzero : total (fun h => h.reading.toNat) hs = 0 := hG.readers.trans (hG.apart hwriter)
  intro h hh
  have := total_eq_zero_iff.mp hzero h hh
  cases hr : h.reading with
  | false => rfl
  | true =>
    rw [hr] at this
    cases this

lemma writer_of_writing (hG : g.Inv hs) (hh : h ∈ hs) (hw : h.writing = true) :
    g.writer = true := by
  have hle := le_total (f := fun h : Grip => h.writing.toNat) hh
  rw [hG.writers, hw] at hle
  cases hg : g.writer with
  | true => rfl
  | false =>
    rw [hg] at hle
    cases hle

/-- What one goroutine gains the lock and the flag gain. -/
lemma of_set (hG : g.Inv hs) (ht : hs[t]? = some h) {h' : Grip}
    (hreading : g'.readers + h.reading.toNat = g.readers + h'.reading.toNat)
    (hwriting : g'.writer.toNat + h.writing.toNat = g.writer.toNat + h'.writing.toNat)
    (hapart : g'.writer = true → g'.readers = 0)
    (howner : g'.closed.toNat + h.owner.toNat = g.closed.toNat + h'.owner.toNat)
    (hreleased : (!g'.live).toNat + h.released.toNat = (!g.live).toNat + h'.released.toNat)
    (hshape : (h'.fresh = true → h'.reading = true) ∧ (h'.released = true → h'.owner = true))
    (hfresh : ∀ h ∈ hs, h.fresh = true → g'.live = true)
    (hfresh' : h'.fresh = true → g'.live = true) : g'.Inv (hs.set t h') := by
  have hreading' := total_set (f := fun h : Grip => h.reading.toNat) h' ht
  have hwriting' := total_set (f := fun h : Grip => h.writing.toNat) h' ht
  have howner' := total_set (f := fun h : Grip => h.owner.toNat) h' ht
  have hreleased' := total_set (f := fun h : Grip => h.released.toNat) h' ht
  rw [hG.readers] at hreading'
  rw [hG.writers] at hwriting'
  rw [hG.owners] at howner'
  rw [hG.released] at hreleased'
  exact ⟨by omega, by omega, hapart, by omega, by omega, forall_mem_set hG.shape hshape,
    forall_mem_set hfresh hfresh'⟩

/-- A step that the protocol allows keeps the invariant. -/
lemma act (hG : g.Inv hs) (ht : hs[t]? = some h) (hmay : h.May a) (hact : g.act a = some g') :
    g'.Inv (hs.set t (h.act a)) := by
  have hh := List.mem_of_getElem? ht
  have hshape := hG.shape h hh
  have hfresh := hG.fresh h hh
  cases a with
  | rlock =>
    simp only [Guard.act] at hact
    split at hact <;> cases hact
    rename_i hwriter
    simp only [Grip.May] at hmay
    exact hG.of_set ht (by simp [Grip.act, hmay]) rfl (fun h => absurd h hwriter) rfl rfl
      ⟨nofun, hshape.2⟩ hG.fresh nofun
  | runlock =>
    simp only [Guard.act] at hact
    split at hact <;> cases hact
    simp only [Grip.May] at hmay
    refine hG.of_set ht ?_ rfl (fun h => ?_) rfl rfl ⟨nofun, hshape.2⟩ hG.fresh nofun
    · simp only [Grip.act, hmay, Bool.toNat_true, Bool.toNat_false]
      omega
    · have := hG.apart h
      simp only
      omega
  | lock =>
    simp only [Guard.act] at hact
    split at hact <;> cases hact
    rename_i hfree
    simp only [Bool.or_eq_true, bne_iff_ne, ne_eq, not_or, not_not, Bool.not_eq_true] at hfree
    simp only [Grip.May] at hmay
    exact hG.of_set ht rfl (by simp [Grip.act, hmay, hfree.1]) (fun _ => hfree.2) rfl rfl hshape
      hG.fresh hfresh
  | unlock =>
    cases hact
    simp only [Grip.May] at hmay
    have hwriter := hG.writer_of_writing hh hmay
    exact hG.of_set ht rfl (by simp [Grip.act, hmay, hwriter]) nofun rfl rfl hshape hG.fresh hfresh
  | check closed =>
    simp only [Guard.act] at hact
    split at hact <;> cases hact
    rename_i hclosed
    subst hclosed
    refine hG.of_set ht rfl rfl hG.apart rfl rfl ⟨fun h => ?_, hshape.2⟩ hG.fresh fun h => ?_
    · simp only [Grip.act, Bool.or_eq_true, Bool.and_eq_true] at h ⊢
      exact h.elim hshape.1 And.left
    · simp only [Grip.act, Bool.or_eq_true, Bool.and_eq_true, Bool.not_eq_true'] at h
      exact h.elim hfresh fun h => hG.live_of_open h.2
  | claim won =>
    simp only [Guard.act] at hact
    split at hact <;> cases hact
    rename_i hwon
    simp only [Grip.May] at hmay
    refine hG.of_set ht rfl rfl hG.apart ?_ rfl ⟨hshape.1, fun h => ?_⟩ hG.fresh hfresh
    · cases won <;> cases hc : g.closed <;> simp_all [Grip.act]
    · rw [hshape.2 h] at hmay
      cases hmay
  | use | skip =>
    cases hact
    rw [show h.act _ = h from rfl, set_of_getElem? ht]
    exact hG
  | release =>
    cases hact
    obtain ⟨hw, ho, hr⟩ := hmay
    have hreading := hG.not_reading (hG.writer_of_writing hh hw)
    have hlive := hG.live_of_use hh (.inr ⟨ho, hr⟩)
    have hnone : ∀ h ∈ hs, h.fresh = true → False := fun h hh hf => by
      have := (hG.shape h hh).1 hf
      rw [hreading h hh] at this
      cases this
    exact hG.of_set ht rfl rfl hG.apart rfl (by simp [Grip.act, hr, hlive]) ⟨hshape.1, fun _ => ho⟩
      (fun h hh hf => (hnone h hh hf).elim) fun hf => (hnone h hh hf).elim

/-- The flag is set once there is an owner. -/
lemma closed_of_owner (hG : g.Inv hs) (hh : h ∈ hs) (howner : h.owner = true) :
    g.closed = true := by
  have hle := le_total (f := fun h : Grip => h.owner.toNat) hh
  rw [hG.owners, howner] at hle
  cases hcl : g.closed with
  | true => rfl
  | false =>
    rw [hcl] at hle
    cases hle

end Guard.Inv

/-! ### Goroutines of a guarded resource -/

section Past

variable {I : Type} {R : I → Type} {L : Type} {act : (i : I) → R i → Guard.Act}

/-- What a goroutine holds by its log, when `act` says what an answered instruction is to the
guard. -/
def Grip.past (act : (i : I) → R i → Guard.Act) : List (Sigma R) → Grip
  | [] => {}
  | ⟨i, r⟩ :: log => (Grip.past act log).act (act i r)

/-- The invariant over the pasts of the goroutines. -/
def Guard.Keeps (act : (i : I) → R i → Guard.Act) (g : Guard) (cs : List (Outline.Past L R)) :
    Prop :=
  g.Inv (cs.map fun c => Grip.past act c.2)

namespace Guard.Keeps

variable {g g' : Guard} {cs : List (Outline.Past L R)} {t : ℕ} {c : Outline.Past L R} {i : I}
  {r : R i}

lemma init : Guard.Keeps (L := L) act {} [] := Guard.Inv.init

lemma exec (hG : g.Keeps act cs) (ht : cs[t]? = some c) (hmay : (Grip.past act c.2).May (act i r))
    (hact : g.act (act i r) = some g') : g'.Keeps act (cs.set t (c.1, ⟨i, r⟩ :: c.2)) := by
  rw [Guard.Keeps, List.map_set]
  exact hG.act (by rw [List.getElem?_map, ht]; rfl) hmay hact

lemma spawn (hG : g.Keeps act cs) (l : L) : g.Keeps act (cs ++ [(l, [])]) := by
  rw [Guard.Keeps, List.map_append]
  exact Guard.Inv.spawn hG

lemma live_of_use (hG : g.Keeps act cs) (hc : c ∈ cs) (hmay : (Grip.past act c.2).May .use) :
    g.live = true :=
  Guard.Inv.live_of_use hG (List.mem_map_of_mem hc) hmay

lemma live_of_released (hG : g.Keeps act cs) (hc : c ∈ cs)
    (hreleased : (Grip.past act c.2).released = true) : g.live = false := by
  have hle := le_total (f := fun h : Grip => h.released.toNat)
    (List.mem_map_of_mem (f := fun c : Outline.Past L R => Grip.past act c.2) hc)
  rw [Guard.Inv.released hG, hreleased] at hle
  cases hlive : g.live with
  | false => rfl
  | true =>
    rw [hlive] at hle
    cases hle

lemma readers_pos (hG : g.Keeps act cs) (hc : c ∈ cs)
    (hreading : (Grip.past act c.2).reading = true) : g.readers ≠ 0 := by
  have hle := le_total (f := fun h : Grip => h.reading.toNat)
    (List.mem_map_of_mem (f := fun c : Outline.Past L R => Grip.past act c.2) hc)
  rw [Guard.Inv.readers hG, hreading] at hle
  exact Nat.ne_of_gt hle

lemma closed_of_owner (hG : g.Keeps act cs) (hc : c ∈ cs)
    (howner : (Grip.past act c.2).owner = true) : g.closed = true :=
  Guard.Inv.closed_of_owner hG (List.mem_map_of_mem hc) howner

lemma shape (hG : g.Keeps act cs) (hc : c ∈ cs) :
    ((Grip.past act c.2).fresh = true → (Grip.past act c.2).reading = true) ∧
      ((Grip.past act c.2).released = true → (Grip.past act c.2).owner = true) :=
  Guard.Inv.shape hG _ (List.mem_map_of_mem hc)

lemma eq_of_owner (hG : g.Keeps act cs) {t' : ℕ} {c' : Outline.Past L R} (ht : cs[t]? = some c)
    (ht' : cs[t']? = some c') (howner : (Grip.past act c.2).owner = true)
    (howner' : (Grip.past act c'.2).owner = true) : t = t' :=
  Guard.Inv.eq_of_owner hG (by rw [List.getElem?_map, ht]; rfl)
    (by rw [List.getElem?_map, ht']; rfl) howner howner'

end Guard.Keeps

end Past

end Interleaving
