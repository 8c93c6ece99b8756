import Ogrenet.Session.Callbacks.Finalizer
import Ogrenet.Session.Resources.Conserved
import Ogrenet.Session.Writes

/-!
# Callbacks come in order

In every run of a stream or a WebSocket the handler sees `OnOpen`, any number of `OnMessage` and
`OnClose`, one at a time. `OnClose` starts when nothing else of the session is going on, and `Done`
is closed after it.
-/

namespace Ogrenet

open Interleaving Interleaving.Prog Calling

/-! ### The invariant -/

/-- What is known of one goroutine. -/
structure Calling.Ok (s : Session) (c : Calling) : Prop where
  isLoop : c.loop = true → c.entry.isLoop = true
  /-- Its own calls are in order. -/
  called : c.state.isSome = true
  /-- The reader leaves an open handler behind. -/
  ended : c.entry = .readerLoop → c.loop = false → c.state = some .opened
  waited : c.waited = true → s.loops = 0
  final : c.entry = .finalizer → c.state ≠ some .opened → c.waited = true
  readShut : c.readShut = true → s.closed .readDone = true

/-- The calls of the goroutines of a session whose finalizer is the `n`th. -/
structure Called (n : ℕ) (s : Session) (cs : List Calling) : Prop where
  reader : ∀ (j : ℕ) c, cs[j]? = some c → (c.entry = .readerLoop ↔ j = 1)
  finalizer : ∀ (j : ℕ) c, cs[j]? = some c → (c.entry = .finalizer ↔ j = n)
  bounds : 1 < n ∧ n < cs.length
  loops : s.loops = total (fun c => c.loop.toNat) cs
  ok : ∀ c ∈ cs, c.Ok s
  terminal : s.closed .terminal = true → s.closed .readDone = true
  done : s.closed .done = true → ∀ c, cs[n]? = some c → c.state = some .closed

section Steps

variable {kind : SessionKind} {cfg : SessionConfig} {n t : ℕ} {s s' : Session} {cs : List Calling}
  {c c' : Calling} {x : Choice} {i : SInstr} {r : i.Resp}

lemma Calling.Ok.mono (h : c.Ok s) (hloops : s'.loops ≤ s.loops)
    (hread : s.closed .readDone = true → s'.closed .readDone = true) : c.Ok s' :=
  ⟨h.isLoop, h.called, h.ended, fun hw => Nat.le_zero.mp (h.waited hw ▸ hloops), h.final,
    fun hr => hread (h.readShut hr)⟩

lemma Session.Writes.loops_le (hw : s.Writes i r s') : s'.loops ≤ s.loops := by
  rw [hw.loops]
  cases i with
  | loopDone => exact Nat.sub_le _ _
  | _ => exact Nat.le_refl _

lemma Calling.upd_entry (i : SInstr) (r : i.Resp) (c : Calling) : (c.upd i r).entry = c.entry := by
  cases i with
  | select cases dflt => exact (fired_same r).entry
  | signal ch => cases ch <;> rfl
  | _ => rfl

lemma Calling.upd_state (i : SInstr) (r : i.Resp) (c : Calling) :
    (c.upd i r).state = c.state.bind fun h => i.mark.elim (some h) h.next := by
  cases i with
  | select cases dflt => exact (fired_same r).state.trans (by simp [SInstr.mark])
  | signal ch => cases ch <;> simp [upd, SInstr.mark]
  | callBegin cb | callEnd cb => rfl
  | _ => simp [upd, SInstr.mark]

/-- The step of a loop that ends takes it off the count. -/
lemma loops_step (hreq : c.special kind i) (hw : s.Writes i r s') (hle : c.loop.toNat ≤ s.loops) :
    s'.loops + c.loop.toNat = s.loops + (c.upd i r).loop.toNat := by
  rw [hw.loops]
  cases i with
  | loopDone =>
    rw [hreq.1] at hle ⊢
    simp only [SInstr.loopsAfter, upd, Bool.toNat_true, Bool.toNat_false] at hle ⊢
    omega
  | select cases dflt =>
    rw [show (c.upd (.select cases dflt) r).loop = c.loop from (fired_same r).loop]
    rfl
  | signal ch => cases ch <;> rfl
  | _ => rfl

/-- A goroutine that calls the handler brings it on, and one that does not leaves it. -/
lemma Called.ok_upd (hG : Called n s cs) (ht : cs[t]? = some c)
    (hreq : c.Running ∧ c.special kind i)
    (hx : s.exec cfg x i = some (s', r)) : (c.upd i r).Ok s' := by
  have hw := Session.exec_writes hx
  have hc := hG.ok c (List.mem_of_getElem? ht)
  have hmono : c.Ok s' := hc.mono hw.loops_le hw.closed_mono
  obtain ⟨hrun, hspecial⟩ := hreq
  cases i with
  | callBegin cb | callEnd cb =>
    refine ⟨hmono.isLoop, hspecial.2, fun hr hl => ?_, hmono.waited, fun hf _ => ?_,
      hmono.readShut⟩
    · have hloop : c.entry.isLoop = true := by
        rw [show c.entry = .readerLoop from hr]
        rfl
      exact absurd ((hrun hloop).symm.trans hl) nofun
    · cases cb with
      | onClose e => exact hspecial.1.2.1
      | _ => exact absurd (hspecial.1.symm.trans hf) nofun
  | loopDone =>
    exact ⟨nofun, hmono.called, fun hr _ => hspecial.2 hr, hmono.waited, hmono.final,
      hmono.readShut⟩
  | waitLoops =>
    obtain ⟨hzero, hx⟩ := Option.ite_none_right_eq_some.mp hx
    cases hx
    exact ⟨hc.isLoop, hc.called, hc.ended, fun _ => hzero, fun _ _ => rfl, hc.readShut⟩
  | signal ch =>
    cases ch with
    | readDone =>
      refine ⟨hmono.isLoop, hmono.called, hmono.ended, hmono.waited, hmono.final, fun _ => ?_⟩
      rw [hw.closed, SInstr.closedAfter, Function.update_self]
    | _ => exact hmono
  | select cases dflt =>
    cases r with
    | closed ch =>
      cases ch with
      | terminal =>
        exact ⟨hmono.isLoop, hmono.called, hmono.ended, hmono.waited, hmono.final, fun _ =>
          hw.closed_mono (hG.terminal (Session.closed_of_select hx))⟩
      | _ => exact hmono
    | _ => exact hmono
  | _ => exact hmono

/-- Whoever calls the handler is the reader, or the finalizer after its wait. -/
lemma Calling.special_mark {m : Mark} (h : c.special kind i) (hm : i.mark = some m) :
    (c.entry = .readerLoop ∨ c.entry = .finalizer ∧ c.waited = true) ∧
      (c.state.bind (HandlerState.next · m)).isSome = true := by
  cases i with
  | callBegin cb | callEnd cb =>
    cases hm
    refine ⟨?_, h.2⟩
    cases cb with
    | onClose e => exact .inr ⟨h.1.1, h.1.2.1⟩
    | _ => exact .inl h.1
  | _ => cases hm

/-- After its return from `OnClose` the handler is not called any more. -/
lemma Calling.upd_closed (h : c.special kind i) (hs : c.state = some .closed) :
    (c.upd i r).state = some .closed := by
  rw [upd_state]
  cases hm : i.mark with
  | none => simpa using hs
  | some m =>
    have hnext := (special_mark h hm).2
    rw [hs] at hnext
    cases m <;> cases hnext

lemma Called.exec (hG : Called n s cs) (ht : cs[t]? = some c) (hreq : c.Running ∧ c.special kind i)
    (hx : s.exec cfg x i = some (s', r)) : Called n s' (cs.set t (c.upd i r)) := by
  have hw := Session.exec_writes hx
  have hentry : ∀ (j : ℕ) d, (cs.set t (c.upd i r))[j]? = some d →
      ∃ d', cs[j]? = some d' ∧ d'.entry = d.entry := fun j d hj => by
    rcases getElem?_of_set hj with ⟨rfl, rfl⟩ | hj
    · exact ⟨c, ht, (upd_entry i r c).symm⟩
    · exact ⟨d, hj, rfl⟩
  refine ⟨fun j d hj => ?_, fun j d hj => ?_, by simpa using hG.bounds, ?_,
    forall_mem_set (fun d hd => (hG.ok d hd).mono hw.loops_le hw.closed_mono)
      (hG.ok_upd ht hreq hx), fun hterm => ?_, fun hdone d hd => ?_⟩
  · obtain ⟨d', hd', he⟩ := hentry j d hj
    exact he ▸ hG.reader j d' hd'
  · obtain ⟨d', hd', he⟩ := hentry j d hj
    exact he ▸ hG.finalizer j d' hd'
  · have hle : c.loop.toNat ≤ s.loops := by
      rw [hG.loops]
      exact le_total_of_getElem? (f := fun c => c.loop.toNat) ht
    have hstep := loops_step hreq.2 hw hle
    have hset := total_set (f := fun c => c.loop.toNat) (c.upd i r) ht
    have hloops := hG.loops
    omega
  · rcases hw.closed_cases hterm with hterm | rfl
    · exact hw.closed_mono (hG.terminal hterm)
    · exact hw.closed_mono ((hG.ok c (List.mem_of_getElem? ht)).readShut hreq.2)
  · rcases hw.closed_cases hdone with hdone | rfl
    · rcases getElem?_of_set hd with ⟨rfl, rfl⟩ | hd
      · exact upd_closed hreq.2 (hG.done hdone c ht)
      · exact hG.done hdone d hd
    · obtain rfl : t = n := (hG.finalizer t c ht).mp hreq.2.1
      rcases getElem?_of_set hd with ⟨-, rfl⟩ | hd
      · exact upd_closed hreq.2 hreq.2.2
      · rw [ht] at hd
        cases hd
        exact hreq.2.2

lemma Called.spawn (hG : Called n s cs) {l : SLabel} (hl : l.isLoop = false)
    (hfinal : l ≠ .finalizer) : Called n s (cs ++ [Calling.start l]) := by
  have hreader : l ≠ .readerLoop := by
    rintro rfl
    cases hl
  have hnew : ∀ (j : ℕ) d, (cs ++ [Calling.start l])[j]? = some d →
      cs[j]? = some d ∨ (j = cs.length ∧ d.entry = l) := fun j d hj => by
    rcases getElem?_of_concat hj with hold | ⟨hlast, rfl⟩
    · exact .inl hold
    · exact .inr ⟨hlast, rfl⟩
  have hbounds := hG.bounds
  refine ⟨fun j d hj => ?_, fun j d hj => ?_, ⟨hbounds.1, ?_⟩, ?_, forall_mem_concat hG.ok ?_,
    hG.terminal, fun hdone d hd => ?_⟩
  · rcases hnew j d hj with hj | ⟨rfl, rfl⟩
    · exact hG.reader j d hj
    · exact iff_of_false hreader (by omega)
  · rcases hnew j d hj with hj | ⟨rfl, rfl⟩
    · exact hG.finalizer j d hj
    · exact iff_of_false hfinal (by omega)
  · rw [List.length_append]
    omega
  · simpa [start, hl] using hG.loops
  · exact ⟨fun h => h, rfl, fun h => absurd h hreader, nofun, fun h => absurd h hfinal, nofun⟩
  · rcases hnew n d hd with hd | ⟨h, -⟩
    · exact hG.done hdone d hd
    · omega

/-! ### What the handler has seen -/

/-- The state of the handler, as the reader and the `n`th goroutine, the finalizer, have left it. -/
def shown (n : ℕ) (cs : List Calling) : Option HandlerState :=
  (cs[1]?).bind fun rd => (cs[n]?).bind fun f =>
    if f.state = some .opened then rd.state else f.state

lemma shown_eq {rd f : Calling} (hrd : cs[1]? = some rd) (hf : cs[n]? = some f) :
    shown n cs = if f.state = some .opened then rd.state else f.state := by
  rw [shown, hrd, hf]
  rfl

/-- While the reader runs the finalizer has not called the handler. -/
lemma Called.final_opened (hG : Called n s cs) {rd f : Calling} (hrd : cs[1]? = some rd)
    (hf : cs[n]? = some f) (hloop : rd.loop = true) : f.state = some .opened := by
  by_contra hne
  have hwaited := (hG.ok f (List.mem_of_getElem? hf)).final ((hG.finalizer n f hf).mpr rfl) hne
  have hzero := (hG.ok f (List.mem_of_getElem? hf)).waited hwaited
  have hle := le_total_of_getElem? (f := fun c : Calling => c.loop.toNat) hrd
  rw [← hG.loops, hzero, hloop] at hle
  cases hle

/-- The finalizer has found an open handler. -/
lemma Called.reader_opened (hG : Called n s cs) {rd f : Calling} (hrd : cs[1]? = some rd)
    (hf : cs[n]? = some f) (hwaited : f.waited = true) : rd.state = some .opened := by
  have hzero := (hG.ok f (List.mem_of_getElem? hf)).waited hwaited
  have hloop := total_eq_zero_iff.mp (hG.loops.symm.trans hzero) rd (List.mem_of_getElem? hrd)
  refine (hG.ok rd (List.mem_of_getElem? hrd)).ended ((hG.reader 1 rd hrd).mpr rfl) ?_
  cases h : rd.loop with
  | false => rfl
  | true => simp [h] at hloop

lemma shown_exec (hG : Called n s cs) (ht : cs[t]? = some c)
    (hreq : c.Running ∧ c.special kind i) :
    shown n (cs.set t (c.upd i r)) =
      (shown n cs).bind fun h => i.mark.elim (some h) h.next := by
  have hbounds := hG.bounds
  have hlt : t < cs.length := (List.getElem?_eq_some_iff.mp ht).1
  obtain ⟨rd, hrd⟩ : ∃ rd, cs[1]? = some rd := ⟨_, List.getElem?_eq_getElem (by omega)⟩
  obtain ⟨f, hf⟩ : ∃ f, cs[n]? = some f := ⟨_, List.getElem?_eq_getElem hbounds.2⟩
  cases hm : i.mark with
  | none =>
    -- nothing is called, and nobody's own calls have changed
    have hstate : (c.upd i r).state = c.state := by
      rw [upd_state, hm]
      simp
    have hsame : ∀ (j : ℕ) d, cs[j]? = some d →
        ∃ d', (cs.set t (c.upd i r))[j]? = some d' ∧ d'.state = d.state := fun j d hj => by
      by_cases hjt : t = j
      · subst hjt
        rw [ht] at hj
        cases hj
        exact ⟨_, List.getElem?_set_self hlt, hstate⟩
      · exact ⟨d, (List.getElem?_set_ne hjt).trans hj, rfl⟩
    obtain ⟨rd', hrd', hrds⟩ := hsame 1 rd hrd
    obtain ⟨f', hf', hfs⟩ := hsame n f hf
    rw [shown_eq hrd' hf', shown_eq hrd hf, hrds, hfs]
    simp
  | some m =>
    have hstate : (c.upd i r).state = c.state.bind (HandlerState.next · m) := by
      rw [upd_state, hm]
      rfl
    rcases (special_mark hreq.2 hm).1 with hentry | ⟨hentry, hwaited⟩
    · obtain rfl := (hG.reader t c ht).mp hentry
      obtain rfl : rd = c := Option.some.inj (hrd.symm.trans ht)
      have hopened := hG.final_opened hrd hf (hreq.1 (by rw [hentry]; rfl))
      have hf' : (cs.set 1 (rd.upd i r))[n]? = some f :=
        (List.getElem?_set_ne (by omega)).trans hf
      rw [shown_eq (List.getElem?_set_self hlt) hf', shown_eq hrd hf, if_pos hopened,
        if_pos hopened, hstate]
      rfl
    · obtain rfl := (hG.finalizer t c ht).mp hentry
      obtain rfl : f = c := Option.some.inj (hf.symm.trans ht)
      have hopened := hG.reader_opened hrd hf hwaited
      have hrd' : (cs.set t (f.upd i r))[1]? = some rd :=
        (List.getElem?_set_ne (by omega)).trans hrd
      have hown : ∀ st : Option HandlerState, (if st = some .opened then rd.state else st) = st :=
        fun st => by
          split
          · rename_i h
            rw [h, hopened]
          · rfl
      rw [shown_eq hrd' (List.getElem?_set_self hlt), shown_eq hrd hf, hown, hown, hstate]
      rfl

end Steps

/-! ### All runs -/

section Runs

variable {kind : SessionKind} {cfg : SessionConfig} {p : SProcess}

/-- The place of the finalizer among the goroutines of a session. -/
def finalizerOf (kind : SessionKind) (cfg : SessionConfig) : ℕ := (loopLabels kind cfg).length

/-- Neither loops nor the finalizer are started from outside. -/
lemma SessionKind.spawn_role {s s' : Session} {l : SLabel} (h : kind.spawn s l = some s') :
    l.role.isLoop = false ∧ l.role ≠ .finalizer := by
  cases l with
  | send _ _ | trySend _ | sendTo _ _ _ | trySendTo _ _ | closeWrite _ | shutdown _ | close
  | requestShutdown | requestDrain | watchCloseTimeout | watchContext _ => exact ⟨rfl, nofun⟩
  | _ => cases kind <;> cases h

lemma call_sound (hk : kind ≠ .packet) :
    (callOutline kind).Sound (sessionMachine kind cfg) (Called (finalizerOf kind cfg))
      fun _ _ => True where
  body l₀ l _ hc := call_body hk l₀ l hc
  exec p t x th i k s' r _ ht _ hG hreq hx := by
    refine ⟨?_, hG.exec (Outline.ctxs_getElem? ht) hreq hx⟩
    cases i with
    | select cases dflt => exact Session.select_from hx
    | _ => trivial
  spawn p l s' _ hG hs := by
    obtain ⟨hloop, hfinal⟩ := SessionKind.spawn_role hs
    have hl : l.isLoop = false := by
      cases h : l.isLoop with
      | false => rfl
      | true => exact absurd (hloop.symm.trans (SLabel.isLoop_role h)) nofun
    have hG' := hG.spawn hl fun h => hfinal (h ▸ rfl)
    obtain ⟨_, rfl⟩ := SessionKind.spawn_eq hs
    have hreader : l.role ≠ .reader := fun h => by
      rw [h] at hloop
      cases hloop
    exact ⟨(pre_of_role hreader hfinal).mpr ⟨rfl, fun h => absurd (hloop.symm.trans h) nofun⟩,
      hG'.reader, hG'.finalizer, hG'.bounds, hG'.loops,
      fun c hc => (hG'.ok c hc).mono (Nat.le_refl _) id, hG'.terminal, hG'.done⟩
  env p e s' _ hG hs := by
    obtain ⟨_, _, _, rfl⟩ := Session.env_eq hs
    exact ⟨hG.reader, hG.finalizer, hG.bounds, hG.loops,
      fun c hc => (hG.ok c hc).mono (Nat.le_refl _) id, hG.terminal, hG.done⟩

lemma calling_init : (callOutline kind).ctxs (SProcess.init kind cfg).threads =
    (loopLabels kind cfg ++ [SLabel.finalizer]).map Calling.start := by
  simp [SProcess.init, Outline.ctxs, Function.comp_def, callOutline]

/-- Where the reader and the finalizer are when a session starts. -/
lemma label_init {j : ℕ} {l : SLabel}
    (h : (loopLabels kind cfg ++ [SLabel.finalizer])[j]? = some l) :
    (l = .readerLoop ↔ j = 1) ∧ (l = .finalizer ↔ j = finalizerOf kind cfg) := by
  by_cases hping : kind = .webSocket ∧ cfg.ping = true <;> by_cases hact : cfg.activity = true
  all_goals
    simp only [finalizerOf, loopLabels, hping, hact] at h ⊢
    rcases j with _ | _ | _ | _ | _ | j <;> simp at h <;> subst h <;> simp

lemma call_init (hk : kind ≠ .packet) :
    (callOutline kind).Holds (Called (finalizerOf kind cfg)) (SProcess.init kind cfg) := by
  have hplace : ∀ (j : ℕ) c, ((loopLabels kind cfg ++ [SLabel.finalizer]).map Calling.start)[j]? =
      some c → ∃ l, (loopLabels kind cfg ++ [SLabel.finalizer])[j]? = some l ∧ c = .start l :=
    fun j c hj => by
      rw [List.getElem?_map, Option.map_eq_some_iff] at hj
      obtain ⟨l, hl, rfl⟩ := hj
      exact ⟨l, hl, rfl⟩
  refine ⟨?_, fun th hth => ?_⟩
  · rw [calling_init]
    refine ⟨fun j c hj => ?_, fun j c hj => ?_, ⟨?_, ?_⟩, ?_, fun c hc => ?_, fun h => ?_,
      fun h => ?_⟩
    · obtain ⟨l, hl, rfl⟩ := hplace j c hj
      exact (label_init hl).1
    · obtain ⟨l, hl, rfl⟩ := hplace j c hj
      exact (label_init hl).2
    · simp [finalizerOf, loopLabels]
    · simp [finalizerOf]
    · simp only [SProcess.init, Session.init, loopLabels]
      split <;> split <;> rfl
    · obtain ⟨l, hl, rfl⟩ := List.mem_map.mp hc
      refine ⟨id, rfl, fun hr hloop => ?_, fun h => ?_, fun hf hne => ?_, fun h => ?_⟩
      · rw [show l = .readerLoop from hr] at hloop
        cases hloop
      · cases h
      · rw [show l = .finalizer from hf] at hne
        exact absurd rfl hne
      · cases h
    · cases h
    · cases h
  · obtain ⟨l, hl, rfl⟩ := List.mem_map.mp hth
    refine call_body hk l l ?_
    rcases mem_init hl with rfl | rfl | rfl | rfl | rfl
    all_goals first | rfl | exact ⟨rfl, fun _ => rfl⟩ | exact ⟨rfl, rfl, rfl⟩

/-- The handler is where the calls of the run have brought it. -/
lemma handler_of_run (hk : kind ≠ .packet) {es : List (Event SLabel Choice SEnv)}
    (hrun : (sessionMachine kind cfg).run (SProcess.init kind cfg) es = some p) :
    (callOutline kind).Holds (Called (finalizerOf kind cfg)) p ∧
      shown (finalizerOf kind cfg) ((callOutline kind).ctxs p.threads) =
        handlerAfter ((sessionMachine kind cfg).trace (SProcess.init kind cfg) es) := by
  refine Machine.trace_induction (P := fun steps p =>
    (callOutline kind).Holds (Called (finalizerOf kind cfg)) p ∧
      shown (finalizerOf kind cfg) ((callOutline kind).ctxs p.threads) = handlerAfter steps)
    (fun steps p ev q ⟨hH, hshown⟩ hstep => ⟨(call_sound hk).step hH trivial hstep, ?_⟩)
    ⟨call_init hk, ?_⟩ hrun
  · obtain ⟨t, x, l, i, k, log, s', r, rfl, ht, hx, rfl⟩ | ⟨t, x, l, l', log, rfl, ht, rfl⟩ |
      ⟨l, s', rfl, hs, rfl⟩ | ⟨x, s', rfl, hs, rfl⟩ := Machine.step_cases hstep
    · have hreq := (hH.threads _ (List.mem_of_getElem? ht)).1
      rw [Machine.took_op ht hx, Option.toList_some, handlerAfter_concat, ← hshown,
        Outline.ctxs_set]
      exact shown_exec hH.shared (Outline.ctxs_getElem? ht) hreq
    · have hctx := Outline.ctxs_getElem? (O := callOutline kind) ht
      rw [Machine.took_goto ht, Option.toList_none, List.append_nil, Outline.ctxs_set, ← hshown]
      exact congrArg (shown _) (set_of_getElem? hctx)
    · have hbounds := hH.shared.bounds
      rw [show (sessionMachine kind cfg).took p (.spawn l) = none from rfl, Option.toList_none,
        List.append_nil, Outline.ctxs_append, ← hshown, shown, shown,
        List.getElem?_append_left (by omega), List.getElem?_append_left hbounds.2]
    · rw [show (sessionMachine kind cfg).took p (.env x) = none from rfl, Option.toList_none,
        List.append_nil, hshown]
  · rw [calling_init]
    simp [shown, finalizerOf, loopLabels, start, handlerAfter, marksOf]

lemma Calling.pre_running {l : SLabel} {c : Calling} (h : c.pre l) : c.Running := by
  cases l with
  | readerLoop | reader _ | decoding _ _ _ => exact Reads.running h
  | finalizer =>
    intro hl
    rw [show c = start .finalizer from h] at hl
    cases hl
  | _ => exact Plays.running h

lemma call_entry (th : SThread) : ((callOutline kind).ctx th).entry = th.entry := by
  obtain ⟨l, prog, log⟩ := th
  induction log with
  | nil => rfl
  | cons a log ih => exact (upd_entry a.1 a.2 _).trans ih

/-- A loop that has ended has nothing left to do. -/
lemma done_of_ended (hH : (callOutline kind).Holds (Called (finalizerOf kind cfg)) p) {th : SThread}
    (hth : th ∈ p.threads) (hl : th.entry.isLoop = true)
    (hloop : ((callOutline kind).ctx th).loop = false) : th.prog = .done (.ret .unit) := by
  have hended : ¬ ((callOutline kind).ctx th).Running := fun h => by
    rw [Running, call_entry, hloop] at h
    exact absurd (h hl) nofun
  have hwp := hH.threads th hth
  cases hprog : th.prog with
  | op i k =>
    rw [hprog] at hwp
    exact absurd hwp.1.1 hended
  | done next =>
    rw [hprog] at hwp
    cases next with
    | goto l => exact absurd (pre_running hwp) hended
    | ret v => rw [show v = .unit from hwp (by rw [call_entry]; exact hl)]

/-! ### The statement -/

/-- The goroutine has entered the gate and not yet left it. -/
def insideGate : List (Sigma SInstr.Resp) → Bool
  | [] => false
  | ⟨.gateEnter, entered⟩ :: log => entered || insideGate log
  | ⟨.gateLeave, _⟩ :: _ => false
  | _ :: log => insideGate log

lemma Hand.fired_inGate (cases : List Case) (r : Fired) (h : Hand) :
    (h.fired cfg cases r).inGate = h.inGate := by
  unfold Hand.fired
  split
  case h_3 => split <;> rfl
  all_goals rfl

lemma handOf_inGate (th : SThread) : (handOf kind cfg th).inGate = insideGate th.log := by
  obtain ⟨l, prog, log⟩ := th
  induction log with
  | nil => rfl
  | cons a log ih =>
    obtain ⟨i, r⟩ := a
    refine (show (handOf kind cfg ⟨l, prog, ⟨i, r⟩ :: log⟩).inGate =
      (Hand.upd kind cfg i r (handOf kind cfg ⟨l, prog, log⟩)).inGate from rfl).trans ?_
    cases i with
    | gateEnter =>
      cases r with
      | false => exact ih
      | true => rfl
    | gateLeave => rfl
    | select cases dflt => exact (Hand.fired_inGate cases r _).trans ih
    | encode msg | localSection n | localTry n | globalSection n | globalTry n | setWriteDeadline
    | wsWrite req | packetWrite req => cases r <;> exact ih
    | count c n => cases c <;> exact ih
    | _ => exact ih

/-- Nothing of the session is going on any more but its finalizer. -/
structure SProcess.Quiet (kind : SessionKind) (p : SProcess) : Prop where
  /-- Reader, writer, ping and watchdog loops have returned. -/
  loops : ∀ th ∈ p.threads, th.entry.isLoop = true → th.prog = .done (.ret .unit)
  readClosed : kind = .conn → p.shared.closed .readDone = true
  /-- Every send that has entered the gate has left it. -/
  gate : ∀ th ∈ p.threads, insideGate th.log = false

/-- The next step of the goroutine starts a call of `OnClose`. -/
def startsClose (th : SThread) : Bool :=
  match th.prog with
  | .op (.callBegin (.onClose _)) _ => true
  | _ => false

lemma quiet_of_startsClose (hk : kind ≠ .packet) (hp : SessionReaches kind cfg p) {th : SThread}
    (hth : th ∈ p.threads) (hs : startsClose th = true) : p.Quiet kind := by
  obtain ⟨es, hrun⟩ := hp
  have hH := (handler_of_run hk hrun).1
  obtain ⟨e, k, hprog⟩ : ∃ e k, th.prog = .op (.callBegin (.onClose e)) k := by
    simp only [startsClose] at hs
    split at hs
    · exact ⟨_, _, by assumption⟩
    · cases hs
  have hwp := hH.threads th hth
  rw [hprog] at hwp
  obtain ⟨-, ⟨-, hwaited, hshut⟩, -⟩ := hwp.1
  have hok := hH.shared.ok _ (List.mem_map_of_mem hth)
  have hzero := hok.waited hwaited
  refine ⟨fun th' hth' hl => done_of_ended hH hth' hl ?_, fun hkind => hok.readShut (hshut hkind),
    fun th' hth' => ?_⟩
  · have := total_eq_zero_iff.mp (hH.shared.loops.symm.trans hzero) _ (List.mem_map_of_mem hth')
    cases h : ((callOutline kind).ctx th').loop with
    | false => rfl
    | true => simp [h] at this
  · have hR := (resources_reached ⟨es, hrun⟩).shared.free_of_loops hzero
    rw [← @handOf_inGate kind cfg th']
    exact (hR.2 _ (List.mem_map_of_mem hth')).1

/-- The starts and returns of callbacks in a run. -/
def callsOf (kind : SessionKind) (cfg : SessionConfig) (es : List (Event SLabel Choice SEnv)) :
    List Mark :=
  marksOf ((sessionMachine kind cfg).trace (SProcess.init kind cfg) es)

/-- How a run that leads to `p` calls the handler. -/
structure CallbackOrder (kind : SessionKind) (cfg : SessionConfig)
    (es : List (Event SLabel Choice SEnv)) (p : SProcess) : Prop where
  /-- One `OnOpen`, then messages, then one `OnClose`, each returning before the next starts. -/
  order : ∃ msgs e, callsOf kind cfg es <+: allCalls msgs e
  /-- `OnClose` starts only when nothing else is going on. -/
  close : ∀ es₁ t x es₂ (q : SProcess) th, es = es₁ ++ Event.run t x :: es₂ →
    (sessionMachine kind cfg).run (SProcess.init kind cfg) es₁ = some q →
      q.threads[t]? = some th → startsClose th = true → q.Quiet kind
  /-- `Done` is closed only after `OnClose` has returned. -/
  done : p.shared.closed .done = true → ∃ msgs e, callsOf kind cfg es = allCalls msgs e

theorem callbacks_ordered (kind : SessionKind) (cfg : SessionConfig)
    (es : List (Event SLabel Choice SEnv)) (p : SProcess) (hk : kind ≠ .packet)
    (hrun : (sessionMachine kind cfg).run (SProcess.init kind cfg) es = some p) :
    CallbackOrder kind cfg es p := by
  obtain ⟨hH, hshown⟩ := handler_of_run hk hrun
  have hbounds := hH.shared.bounds
  obtain ⟨rd, hrd⟩ : ∃ rd, ((callOutline kind).ctxs p.threads)[1]? = some rd :=
    ⟨_, List.getElem?_eq_getElem (by omega)⟩
  obtain ⟨f, hf⟩ : ∃ f, ((callOutline kind).ctxs p.threads)[finalizerOf kind cfg]? = some f :=
    ⟨_, List.getElem?_eq_getElem hbounds.2⟩
  rw [shown_eq hrd hf] at hshown
  refine ⟨?_, fun es₁ t x es₂ q th _ hq ht hs => ?_, fun hdone => ?_⟩
  · obtain ⟨h, hh⟩ : ∃ h, handlerAfter
        ((sessionMachine kind cfg).trace (SProcess.init kind cfg) es) = some h := by
      rw [← hshown, ← Option.isSome_iff_exists]
      split
      · exact (hH.shared.ok rd (List.mem_of_getElem? hrd)).called
      · exact (hH.shared.ok f (List.mem_of_getElem? hf)).called
    exact (seen_of_handlerAfter hh).isPrefix
  · exact quiet_of_startsClose hk ⟨es₁, hq⟩ (List.mem_of_getElem? ht) hs
  · have hclosed := hH.shared.done hdone f hf
    rw [hclosed, if_neg nofun] at hshown
    exact seen_of_handlerAfter hshown.symm

/-- The whole life of a stream: it receives a message and is closed. -/
def SProcess.wholeLife : List (Event SLabel Choice SEnv) := List.flatten [
    [.run 1 {}, .run 1 {}, .run 1 {}, .run 1 {}, .run 1 { data := [1] }, .run 1 {},
      .run 1 { msg := ⟨.binary, [1]⟩, consumed := 1 }],
    List.replicate 6 (.run 1 {}),
    .spawn .close :: List.replicate 12 (.run 3 {}),
    [.run 1 { pick := some 0 }, .run 1 {}, .run 0 {}, .run 0 { pick := some 0 }, .run 0 {},
      .run 0 { pick := some 0 }, .run 0 {}, .run 0 {}, .run 0 {}, .run 0 {}, .run 2 {}, .run 2 {},
      .run 2 {}, .run 2 { pick := some 0 }],
    List.replicate 10 (.run 2 {})]

theorem callbacks_ordered_wholeLife : ∃ p : SProcess,
    (sessionMachine .conn .small).run (SProcess.init .conn .small) SProcess.wholeLife = some p ∧
      p.shared.closed .done = true ∧
        callsOf .conn .small SProcess.wholeLife = allCalls [⟨.binary, [1]⟩] none ∧
          CallbackOrder .conn .small SProcess.wholeLife p := by
  have hrun : ((sessionMachine .conn .small).run (SProcess.init .conn .small)
      SProcess.wholeLife).map (fun p => p.shared.closed .done) = some true := by decide
  obtain ⟨p, hp, hdone⟩ := Option.map_eq_some_iff.mp hrun
  exact ⟨p, hp, hdone, by decide, callbacks_ordered .conn .small _ p nofun hp⟩

end Runs

end Ogrenet
