import Ogrenet.Session.EndToEnd.Sender

/-!
# Send resources are conserved

For each kind of session and every interleaving of its senders, its writer and those who close it,
slots and bytes are always accounted for, every queued request is consumed once and gives back what
it held, what is recorded as written has gone to the connection, and nothing is left when `Done` is
closed.
-/

namespace Ogrenet

open Interleaving Interleaving.Prog

variable {kind : SessionKind} {cfg : SessionConfig}

/-! ### What has gone to the connection -/

def Output.request : Output → Option Request
  | .message req => some req
  | _ => none

/-- The messages and datagrams that were written. -/
def messagesOut (out : List Output) : List Request := out.filterMap Output.request

/-- What is recorded as written is on the wire: the frames of a stream after everything that was
queued before, and the messages or datagrams of the other sessions in order, once each. -/
def Session.Written (s : Session) : SessionKind → Prop
  | .conn => s.WritesKept
  | .webSocket | .packet => (writtenOf s.sent s.results).Sublist (messagesOut s.out)

/-- Request `i` has gone to the connection. -/
def Session.OnTheWire (s : Session) (i : ℕ) (req : Request) : SessionKind → Prop
  | .conn => framesOf (s.sent.take (i + 1)) <+: outBytes s.out
  | .webSocket | .packet => .message req ∈ s.out

lemma mem_writtenOf {sent : List Request} {results : List Bool} {i : ℕ} {req : Request}
    (hsent : sent[i]? = some req) (hresult : results[i]? = some true) :
    req ∈ writtenOf sent results := by
  have hzip : (req, true) ∈ sent.zip results :=
    List.mem_of_getElem? (List.getElem?_zip_eq_some.mpr ⟨hsent, hresult⟩)
  exact List.mem_map.mpr ⟨(req, true), List.mem_filter.mpr ⟨hzip, rfl⟩, rfl⟩

lemma mem_of_mem_messagesOut {out : List Output} {req : Request} (h : req ∈ messagesOut out) :
    .message req ∈ out := by
  obtain ⟨o, ho, hreq⟩ := List.mem_filterMap.mp h
  cases o with
  | message r =>
    cases hreq
    exact ho
  | _ => cases hreq

lemma Session.Written.onTheWire {s : Session} (h : s.Written kind) {i : ℕ} {req : Request}
    (hsent : s.sent[i]? = some req) (hresult : s.results[i]? = some true) :
    s.OnTheWire i req kind := by
  cases kind with
  | conn => exact (h i hresult).2
  | webSocket | packet => exact mem_of_mem_messagesOut (h.subset (mem_writtenOf hsent hresult))

/-- What is recorded as written, and what the writer has delivered since, is on the wire. -/
def Hand.Delivers (s : Session) (h : Hand) : Prop :=
  (writtenOf s.sent s.results ++ h.delivered.toList).Sublist (messagesOut s.out)

section Steps

variable {s s' : Session} {x : Choice} {i : SInstr} {r : i.Resp} {cs : List Hand} {t : ℕ}
  {h h' : Hand}

lemma Hand.Delivers.mono (hd : h.Delivers s) (hle : s.results.length ≤ s.sent.length)
    (hsent : s.sent <+: s'.sent) (hout : s.out <+: s'.out) (hres : s'.results = s.results)
    (hsame : h'.delivered = h.delivered) : h'.Delivers s' := by
  obtain ⟨more, hmore⟩ := hsent
  rw [Delivers, hsame, hres, ← hmore, writtenOf_append hle]
  exact hd.trans (hout.sublist.filterMap _)

/-- The step sends a message or records what its write returned. -/
def SInstr.delivers : SInstr → Bool
  | .wsWrite _ | .packetWrite _ | .wrote _ => true
  | _ => false

lemma Hand.upd_delivered (hi : i.delivers = false) :
    (h.upd kind cfg i r).delivered = h.delivered := by
  unfold Hand.upd
  split
  case h_3 => exact (fired_keeps _ _ _ _).2.2
  all_goals first | rfl | cases hi

/-- A message that was written is delivered. -/
lemma Hand.Delivers.write {req : Request} (hd : h.Delivers s) (hsent : s'.sent = s.sent)
    (hres : s'.results = s.results) (hout : s'.out = s.out ++ [.message req])
    (hnew : h'.delivered = some req) : h'.Delivers s' := by
  have hall : messagesOut s'.out = messagesOut s.out ++ [req] := by
    rw [hout, messagesOut, List.filterMap_append]
    rfl
  rw [Delivers, hsent, hres, hnew, hall]
  exact ((List.sublist_append_left _ _).trans hd).append_right _

/-- A write is recorded as a success only with its message delivered. -/
lemma Hand.Delivers.wrote {ok : Bool} (hd : h.Delivers s) (hc : h.Consumed s.sent s.received
      s.results s.gate.drained) (hk : kind ≠ .conn) (hreq : h.req kind cfg (.wrote ok))
    (hnone : h'.delivered = none) :
    h'.Delivers { s with results := s.results ++ [ok] } := by
  obtain ⟨-, -, -, e, es, hsp, hn, hes, hdel, -⟩ := hreq
  obtain ⟨-, hlen⟩ := hc.in_hand hsp hn hes
  have hnext : s.sent[s.results.length]? = some e.req := by
    rw [hlen]
    exact hc.reqs e (by simp [hsp])
  rw [Delivers, writtenOf_concat hnext, hnone, Option.toList_none, List.append_nil]
  cases ok with
  | true =>
    have hdel := hdel rfl hk
    rw [Delivers, hdel] at hd
    exact hd
  | false =>
    rw [if_neg Bool.false_ne_true, List.append_nil]
    exact (List.sublist_append_left _ _).trans hd

lemma Resources.delivers_exec (hR : Resources kind cfg s cs) (hk : kind ≠ .conn)
    (ht : cs[t]? = some h) (hreq : h.req kind cfg i) (hx : s.exec cfg x i = some (s', r))
    (hd : ∀ h ∈ cs, h.entry = .writerLoop → h.Delivers s) :
    ∀ d ∈ cs.set t (h.upd kind cfg i r), d.entry = .writerLoop → d.Delivers s' := by
  have hw := Session.exec_writes hx
  have hmono : s'.results = s.results → ∀ d d' : Hand, d'.delivered = d.delivered →
      d.Delivers s → d'.Delivers s' := fun hres d d' hsame hds =>
    hds.mono (Nat.le_trans hR.results_le hR.received_le) (Session.sent_mono hx)
      (Session.out_mono hx) hres hsame
  refine consumed_set hR.loops ht hd (Hand.upd_entry kind cfg i r h) (fun hne d => ?_)
    fun hentry hds => ?_
  · refine hmono (hw.results.trans ?_) d d rfl
    cases i with
    | wrote ok => exact absurd hreq.1 hne
    | _ => exact List.append_nil _
  · cases i with
    | wsWrite req | packetWrite req =>
      cases r with
      | some e => exact hmono (hw.results.trans (List.append_nil _)) _ _ rfl hds
      | none =>
        refine hds.write ?_ (hw.results.trans (List.append_nil _)) hw.out rfl
        simp only [Session.exec] at hx
        split at hx <;> cases hx
        rfl
    | wrote ok =>
      cases hx
      exact hds.wrote (hR.consumed h (List.mem_of_getElem? ht) hentry) hk hreq rfl
    | _ => exact hmono (hw.results.trans (List.append_nil _)) _ _ (Hand.upd_delivered rfl) hds

end Steps

/-- What every step keeps of the hands holds of them in every reachable state. -/
lemma hands_induction {P : Session → Hand → Prop}
    (hexec : ∀ {s s' : Session} {cs : List Hand} {t : ℕ} {h : Hand} {x : Choice} {i : SInstr}
      {r : i.Resp}, Resources kind cfg s cs → cs[t]? = some h → h.req kind cfg i →
      s.exec cfg x i = some (s', r) → (∀ h ∈ cs, P s h) →
        ∀ d ∈ cs.set t (h.upd kind cfg i r), P s' d)
    (henv : ∀ {s s' : Session} {e : SEnv} {h : Hand}, s.env e = some s' → P s h → P s' h)
    (hspawn : ∀ {s s' : Session} {l : SLabel}, kind.spawn s l = some s' →
      P s' (.start l) ∧ ∀ h, P s h → P s' h)
    (hinit : ∀ l, P (SProcess.init kind cfg).shared (.start l)) {p : SProcess}
    (hp : SessionReaches kind cfg p) : ∀ h ∈ p.hands kind cfg, P p.shared h := by
  have hboth : SessionReaches kind cfg p ∧ ∀ h ∈ p.hands kind cfg, P p.shared h := by
    refine Machine.reaches_induction (M := sessionMachine kind cfg)
      (P := fun p => SessionReaches kind cfg p ∧ ∀ h ∈ SProcess.hands kind cfg p, P p.shared h)
      (fun p e q h hstep => ⟨h.1.tail hstep, ?_⟩) ⟨⟨[], rfl⟩, fun h hh => ?_⟩ hp
    · obtain ⟨hp, hd⟩ := h
      obtain ⟨hR, hthreads⟩ := resources_reached hp
      obtain ⟨t, x, l, i, k, log, s', r, rfl, ht, hx, rfl⟩ | ⟨t, x, l, l', log, rfl, ht, rfl⟩ |
        ⟨l, s', rfl, hs, rfl⟩ | ⟨x, s', rfl, hs, rfl⟩ := Machine.step_cases hstep
      · have hreq := (hthreads _ (List.mem_of_getElem? ht)).1
        have hset := hexec hR (Outline.ctxs_getElem? ht) hreq hx hd
        rwa [SProcess.hands, Outline.ctxs_set]
      · have hctx := Outline.ctxs_getElem? (O := resourceOutline kind cfg) ht
        rw [SProcess.hands, Outline.ctxs_set]
        exact forall_mem_set hd (hd _ (List.mem_of_getElem? hctx))
      · obtain ⟨hnew, hold⟩ := hspawn hs
        rw [SProcess.hands, Outline.ctxs_append]
        exact forall_mem_concat (fun h hh => hold h (hd h hh)) hnew
      · exact fun h hh => henv hs (hd h hh)
    · rw [hands_init] at hh
      obtain ⟨l, -, rfl⟩ := List.mem_map.mp hh
      exact hinit l
  exact hboth.2

lemma delivers_reached (hk : kind ≠ .conn) {p : SProcess} (hp : SessionReaches kind cfg p) :
    ∀ h ∈ p.hands kind cfg, h.entry = .writerLoop → h.Delivers p.shared := by
  refine hands_induction (P := fun s h => h.entry = .writerLoop → h.Delivers s)
    (fun hR ht hreq hx hd => hR.delivers_exec hk ht hreq hx hd) (fun henv hd => ?_)
    (fun hs => ⟨fun hentry => ?_, fun h hd => ?_⟩) (fun _ _ => List.Sublist.refl _) hp
  · obtain ⟨_, _, _, rfl⟩ := Session.env_eq henv
    exact hd
  · -- the writer is not started by anyone
    cases (hentry : _ = SLabel.writerLoop)
    cases kind <;> cases hs
  · obtain ⟨_, rfl⟩ := SessionKind.spawn_eq hs
    exact hd

/-! ### What is recorded of a write -/

/-- A write is recorded as a success exactly when no call on the connection failed for it. -/
def Hand.Recorded (h : Hand) : Prop := ∀ e ∈ h.spent, ∀ ok, e.result = some ok → ok = !e.failed

lemma Hand.Recorded.settle {h h' : Hand} (hr : h.Recorded) {f : Spent → Spent}
    (hspent : h'.spent = h.spent.modifyHead f)
    (hf : ∀ e, (f e).result = e.result ∧ (f e).failed = e.failed) : h'.Recorded := by
  rw [Recorded, hspent]
  cases hsp : h.spent with
  | nil => exact nofun
  | cons e es =>
    rw [Recorded, hsp, List.forall_mem_cons] at hr
    rw [List.modifyHead_cons, List.forall_mem_cons, (hf e).1, (hf e).2]
    exact hr

lemma Hand.Recorded.fired {h : Hand} (hr : h.Recorded) (cases : List Case) (r : Fired) :
    (h.fired cfg cases r).Recorded := by
  cases r with
  | popped i req =>
    refine List.forall_mem_cons.mpr ⟨fun ok hok => ?_, hr⟩
    cases hok
  | pushed i =>
    simp only [Hand.fired]
    split <;> exact hr
  | acked v => cases v <;> exact hr
  | _ => exact hr

lemma Hand.Recorded.upd {h : Hand} {i : SInstr} {r : i.Resp} (hr : h.Recorded)
    (hreq : h.req kind cfg i) : (h.upd kind cfg i r).Recorded := by
  cases i with
  | select cases dflt => exact hr.fired cases r
  | releaseSlot | localRelease _ | globalRelease _ | rawWrite _ | ack _ _ =>
    exact hr.settle rfl fun _ => ⟨rfl, rfl⟩
  | wsWrite _ | packetWrite _ => cases r <;> exact hr.settle rfl fun _ => ⟨rfl, rfl⟩
  | wrote ok =>
    obtain ⟨-, -, -, e, es, hsp, -, -, -, hok⟩ := hreq
    rw [Recorded, hsp, List.forall_mem_cons] at hr
    rw [Recorded, show (h.upd kind cfg (.wrote ok) r).spent =
      { e with result := some ok, failed := h.failed } :: es by simp [Hand.upd, Hand.settle, hsp]]
    refine List.forall_mem_cons.mpr ⟨fun ok' hok' => ?_, hr.2⟩
    cases hok'
    exact hok
  | gateEnter | encode _ | localSection _ | localTry _ | globalSection _ | globalTry _
  | setWriteDeadline => cases r <;> exact hr
  | count c n => cases c <;> exact hr
  | _ => exact hr

lemma recorded_reached {p : SProcess} (hp : SessionReaches kind cfg p) :
    ∀ h ∈ p.hands kind cfg, h.Recorded :=
  hands_induction (P := fun _ h => h.Recorded)
    (fun _ ht hreq _ hd => forall_mem_set hd ((hd _ (List.mem_of_getElem? ht)).upd hreq))
    (fun _ h => h) (fun _ => ⟨nofun, fun _ h => h⟩) (fun _ => nofun) hp

lemma written_reached {p : SProcess} (hp : SessionReaches kind cfg p) : p.shared.Written kind := by
  have hothers : kind ≠ .conn →
      (writtenOf p.shared.sent p.shared.results).Sublist (messagesOut p.shared.out) := fun hk => by
    obtain ⟨w, hw, hentry⟩ := (resources_reached hp).shared.loops.exists_writer
    exact (List.sublist_append_left _ _).trans (delivers_reached hk hp w hw hentry)
  cases kind with
  | conn => exact (sourced_reached hp).written
  | webSocket | packet => exact hothers nofun

/-! ### Conservation -/

/-- The send resources of a session are all accounted for. What a goroutine has in hand, and what
the writer has done for each request, is read off the steps it has taken. -/
structure Conserved (kind : SessionKind) (cfg : SessionConfig) (p : SProcess) : Prop where
  /-- A slot is held by a sender, by a queued request or by the request in flight. -/
  slots : p.shared.slots = total Hand.slots (p.hands kind cfg) + p.shared.queue.length
  one_slot : ∀ h ∈ p.hands kind cfg, h.slots ≤ 1
  /-- So are the bytes of both budgets. -/
  own : p.shared.quota.used =
    total Hand.own (p.hands kind cfg) + total Request.bytes p.shared.queue
  shared : p.shared.global.used = p.shared.others + total Hand.shared (p.hands kind cfg) +
    total (fun r => cfg.globalCharge r.bytes) p.shared.queue
  /-- There is one writer, and nobody else takes requests off the queue. -/
  one_writer : total Hand.writers (p.hands kind cfg) = 1
  others : ∀ h ∈ p.hands kind cfg, h.entry ≠ .writerLoop → h.spent = []
  /-- The writer consumes every request once, in queue order. -/
  consumed : ∀ h ∈ p.hands kind cfg, h.entry = .writerLoop →
    h.spent.map Spent.index = (List.range p.shared.received).reverse ∧
      ∀ e ∈ h.spent, p.shared.sent[e.index]? = some e.req ∧ p.shared.results[e.index]? = e.result
  /-- A request that is done with has given back exactly its bytes and one slot, has had its ack if
  it waits for one, and has its result recorded if a write was tried for it. -/
  settled : ∀ h ∈ p.hands kind cfg, ∀ e ∈ h.spent.tail, e.Settled cfg
  /-- The request in hand has given back all but what is still held for it. -/
  in_hand : ∀ h ∈ p.hands kind cfg, ∀ e ∈ h.spent.head?, e.slots + h.slots = 1 ∧
    e.own + h.own = e.req.bytes ∧ e.shared + h.shared = cfg.globalCharge e.req.bytes ∧
      e.acks ≤ e.req.acks
  /-- `Send` returns nil only after its own request was written. -/
  sent_nil : ∀ th ∈ p.threads, th.prog = .done (.ret (.result none)) →
    ((∃ ctx msg, th.entry = .send ctx msg) ∨ ∃ ctx peer data, th.entry = .sendTo ctx peer data) →
      ∃ i req, (handOf kind cfg th).pushed = some (i, req) ∧
        Carries cfg (handOf kind cfg th).encoded req th.entry ∧ p.shared.sent[i]? = some req ∧
          p.shared.results[i]? = some true ∧ p.shared.OnTheWire i req kind
  /-- What is recorded as written has gone to the connection. -/
  written : p.shared.Written kind
  /-- The recorded result says whether a call on the connection has failed for the request. -/
  recorded : ∀ h ∈ p.hands kind cfg, ∀ e ∈ h.spent, ∀ ok, e.result = some ok → ok = !e.failed
  /-- The counters count what was written, but for the request whose count is under way. -/
  bytesTX : p.shared.counters .bytesTX + total Hand.owedBytes (p.hands kind cfg) =
    total kind.txBytes (writtenOf p.shared.sent p.shared.results)
  messagesTX : p.shared.counters .messagesTX + total Hand.owedMessages (p.hands kind cfg) =
    (writtenOf p.shared.sent p.shared.results).length
  /-- Nothing is left when `Done` is closed. -/
  done : p.shared.closed .done = true → p.shared.queue = [] ∧ p.shared.slots = 0 ∧
    p.shared.quota.used = 0 ∧ p.shared.global.used = p.shared.others ∧
      ∀ h ∈ p.hands kind cfg, h.Free ∧ h.Counted

/-- For every interleaving of senders, the writer and closers, of each kind of session. -/
theorem send_resources_conserved (kind : SessionKind) (cfg : SessionConfig) (p : SProcess)
    (hp : SessionReaches kind cfg p) : Conserved kind cfg p := by
  obtain ⟨hR, hthreads⟩ := resources_reached hp
  have hwritten := written_reached hp
  refine ⟨hR.budgets.slots, fun h hh => (hR.hands h hh).one, hR.budgets.own, hR.budgets.shared,
    hR.loops.one, fun h hh he => ((hR.hands h hh).sender he).1,
    fun h hh he => ⟨(hR.consumed h hh he).indices, fun e hspent =>
      ⟨(hR.consumed h hh he).reqs e hspent, (hR.consumed h hh he).result_eq e hspent⟩⟩,
    fun h hh => (hR.hands h hh).settled, fun h hh => (hR.hands h hh).spending,
    fun th hth hprog hentry => ?_, hwritten, recorded_reached hp, hR.records.bytes,
    hR.records.messages, fun hd => ?_⟩
  · -- the outline of a sender ends with the ack of its own request in hand
    have hpost := hthreads th hth
    rw [hprog] at hpost
    obtain ⟨i, req, hpushed, hconf⟩ :
        ∃ i req, (handOf kind cfg th).pushed = some (i, req) ∧
          (handOf kind cfg th).confirmed = some i := by
      change (handOf kind cfg th).post (.result none) at hpost
      obtain ⟨ctx, msg, he⟩ | ⟨ctx, peer, data, he⟩ := hentry
      · simpa only [Hand.post, handOf_entry, he] using hpost
      · simpa only [Hand.post, handOf_entry, he] using hpost
    have hk := hR.knows (handOf kind cfg th) (List.mem_map_of_mem hth)
    obtain ⟨hsent, hcarries⟩ := hk.pushed i req hpushed
    rw [handOf_entry] at hcarries
    have hresult := hk.confirmed i hconf
    exact ⟨i, req, hpushed, hcarries, hsent, hresult, hwritten.onTheWire hsent hresult⟩
  · obtain ⟨hqueue, hhands⟩ := hR.free_of_loops (hR.loops.done hd)
    have hfree : ∀ h ∈ (resourceOutline kind cfg).ctxs p.threads, h.Free ∧ h.Counted :=
      fun h hh => (hhands h hh).2
    have hzero : ∀ f : Hand → ℕ, (∀ h, h.Free → f h = 0) →
        total f ((resourceOutline kind cfg).ctxs p.threads) = 0 := fun f hf =>
      total_eq_zero_iff.mpr fun h hh => hf h (hfree h hh).1
    have hslots := hR.budgets.slots
    have hown := hR.budgets.own
    have hshared := hR.budgets.shared
    rw [hqueue, hzero _ fun h hh => hh.1] at hslots
    rw [hqueue, hzero _ fun h hh => hh.2.1] at hown
    rw [hqueue, hzero _ fun h hh => hh.2.2] at hshared
    exact ⟨hqueue, hslots, hown, hshared, hfree⟩

/-- A session with a queue of two, on which a message is put and taken off again by the writer. -/
def SProcess.inFlight : List (Event SLabel Choice SEnv) :=
  [.spawn (.trySend ⟨.binary, [1, 2]⟩), .run 3 {}, .run 3 { pick := some 1 },
    .run 3 { pick := some 1 }, .run 3 {}, .run 3 { data := [7, 8, 9] }, .run 3 {}, .run 3 {},
    .run 3 { pick := some 1 }, .run 0 {}, .run 0 { pick := some 2 }]

theorem send_resources_conserved_inFlight : ∃ p : SProcess,
    (sessionMachine .conn .small).run (SProcess.init .conn .small) SProcess.inFlight = some p ∧
      (p.shared.slots, p.shared.queue.length, p.shared.quota.used) = (1, 0, 3) ∧
      Conserved .conn .small p := by
  have hrun : ((sessionMachine .conn .small).run (SProcess.init .conn .small)
      SProcess.inFlight).map
        (fun p => (p.shared.slots, p.shared.queue.length, p.shared.quota.used)) =
      some (1, 0, 3) := by decide
  obtain ⟨p, hp, hobs⟩ := Option.map_eq_some_iff.mp hrun
  exact ⟨p, hp, hobs, send_resources_conserved .conn .small p ⟨_, hp⟩⟩

end Ogrenet
