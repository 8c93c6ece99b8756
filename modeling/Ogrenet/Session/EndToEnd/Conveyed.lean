import Ogrenet.Session.EndToEnd.Receiver
import Ogrenet.Session.EndToEnd.Sender
import Ogrenet.Wire.Grammar

/-!
# From `Send` to `OnMessage`

Two stream sessions with the same codec at the two ends of a connection, each of them in any state
that any interleaving of its goroutines leads to. The connection has carried some of the bytes that
the one has written to the reader of the other. The two halves of the argument meet at the frames of
the sender's queue: the wire carries a prefix of them, and the reader takes them off one by one.
-/

namespace Ogrenet

open Interleaving Interleaving.Prog

/-- The framer that was asked to encode, if it was, is the codec with the randomness `rnd`. -/
def Codec.encodesAs (c : Codec Err) (rnd : Bytes) : (i : SInstr) → i.Resp → Bool
  | .encode msg, .ok frame => decide (c.encode rnd msg = .ok frame)
  | _, _ => true

/-- The goroutine encodes with the codec. -/
def Codec.EncodesIn (c : Codec Err) (log : SLog) : Prop :=
  ∀ a ∈ log, ∃ rnd, c.encodesAs rnd a.1 a.2 = true

lemma Codec.EncodesIn.encode {c : Codec Err} {log : SLog} (h : c.EncodesIn log) {msg : Message}
    {frame : Bytes} (hmem : ⟨.encode msg, .ok frame⟩ ∈ log) :
    ∃ rnd, c.encode rnd msg = .ok frame := by
  obtain ⟨rnd, hrnd⟩ := h _ hmem
  exact ⟨rnd, of_decide_eq_true hrnd⟩

/-- The session `p` sends to the session `q`, whose reader is `rd`. -/
structure Connected (C : Codec Err) (sender receiver : SessionConfig) (p q : SProcess)
    (rd : SThread) : Prop where
  cipher : ∀ cipher, C.cipher = some cipher → cipher.Inverts
  sends : SessionReaches .conn sender p
  encodes : ∀ th ∈ p.threads, C.EncodesIn th.log
  receives : SessionReaches .conn receiver q
  reader : rd ∈ q.threads ∧ rd.entry = .readerLoop
  decodes : C.DecodesIn rd.log
  /-- The connection loses, repeats and reorders no bytes, but may be slow. -/
  bytes : bytesRead rd.log <+: outBytes p.shared.out

/-- What the receiver has been given of the messages `msgs` of the sender's queue. -/
structure Conveyed (C : Codec Err) (p : SProcess) (rd : SThread) (msgs : List Message) : Prop where
  /-- The frames on the queue are those of the messages, and each message is one that some call of
  `Send` or `TrySend` was given. -/
  queue : List.Forall₂ (fun msg req => C.decodeOne req.frame = .ok (msg, req.frame.length) ∧
    ∃ th ∈ p.threads, th.entry.message = some msg) msgs p.shared.sent
  /-- The handler has been given the first ones, in order and each of them once. -/
  order : handedOn rd.log <+: msgs
  /-- Before the reader reads again, it was given every message whose frame has arrived. -/
  arrived : ∀ k, rd.prog = .op .rawRead k → ∀ n ≤ p.shared.sent.length,
    framesOf (p.shared.sent.take n) <+: bytesRead rd.log → n ≤ (handedOn rd.log).length
  /-- What the reader is about to decode is never a broken frame. -/
  intact : ∀ src k, rd.prog = .op (.decodeOne src) k → ∀ e, C.verdict src ≠ .fail e
  /-- A message that `Send` has returned nil for is given to the handler, as soon as everything that
  was written has been read and the reader reads again. -/
  delivered : ∀ th ∈ p.threads, ∀ ctx msg, th.entry = .send ctx msg → returnedNil th = true →
    ∀ k, rd.prog = .op .rawRead k → bytesRead rd.log = outBytes p.shared.out →
      msg ∈ handedOn rd.log

/-! ### The frames of the queue -/

section Queue

variable {C : Codec Err} {cfg : SessionConfig} {p : SProcess}

/-- The codec finds the message in its frame, and nothing in a part of it. -/
lemma Codec.framed_of_encode (hc : ∀ cipher, C.cipher = some cipher → cipher.Inverts)
    {rnd frame : Bytes} {msg : Message} (h : C.encode rnd msg = .ok frame) :
    C.decodeOne frame = .ok (msg, frame.length) ∧ C.decoder.Framed msg frame := by
  have hone := Codec.decodeOne_encode hc h []
  rw [List.append_nil] at hone
  refine ⟨hone, ?_, ?_⟩
  · show C.verdict frame = _
    rw [Codec.verdict, hone]
  · intro front back hback hsplit
    rw [hsplit] at h
    show C.verdict front = _
    rw [Codec.verdict, Codec.decodeOne_front h hback]
    rfl

/-- A message for every request of the queue. -/
lemma exists_forall₂ {R : Message → Request → Prop} {reqs : List Request}
    (h : ∀ req ∈ reqs, ∃ msg, R msg req) : ∃ msgs, List.Forall₂ R msgs reqs := by
  induction reqs with
  | nil => exact ⟨[], .nil⟩
  | cons req reqs ih =>
    obtain ⟨msg, hmsg⟩ := h req List.mem_cons_self
    obtain ⟨msgs, hmsgs⟩ := ih fun req hreq => h req (List.mem_cons_of_mem _ hreq)
    exact ⟨msg :: msgs, .cons hmsg hmsgs⟩

/-- What is on the wire is the front of the frames of the queue. -/
lemma WholeFrames.isPrefix {sent : List Request} {bytes : Bytes} (h : WholeFrames sent bytes) :
    bytes <+: framesOf sent := by
  obtain ⟨n, part, hn, rfl, hpart⟩ := h
  have hsplit : framesOf sent = framesOf (sent.take n) ++ framesOf (sent.drop n) := by
    rw [framesOf, framesOf, framesOf, ← List.flatten_append, ← List.map_append,
      List.take_append_drop]
  rw [hsplit, List.prefix_append_right_inj]
  rcases hpart with rfl | ⟨req, hreq, hpart, -⟩
  · exact List.nil_prefix
  · obtain ⟨hlt, rfl⟩ := List.getElem?_eq_some_iff.mp hreq
    rw [List.drop_eq_getElem_cons hlt, framesOf, List.map_cons, List.flatten_cons]
    exact hpart.trans (List.prefix_append _ _)

lemma wire_isPrefix (hp : SessionReaches .conn cfg p) :
    outBytes p.shared.out <+: framesOf p.shared.sent := by
  obtain ⟨hL, -⟩ := lifecycle_reached hp
  obtain ⟨c, hc, he⟩ : ∃ c ∈ lifeOutline.ctxs p.threads, c.entry = .writerLoop := by
    by_contra hnone
    have hzero : total Life.writers (lifeOutline.ctxs p.threads) = 0 :=
      total_eq_zero_iff.mpr fun c hc => if_neg fun he => hnone ⟨c, hc, he⟩
    rw [hL.writing.one] at hzero
    cases hzero
  exact ((hL.writing.wire c hc he).1.wholeFrames
    (resources_reached hp).shared.received_le).isPrefix

/-- A call of `Send` that returned nil: its frame is on the wire. -/
lemma written_of_returnedNil (hp : SessionReaches .conn cfg p) {th : SThread} (hth : th ∈ p.threads)
    {ctx : Option ℕ} {msg : Message} (he : th.entry = .send ctx msg)
    (hnil : returnedNil th = true) :
    ∃ i req, p.shared.sent[i]? = some req ∧ ⟨.encode msg, .ok req.frame⟩ ∈ th.log ∧
      framesOf (p.shared.sent.take (i + 1)) <+: outBytes p.shared.out := by
  obtain ⟨hR, hsends⟩ := resources_reached hp
  have hS := sourced_reached hp
  have hpost := hsends th hth
  rw [prog_of_returnedNil hnil] at hpost
  change (handOf .conn cfg th).post (.result none) at hpost
  obtain ⟨i, req, hpushed, hconf⟩ : ∃ i req, (handOf .conn cfg th).pushed = some (i, req) ∧
      (handOf .conn cfg th).confirmed = some i := by
    simpa only [Hand.post, handOf_entry, he] using hpost
  have hk := hR.knows (handOf .conn cfg th) (List.mem_map_of_mem hth)
  obtain ⟨hsent, hcarries⟩ := hk.pushed i req hpushed
  rw [handOf_entry, he] at hcarries
  obtain ⟨msg', henc⟩ := encode_of_encoded hcarries.1
  have hmsg := hS.asked th hth msg' _ henc
  rw [he] at hmsg
  cases hmsg
  exact ⟨i, req, hsent, henc, (hS.written i (hk.confirmed i hconf)).2⟩

end Queue

/-- A message of the sender's queue with the request that carries it. -/
structure Queued (C : Codec Err) (p : SProcess) (msg : Message) (req : Request) : Prop where
  decodes : C.decodeOne req.frame = .ok (msg, req.frame.length)
  framed : C.decoder.Framed msg req.frame
  asked : ∃ th ∈ p.threads, th.entry.message = some msg

namespace Connected

variable {C : Codec Err} {sender receiver : SessionConfig} {p q : SProcess} {rd : SThread}

lemma exists_queued (h : Connected C sender receiver p q rd) :
    ∃ msgs, List.Forall₂ (Queued C p) msgs p.shared.sent := by
  have hS := sourced_reached h.sends
  apply exists_forall₂
  intro req hreq
  obtain ⟨th, hth, msg, hmem⟩ := hS.queued req hreq
  obtain ⟨rnd, henc⟩ := (h.encodes th hth).encode hmem
  obtain ⟨hdec, hframed⟩ := Codec.framed_of_encode h.cipher henc
  exact ⟨msg, hdec, hframed, th, hth, hS.asked th hth msg _ hmem⟩

lemma role (h : Connected C sender receiver p q rd) :
    ((readOutline receiver C).ctx rd).1.role = .reader := by
  rw [read_ctx, h.reader.2]
  rfl

/-- What the reader has read is the front of the frames of the queue. -/
lemma read_isPrefix (h : Connected C sender receiver p q rd) :
    bytesRead rd.log <+: (p.shared.sent.map Request.frame).flatten :=
  h.bytes.trans (wire_isPrefix h.sends)

lemma framed {msgs : List Message} (hmsgs : List.Forall₂ (Queued C p) msgs p.shared.sent) :
    List.Forall₂ C.decoder.Framed msgs (p.shared.sent.map Request.frame) :=
  List.forall₂_map_right_iff.mpr (hmsgs.imp fun _ _ hq => hq.framed)

lemma arrived (h : Connected C sender receiver p q rd) {msgs : List Message}
    (hmsgs : List.Forall₂ (Queued C p) msgs p.shared.sent) {k : SInstr.rawRead.Resp → SProg SNext}
    (hprog : rd.prog = .op .rawRead k) {n : ℕ} (hn : n ≤ p.shared.sent.length)
    (hpre : framesOf (p.shared.sent.take n) <+: bytesRead rd.log) :
    n ≤ (handedOn rd.log).length := by
  have hwp := (@readsOn_reached C receiver _ h.receives).threads rd h.reader.1
  rw [hprog] at hwp
  obtain ⟨rest, hlooked, -⟩ := hwp.1 h.role
  rw [read_ctx] at hlooked
  rw [framesOf, List.map_take] at hpre
  exact (hlooked.yields h.decodes).all_of_need (framed hmsgs) h.read_isPrefix
    (hlooked.verdict h.decodes) (by rwa [List.length_map]) hpre

/-- The message of a call of `Send` that returned nil is at its place on the queue. -/
lemma sent (h : Connected C sender receiver p q rd) {msgs : List Message}
    (hmsgs : List.Forall₂ (Queued C p) msgs p.shared.sent) {th : SThread} (hth : th ∈ p.threads)
    {ctx : Option ℕ} {msg : Message} (he : th.entry = .send ctx msg)
    (hnil : returnedNil th = true) :
    ∃ i : ℕ, i < p.shared.sent.length ∧ msgs[i]? = some msg ∧
      framesOf (p.shared.sent.take (i + 1)) <+: outBytes p.shared.out := by
  obtain ⟨i, req, hreq, hmem, hpre⟩ := written_of_returnedNil h.sends hth he hnil
  obtain ⟨rnd, henc⟩ := (h.encodes th hth).encode hmem
  obtain ⟨hlt, hget⟩ := List.getElem?_eq_some_iff.mp hreq
  have hlt' : i < msgs.length := by rwa [hmsgs.length_eq]
  have hqueued := hmsgs.get hlt' hlt
  rw [List.get_eq_getElem, List.get_eq_getElem, hget] at hqueued
  -- the frame is decoded to one message only
  cases hqueued.decodes.symm.trans (Codec.framed_of_encode h.cipher henc).1
  exact ⟨i, hlt, List.getElem?_eq_getElem hlt', hpre⟩

end Connected

/-- From `Send` to `OnMessage` nothing is lost, repeated, reordered, changed or made up, whatever
the interleavings at the two ends. -/
theorem messages_conveyed (C : Codec Err) (sender receiver : SessionConfig) (p q : SProcess)
    (rd : SThread) (h : Connected C sender receiver p q rd) : ∃ msgs, Conveyed C p rd msgs := by
  obtain ⟨msgs, hmsgs⟩ := h.exists_queued
  obtain ⟨hR, hreads⟩ := @readsOn_reached C receiver _ h.receives
  have horder : handedOn rd.log <+: msgs := by
    obtain ⟨rest, hdec⟩ := hR _ (List.mem_map_of_mem h.reader.1) h.role
    rw [read_ctx] at hdec
    exact ((hdec.yields h.decodes).of_framed (Connected.framed hmsgs) h.read_isPrefix).first
  refine ⟨msgs, hmsgs.imp fun _ _ hq => ⟨hq.decodes, hq.asked⟩, horder,
    fun k hprog n hn hpre => h.arrived hmsgs hprog hn hpre, ?_, ?_⟩
  · intro src k hprog
    have hwp := hreads rd h.reader.1
    rw [hprog] at hwp
    have hdec := hwp.1 h.role
    rw [read_ctx] at hdec
    exact (hdec.yields h.decodes).step_ne_fail (Connected.framed hmsgs) h.read_isPrefix
  · intro th hth ctx msg he hnil k hprog hall
    obtain ⟨i, hlt, hmsg, hpre⟩ := h.sent hmsgs hth he hnil
    rw [← hall] at hpre
    obtain ⟨later, rfl⟩ := horder
    have hgiven := h.arrived hmsgs hprog hlt hpre
    rw [List.getElem?_append_left hgiven] at hmsg
    exact List.mem_of_getElem? hmsg

/-- `Send` queues a message of two bytes, and the writer writes its frame. -/
def SProcess.oneSend : List (Event SLabel Choice SEnv) :=
  List.flatten [
    [.spawn (.send (some 0) ⟨.binary, [104, 105]⟩), .run 3 {}, .run 3 {},
      .run 3 { pick := some 2 }, .run 3 { pick := some 2 }, .run 3 {},
      .run 3 { data := [0x4f, 0x47, 1, 0, 0, 0, 0, 0, 0, 2, 104, 105] }, .run 3 {}, .run 3 {},
      .run 3 {}, .run 3 { pick := some 2 }, .run 0 {}, .run 0 { pick := some 2 }, .run 0 {},
      .run 0 {}, .run 0 { n := 12 }],
    List.replicate 9 (.run 0 {}), [.run 3 { pick := some 0 }, .run 3 {}]]

theorem messages_conveyed_oneSend : ∃ (p q : SProcess) (rd : SThread),
    (sessionMachine .conn .small).run (SProcess.init .conn .small) SProcess.oneSend = some p ∧
      (sessionMachine .conn .small).run (SProcess.init .conn .small) SProcess.twoReads = some q ∧
      p.threads.map (fun th => returnedNil th) = [false, false, false, true] ∧
      handedOn rd.log = [⟨.binary, [104, 105]⟩] ∧ ∃ msgs, Conveyed defaultCodec p rd msgs := by
  have hsend : ((sessionMachine .conn .small).run (SProcess.init .conn .small)
      SProcess.oneSend).map (fun p => (outBytes p.shared.out,
        p.threads.map (fun th => returnedNil th),
        p.threads.all fun th => th.log.all fun a => defaultCodec.encodesAs [] a.1 a.2)) =
      some ([0x4f, 0x47, 1, 0, 0, 0, 0, 0, 0, 2, 104, 105], [false, false, false, true], true) := by
    decide
  have hread : ((sessionMachine .conn .small).run (SProcess.init .conn .small)
      SProcess.twoReads).bind (fun q => q.threads[1]?.map fun rd =>
        (rd.entry, bytesRead rd.log, handedOn rd.log, decide (defaultCodec.DecodesIn rd.log))) =
      some (.readerLoop, [0x4f, 0x47, 1, 0, 0, 0, 0, 0, 0, 2, 104, 105],
        [⟨.binary, [104, 105]⟩], true) := by decide
  obtain ⟨p, hp, hobs⟩ := Option.map_eq_some_iff.mp hsend
  obtain ⟨q, hq, hrd⟩ := Option.bind_eq_some_iff.mp hread
  obtain ⟨rd, hrd, hobs'⟩ := Option.map_eq_some_iff.mp hrd
  simp only [Prod.mk.injEq, decide_eq_true_eq] at hobs hobs'
  obtain ⟨hout, hnil, hencodes⟩ := hobs
  obtain ⟨hentry, hbytes, hhanded, hdecodes⟩ := hobs'
  have hconnected : Connected defaultCodec .small .small p q rd := by
    refine ⟨by simp [defaultCodec], ⟨_, hp⟩, fun th hth a ha => ⟨[], ?_⟩, ⟨_, hq⟩,
      ⟨List.mem_of_getElem? hrd, hentry⟩, hdecodes, ?_⟩
    · exact List.all_eq_true.mp (List.all_eq_true.mp hencodes th hth) a ha
    · exact ⟨[], (List.append_nil _).trans (hbytes.trans hout.symm)⟩
  exact ⟨p, q, rd, hp, hq, hnil, hhanded,
    messages_conveyed defaultCodec .small .small p q rd hconnected⟩

end Ogrenet
