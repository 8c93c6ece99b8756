import Ogrenet.Interleaving.Eval
import Ogrenet.Session.Framer
import Ogrenet.Session.Machine

/-!
# The reader of a stream session alone

`readerLoop` with the default framer, on a stream that ends with EOF and arrives in some sequence of
reads, while nobody closes the session. It delivers what decoding the stream piece by piece gives,
so the cuts do not matter.
-/

namespace Ogrenet

open Interleaving Interleaving.Prog Ses Chunked

/-! ### A quiet connection -/

/-- The session, the reads to come and the messages delivered so far. With `eager` the last read
returns EOF together with its bytes. -/
structure Inbound where
  session : Session
  reads : List Bytes
  eager : Bool
  delivered : List Message := []

namespace Inbound

variable (cfg : SessionConfig) (c : Codec Err)

def eof : Err := .sentinel .eof

/-- The error of the next read. -/
def readErr (st : Inbound) : Option Err :=
  if st.reads.length ≤ st.eager.toNat then some eof else none

/-- What the outside answers: the stream, the framer, and a `select` that takes a case which is
ready. -/
def choice (st : Inbound) : SInstr → Choice
  | .rawRead => { data := st.reads.headD [], err := st.readErr }
  | .decodeOne src =>
    match c.decodeOne src with
    | .ok (msg, n) => { msg, consumed := n }
    | .error e => { err := some (.ofWire e) }
  | .select cases _ => { pick := cases.findIdx? fun x => (st.session.fire cfg {} x).isSome }
  | _ => {}

def readsAfter : SInstr → List Bytes → List Bytes
  | .rawRead, reads => reads.tail
  | _, reads => reads

def delivers : SInstr → List Message
  | .callBegin (.onMessage msg) => [msg]
  | _ => []

def answer (st : Inbound) (i : SInstr) : Option (Inbound × i.Resp) :=
  (st.session.exec cfg (st.choice cfg c i) i).map fun a =>
    ({ st with
      session := a.1
      reads := readsAfter i st.reads
      delivered := st.delivered ++ delivers i }, a.2)

def start (reads : List Bytes) (eager : Bool) : Inbound :=
  { session := .init .conn cfg, reads, eager }

end Inbound

/-- How `readerLoop` ends: the read side is closed cleanly, or the session fails. -/
inductive Outcome where
  | readClosed
  | failed (e : Err)
  deriving DecidableEq, Repr

def Inbound.outcome (st : Inbound) : Option Outcome :=
  match st.session.err with
  | some e => some (.failed e)
  | none => if st.session.closed .readDone then some .readClosed else none

/-- A session that nobody has closed. -/
structure Session.Quiet (s : Session) : Prop where
  goal : s.goal = .running
  terminal : s.terminal = false
  closed : s.closed = fun _ => false
  err : s.err = none
  once : s.once .close = .idle

/-- The session after a counter was raised. -/
def Session.counted (s : Session) (k : Counter) (n : ℕ) : Session :=
  { s with counters := Function.update s.counters k (s.counters k + n) }

lemma Session.Quiet.counted {s : Session} (hq : s.Quiet) (k : Counter) (n : ℕ) :
    (s.counted k n).Quiet :=
  ⟨hq.goal, hq.terminal, hq.closed, hq.err, hq.once⟩

/-! ### Evaluation -/

namespace Inbound

variable {cfg : SessionConfig} {c : Codec Err} {st : Inbound}

lemma answer_count (k : Counter) (n : ℕ) :
    st.answer cfg c (.count k n) = some ({ st with session := st.session.counted k n }, ()) := by
  simp [answer, Session.exec, readsAfter, delivers, Session.counted]

lemma eval_isClosedSignal (ch : Signal) :
    (isClosedSignal ch).eval (answer cfg c) st = some (st, st.session.closed ch) := by
  show (st.answer cfg c (.select [.closed ch] true)).bind _ = _
  cases hch : st.session.closed ch with
  | false =>
    have hanswer : st.answer cfg c (.select [.closed ch] true) = some (st, .default) := by
      simp [answer, choice, Session.exec, Session.select, Session.fire, hch, readsAfter, delivers]
    rw [hanswer]
    rfl
  | true =>
    have hanswer : st.answer cfg c (.select [.closed ch] true) = some (st, .closed ch) := by
      simp [answer, choice, Session.exec, Session.select, Session.fire, hch, readsAfter, delivers]
    rw [hanswer]
    rfl

lemma eval_isClosing (hq : st.session.Quiet) :
    isClosing.eval (answer cfg c) st = some (st, false) := by
  rw [isClosing, eval_isClosedSignal, hq.closed]

/-- An abort of a quiet session publishes its error. -/
lemma eval_abort (hq : st.session.Quiet) (reason : AbortReason) {e : Err}
    (he : e.hasOperational = true) :
    ∃ s', (Conn.abort reason (some e)).eval (answer cfg c) st =
      some ({ st with session := s' }, true) ∧ s'.err = some e := by
  obtain ⟨s, reads, eager, delivered⟩ := st
  obtain ⟨hgoal, hterm, hclosed, herr, honce⟩ := hq
  simp only at hgoal hterm hclosed herr honce
  simp [Conn.abort, abortWith, abortSection, signal, onceDo, onceEnter, onceExit, gateClose,
    rawClose, perform, he, answer, Session.exec, hgoal, hterm, readsAfter, delivers,
    Session.close, honce]

lemma eval_endLoop : endLoop.eval (answer cfg c) st =
    some ({ st with session := { st.session with loops := st.session.loops - 1 } },
      .ret .unit) := by
  simp [endLoop, loopDone, perform, answer, Session.exec, readsAfter, delivers]

lemma eval_failRead (hq : st.session.Quiet) (cause : Err) (hint : ClassifyHint) :
    ∃ st', (Conn.failRead cfg cause hint).eval (answer cfg c) st = some (st', .ret .unit) ∧
      st'.outcome = some (.failed (Conn.operationalError cfg .read cause hint)) ∧
        st'.delivered = st.delivered := by
  have hop : (Conn.operationalError cfg .read cause hint).hasOperational = true :=
    classifyOperational_classified.hasOperational
  obtain ⟨s', hs', herr⟩ := @eval_abort cfg c st hq .failure _ hop
  have hfail : (Conn.failRead cfg cause hint).eval (answer cfg c) st =
      endLoop.eval (answer cfg c) { st with session := s' } := by
    rw [Conn.failRead, eval_bind, Conn.initiateClose, eval_bind, hs']
    rfl
  refine ⟨_, hfail.trans eval_endLoop, ?_, rfl⟩
  simp only [outcome, herr]

/-! ### One round of the reader -/

lemma eval_readerTail_none (hq : st.session.Quiet) (pending : Bytes) :
    (Conn.readerTail cfg pending none).eval (answer cfg c) st =
      some (st, .goto (.reader pending)) := by
  rw [Conn.readerTail, eval_bind, eval_isClosing hq]
  rfl

/-- The session with its read side closed. -/
def readSideClosed (st : Inbound) : Inbound :=
  { st with session := st.session.close .readDone }

lemma eval_maybeFinishGraceful (h : st.session.closed .writeDone = false) :
    Conn.maybeFinishGraceful.eval (answer cfg c) st = some (st, ()) := by
  rw [Conn.maybeFinishGraceful, eval_bind, eval_isClosedSignal]
  cases st.session.closed .readDone with
  | false => rfl
  | true =>
    simp only [Option.bind_some]
    rw [eval_bind, eval_isClosedSignal, h]
    rfl

/-- The end of the stream closes the read side. -/
lemma eval_readerTail_eof (hq : st.session.Quiet) (pending : Bytes) :
    ∃ st', (Conn.readerTail cfg pending (some eof)).eval (answer cfg c) st =
      some (st', .ret .unit) ∧ st'.outcome = some .readClosed ∧ st'.delivered = st.delivered := by
  have hsignal : (signal .readDone).eval (answer cfg c) st = some (st.readSideClosed, ()) := by
    simp [signal, perform, answer, Session.exec, readsAfter, delivers, readSideClosed]
  have hopen : st.readSideClosed.session.closed .writeDone = false := by
    simp [readSideClosed, Session.close, hq.closed]
  have htail : (Conn.readerTail cfg pending (some eof)).eval (answer cfg c) st =
      endLoop.eval (answer cfg c) st.readSideClosed := by
    have htimeout : ¬ (cfg.readIdle && eof.isTimeoutFailure) = true := by
      rw [show eof.isTimeoutFailure = false from rfl, Bool.and_false]
      decide
    have hnormal : normalizeConnError eof = none := rfl
    rw [Conn.readerTail, eval_bind, eval_isClosing hq, Option.bind_some]
    simp only [if_neg htimeout, hnormal]
    rw [eval_bind, hsignal, Option.bind_some, eval_bind, eval_maybeFinishGraceful hopen]
    rfl
  refine ⟨_, htail.trans eval_endLoop, ?_, rfl⟩
  simp [outcome, readSideClosed, Session.close, hq.err]

lemma answer_rawRead (hlen : (st.reads.headD []).length ≤ cfg.readSize) :
    st.answer cfg c .rawRead =
      some ({ st with reads := st.reads.tail }, (st.reads.headD [], st.readErr)) := by
  simp only [answer, choice, Session.exec, readsAfter, delivers, List.take_of_length_le hlen,
    Option.map_some, List.append_nil]

lemma answer_setReadDeadline : st.answer cfg c .setReadDeadline = some (st, none) := by
  simp [answer, choice, Session.exec, readsAfter, delivers]

lemma eval_reader (hlen : (st.reads.headD []).length ≤ cfg.readSize) (pending : Bytes) :
    (Conn.reader cfg pending).eval (answer cfg c) st =
      (Conn.readerGot cfg pending (st.reads.headD []) st.readErr).eval (answer cfg c)
        { st with reads := st.reads.tail } := by
  have hdeadline (st : Inbound) :
      setReadDeadline.eval (answer cfg c) st = some (st, none) := by
    show (st.answer cfg c .setReadDeadline).bind _ = _
    rw [answer_setReadDeadline]
    rfl
  have hread : rawRead.eval (answer cfg c) st =
      some ({ st with reads := st.reads.tail }, (st.reads.headD [], st.readErr)) := by
    show (st.answer cfg c .rawRead).bind _ = _
    rw [answer_rawRead hlen]
    rfl
  rw [Conn.reader]
  split
  · rw [eval_bind, hdeadline, Option.bind_some]
    simp only
    rw [eval_bind, hread, Option.bind_some, eval_bind, hdeadline]
    rfl
  · rw [eval_bind, hread]
    rfl

/-! ### Decoding what has been read -/

/-- From `st` to `st'` the reader has delivered `ms` and done nothing else. -/
structure Gave (st : Inbound) (ms : List Message) (st' : Inbound) : Prop where
  quiet : st'.session.Quiet
  reads : st'.reads = st.reads
  eager : st'.eager = st.eager
  delivered : st'.delivered = st.delivered ++ ms

lemma Gave.trans {st' st'' : Inbound} {ms ms' : List Message} (h : st.Gave ms st')
    (h' : st'.Gave ms' st'') : st.Gave (ms ++ ms') st'' where
  quiet := h'.quiet
  reads := h'.reads.trans h.reads
  eager := h'.eager.trans h.eager
  delivered := by rw [h'.delivered, h.delivered, List.append_assoc]

lemma gave_nil (hq : st.session.Quiet) : st.Gave [] st := ⟨hq, rfl, rfl, (List.append_nil _).symm⟩

lemma lt_of_step {src : Bytes} {consumed : ℕ} (h : c.verdict (src.drop consumed) ≠ .need) :
    consumed < src.length := by
  refine Nat.not_le.mp fun hle => h ?_
  rw [List.drop_eq_nil_of_le hle]
  exact c.decoder.step_nil

lemma eval_decodeOne_error {src : Bytes} {e : WireError Err} (h : c.decodeOne src = .error e) :
    (decodeOne src).eval (answer cfg c) st = some (st, .error (.ofWire e)) := by
  have hanswer : st.answer cfg c (.decodeOne src) = some (st, .error (.ofWire e)) := by
    simp [answer, choice, h, Session.exec, readsAfter, delivers]
  show (st.answer cfg c (.decodeOne src)).bind _ = _
  rw [hanswer]
  rfl

lemma eval_decodeOne_ok {src : Bytes} {msg : Message} {n : ℕ} (h : c.decodeOne src = .ok (msg, n)) :
    (decodeOne src).eval (answer cfg c) st = some (st, .ok (msg, (n : ℤ))) := by
  have hanswer : st.answer cfg c (.decodeOne src) = some (st, .ok (msg, (n : ℤ))) := by
    simp [answer, choice, h, Session.exec, readsAfter, delivers]
  show (st.answer cfg c (.decodeOne src)).bind _ = _
  rw [hanswer]
  rfl

lemma eval_count (k : Counter) (n : ℕ) : (count k n).eval (answer cfg c) st =
    some ({ st with session := st.session.counted k n }, ()) := by
  show (st.answer cfg c (.count k n)).bind _ = _
  rw [answer_count]
  rfl

/-- The error of a frame that cannot be decoded. -/
def decodeError (cfg : SessionConfig) (e : WireError Err) : Err :=
  Conn.operationalError cfg .read (.wrap "transport: decode frame" (.ofWire e))
    (if cfg.wireFramer then .wireDecode else .none)

/-- A frame that cannot be decoded ends the reader. -/
lemma eval_decoding_fail (hq : st.session.Quiet) {pending : Bytes} {consumed : ℕ}
    {e : WireError Err} (h : c.verdict (pending.drop consumed) = .fail e) (readErr : Option Err) :
    ∃ st', (Conn.decoding cfg pending consumed readErr).eval (answer cfg c) st =
      some (st', .ret .unit) ∧ st'.outcome = some (.failed (decodeError cfg e)) ∧
        st'.delivered = st.delivered := by
  obtain ⟨hd, hne⟩ := Codec.decodeOne_of_fail h
  have hlt : consumed < pending.length := lt_of_step (by rw [h]; nofun)
  obtain ⟨st', hst', hout, hdel⟩ := @eval_failRead cfg c
    { st with session := st.session.counted .decodeErrors 1 } (hq.counted _ _)
    (.wrap "transport: decode frame" (.ofWire e)) (if cfg.wireFramer then .wireDecode else .none)
  refine ⟨st', ?_, hout, hdel⟩
  rw [Conn.decoding, if_pos hlt]
  show ((decodeOne (pending.drop consumed)) >>= _).eval _ _ = _
  rw [eval_bind, eval_decodeOne_error hd, Option.bind_some]
  simp only [hne]
  rw [if_neg (by decide), eval_bind, eval_count, Option.bind_some]
  exact hst'

/-- Bytes that need more end the round. -/
lemma eval_decoding_need {pending : Bytes} {consumed : ℕ}
    (h : c.verdict (pending.drop consumed) = .need) (readErr : Option Err) :
    (Conn.decoding cfg pending consumed readErr).eval (answer cfg c) st =
      (Conn.afterDecode cfg pending consumed readErr).eval (answer cfg c) st := by
  rw [Conn.decoding]
  split
  · obtain ⟨e, hd, hn⟩ := Codec.decodeOne_of_need h
    show ((decodeOne (pending.drop consumed)) >>= _).eval _ _ = _
    rw [eval_bind, eval_decodeOne_error hd, Option.bind_some]
    simp only [hn, if_true]
  · rfl

/-- A frame is delivered and the reader goes on behind it. -/
lemma eval_decoding_frame (hq : st.session.Quiet) {pending : Bytes} {consumed n : ℕ}
    {msg : Message} (h : c.verdict (pending.drop consumed) = .frame msg n)
    (readErr : Option Err) :
    ∃ st', (Conn.decoding cfg pending consumed readErr).eval (answer cfg c) st =
      some (st', .goto (.decoding pending (consumed + n) readErr)) ∧ st.Gave [msg] st' := by
  have hd := Codec.decodeOne_of_frame h
  obtain ⟨hpos, hle⟩ := c.decoder.frame_bounds h
  have hlt : consumed < pending.length := lt_of_step (by rw [h]; nofun)
  have hvalid : msg.validate = .ok () := by
    obtain ⟨hd, -, -, -, hp, -⟩ := Codec.decodeOne_eq_ok.mp hd
    obtain ⟨data, -, -, -, hv⟩ := Codec.decodePayload_eq_ok.mp hp
    exact hv
  have hbounds : ¬ ((n : ℤ) ≤ 0 ∨ ((pending.drop consumed).length : ℤ) < n) := by omega
  let counted : Session := (st.session.counted .bytesRX msg.data.length).counted .messagesRX 1
  let st' : Inbound := { st with session := counted, delivered := st.delivered ++ [msg] }
  have hq' : st'.session.Quiet := (hq.counted _ _).counted _ _
  have hbegin : (callBegin (.onMessage msg)).eval (answer cfg c) { st with session := counted } =
      some (st', ()) := by
    simp [callBegin, perform, answer, Session.exec, readsAfter, delivers, st']
  have hend : (callEnd (.onMessage msg)).eval (answer cfg c) st' = some (st', ()) := by
    simp [callEnd, perform, answer, Session.exec, readsAfter, delivers]
  refine ⟨st', ?_, hq', rfl, rfl, rfl⟩
  rw [Conn.decoding, if_pos hlt]
  show ((decodeOne (pending.drop consumed)) >>= _).eval _ _ = _
  rw [eval_bind, eval_decodeOne_ok hd, Option.bind_some]
  simp only [if_neg hbounds, hvalid]
  rw [eval_bind, eval_count, Option.bind_some, eval_bind, eval_count, Option.bind_some, eval_bind,
    hbegin, Option.bind_some, eval_bind, hend, Option.bind_some, eval_bind, eval_isClosing hq']
  rfl

/-- The inner loop delivers the frames at the front of what has been read and stops where the
framer needs more. -/
lemma decoding_blocked (hq : st.session.Quiet) {pending : Bytes} {consumed : ℕ} {ms : List Message}
    {rest : Bytes} (h : c.decoder.greedy (pending.drop consumed) = (ms, .blocked rest))
    (readErr : Option Err) :
    ∃ st' consumed', Prog.Leads (Conn.body cfg) (answer cfg c)
      (Conn.decoding cfg pending consumed readErr)
      st (Conn.afterDecode cfg pending consumed' readErr) st' ∧ pending.drop consumed' = rest ∧
        st.Gave ms st' := by
  induction hs : pending.drop consumed using c.decoder.frames_induction
    generalizing st consumed ms with
  | need xs hneed =>
    subst hs
    rw [Decoder.greedy_of_need hneed] at h
    cases h
    exact ⟨st, consumed, .of_eval (eval_decoding_need hneed readErr), rfl, gave_nil hq⟩
  | fail xs e hfail =>
    rw [hs, Decoder.greedy_of_fail hfail] at h
    cases h
  | frame xs m n hframe ih =>
    subst hs
    rw [Decoder.greedy_of_frame hframe, List.drop_drop] at h
    obtain ⟨rfl, hstop⟩ := Prod.mk.inj h
    obtain ⟨st₁, hst₁, hgave⟩ := @eval_decoding_frame cfg _ _ hq _ _ _ _ hframe readErr
    obtain ⟨st', consumed', hleads, hrest, hgave'⟩ :=
      ih hgave.quiet (Prod.ext rfl hstop) (List.drop_drop ..).symm
    exact ⟨st', consumed', (Prog.Leads.of_goto hst₁).trans hleads, hrest, hgave.trans hgave'⟩

/-- How the reader ends when the bytes run into a frame that cannot be decoded. -/
lemma decoding_failed (hq : st.session.Quiet) {pending : Bytes} {consumed : ℕ} {ms : List Message}
    {e : WireError Err} (h : c.decoder.greedy (pending.drop consumed) = (ms, .failed e))
    (readErr : Option Err) :
    ∃ n st',
      follow (Conn.body cfg) (answer cfg c) n (Conn.decoding cfg pending consumed readErr) st =
      some (st', .unit) ∧ st'.outcome = some (.failed (decodeError cfg e)) ∧
        st'.delivered = st.delivered ++ ms := by
  induction hs : pending.drop consumed using c.decoder.frames_induction
    generalizing st consumed ms with
  | need xs hneed =>
    rw [hs, Decoder.greedy_of_need hneed] at h
    cases h
  | fail xs e' hfail =>
    subst hs
    rw [Decoder.greedy_of_fail hfail] at h
    cases h
    obtain ⟨st', hst', hout, hdel⟩ := @eval_decoding_fail cfg _ _ hq _ _ _ hfail readErr
    exact ⟨0, st', follow_of_ret hst', hout, hdel.trans (List.append_nil _).symm⟩
  | frame xs m n hframe ih =>
    subst hs
    rw [Decoder.greedy_of_frame hframe, List.drop_drop] at h
    obtain ⟨rfl, hstop⟩ := Prod.mk.inj h
    obtain ⟨st₁, hst₁, hgave⟩ := @eval_decoding_frame cfg _ _ hq _ _ _ _ hframe readErr
    obtain ⟨k, st', hend, hout, hdel⟩ :=
      ih hgave.quiet (Prod.ext rfl hstop) (List.drop_drop ..).symm
    obtain ⟨k', hend'⟩ := (Prog.Leads.of_goto hst₁).ends_of ⟨k, hend⟩
    refine ⟨k', st', hend', hout, ?_⟩
    rw [hdel, hgave.delivered, List.append_assoc]
    rfl

/-! ### The whole stream -/

/-- The error of a read buffer that is full. -/
def bufferFull (cfg : SessionConfig) : Err :=
  Conn.operationalError cfg .read (.sentinel .readBufferFull) .none

/-- What the end of decoding the stream piece by piece means for the session. -/
def ending (cfg : SessionConfig) : End (WireError Err) → Outcome
  | .ended => .readClosed
  | .failed e => .failed (decodeError cfg e)
  | .overflow => .failed (bufferFull cfg)

/-- The run of the program `p` ends, with what `result` says. -/
def Ends (cfg : SessionConfig) (c : Codec Err) (p : SProg SNext) (st : Inbound)
    (result : List Message × End (WireError Err)) : Prop :=
  ∃ n st', follow (Conn.body cfg) (answer cfg c) n p st = some (st', .unit) ∧
    st'.outcome = some (ending cfg result.2) ∧ st'.delivered = st.delivered ++ result.1

lemma Ends.of_leads {p q : SProg SNext} {st' : Inbound} {ms : List Message}
    {result : List Message × End (WireError Err)}
    (hl : Prog.Leads (Conn.body cfg) (answer cfg c) p st q st')
    (hd : st'.delivered = st.delivered ++ ms) (h : Ends cfg c q st' result) :
    Ends cfg c p st (ms ++ result.1, result.2) := by
  obtain ⟨n, st'', hn, hout, hdel⟩ := h
  obtain ⟨k, hk⟩ := hl.ends_of ⟨n, hn⟩
  refine ⟨k, st'', hk, hout, ?_⟩
  rw [hdel, hd, List.append_assoc]

/-- The reads are what `Read` may return: not empty, and not longer than the buffer. -/
def Cut (cfg : SessionConfig) (reads : List Bytes) : Prop :=
  ∀ data ∈ reads, data ≠ [] ∧ data.length ≤ cfg.readSize

lemma readErr_cons {data : Bytes} {reads : List Bytes} (h : st.reads = data :: reads) :
    st.readErr = none ∨ st.readErr = some eof ∧ reads = [] := by
  rw [readErr, h, List.length_cons]
  split
  · rename_i hle
    have := Bool.toNat_le st.eager
    exact Or.inr ⟨rfl, List.length_eq_zero_iff.mp (by omega)⟩
  · exact Or.inl rfl

/-- A read that returns bytes leads to the inner loop. -/
lemma eval_reader_cons {data : Bytes} {reads : List Bytes} (h : st.reads = data :: reads)
    (hne : data ≠ []) (hlen : data.length ≤ cfg.readSize) (pending : Bytes) :
    (Conn.reader cfg pending).eval (answer cfg c) st =
      some ({ st with reads := reads }, .goto (.decoding (pending ++ data) 0 st.readErr)) := by
  rw [eval_reader (by rwa [h]), h, List.headD_cons, Conn.readerGot, if_neg hne]
  rcases readErr_cons h with he | ⟨he, -⟩ <;> rw [he] <;> rfl

/-- The read after the last bytes ends the reader. -/
lemma eval_reader_nil (hq : st.session.Quiet) (h : st.reads = []) (pending : Bytes) :
    ∃ st', (Conn.reader cfg pending).eval (answer cfg c) st = some (st', .ret .unit) ∧
      st'.outcome = some .readClosed ∧ st'.delivered = st.delivered := by
  obtain ⟨st', hst', hout, hdel⟩ := @eval_readerTail_eof cfg c { st with reads := [] } hq pending
  have herr : st.readErr = some eof := by simp [readErr, h]
  refine ⟨st', ?_, hout, hdel⟩
  rw [eval_reader (by simp [h]), herr, h]
  exact hst'

/-- The round ends with a rest that does not fit. -/
lemma eval_afterDecode_full (hq : st.session.Quiet) {pending : Bytes} {consumed : ℕ}
    (h : cfg.maxRead < (pending.drop consumed).length) (readErr : Option Err) :
    ∃ st', (Conn.afterDecode cfg pending consumed readErr).eval (answer cfg c) st =
      some (st', .ret .unit) ∧ st'.outcome = some (.failed (bufferFull cfg)) ∧
        st'.delivered = st.delivered := by
  obtain ⟨st', hst', hout, hdel⟩ := @eval_failRead cfg c
    { st with session := st.session.counted .decodeErrors 1 } (hq.counted _ _)
    (.sentinel .readBufferFull) .none
  refine ⟨st', ?_, hout, hdel⟩
  rw [Conn.afterDecode, if_pos h, eval_bind, eval_count]
  exact hst'

/-- The reader delivers what decoding the stream piece by piece gives. -/
lemma reader_ends {reads : List Bytes} (hcut : Cut cfg reads) (hq : st.session.Quiet)
    (hreads : st.reads = reads) (pending : Bytes) :
    Ends cfg c (Conn.reader cfg pending) st (c.decoder.feed cfg.maxRead pending reads) := by
  induction reads generalizing st pending with
  | nil =>
    obtain ⟨st', hst', hout, hdel⟩ := @eval_reader_nil cfg c st hq hreads pending
    exact ⟨0, st', follow_of_ret hst', hout, hdel.trans (List.append_nil _).symm⟩
  | cons data reads ih =>
    obtain ⟨⟨hne, hlen⟩, hcut⟩ := List.forall_mem_cons.mp hcut
    have hread := @eval_reader_cons cfg c st data reads hreads hne hlen pending
    suffices h : Ends cfg c (Conn.decoding cfg (pending ++ data) 0 st.readErr)
        { st with reads := reads } (c.decoder.feed cfg.maxRead pending (data :: reads)) from
      .of_leads (Prog.Leads.of_goto hread) (List.append_nil _).symm h
    rcases hg : c.decoder.greedy (pending ++ data) with ⟨ms, stop⟩
    cases stop with
    | failed e =>
      simp only [Decoder.feed, hg]
      exact @decoding_failed cfg c { st with reads := reads } hq _ 0 _ _ hg st.readErr
    | blocked rest =>
      obtain ⟨st', consumed, hleads, rfl, hgave⟩ :=
        @decoding_blocked cfg c { st with reads := reads } hq _ 0 _ _ hg st.readErr
      simp only [Decoder.feed, hg]
      split
      · rename_i hcap
        obtain ⟨st'', hst'', hout, hdel⟩ :=
          @eval_afterDecode_full cfg c st' hgave.quiet _ _ hcap st.readErr
        obtain ⟨n, hn⟩ := hleads.ends hst''
        exact ⟨n, st'', hn, hout, hdel.trans hgave.delivered⟩
      · rename_i hcap
        refine .of_leads hleads hgave.delivered ?_
        rw [Conn.afterDecode, if_neg hcap]
        rcases readErr_cons hreads with he | ⟨he, rfl⟩
        · have htail :=
            @eval_readerTail_none cfg c st' hgave.quiet ((pending ++ data).drop consumed)
          rw [he]
          refine .of_leads (Prog.Leads.of_goto htail) (List.append_nil _).symm ?_
          exact ih hcut hgave.quiet hgave.reads _
        · obtain ⟨st'', hst'', hout, hdel⟩ :=
            @eval_readerTail_eof cfg c st' hgave.quiet ((pending ++ data).drop consumed)
          rw [he]
          exact ⟨0, st'', follow_of_ret hst'', hout, hdel.trans (List.append_nil _).symm⟩

end Inbound

end Ogrenet
