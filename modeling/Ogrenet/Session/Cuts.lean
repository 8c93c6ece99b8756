import Ogrenet.Session.Inbound

/-!
# The cuts of an inbound stream

What `readerLoop` delivers and how it ends is what decoding the whole stream gives, however the
stream is cut into reads.
-/

namespace Ogrenet

open Interleaving Interleaving.Prog Ses Chunked

namespace Inbound

variable {cfg : SessionConfig} {c : Codec Err} {st : Inbound}

/-! ### Rounds after which the reader goes on -/

/-- The outer loop goes on with the bytes that it has read. -/
lemma reader_goesOn {pending : Bytes} {st' : Inbound} {l : SLabel} (hq : st.session.Quiet)
    (hcut : Cut cfg st.reads)
    (he : (Conn.reader cfg pending).eval (answer cfg c) st = some (st', .goto l)) :
    ∃ data reads, st.reads = data :: reads ∧ data.length ≤ cfg.readSize ∧ Cut cfg reads ∧
      st' = { st with reads } ∧ l = .decoding (pending ++ data) 0 st.readErr := by
  match hr : st.reads with
  | [] =>
    obtain ⟨st'', hst'', -⟩ := @eval_reader_nil cfg c st hq hr pending
    cases he.symm.trans hst''
  | data :: reads =>
    rw [hr] at hcut
    obtain ⟨⟨hne, hdata⟩, hreads⟩ := List.forall_mem_cons.mp hcut
    cases (eval_reader_cons hr hne hdata pending).symm.trans he
    exact ⟨data, reads, rfl, hdata, hreads, rfl, rfl⟩

/-- The inner loop goes on behind a frame, or leaves for more bytes. -/
lemma decoding_goesOn {pending : Bytes} {consumed : ℕ} {readErr : Option Err} {st' : Inbound}
    {l : SLabel} (hq : st.session.Quiet) (herr : readErr = none ∨ readErr = some eof)
    (he : (Conn.decoding cfg pending consumed readErr).eval (answer cfg c) st =
      some (st', .goto l)) :
    (∃ msg n, c.verdict (pending.drop consumed) = .frame msg n ∧ st.Gave [msg] st' ∧
        l = .decoding pending (consumed + n) readErr) ∨
      (c.verdict (pending.drop consumed) = .need ∧
        (pending.drop consumed).length ≤ cfg.maxRead ∧ st' = st ∧
        l = .reader (pending.drop consumed)) := by
  cases hv : c.verdict (pending.drop consumed) with
  | fail e =>
    obtain ⟨st'', hst'', -⟩ := @eval_decoding_fail cfg c st hq _ _ _ hv readErr
    cases he.symm.trans hst''
  | frame msg n =>
    obtain ⟨st'', hst'', hgave⟩ := @eval_decoding_frame cfg c st hq _ _ _ _ hv readErr
    cases he.symm.trans hst''
    exact Or.inl ⟨msg, n, rfl, hgave, rfl⟩
  | need =>
    rw [eval_decoding_need hv] at he
    by_cases hcap : cfg.maxRead < (pending.drop consumed).length
    · obtain ⟨st'', hst'', -⟩ := @eval_afterDecode_full cfg c st hq _ _ hcap readErr
      cases he.symm.trans hst''
    · rw [Conn.afterDecode, if_neg hcap] at he
      rcases herr with rfl | rfl
      · cases (eval_readerTail_none hq _).symm.trans he
        exact Or.inr ⟨rfl, Nat.not_lt.mp hcap, rfl, rfl⟩
      · obtain ⟨st'', hst'', -⟩ := @eval_readerTail_eof cfg c st hq (pending.drop consumed)
        cases he.symm.trans hst''

/-! ### The pending bytes -/

/-- The bytes that the reader has pending at a label. -/
def pendingAt : SLabel → Bytes
  | .reader pending => pending
  | .decoding pending _ _ => pending
  | _ => []

/-- What holds where the reader comes to a label. -/
def At (cfg : SessionConfig) (l : SLabel) (st : Inbound) : Prop :=
  st.session.Quiet ∧ Cut cfg st.reads ∧
    match l with
    | .reader pending => pending.length ≤ cfg.maxRead
    | .decoding pending _ readErr =>
      pending.length ≤ cfg.maxRead + cfg.readSize ∧ (readErr = none ∨ readErr = some eof)
    | _ => False

lemma At.reader {pending : Bytes} {st' : Inbound} {l : SLabel} (h : At cfg (.reader pending) st)
    (he : (Conn.reader cfg pending).eval (answer cfg c) st = some (st', .goto l)) :
    At cfg l st' := by
  obtain ⟨hq, hcut, hlen⟩ := h
  obtain ⟨data, reads, hr, hdata, hreads, rfl, rfl⟩ := reader_goesOn hq hcut he
  refine ⟨hq, hreads, ?_, ?_⟩
  · rw [List.length_append]
    omega
  · rcases readErr_cons hr with herr | ⟨herr, -⟩
    · exact Or.inl herr
    · exact Or.inr herr

lemma At.decoding {pending : Bytes} {consumed : ℕ} {readErr : Option Err} {st' : Inbound}
    {l : SLabel} (h : At cfg (.decoding pending consumed readErr) st)
    (he : (Conn.decoding cfg pending consumed readErr).eval (answer cfg c) st =
      some (st', .goto l)) : At cfg l st' := by
  obtain ⟨hq, hcut, hlen, herr⟩ := h
  rcases decoding_goesOn hq herr he with ⟨msg, n, -, hgave, rfl⟩ | ⟨-, hcap, rfl, rfl⟩
  · exact ⟨hgave.quiet, hgave.reads ▸ hcut, hlen, herr⟩
  · exact ⟨hq, hcut, hcap⟩

lemma start_quiet (reads : List Bytes) (eager : Bool) : (start cfg reads eager).session.Quiet :=
  ⟨rfl, rfl, rfl, rfl, rfl⟩

lemma eval_readerLoop (hq : st.session.Quiet) :
    Conn.readerLoop.eval (answer cfg c) st = some (st, .goto (.reader [])) := by
  have hbegin : (callBegin .onOpen).eval (answer cfg c) st = some (st, ()) := by
    simp [callBegin, perform, answer, Session.exec, readsAfter, delivers]
  have hend : (callEnd .onOpen).eval (answer cfg c) st = some (st, ()) := by
    simp [callEnd, perform, answer, Session.exec, readsAfter, delivers]
  rw [Conn.readerLoop, eval_bind, hbegin, Option.bind_some, eval_bind, hend, Option.bind_some,
    eval_bind, eval_isClosing hq]
  rfl

/-- The pending bytes stay bounded. -/
lemma pending_le {reads : List Bytes} (hcut : Cut cfg reads) {eager : Bool} {l : SLabel}
    (h : Visits (Conn.body cfg) (answer cfg c) Conn.readerLoop (start cfg reads eager) l st) :
    (pendingAt l).length ≤ cfg.maxRead + cfg.readSize := by
  have hat : At cfg l st := by
    refine h.invariant (P := At cfg) ?_ ?_
    · intro st' l' he
      cases (eval_readerLoop (start_quiet reads eager)).symm.trans he
      exact ⟨start_quiet reads eager, hcut, Nat.zero_le _⟩
    · intro l st st' l' hl he
      cases l with
      | reader pending => exact At.reader hl he
      | decoding pending consumed readErr => exact At.decoding hl he
      | _ => exact hl.2.2.elim
  obtain ⟨-, -, hlen⟩ := hat
  cases l with
  | reader pending => exact Nat.le_trans hlen (Nat.le_add_right _ _)
  | decoding pending consumed readErr => exact hlen.1
  | _ => exact hlen.elim

/-! ### Any cut of a stream -/

/-- The reads cut the stream. -/
structure CutOf (cfg : SessionConfig) (stream : Bytes) (reads : List Bytes) : Prop where
  cut : Cut cfg reads
  flatten : reads.flatten = stream

/-- The run of `readerLoop` on the reads ends in `st`. -/
def Finishes (cfg : SessionConfig) (c : Codec Err) (reads : List Bytes) (eager : Bool)
    (st : Inbound) : Prop :=
  ∃ n, follow (Conn.body cfg) (answer cfg c) n Conn.readerLoop (start cfg reads eager) =
    some (st, .unit)

/-- The session has failed with `ErrReadBufferFull`. -/
def Overran (cfg : SessionConfig) (st : Inbound) : Prop :=
  st.outcome = some (.failed (bufferFull cfg))

/-- The messages and the outcome of applying `DecodeOne` greedily to the whole stream. -/
def whole (cfg : SessionConfig) (c : Codec Err) (stream : Bytes) : List Message × Outcome :=
  ((c.decoder.greedy stream).1, ending cfg (c.decoder.greedy stream).2.toEnd)

lemma readerLoop_ends {reads : List Bytes} (hcut : Cut cfg reads) (eager : Bool) :
    Ends cfg c Conn.readerLoop (start cfg reads eager) (c.decoder.feed cfg.maxRead [] reads) :=
  .of_leads (Prog.Leads.of_goto (eval_readerLoop (start_quiet reads eager))) rfl
    (reader_ends hcut (start_quiet reads eager) rfl [])

/-- How a run has ended. -/
lemma Finishes.result {reads : List Bytes} (hcut : Cut cfg reads) {eager : Bool}
    (h : Finishes cfg c reads eager st) :
    st.outcome = some (ending cfg (c.decoder.feed cfg.maxRead [] reads).2) ∧
      st.delivered = (c.decoder.feed cfg.maxRead [] reads).1 := by
  obtain ⟨n, hn⟩ := h
  obtain ⟨m, st', hm, hout, hdel⟩ := @readerLoop_ends cfg c reads hcut eager
  obtain ⟨rfl, -⟩ := Prod.mk.inj (follow_unique hn hm)
  exact ⟨hout, hdel⟩

/-- A run that the buffer does not stop gives what the whole stream gives. -/
lemma Finishes.eq_whole {stream : Bytes} {reads : List Bytes} (hcut : CutOf cfg stream reads)
    {eager : Bool} (h : Finishes cfg c reads eager st) (hne : ¬ Overran cfg st) :
    st.delivered = (whole cfg c stream).1 ∧ st.outcome = some (whole cfg c stream).2 := by
  obtain ⟨hout, hdel⟩ := h.result hcut.cut
  have hfeed : (c.decoder.feed cfg.maxRead [] reads).2 ≠ .overflow := by
    intro hfull
    rw [hfull] at hout
    exact hne hout
  have heq := Decoder.feed_eq_greedy c.decoder.step_nil hfeed
  rw [List.nil_append, hcut.flatten] at heq
  rw [heq] at hout hdel
  exact ⟨hdel, hout⟩

lemma decodeError_ne_bufferFull (e : WireError Err) : decodeError cfg e ≠ bufferFull cfg := by
  have hfull : ∃ envelope category,
      bufferFull cfg =
        .operational envelope (.categorizedCause category (.sentinel .readBufferFull)) :=
    ⟨_, _, rfl⟩
  obtain ⟨envelope, category, hfull⟩ := hfull
  have hdecode : Err.Classified (.wrap "transport: decode frame" (.ofWire e)) (decodeError cfg e) :=
    classifyOperational_classified
  rw [hfull]
  rcases hdecode with ⟨-, h⟩ | ⟨envelope', h | ⟨category', h⟩⟩ <;> rw [h] <;> nofun

/-- The session fails with `ErrReadBufferFull` exactly when the reads overflow the buffer. -/
lemma Finishes.overran_iff {reads : List Bytes} (hcut : Cut cfg reads) {eager : Bool}
    (h : Finishes cfg c reads eager st) :
    Overran cfg st ↔ (c.decoder.feed cfg.maxRead [] reads).2 = .overflow := by
  have hout := (h.result hcut).1
  rw [Overran, hout]
  cases (c.decoder.feed cfg.maxRead [] reads).2 with
  | ended => exact ⟨nofun, nofun⟩
  | failed e =>
    refine ⟨fun hfull => ?_, nofun⟩
    exact absurd (Outcome.failed.inj (Option.some.inj hfull)) (decodeError_ne_bufferFull e)
  | overflow => exact ⟨fun _ => rfl, fun _ => rfl⟩

end Inbound

open Inbound in
/-- Inbound decoding does not depend on how the stream is cut into reads. -/
theorem inbound_independent_of_cuts (cfg : SessionConfig) (c : Codec Err) (stream : Bytes) :
    -- every run ends
    (∀ reads eager, CutOf cfg stream reads → ∃ st, Finishes cfg c reads eager st) ∧
    -- runs that the read buffer does not stop agree with each other and with the whole stream
    (∀ reads eager st reads' eager' st', CutOf cfg stream reads → CutOf cfg stream reads' →
      Finishes cfg c reads eager st → Finishes cfg c reads' eager' st' →
      ¬ Overran cfg st → ¬ Overran cfg st' →
        st.delivered = st'.delivered ∧ st.outcome = st'.outcome ∧
          st.delivered = (whole cfg c stream).1 ∧ st.outcome = some (whole cfg c stream).2) ∧
    -- the read buffer stops no run when every announced frame fits
    (Wire.headerSize ≤ cfg.maxRead → c.KeepsNeedMore →
      (∀ h, c.Announced stream h → h.total ≤ cfg.maxRead) →
        ∀ reads eager st, CutOf cfg stream reads → Finishes cfg c reads eager st →
          ¬ Overran cfg st) ∧
    -- the pending bytes stay bounded
    (∀ reads eager l st, CutOf cfg stream reads →
      Visits (Conn.body cfg) (answer cfg c) Conn.readerLoop (start cfg reads eager) l st →
        (pendingAt l).length ≤ cfg.maxRead + cfg.readSize) := by
  refine ⟨?_, ?_, ?_, ?_⟩
  · intro reads eager hcut
    obtain ⟨n, st, hn, -⟩ := @readerLoop_ends cfg c reads hcut.cut eager
    exact ⟨st, n, hn⟩
  · intro reads eager st reads' eager' st' hcut hcut' h h' hne hne'
    obtain ⟨hdel, hout⟩ := h.eq_whole hcut hne
    obtain ⟨hdel', hout'⟩ := h'.eq_whole hcut' hne'
    exact ⟨hdel.trans hdel'.symm, hout.trans hout'.symm, hdel, hout⟩
  · intro hcap hk hs reads eager st hcut h
    rw [h.overran_iff hcut.cut]
    apply Decoder.feed_ne_overflow
    rw [List.nil_append, hcut.flatten]
    exact Codec.fits_of_announced hk hcap hs
  · intro reads eager l st hcut h
    exact pending_le hcut.cut h

/-- A cipher whose `Open` answers every ciphertext with `wire.ErrNeedMore`. -/
def needMoreCipher : Cipher Err where
  algorithm := 1
  sealBytes _ _ := .error (.sentinel .needMore)
  openBytes _ := .error (.sentinel .needMore)
  authenticated := none

open Inbound in
/-- A whole encrypted frame of ten bytes that such a cipher opens, and one byte after it: the reader
keeps the frame as if it were not complete, and a buffer of ten bytes is full. -/
theorem readBufferFull_of_needMoreCipher :
    ∃ (c : Codec Err) (cfg : SessionConfig) (stream : Bytes), c.cipher = some needMoreCipher ∧
      Wire.headerSize ≤ cfg.maxRead ∧ (∀ h, c.Announced stream h → h.total ≤ cfg.maxRead) ∧
      ∃ st, CutOf cfg stream [stream] ∧ Finishes cfg c [stream] true st ∧ Overran cfg st := by
  let c : Codec Err := { cipher := some needMoreCipher }
  let cfg : SessionConfig := { SessionConfig.small with maxRead := 10 }
  let stream : Bytes := [0x4f, 0x47, 1, 2, 0, 1, 0, 0, 0, 0, 0]
  have hcut : CutOf cfg stream [stream] := ⟨by unfold Cut; decide, rfl⟩
  have hneed : c.decoder.step stream = .need := by decide
  refine ⟨c, cfg, stream, rfl, Nat.le_refl _, ?_, ?_⟩
  · -- no frame is decoded, so the one announced is the first
    rintro h ⟨-, rest, hafter, hread⟩
    cases hafter with
    | refl =>
      have hheader : Header.read stream = some ⟨0x4f47, 1, 2, 1, 0⟩ := rfl
      cases hheader.symm.trans hread
      exact Nat.le_refl 10
    | frame hframe _ => cases hneed.symm.trans hframe
  · obtain ⟨n, st, hn, -⟩ := @readerLoop_ends cfg c [stream] hcut.cut true
    have hfinishes : Finishes cfg c [stream] true st := ⟨n, hn⟩
    exact ⟨st, hcut, hfinishes, (hfinishes.overran_iff hcut.cut).mpr (by decide)⟩

/-- A frame cut inside its header and inside its payload. -/
example : (follow (Conn.body .small) (Inbound.answer .small {}) 10 Conn.readerLoop
    (Inbound.start .small [[0x4f, 0x47, 1, 0], [0, 0, 0, 0, 0, 2, 104], [105]] true)).map
      (fun a => (a.1.delivered, a.1.outcome)) =
    some ([⟨.binary, [104, 105]⟩], some .readClosed) := by decide

end Ogrenet
