import Ogrenet.Session.Cuts

/-!
# The end of an inbound stream

Whether EOF between two frames and EOF inside a frame look different to `readerLoop`. The reader
does not look at its pending bytes when the stream ends, so it closes the read side cleanly in both
cases.
-/

namespace Ogrenet

open Interleaving Interleaving.Prog Chunked

namespace Inbound

variable {cfg : SessionConfig} {c : Codec Err} {st : Inbound} {stream : Bytes}

/-- Where the reader stands in the stream when it comes to a label. -/
def Stands (c : Codec Err) (stream : Bytes) (l : SLabel) (st : Inbound) : Prop :=
  match l with
  | .reader pending =>
    c.decoder.After stream (pending ++ st.reads.flatten) ∧ c.verdict pending = .need
  | .decoding pending consumed readErr =>
    c.decoder.After stream (pending.drop consumed ++ st.reads.flatten) ∧
      (readErr = some eof → st.reads = [])
  | _ => False

lemma Stands.reader {pending : Bytes} {st' : Inbound} {l : SLabel}
    (hat : At cfg (.reader pending) st) (h : Stands c stream (.reader pending) st)
    (he : (Conn.reader cfg pending).eval (answer cfg c) st = some (st', .goto l)) :
    Stands c stream l st' := by
  obtain ⟨hq, hcut, -⟩ := hat
  obtain ⟨data, reads, hr, -, -, rfl, rfl⟩ := reader_goesOn hq hcut he
  obtain ⟨hafter, -⟩ := h
  rw [hr, List.flatten_cons, ← List.append_assoc] at hafter
  constructor
  · exact hafter
  · intro herr
    rcases readErr_cons hr with hnone | ⟨-, hlast⟩
    · cases hnone.symm.trans herr
    · exact hlast

lemma Stands.decoding {pending : Bytes} {consumed : ℕ} {readErr : Option Err} {st' : Inbound}
    {l : SLabel} (hat : At cfg (.decoding pending consumed readErr) st)
    (h : Stands c stream (.decoding pending consumed readErr) st)
    (he : (Conn.decoding cfg pending consumed readErr).eval (answer cfg c) st =
      some (st', .goto l)) : Stands c stream l st' := by
  obtain ⟨hq, -, -, herr⟩ := hat
  obtain ⟨hafter, hlast⟩ := h
  rcases decoding_goesOn hq herr he with ⟨msg, n, hv, hgave, rfl⟩ | ⟨hv, -, rfl, rfl⟩
  · constructor
    · have hstep := c.decoder.frame_append st.reads.flatten hv
      have hdrop : (pending.drop consumed ++ st.reads.flatten).drop n =
          pending.drop (consumed + n) ++ st.reads.flatten := by
        rw [List.drop_append_of_le_length (c.decoder.frame_bounds hv).2, List.drop_drop]
      rw [hgave.reads, ← hdrop]
      exact hafter.trans (.frame hstep (.refl _))
    · rwa [hgave.reads]
  · exact ⟨hafter, hv⟩

lemma stands_of_visits {reads : List Bytes} (hcut : CutOf cfg stream reads) {eager : Bool}
    {l : SLabel}
    (h : Visits (Conn.body cfg) (answer cfg c) Conn.readerLoop (start cfg reads eager) l st) :
    Stands c stream l st := by
  have hboth : At cfg l st ∧ Stands c stream l st := by
    refine h.invariant (P := fun l st => At cfg l st ∧ Stands c stream l st) ?_ ?_
    · intro st' l' he
      cases (eval_readerLoop (start_quiet reads eager)).symm.trans he
      refine ⟨⟨start_quiet reads eager, hcut.cut, Nat.zero_le _⟩, ?_, rfl⟩
      rw [List.nil_append, ← hcut.flatten]
      exact .refl _
    · intro l st st' l' hl he
      obtain ⟨hat, hstands⟩ := hl
      cases l with
      | reader pending => exact ⟨hat.reader he, hstands.reader hat he⟩
      | decoding pending consumed readErr => exact ⟨hat.decoding he, hstands.decoding hat he⟩
      | _ => exact hstands.elim
  exact hboth.2

/-- EOF reaches the reader while bytes of an incomplete frame are pending: by itself, or with the
last bytes of the stream. -/
def EofInside (cfg : SessionConfig) (c : Codec Err) (reads : List Bytes) (eager : Bool) : Prop :=
  ∃ l st, Visits (Conn.body cfg) (answer cfg c) Conn.readerLoop (start cfg reads eager) l st ∧
    match l with
    | .reader pending => st.reads = [] ∧ pending ≠ []
    | .decoding pending consumed readErr =>
      readErr = some eof ∧ pending.drop consumed ≠ [] ∧ c.verdict (pending.drop consumed) = .need
    | _ => False

lemma EofInside.truncated {reads : List Bytes} (hcut : CutOf cfg stream reads) {eager : Bool}
    (h : EofInside cfg c reads eager) : c.decoder.Truncated stream := by
  obtain ⟨l, st, hvisits, hl⟩ := h
  have hstands := stands_of_visits hcut hvisits
  cases l with
  | reader pending =>
    obtain ⟨hreads, hne⟩ := hl
    obtain ⟨hafter, hneed⟩ := hstands
    rw [hreads, List.flatten_nil, List.append_nil] at hafter
    exact ⟨pending, hne, hafter, hneed⟩
  | decoding pending consumed readErr =>
    obtain ⟨herr, hne, hneed⟩ := hl
    obtain ⟨hafter, hlast⟩ := hstands
    rw [hlast herr, List.flatten_nil, List.append_nil] at hafter
    exact ⟨_, hne, hafter, hneed⟩
  | _ => exact hl.elim

/-- A run ends with a closed read side only where decoding the whole stream waits for more. -/
lemma Finishes.blocked_of_readClosed {reads : List Bytes} (hcut : CutOf cfg stream reads)
    {eager : Bool} (h : Finishes cfg c reads eager st) (hout : st.outcome = some .readClosed) :
    ∃ ms rest, c.decoder.greedy stream = (ms, .blocked rest) := by
  have hne : ¬ Overran cfg st := by
    intro hfull
    cases hout.symm.trans hfull
  have hwhole := (h.eq_whole hcut hne).2.symm.trans hout
  rcases hg : c.decoder.greedy stream with ⟨ms, stop⟩
  cases stop with
  | blocked rest => exact ⟨ms, rest, rfl⟩
  | failed e =>
    rw [whole, hg] at hwhole
    cases hwhole

/-- A truncated stream that fits the buffer ends as if it were whole. -/
lemma Finishes.readClosed_of_truncated {reads : List Bytes} (hcut : CutOf cfg stream reads)
    {eager : Bool} (h : Finishes cfg c reads eager st) (ht : c.decoder.Truncated stream)
    (hne : ¬ Overran cfg st) : st.outcome = some .readClosed := by
  obtain ⟨ms, rest, hg, -⟩ := ht.blocked
  have hout := (h.eq_whole hcut hne).2
  rwa [whole, hg] at hout

lemma err_of_readClosed (h : st.outcome = some .readClosed) : st.session.err = none := by
  unfold outcome at h
  split at h
  · cases h
  · assumption

lemma err_of_overran (h : Overran cfg st) : st.session.err = some (bufferFull cfg) := by
  unfold Overran outcome at h
  split at h
  · rename_i e he
    rw [he, Outcome.failed.inj (Option.some.inj h)]
  · split at h <;> cases h

end Inbound

open Inbound in
/-- EOF inside a frame is reported, and EOF closes the read side cleanly only after whole frames,
exactly when the stream is not truncated or the reads overflow the read buffer before its end. -/
theorem eof_inside_frame_reported_iff (cfg : SessionConfig) (c : Codec Err) (stream : Bytes)
    (reads : List Bytes) (eager : Bool) (st : Inbound) (hcut : CutOf cfg stream reads)
    (h : Finishes cfg c reads eager st) :
    ((EofInside cfg c reads eager → st.session.err ≠ none) ∧
      (st.outcome = some .readClosed → c.decoder.Whole stream)) ↔
    (c.decoder.Truncated stream → (c.decoder.feed cfg.maxRead [] reads).2 = .overflow) := by
  rw [← h.overran_iff hcut.cut]
  constructor
  · rintro ⟨-, hwhole⟩ ht
    by_contra hne
    exact ht.not_whole (hwhole (h.readClosed_of_truncated hcut ht hne))
  · intro hcond
    constructor
    · intro hinside hnone
      have hfull := hcond (hinside.truncated hcut)
      rw [err_of_overran hfull] at hnone
      cases hnone
    · intro hout
      obtain ⟨ms, rest, hg⟩ := h.blocked_of_readClosed hcut hout
      by_cases hrest : rest = []
      · rw [hrest] at hg
        exact Decoder.whole_of_blocked hg
      · have hfull := hcond (Decoder.truncated_of_blocked hg hrest)
        cases hout.symm.trans hfull

open Inbound in
/-- The stream of a whole frame. -/
theorem eof_inside_frame_reported_iff_whole :
    ∃ st, CutOf .small [0x4f, 0x47, 1, 0, 0, 0, 0, 0, 0, 0]
        [[0x4f, 0x47, 1, 0, 0, 0], [0, 0, 0, 0]] ∧
      Finishes .small {} [[0x4f, 0x47, 1, 0, 0, 0], [0, 0, 0, 0]] true st ∧
      (((EofInside .small {} [[0x4f, 0x47, 1, 0, 0, 0], [0, 0, 0, 0]] true →
          st.session.err ≠ none) ∧
        (st.outcome = some .readClosed →
          Decoder.Whole (Codec.decoder {}) [0x4f, 0x47, 1, 0, 0, 0, 0, 0, 0, 0])) ↔
      (Decoder.Truncated (Codec.decoder {}) [0x4f, 0x47, 1, 0, 0, 0, 0, 0, 0, 0] →
        (Decoder.feed (Codec.decoder {}) SessionConfig.small.maxRead []
          [[0x4f, 0x47, 1, 0, 0, 0], [0, 0, 0, 0]]).2 = .overflow)) := by
  have hcut : CutOf .small [0x4f, 0x47, 1, 0, 0, 0, 0, 0, 0, 0]
      [[0x4f, 0x47, 1, 0, 0, 0], [0, 0, 0, 0]] := ⟨by unfold Cut; decide, rfl⟩
  obtain ⟨n, st, hn, -⟩ := @readerLoop_ends .small {} _ hcut.cut true
  exact ⟨st, hcut, ⟨n, hn⟩, eof_inside_frame_reported_iff .small {} _ _ true st hcut ⟨n, hn⟩⟩

open Inbound in
/-- The peer sends the header of a frame of two bytes, one of them, and EOF. The reader ends without
an error. -/
theorem eof_inside_frame_unreported :
    EofInside .small {} [[0x4f, 0x47, 1, 0, 0, 0], [0, 0, 0, 2, 104]] false ∧
      ∃ st, Finishes .small {} [[0x4f, 0x47, 1, 0, 0, 0], [0, 0, 0, 2, 104]] false st ∧
        st.session.err = none ∧ st.outcome = some .readClosed ∧ st.delivered = [] := by
  constructor
  · refine ⟨.reader [0x4f, 0x47, 1, 0, 0, 0, 0, 0, 0, 2, 104], _,
      .next rfl (.next rfl (.next rfl (.next rfl (.here rfl)))), rfl, by decide⟩
  · have hcut : Cut .small [[0x4f, 0x47, 1, 0, 0, 0], [0, 0, 0, 2, 104]] := by
      unfold Cut
      decide
    obtain ⟨n, st, hn, hout, hdel⟩ := @readerLoop_ends .small {} _ hcut false
    have hclosed : st.outcome = some .readClosed := hout.trans (by decide)
    exact ⟨st, ⟨n, hn⟩, err_of_readClosed hclosed, hclosed, hdel.trans (by decide)⟩

end Ogrenet
