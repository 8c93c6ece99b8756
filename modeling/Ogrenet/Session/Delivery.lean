import Ogrenet.Engine.Options
import Ogrenet.Session.Cuts
import Ogrenet.Wire.Grammar

/-!
# What one session sends and its peer accepts

A frame that `Send` admits, in the reads of the peer's `readerLoop`. The options check the limits of
the sender (`WithMaxMessageBytes`, `WithMaxQueuedBytes`) and the limit of the receiver
(`WithMaxBufferedRead`) apart from each other, so a frame may be admitted that the read buffer of
the peer does not hold.
-/

namespace Ogrenet

open Interleaving Interleaving.Prog Chunked

/-- `New` accepts the options, and the streams of the Engine use the default codec `c`. -/
structure Adopts (opts : List (Option EngineOption)) (config : Config) (c : Codec Err) : Prop where
  new : newConfig opts = .ok config
  default : config.framerFactory = none
  framer : config.newFramer = .ok (.codec c)

/-- `Send` admits the message: `Encode` gives the frame, and the frame is within the session's
budget and the Engine's. -/
structure Admits (cfg : SessionConfig) (c : Codec Err) (rnd : Bytes) (msg : Message)
    (frame : Bytes) : Prop where
  encoded : c.encode rnd msg = .ok frame
  budget : frame.length ≤ cfg.maxQueuedBytes
  total : cfg.maxQueuedBytesTotal ≠ 0 → frame.length ≤ cfg.maxQueuedBytesTotal

namespace Inbound

variable {cfg : SessionConfig} {c : Codec Err} {rnd frame : Bytes} {msg : Message}

/-- The peer's reader delivers the message, and the session does not fail. -/
def Delivers (cfg : SessionConfig) (c : Codec Err) (reads : List Bytes) (eager : Bool)
    (msg : Message) : Prop :=
  ∃ st, Finishes cfg c reads eager st ∧ st.delivered = [msg] ∧ st.outcome = some .readClosed

lemma frame_ne_nil (h : c.encode rnd msg = .ok frame) : frame ≠ [] := by
  obtain ⟨hdr, payload, -, rfl⟩ := Codec.of_encode_eq_ok h
  apply List.ne_nil_of_length_pos
  rw [List.length_append, hdr.length_bytes]
  exact Nat.add_pos_left (by decide) _

/-- How the reads of one encoded frame are decoded. -/
lemma feed_encoded (hc : ∀ cipher, c.cipher = some cipher → cipher.Inverts)
    (h : c.encode rnd msg = .ok frame) {reads : List Bytes} (hcut : CutOf cfg frame reads) :
    c.decoder.feed cfg.maxRead [] reads =
      if cfg.maxRead < reads.dropLast.flatten.length then ([], .overflow)
      else ([msg], .ended) := by
  have hframe : c.verdict frame = .frame msg frame.length := by
    have hone := Codec.decodeOne_encode hc h []
    rw [List.append_nil] at hone
    rw [Codec.verdict, hone]
  have hneed : ∀ front back, back ≠ [] → frame = front ++ back → c.verdict front = .need := by
    intro front back hback hsplit
    rw [hsplit] at h
    rw [Codec.verdict, Codec.decodeOne_front h hback]
    rfl
  have hreads : reads ≠ [] := by
    intro hnil
    apply frame_ne_nil h
    rw [← hcut.flatten, hnil, List.flatten_nil]
  have hpieces : ∀ data ∈ reads, data ≠ [] := fun data hd => (hcut.cut data hd).1
  exact Decoder.feed_of_frame hframe hneed hpieces hreads hcut.flatten.symm (Nat.zero_le _)

/-- A cut of the frame is delivered when the reads before the last one fit the read buffer. -/
lemma delivers_iff (hc : ∀ cipher, c.cipher = some cipher → cipher.Inverts)
    (h : c.encode rnd msg = .ok frame) {reads : List Bytes} (hcut : CutOf cfg frame reads)
    (eager : Bool) :
    Delivers cfg c reads eager msg ↔ reads.dropLast.flatten.length ≤ cfg.maxRead := by
  have hfeed := feed_encoded hc h hcut
  constructor
  · rintro ⟨st, hfin, hdel, -⟩
    by_contra hfull
    rw [if_pos (Nat.not_le.mp hfull)] at hfeed
    rw [(hfin.result hcut.cut).2, hfeed] at hdel
    cases hdel
  · intro hfits
    rw [if_neg (Nat.not_lt.mpr hfits)] at hfeed
    obtain ⟨n, st, hn, hout, hdel⟩ := @readerLoop_ends cfg c reads hcut.cut eager
    rw [hfeed] at hout hdel
    exact ⟨st, ⟨n, hn⟩, hdel, hout⟩

/-- A stream in reads of one byte. -/
lemma cutOf_singletons (hsize : 0 < cfg.readSize) (stream : Bytes) :
    CutOf cfg stream (stream.map fun b => [b]) := by
  constructor
  · intro data hd
    obtain ⟨b, -, rfl⟩ := List.mem_map.mp hd
    exact ⟨List.cons_ne_nil b [], hsize⟩
  · exact List.flatMap_singleton' stream

lemma length_dropLast_singletons (stream : Bytes) :
    (stream.map fun b => [b]).dropLast.flatten.length = stream.length - 1 := by
  have hflat : (stream.dropLast.map fun b => [b]).flatten = stream.dropLast :=
    List.flatMap_singleton' _
  rw [← List.map_dropLast, hflat, List.length_dropLast]

/-- The reads before the last one lack at least a byte of the frame. -/
lemma CutOf.length_dropLast_lt {reads : List Bytes} (hcut : CutOf cfg frame reads)
    (hne : frame ≠ []) : reads.dropLast.flatten.length < frame.length := by
  have hreads : reads ≠ [] := by
    intro hnil
    apply hne
    rw [← hcut.flatten, hnil, List.flatten_nil]
  have hlast := (hcut.cut _ (List.getLast_mem hreads)).1
  have hpos := List.length_pos_iff.mpr hlast
  have hsum : frame.length = reads.dropLast.flatten.length + (reads.getLast hreads).length := by
    rw [← hcut.flatten]
    conv_lhs => rw [← List.dropLast_concat_getLast hreads]
    simp
  omega

end Inbound

open Inbound in
/-- A message that `Send` admits reaches the handler of an equally configured peer, however its
frame is cut into reads, exactly when the frame without its last byte fits the peer's read
buffer. -/
theorem admitted_delivered_iff (opts : List (Option EngineOption)) (config : Config) (c : Codec Err)
    (hadopts : Adopts opts config c)
    (hcipher : ∀ cipher, c.cipher = some cipher → cipher.Inverts) (site : Site)
    (tls halfClose : Bool) (rnd frame : Bytes) (msg : Message)
    (hsend : Admits (config.adoptStream site tls halfClose) c rnd msg frame) :
    (∀ reads eager, CutOf (config.adoptStream site tls halfClose) frame reads →
      Delivers (config.adoptStream site tls halfClose) c reads eager msg) ↔
    frame.length ≤ config.maxBufferedRead + 1 := by
  have hvalid := Config.valid_of_newConfig hadopts.new
  have hmax : ((config.adoptStream site tls halfClose).maxRead : ℤ) = config.maxBufferedRead :=
    Int.toNat_of_nonneg (Int.le_of_lt hvalid.maxBufferedRead)
  have hsize : 0 < (config.adoptStream site tls halfClose).readSize :=
    Int.pos_iff_toNat_pos.mp hvalid.readBuffer
  constructor
  · intro hall
    have hcut := cutOf_singletons hsize frame
    have hfits := (delivers_iff hcipher hsend.encoded hcut false).mp (hall _ false hcut)
    rw [length_dropLast_singletons] at hfits
    omega
  · intro hlen reads eager hcut
    apply (delivers_iff hcipher hsend.encoded hcut eager).mpr
    have := hcut.length_dropLast_lt (frame_ne_nil hsend.encoded)
    omega

/-- The default codec of the default configuration. -/
def defaultCodec : Codec Err := { maxPayloadField := 16777216 }

lemma adopts_default : Adopts [] defaultConfig defaultCodec :=
  ⟨rfl, rfl, rfl⟩

open Inbound in
/-- Two bytes between peers with the default options. -/
theorem admitted_delivered_iff_default :
    Admits (defaultConfig.adoptStream ⟨.tcp, none, none⟩ false true) defaultCodec []
        ⟨.binary, [104, 105]⟩ [0x4f, 0x47, 1, 0, 0, 0, 0, 0, 0, 2, 104, 105] ∧
      ∀ reads eager, CutOf (defaultConfig.adoptStream ⟨.tcp, none, none⟩ false true)
          [0x4f, 0x47, 1, 0, 0, 0, 0, 0, 0, 2, 104, 105] reads →
        Delivers (defaultConfig.adoptStream ⟨.tcp, none, none⟩ false true) defaultCodec reads eager
          ⟨.binary, [104, 105]⟩ := by
  have hsend : Admits (defaultConfig.adoptStream ⟨.tcp, none, none⟩ false true) defaultCodec []
      ⟨.binary, [104, 105]⟩ [0x4f, 0x47, 1, 0, 0, 0, 0, 0, 0, 2, 104, 105] :=
    ⟨by decide, by decide, by decide⟩
  exact ⟨hsend, (admitted_delivered_iff [] defaultConfig defaultCodec adopts_default nofun
    _ _ _ _ _ _ hsend).mpr (by decide)⟩

/-- The default options with a read buffer of eleven bytes. -/
def tightConfig : Config := { defaultConfig with maxBufferedRead := 11 }

open Inbound in
/-- A message of three bytes is admitted, and ends the session of the peer when twelve of the
thirteen bytes of its frame arrive before the last one. -/
theorem admitted_not_delivered :
    Adopts [some (.maxBufferedRead 11)] tightConfig defaultCodec ∧
      Admits (tightConfig.adoptStream ⟨.tcp, none, none⟩ false true) defaultCodec []
        ⟨.binary, [1, 2, 3]⟩ [0x4f, 0x47, 1, 0, 0, 0, 0, 0, 0, 3, 1, 2, 3] ∧
      CutOf (tightConfig.adoptStream ⟨.tcp, none, none⟩ false true)
        [0x4f, 0x47, 1, 0, 0, 0, 0, 0, 0, 3, 1, 2, 3]
        [[0x4f, 0x47, 1, 0, 0, 0, 0, 0, 0, 3, 1, 2], [3]] ∧
      ∃ st, Finishes (tightConfig.adoptStream ⟨.tcp, none, none⟩ false true) defaultCodec
          [[0x4f, 0x47, 1, 0, 0, 0, 0, 0, 0, 3, 1, 2], [3]] false st ∧
        st.delivered = [] ∧ Overran (tightConfig.adoptStream ⟨.tcp, none, none⟩ false true) st := by
  have hcut : CutOf (tightConfig.adoptStream ⟨.tcp, none, none⟩ false true)
      [0x4f, 0x47, 1, 0, 0, 0, 0, 0, 0, 3, 1, 2, 3]
      [[0x4f, 0x47, 1, 0, 0, 0, 0, 0, 0, 3, 1, 2], [3]] := ⟨by unfold Cut; decide, rfl⟩
  obtain ⟨n, st, hn, hout, hdel⟩ := @readerLoop_ends
    (tightConfig.adoptStream ⟨.tcp, none, none⟩ false true) defaultCodec _ hcut.cut false
  refine ⟨⟨rfl, rfl, rfl⟩, ⟨by decide, by decide, by decide⟩, hcut, st, ⟨n, hn⟩, ?_, ?_⟩
  · exact hdel.trans (by decide)
  · exact hout.trans (by decide)

end Ogrenet
