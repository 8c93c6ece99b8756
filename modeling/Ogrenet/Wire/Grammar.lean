import Ogrenet.Wire.Arrival
import Ogrenet.Wire.Authenticity
import Ogrenet.Wire.RoundTrip

/-!
# The frame grammar

What `DecodeOne` returns for every byte string: the frames in the clear that a codec without a
cipher accepts, each of them the encoding of its message, and how the answer depends on the bytes
that have arrived so far.
-/

namespace Ogrenet

open Wire

/-- `ogrenet.Message{}`. -/
def Message.zero : Message := ⟨.binary, []⟩

/-! ### Headers -/

lemma Wire.putUint32_beUint32 (b₀ b₁ b₂ b₃ : UInt8) :
    putUint32 (beUint32 b₀ b₁ b₂ b₃) = [b₀, b₁, b₂, b₃] := by
  have h₀ := b₀.toNat_lt
  have h₁ := b₁.toNat_lt
  have h₂ := b₂.toNat_lt
  have h₃ := b₃.toNat_lt
  have hn : (beUint32 b₀ b₁ b₂ b₃).toNat =
      ((b₀.toNat * 256 + b₁.toNat) * 256 + b₂.toNat) * 256 + b₃.toNat := by
    rw [beUint32, UInt32.toNat_ofNat_of_lt']
    simp only [UInt32.size]
    omega
  have hbyte : ∀ (n : ℕ) (b : UInt8), n % 256 = b.toNat → UInt8.ofNat n = b := by
    intro n b h
    apply UInt8.toNat_inj.mp
    rw [UInt8.toNat_ofNat']
    exact h
  rw [putUint32, hn]
  congr 1
  · apply hbyte
    omega
  · congr 1
    · apply hbyte
      omega
    · congr 1
      · apply hbyte
        omega
      · congr 1
        apply hbyte
        omega

namespace Header

/-- A header is read where its bytes stand. -/
lemma read_eq_some_iff {src : Bytes} {h : Header} :
    read src = some h ↔ ∃ rest, src = h.bytes ++ rest := by
  constructor
  · intro hr
    unfold read at hr
    split at hr
    · rename_i rest
      cases hr
      refine ⟨rest, ?_⟩
      simp [bytes, putUint16_beUint16, putUint32_beUint32]
    · cases hr
  · rintro ⟨rest, rfl⟩
    exact h.read_bytes rest

lemma read_eq_none_iff {src : Bytes} : read src = none ↔ src.length < headerSize := by
  constructor
  · exact length_of_read_none
  · intro hlen
    cases hr : read src with
    | none => rfl
    | some h =>
      obtain ⟨rest, rfl⟩ := read_eq_some_iff.mp hr
      rw [List.length_append, h.length_bytes] at hlen
      omega

end Header

/-- `ParseHeader`. -/
def parseHeader {ε : Type} (src : Bytes) : Except (WireError ε) Header := do
  match Header.read src with
  | none => throw .needMore
  | some h =>
    if h.magic ≠ magic then throw .badMagic
    if h.version ≠ version then throw .unsupportedVersion
    validateSemanticHeader h.flags h.algorithm
    return h

namespace Codec

variable {ε : Type}

/-! ### The three values -/

/-- What `DecodeOne` returns from the payload on. -/
def returnsPayload (c : Codec ε) (h : Header) (payload : Bytes) :
    Message × ℕ × Option (WireError ε) :=
  match c.openPayload h payload with
  | .error err => (.zero, 0, some err)
  | .ok payload =>
    if c.maxPayload.toNat < payload.length then (.zero, 0, some .frameTooLarge)
    else
      match Message.validate ⟨h.kind, payload⟩ with
      | .error err => (.zero, 0, some (.message err))
      | .ok () => (⟨h.kind, payload⟩, h.total, none)

/-- The message, the number of bytes consumed and the error that `DecodeOne` returns, return
statement by return statement. -/
def returns (c : Codec ε) (src : Bytes) : Message × ℕ × Option (WireError ε) :=
  match Header.read src with
  | none => (.zero, 0, some .needMore)
  | some h =>
    if h.magic ≠ magic then (.zero, 0, some .badMagic)
    else if h.version ≠ version then (.zero, 0, some .unsupportedVersion)
    else
      match validateSemanticHeader h.flags h.algorithm with
      | .error err => (.zero, 0, some err)
      | .ok () =>
        if c.maxPayload < h.length then (.zero, 0, some .frameTooLarge)
        else if h.encrypted = true ∧ c.cipher = none then (.zero, 0, some .missingCipher)
        else if h.encrypted = true ∧ c.cipher.map Cipher.algorithm ≠ some h.algorithm then
          (.zero, 0, some .algorithmMismatch)
        else if maxInt < h.length.toNat + headerSize then (.zero, 0, some .frameTooLarge)
        else if src.length < h.total then (.zero, 0, some .needMore)
        else c.returnsPayload h (h.payload src)

/-- The values that stand for a result of `decodeOne`. -/
def valuesOf : Except (WireError ε) (Message × ℕ) → Message × ℕ × Option (WireError ε)
  | .ok (msg, n) => (msg, n, none)
  | .error e => (.zero, 0, some e)

lemma returnsPayload_eq (c : Codec ε) (h : Header) (payload : Bytes) :
    c.returnsPayload h payload =
      valuesOf ((c.decodePayload h payload).map fun msg => (msg, h.total)) := by
  unfold returnsPayload decodePayload
  cases c.openPayload h payload with
  | error err => rfl
  | ok data =>
    simp only [bind, Except.bind, throw, throwThe, MonadExceptOf.throw, pure, Except.pure]
    by_cases hlt : c.maxPayload.toNat < data.length
    · simp only [hlt, if_true]
      rfl
    · simp only [hlt, if_false]
      cases Message.validate ⟨h.kind, data⟩ with
      | error err => rfl
      | ok _ => rfl

/-- `DecodeOne` from the length check on. -/
lemma returns_rest (c : Codec ε) (h : Header) (src : Bytes) :
    (if src.length < h.total then (Message.zero, 0, some .needMore)
      else c.returnsPayload h (h.payload src)) =
    valuesOf (if src.length < h.total then .error .needMore
      else (c.decodePayload h (h.payload src)).bind fun msg => .ok (msg, h.total)) := by
  by_cases hshort : src.length < h.total
  · simp only [hshort, if_true]
    rfl
  · simp only [hshort, if_false, returnsPayload_eq]
    cases c.decodePayload h (h.payload src) with
    | error e => rfl
    | ok msg => rfl

lemma returns_eq (c : Codec ε) (src : Bytes) : c.returns src = valuesOf (c.decodeOne src) := by
  unfold returns decodeOne
  cases Header.read src with
  | none => rfl
  | some h =>
    -- a 32-bit length never overflows a 64-bit int
    have hsmall : ¬ maxInt < h.length.toNat + headerSize := by
      have := h.length.toNat_lt
      simp only [maxInt, headerSize]
      omega
    simp only [checkHeader, bind, Except.bind, throw, throwThe, MonadExceptOf.throw, pure,
      Except.pure, hsmall, if_false]
    by_cases hmagic : h.magic = magic
    case neg =>
      simp only [hmagic, ne_eq, not_false_eq_true, if_true]
      rfl
    by_cases hversion : h.version = version
    case neg =>
      simp only [hmagic, hversion, ne_eq, not_true_eq_false, not_false_eq_true, if_true, if_false]
      rfl
    simp only [hmagic, hversion, ne_eq, not_true_eq_false, if_false]
    cases validateSemanticHeader (ε := ε) h.flags h.algorithm with
    | error err => rfl
    | ok _ =>
      by_cases hlength : c.maxPayload < h.length
      case pos =>
        simp only [hlength, if_true]
        rfl
      simp only [hlength, if_false]
      cases henc : h.encrypted with
      | false =>
        simp only [Bool.false_eq_true, false_and, if_false]
        simpa only [Except.bind] using returns_rest c h src
      | true =>
        cases hcipher : c.cipher with
        | none =>
          simp only [and_self, if_true]
          rfl
        | some cipher =>
          by_cases halg : cipher.algorithm = h.algorithm
          · simp only [halg, Option.map_some, not_true_eq_false, reduceCtorEq, and_false, if_false,
              if_true]
            simpa only [Except.bind] using returns_rest c h src
          · simp only [halg, Option.map_some, Option.some.injEq, not_false_eq_true, reduceCtorEq,
              and_false, and_true, if_false, if_true]
            rfl

lemma returns_eq_ok {c : Codec ε} {src : Bytes} {msg : Message} {n : ℕ} :
    c.returns src = (msg, n, none) ↔ c.decodeOne src = .ok (msg, n) := by
  rw [returns_eq]
  cases c.decodeOne src with
  | error e => simp [valuesOf]
  | ok a => simp [valuesOf, Prod.ext_iff]

lemma returns_eq_error {c : Codec ε} {src : Bytes} {msg : Message} {n : ℕ} {e : WireError ε} :
    c.returns src = (msg, n, some e) ↔ msg = .zero ∧ n = 0 ∧ c.decodeOne src = .error e := by
  rw [returns_eq]
  cases c.decodeOne src with
  | error e' => simp [valuesOf, eq_comm]
  | ok a => simp [valuesOf]

/-! ### Bytes that arrive later -/

/-- When a frame is incomplete: its header is, or it is acceptable and announces more. -/
lemma decodeOne_eq_needMore {c : Codec ε} {src : Bytes} :
    c.decodeOne src = .error .needMore ↔ src.length < headerSize ∨
      ∃ h, Header.read src = some h ∧ c.Acceptable h ∧ src.length < h.total := by
  constructor
  · intro hd
    obtain ⟨-, hshort⟩ | hheader | ⟨h, payload, hp⟩ := of_decodeOne_error hd
    · exact hshort
    · cases hheader
    · cases ofPayload_of_decodePayload hp
  · rintro (hlen | ⟨h, hr, ha, hlen⟩)
    · rw [decodeOne, Header.read_eq_none_iff.mpr hlen]
      rfl
    · simp only [decodeOne, hr, bind, Except.bind, checkHeader_eq_ok.mpr ha, hlen, if_true]
      rfl

/-- Every proper part at the front of an encoded frame is an incomplete frame. -/
lemma decodeOne_front {c : Codec ε} {rnd s t : Bytes} {msg : Message}
    (he : c.encode rnd msg = .ok (s ++ t)) (ht : t ≠ []) : c.decodeOne s = .error .needMore := by
  obtain ⟨h, payload, henc, hframe⟩ := of_encode_eq_ok he
  have hpos := List.length_pos_iff.mpr ht
  have hlen : s.length + t.length = h.total := by
    rw [← List.length_append, hframe, List.length_append, h.length_bytes, Header.total, henc.length]
  apply decodeOne_eq_needMore.mpr
  by_cases hshort : s.length < headerSize
  · exact .inl hshort
  · cases hr : Header.read s with
    | none => exact .inl (Header.read_eq_none_iff.mp hr)
    | some h' =>
      -- the header that is read is that of the frame
      have hsame : h' = h := by
        have h₁ := Header.read_append hr t
        rw [hframe, h.read_bytes] at h₁
        exact (Option.some.inj h₁).symm
      subst hsame
      exact .inr ⟨h', rfl, henc.acceptable, by omega⟩

/-- `DecodeOne` meets the contract of a `Framer`, and bytes behind a frame do not change what it
returns. -/
theorem decodeOne_stable (c : Codec ε) :
    (∀ s t, (c.returns s).2.2 ≠ some .needMore → c.returns (s ++ t) = c.returns s) ∧
    (∀ s, (c.returns s).2.2 ≠ none → (c.returns s).2.1 = 0) ∧
    (∀ s, (c.returns s).2.2 = none → 1 ≤ (c.returns s).2.1 ∧ (c.returns s).2.1 ≤ s.length) ∧
    ∀ rnd msg frame, c.encode rnd msg = .ok frame → ∀ s t, s ++ t = frame → t ≠ [] →
      c.returns s = (.zero, 0, some .needMore) := by
  refine ⟨?_, ?_, ?_, ?_⟩
  · intro s t hne
    rw [returns_eq] at hne
    have hmore : c.decodeOne s ≠ .error .needMore := by
      intro hd
      rw [hd] at hne
      exact hne rfl
    rw [returns_eq, returns_eq, decodeOne_append hmore]
  · intro s hne
    rw [returns_eq] at hne ⊢
    cases hd : c.decodeOne s with
    | error e => rfl
    | ok a =>
      rw [hd] at hne
      exact absurd rfl hne
  · intro s hnone
    rw [returns_eq] at hnone ⊢
    cases hd : c.decodeOne s with
    | error e =>
      rw [hd] at hnone
      cases hnone
    | ok a =>
      obtain ⟨h, -, -, hle, -, hn⟩ := decodeOne_eq_ok.mp hd
      have hn : a.2 = h.total := hn
      show 1 ≤ a.2 ∧ a.2 ≤ s.length
      rw [hn]
      exact ⟨Nat.le_trans (by decide) (Nat.le_add_right headerSize _), hle⟩
  · rintro rnd msg frame he s t rfl ht
    rw [returns_eq, decodeOne_front he ht]
    rfl

/-! ### Frames in the clear -/

/-- The header of a frame in the clear stands at the front of `src`, and `rest` behind it. -/
structure PlainStart (c : Codec ε) (src : Bytes) (flags : UInt8) (length : UInt32) (rest : Bytes) :
    Prop where
  bytes : src = Header.bytes ⟨magic, version, flags, algNone, length⟩ ++ rest
  flags : flags = 0 ∨ flags = flagText
  length : length ≤ c.maxPayload

/-- The message of a frame in the clear. -/
def plainMessage (flags : UInt8) (payload : Bytes) : Message :=
  ⟨if flags = flagText then .text else .binary, payload⟩

section Plain

variable {c : Codec ε} {src rest : Bytes} {flags : UInt8} {length : UInt32}

lemma kind_of_plainFlags (hf : flags = 0 ∨ flags = flagText) :
    Header.kind ⟨magic, version, flags, algNone, length⟩ =
      if flags = flagText then .text else .binary := by
  obtain rfl | rfl := hf
  · simp [Header.kind, flagText]
  · simp [Header.kind, flagText]

lemma PlainStart.read (hp : c.PlainStart src flags length rest) :
    Header.read src = some ⟨magic, version, flags, algNone, length⟩ :=
  Header.read_eq_some_iff.mpr ⟨rest, hp.bytes⟩

lemma PlainStart.payload (hp : c.PlainStart src flags length rest) :
    Header.payload ⟨magic, version, flags, algNone, length⟩ src = rest.take length.toNat := by
  rw [hp.bytes, Header.payload, List.drop_left' (Header.length_bytes _)]

lemma PlainStart.length_src (hp : c.PlainStart src flags length rest) :
    src.length = headerSize + rest.length := by
  rw [hp.bytes, List.length_append, Header.length_bytes]

/-- `DecodeOne` goes past such a header. -/
lemma PlainStart.acceptable (hp : c.PlainStart src flags length rest) :
    c.Acceptable ⟨magic, version, flags, algNone, length⟩ := by
  have hplain : flags &&& flagEncrypted = 0 := by
    obtain rfl | rfl := hp.flags
    · decide
    · decide
  have hknown : flags &&& ~~~knownFlags = 0 := by
    obtain rfl | rfl := hp.flags
    · decide
    · decide
  refine ⟨rfl, rfl, hknown, fun _ => rfl, hp.length, ?_⟩
  · intro henc
    rw [Header.encrypted_eq_false.mpr hplain] at henc
    cases henc

lemma encrypted_of_nil {h : Header} (hnil : c.cipher = none) (ha : c.Acceptable h) :
    h.encrypted = false := by
  apply Bool.eq_false_iff.mpr
  intro henc
  obtain ⟨cipher, hcipher, -⟩ := ha.cipher henc
  rw [hnil] at hcipher
  cases hcipher

/-- Without a cipher nothing else is acceptable. -/
lemma plainStart_of_acceptable {h : Header} (hnil : c.cipher = none) (ha : c.Acceptable h)
    (hr : Header.read src = some h) : ∃ flags length rest, c.PlainStart src flags length rest ∧
      h = ⟨magic, version, flags, algNone, length⟩ := by
  have henc := encrypted_of_nil hnil ha
  have hh : h = ⟨magic, version, h.flags, algNone, h.length⟩ := by
    rw [← ha.magic, ← ha.version, ← ha.plain henc]
  obtain ⟨rest, hsrc⟩ := Header.read_eq_some_iff.mp hr
  refine ⟨h.flags, h.length, rest, ⟨?_, ?_, ha.length⟩, hh⟩
  · rw [← hh]
    exact hsrc
  · exact flags_of_plain ha.known (Header.encrypted_eq_false.mp henc)

/-- What `DecodeOne` accepts without a cipher. -/
lemma decodeOne_plain_iff (hnil : c.cipher = none) {msg : Message} {n : ℕ} :
    c.decodeOne src = .ok (msg, n) ↔ ∃ flags length rest, c.PlainStart src flags length rest ∧
      headerSize + length.toNat ≤ src.length ∧
      (flags = flagText → utf8Valid (rest.take length.toNat) = true) ∧
      n = headerSize + length.toNat ∧ msg = plainMessage flags (rest.take length.toNat) := by
  constructor
  · intro hd
    obtain ⟨h, hr, ha, hle, hp, rfl⟩ := decodeOne_eq_ok.mp hd
    obtain ⟨hplain, rfl⟩ := plainHeader_of_decoded hr ha hle (encrypted_of_nil hnil ha) hp
    obtain ⟨flags, length, rest, hstart, rfl⟩ := plainStart_of_acceptable hnil ha hr
    refine ⟨flags, length, rest, hstart, hle, ?_, rfl, ?_⟩
    · rw [← hstart.payload]
      exact hplain.utf8
    · rw [hstart.payload, kind_of_plainFlags hstart.flags, plainMessage]
  · rintro ⟨flags, length, rest, hp, hle, hutf, rfl, rfl⟩
    have hplain : c.PlainHeader ⟨magic, version, flags, algNone, length⟩ src := by
      refine ⟨hp.read, rfl, rfl, hp.flags, rfl, hp.length, hle, ?_⟩
      rw [hp.payload]
      exact hutf
    rw [decodeOne_plain hplain, hp.payload, kind_of_plainFlags hp.flags, plainMessage]
    rfl

/-- Without a cipher the frame of a message is its header and its bytes. -/
lemma encode_plain {msg : Message} (hnil : c.cipher = none) (hv : msg.validate = .ok ())
    (hlen : msg.data.length ≤ c.maxPayload.toNat) (rnd : Bytes) :
    c.encode rnd msg = .ok (Header.bytes ⟨magic, version, textFlag msg, algNone,
      .ofNat msg.data.length⟩ ++ msg.data) := by
  have hmax := c.maxPayload.toNat_lt
  have hdata : ¬ c.maxPayload.toNat < msg.data.length := Nat.not_lt.mpr hlen
  have hsize : ¬ 2 ^ 32 - 1 < msg.data.length := by omega
  simp only [encode, sealPayload, hnil, hv, Except.mapError, bind, Except.bind, pure, Except.pure,
    hdata, hsize, or_self, if_false]
  rfl

lemma encode_plainMessage (hnil : c.cipher = none) (hp : c.PlainStart src flags length rest)
    (hle : headerSize + length.toNat ≤ src.length)
    (hutf : flags = flagText → utf8Valid (rest.take length.toNat) = true) (rnd : Bytes) :
    c.encode rnd (plainMessage flags (rest.take length.toNat)) =
      .ok (src.take (headerSize + length.toNat)) := by
  have hrest : length.toNat ≤ rest.length := by
    rw [hp.length_src] at hle
    omega
  have hdata : (rest.take length.toNat).length = length.toNat := by
    rw [List.length_take]
    exact Nat.min_eq_left hrest
  have htext : textFlag (plainMessage flags (rest.take length.toNat)) = flags := by
    obtain hf | hf := hp.flags
    · simp [textFlag, plainMessage, hf, flagText]
    · simp [textFlag, plainMessage, hf]
  have hvalid : (plainMessage flags (rest.take length.toNat)).validate = .ok () := by
    by_cases hf : flags = flagText
    · simp [plainMessage, Message.validate, hf, hutf hf]
    · simp [plainMessage, Message.validate, hf]
  have hmax : (plainMessage flags (rest.take length.toNat)).data.length ≤ c.maxPayload.toNat := by
    show (rest.take length.toNat).length ≤ _
    rw [hdata]
    exact UInt32.le_iff_toNat_le.mp hp.length
  rw [encode_plain hnil hvalid hmax, htext, hp.bytes]
  show Except.ok (Header.bytes ⟨magic, version, flags, algNone,
    .ofNat (rest.take length.toNat).length⟩ ++ rest.take length.toNat) = _
  rw [hdata, UInt32.ofNat_toNat]
  exact congrArg Except.ok (List.take_length_add_append length.toNat).symm

end Plain

/-- `ParseHeader` accepts the header of a frame in the clear. -/
lemma parseHeader_plain {c : Codec ε} {src rest : Bytes} {flags : UInt8} {length : UInt32}
    (hp : c.PlainStart src flags length rest) :
    (parseHeader src : Except (WireError ε) Header) =
      .ok ⟨magic, version, flags, algNone, length⟩ := by
  have hacc := hp.acceptable
  have hvalid :=
    (validateSemanticHeader_eq_ok (ε := ε) flags algNone).mpr ⟨hacc.known, fun _ => rfl⟩
  simp only [parseHeader, hp.read, hvalid, bind, Except.bind, ne_eq, not_true_eq_false, if_false,
    pure, Except.pure]

/-- A codec without a cipher accepts the frames in the clear, each as the encoding of its message,
and asks for more exactly where such a frame is cut short. -/
theorem plain_frames_exact (c : Codec ε) (hnil : c.cipher = none) (src : Bytes) :
    (∀ msg n, c.returns src = (msg, n, none) ↔
      ∃ flags length rest, c.PlainStart src flags length rest ∧
        headerSize + length.toNat ≤ src.length ∧
        (flags = flagText → utf8Valid (rest.take length.toNat) = true) ∧
        n = headerSize + length.toNat ∧ msg = plainMessage flags (rest.take length.toNat)) ∧
    (∀ msg n, c.returns src = (msg, n, none) → (∀ rnd, c.encode rnd msg = .ok (src.take n)) ∧
      ∃ h, (parseHeader src : Except (WireError ε) Header) = .ok h ∧
        n = headerSize + h.length.toNat) ∧
    ∀ msg n e, c.returns src = (msg, n, some e) → n = 0 ∧
      (e = .needMore ↔ src.length < headerSize ∨
        ∃ flags length rest, c.PlainStart src flags length rest ∧
          src.length < headerSize + length.toNat) := by
  refine ⟨?_, ?_, ?_⟩
  · intro msg n
    rw [returns_eq_ok]
    exact decodeOne_plain_iff hnil
  · intro msg n hd
    obtain ⟨flags, length, rest, hp, hle, hutf, rfl, rfl⟩ :=
      (decodeOne_plain_iff hnil).mp (returns_eq_ok.mp hd)
    exact ⟨encode_plainMessage hnil hp hle hutf, _, parseHeader_plain hp, rfl⟩
  · intro msg n e hd
    obtain ⟨-, hn, he⟩ := returns_eq_error.mp hd
    refine ⟨hn, ?_⟩
    have hmore : e = .needMore ↔ c.decodeOne src = .error .needMore := by
      rw [he, Except.error.injEq]
    rw [hmore, decodeOne_eq_needMore]
    constructor
    · rintro (hlen | ⟨h, hr, ha, hlen⟩)
      · exact .inl hlen
      · obtain ⟨flags, length, rest, hp, rfl⟩ := plainStart_of_acceptable hnil ha hr
        exact .inr ⟨flags, length, rest, hp, hlen⟩
    · rintro (hlen | ⟨flags, length, rest, hp, hlen⟩)
      · exact .inl hlen
      · exact .inr ⟨_, hp.read, hp.acceptable, hlen⟩

/-- A text frame with something behind it. -/
theorem plain_frames_exact_text :
    let c : Codec Unit := {}
    let frame := Header.bytes ⟨magic, version, flagText, algNone, 2⟩ ++ [0x68, 0x69]
    c.returns (frame ++ [0x4f]) = (⟨.text, [0x68, 0x69]⟩, 12, none) ∧
      ∀ rnd, c.encode rnd ⟨.text, [0x68, 0x69]⟩ = .ok ((frame ++ [0x4f]).take 12) := by
  have hr : Codec.returns ({} : Codec Unit)
      (Header.bytes ⟨magic, version, flagText, algNone, 2⟩ ++ [0x68, 0x69] ++ [0x4f]) =
      (⟨.text, [0x68, 0x69]⟩, 12, none) := by decide
  exact ⟨hr, ((plain_frames_exact {} rfl _).2.1 _ _ hr).1⟩

end Codec

end Ogrenet
