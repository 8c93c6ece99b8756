import Ogrenet.Wire.Authenticity

/-!
# Decoding what was encoded

Whatever messages a codec encodes, decoding the concatenation of their frames over and over at its
front gives the messages back, one frame at a time, and leaves what follows them.
-/

namespace Ogrenet

open Wire

/-! ### The header -/

namespace Wire

lemma beUint16_putUint16 (v : UInt16) {b₀ b₁ : UInt8} (h : putUint16 v = [b₀, b₁]) :
    beUint16 b₀ b₁ = v := by
  have hv := v.toNat_lt
  simp only [putUint16, List.cons.injEq, and_true] at h
  obtain ⟨rfl, rfl⟩ := h
  apply UInt16.toNat_inj.mp
  rw [toNat_beUint16, UInt8.toNat_ofNat', UInt8.toNat_ofNat']
  omega

lemma beUint32_putUint32 (v : UInt32) {b₀ b₁ b₂ b₃ : UInt8} (h : putUint32 v = [b₀, b₁, b₂, b₃]) :
    beUint32 b₀ b₁ b₂ b₃ = v := by
  have hv := v.toNat_lt
  simp only [putUint32, List.cons.injEq, and_true] at h
  obtain ⟨rfl, rfl, rfl, rfl⟩ := h
  apply UInt32.toNat_inj.mp
  rw [beUint32, UInt32.toNat_ofNat', UInt8.toNat_ofNat', UInt8.toNat_ofNat', UInt8.toNat_ofNat',
    UInt8.toNat_ofNat']
  omega

end Wire

lemma Header.read_bytes (h : Header) (rest : Bytes) : Header.read (h.bytes ++ rest) = some h := by
  obtain ⟨magic, version, flags, algorithm, length⟩ := h
  simp only [bytes, putUint16, putUint32, List.cons_append, List.nil_append, read,
    beUint16_putUint16 _ rfl, beUint32_putUint32 _ rfl]

lemma Header.length_bytes (h : Header) : h.bytes.length = headerSize := rfl

/-- The payload of a frame with something behind it. -/
lemma Header.payload_bytes (h : Header) {payload : Bytes} (hlen : h.length.toNat = payload.length)
    (rest : Bytes) : h.payload (h.bytes ++ payload ++ rest) = payload := by
  rw [Header.payload, List.append_assoc, List.drop_left' h.length_bytes, List.take_left' hlen.symm]

/-! ### One frame -/

/-- Opening inverts sealing under equal associated data. -/
def Cipher.Inverts {ε : Type} (cipher : Cipher ε) : Prop :=
  ∀ rnd plaintext aad sealed, cipher.sealWith rnd plaintext aad = .ok sealed →
    cipher.openWith sealed aad = .ok plaintext

namespace Codec

variable {ε : Type} {c : Codec ε} {rnd payload : Bytes} {msg : Message} {h : Header}

/-- The Text flag of a message. -/
def textFlag (msg : Message) : UInt8 := if msg.type = .text then flagText else 0

lemma textFlag_cases (msg : Message) : textFlag msg = flagText ∨ textFlag msg = 0 := by
  unfold textFlag
  split
  · exact .inl rfl
  · exact .inr rfl

/-- The Text flag of a valid message tells its type. -/
lemma kind_of_flags (hv : msg.validate = .ok ()) (htext : h.flags &&& flagText = textFlag msg) :
    h.kind = msg.type := by
  obtain ⟨type, data⟩ := msg
  rw [Header.kind, htext]
  cases type with
  | binary | text => rfl
  | invalid v => cases hv

lemma encrypted_of_textFlag (hf : h.flags = textFlag msg) : h.encrypted = false := by
  rw [Header.encrypted_eq_false, hf]
  rcases textFlag_cases msg with ht | ht <;> rw [ht] <;> rfl

lemma encrypted_of_flagEncrypted (hf : h.flags = textFlag msg ||| flagEncrypted) :
    h.encrypted = true := by
  rw [Header.encrypted, hf]
  rcases textFlag_cases msg with ht | ht <;> rw [ht] <;> rfl

/-- The flags and the algorithm of an encoded frame. -/
lemma Encoded.flags (he : c.Encoded rnd msg h payload) :
    (c.cipher = none ∧ h.flags = textFlag msg ∧ h.algorithm = algNone ∧ payload = msg.data) ∨
      ∃ cipher, c.cipher = some cipher ∧ h.flags = textFlag msg ||| flagEncrypted ∧
        h.algorithm = cipher.algorithm ∧ ∃ sealed,
          cipher.sealWith rnd msg.data (semanticAAD h.flags h.algorithm) = .ok sealed ∧
            payload = if msg.type = .text then base64Encode sealed else sealed := by
  have hs := he.sealed
  cases hcipher : c.cipher with
  | none =>
    simp only [sealPayload, hcipher, Except.ok.injEq, Prod.mk.injEq] at hs
    obtain ⟨hf, ha, hdata⟩ := hs
    exact .inl ⟨rfl, hf.symm, ha.symm, hdata.symm⟩
  | some cipher =>
    refine .inr ⟨cipher, rfl, ?_⟩
    simp only [sealPayload, hcipher, bind, Except.bind, pure, Except.pure] at hs
    split at hs
    · cases hs
    rename_i sealed hsealed
    simp only [Except.ok.injEq, Prod.mk.injEq] at hs
    obtain ⟨hf, ha, hpayload⟩ := hs
    refine ⟨hf.symm, ha.symm, sealed, ?_, hpayload.symm⟩
    rw [← hf, ← ha]
    cases hw : cipher.sealWith rnd msg.data
        (semanticAAD (textFlag msg ||| flagEncrypted) cipher.algorithm) with
    | error e =>
      change (cipher.sealWith rnd msg.data
        (semanticAAD (textFlag msg ||| flagEncrypted) cipher.algorithm)).mapError _ = _ at hsealed
      rw [hw] at hsealed
      cases hsealed
    | ok bytes =>
      change (cipher.sealWith rnd msg.data
        (semanticAAD (textFlag msg ||| flagEncrypted) cipher.algorithm)).mapError _ = _ at hsealed
      rw [hw] at hsealed
      cases hsealed
      exact hw

/-- `DecodeOne` goes past the header of an encoded frame, whatever the cipher does. -/
lemma Encoded.acceptable (he : c.Encoded rnd msg h payload) : c.Acceptable h := by
  have hlen : h.length ≤ c.maxPayload := by
    rw [UInt32.le_iff_toNat_le, he.length]
    exact he.bound
  obtain ⟨-, hf, ha, -⟩ | ⟨cipher, hcipher, hf, ha, -⟩ := he.flags
  · have hplain := encrypted_of_textFlag hf
    refine ⟨he.magic, he.version, ?_, fun _ => ha, hlen, ?_⟩
    · rw [hf]
      rcases textFlag_cases msg with ht | ht <;> rw [ht] <;> rfl
    · rw [hplain]
      exact nofun
  · have henc := encrypted_of_flagEncrypted hf
    refine ⟨he.magic, he.version, ?_, ?_, hlen, fun _ => ⟨cipher, hcipher, ha.symm⟩⟩
    · rw [hf]
      rcases textFlag_cases msg with ht | ht <;> rw [ht] <;> rfl
    · rw [henc]
      exact nofun

lemma Encoded.kind (he : c.Encoded rnd msg h payload) : h.kind = msg.type := by
  apply kind_of_flags he.valid
  obtain ⟨-, hf, -⟩ | ⟨-, -, hf, -⟩ := he.flags
  all_goals
    rw [hf]
    rcases textFlag_cases msg with ht | ht <;> rw [ht] <;> rfl

lemma Encoded.opens (he : c.Encoded rnd msg h payload)
    (hc : ∀ cipher, c.cipher = some cipher → cipher.Inverts) :
    c.openPayload h payload = .ok msg.data := by
  obtain ⟨-, hf, -, hdata⟩ | ⟨cipher, hcipher, hf, -, sealed, hsealed, hpayload⟩ := he.flags
  · have hplain := encrypted_of_textFlag hf
    rw [openPayload, hplain, hdata]
    rfl
  · have henc := encrypted_of_flagEncrypted hf
    -- the ciphertext is what the cipher returned, in base64 for a text
    have hciphertext : ciphertext h payload = .ok sealed := by
      rw [ciphertext, he.kind, hpayload]
      cases msg.type with
      | text => exact base64Decode_encode sealed
      | binary | invalid v => rfl
    have hopen := hc cipher hcipher rnd msg.data _ sealed hsealed
    simp only [openPayload, henc, if_true, hciphertext, hcipher, hopen]
    rfl

/-- `DecodeOne` finds an encoded frame at the front of a stream. -/
lemma decodeOne_encode {frame : Bytes} (hc : ∀ cipher, c.cipher = some cipher → cipher.Inverts)
    (he : c.encode rnd msg = .ok frame) (rest : Bytes) :
    c.decodeOne (frame ++ rest) = .ok (msg, frame.length) := by
  obtain ⟨h, payload, henc, rfl⟩ := of_encode_eq_ok he
  have hopen := henc.opens hc
  have htotal : h.total = (h.bytes ++ payload).length := by
    rw [List.length_append, Header.length_bytes, Header.total, henc.length]
  have hread : Header.read (h.bytes ++ payload ++ rest) = some h := by
    rw [List.append_assoc]
    exact h.read_bytes _
  refine decodeOne_eq_ok.mpr ⟨h, hread, henc.acceptable, ?_, ?_, htotal.symm⟩
  · rw [htotal]
    simp
  · rw [h.payload_bytes henc.length]
    refine decodePayload_eq_ok.mpr ⟨msg.data, hopen, henc.data, ?_, henc.valid⟩
    rw [henc.kind]

/-! ### Streams -/

/-- Applies `DecodeOne` a number of times: the messages with the bytes each has consumed, and what
is left. -/
def decodeMany (c : Codec ε) : ℕ → Bytes → Except (WireError ε) (List (Message × ℕ) × Bytes)
  | 0, src => .ok ([], src)
  | n + 1, src => do
    let (msg, consumed) ← c.decodeOne src
    let (msgs, rest) ← c.decodeMany n (src.drop consumed)
    return ((msg, consumed) :: msgs, rest)

/-- A message with the randomness that was drawn for it and its frame. -/
structure Sent where
  rnd : Bytes
  msg : Message
  frame : Bytes

lemma decodeMany_encode (hc : ∀ cipher, c.cipher = some cipher → cipher.Inverts)
    (sent : List Sent) (he : ∀ s ∈ sent, c.encode s.rnd s.msg = .ok s.frame) (rest : Bytes) :
    c.decodeMany sent.length (sent.flatMap Sent.frame ++ rest) =
      .ok (sent.map fun s => (s.msg, s.frame.length), rest) := by
  induction sent with
  | nil => rfl
  | cons s sent ih =>
    obtain ⟨hs, hsent⟩ := List.forall_mem_cons.mp he
    have hone := decodeOne_encode hc hs (sent.flatMap Sent.frame ++ rest)
    simp only [List.length_cons, List.flatMap_cons, List.append_assoc, decodeMany, hone, bind,
      Except.bind, List.drop_left, ih hsent]
    rfl

/-- Frames are decoded to the messages they were made of. A stream of encoded frames gives back the
messages in order, each consuming its own frame, and leaves what follows; `Decode` gives back the
message of a single frame and refuses one that is followed by anything. -/
theorem decode_encode_roundTrip (c : Codec ε)
    (hc : ∀ cipher, c.cipher = some cipher → cipher.Inverts) (sent : List Sent)
    (he : ∀ s ∈ sent, c.encode s.rnd s.msg = .ok s.frame) (rest : Bytes) :
    c.decodeMany sent.length (sent.flatMap Sent.frame ++ rest) =
        .ok (sent.map fun s => (s.msg, s.frame.length), rest) ∧
      ∀ s ∈ sent, c.decode s.frame = .ok s.msg ∧
        (rest ≠ [] → c.decode (s.frame ++ rest) = .error .trailingData) := by
  refine ⟨decodeMany_encode hc sent he rest, fun s hs => ⟨?_, fun hne => ?_⟩⟩
  · have hone := decodeOne_encode hc (he s hs) []
    rw [List.append_nil] at hone
    simp [decode, hone, bind, Except.bind, pure, Except.pure]
  · simp [decode, decodeOne_encode hc (he s hs) rest, bind, Except.bind, throw, throwThe,
      MonadExceptOf.throw, hne]

/-- A cipher that flips the bits of each byte and keeps no associated data. -/
def flipping : Cipher Unit where
  algorithm := 1
  sealBytes _ plaintext := .ok (plaintext.map (~~~ ·))
  openBytes sealed := .ok (sealed.map (~~~ ·))
  authenticated := none

lemma flipping_inverts : flipping.Inverts := by
  intro rnd plaintext aad sealed h
  cases h
  show Except.ok _ = _
  simp [Function.comp_def]

def flippingCodec : Codec Unit := { cipher := some flipping, maxPayloadField := 3 }

/-- An encrypted text, in base64, and an encrypted binary message. -/
def flipped : List Sent :=
  [⟨[], ⟨.text, [0x68, 0x69]⟩, Header.bytes ⟨magic, version, 3, 1, 3⟩ ++ [0x6c, 0x35, 0x59]⟩,
    ⟨[], ⟨.binary, [0, 1, 2]⟩, Header.bytes ⟨magic, version, 2, 1, 3⟩ ++ [0xff, 0xfe, 0xfd]⟩]

theorem decode_encode_roundTrip_flipping :
    (∀ s ∈ flipped, flippingCodec.encode s.rnd s.msg = .ok s.frame) ∧
      flippingCodec.decodeMany 2 (flipped.flatMap Sent.frame ++ [0x4f]) =
        .ok (flipped.map fun s => (s.msg, 13), [0x4f]) := by
  have hencode : ∀ s ∈ flipped, flippingCodec.encode s.rnd s.msg = .ok s.frame := by
    simp only [flipped, List.forall_mem_cons, List.not_mem_nil, false_imp_iff, implies_true,
      and_true]
    decide
  refine ⟨hencode, (decode_encode_roundTrip flippingCodec ?_ flipped hencode [0x4f]).1⟩
  rintro cipher ⟨⟩
  exact flipping_inverts

end Codec

end Ogrenet
