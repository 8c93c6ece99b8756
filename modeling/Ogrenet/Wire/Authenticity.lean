import Ogrenet.Wire.Codec

/-!
# What a codec with a cipher accepts

A frame that says it is encrypted yields a message only when the cipher opened it under the semantic
header that was received. The header itself decides whether the cipher is asked at all: a frame with
the Encrypted flag clear is taken as it is, cipher or not. `PlainFrame` are the byte strings that
pass this way, and a codec with a cipher keeps its promise on exactly the others.
-/

namespace Ogrenet

open Wire

namespace Wire

lemma toNat_beUint16 (b₀ b₁ : UInt8) : (beUint16 b₀ b₁).toNat = b₀.toNat * 256 + b₁.toNat := by
  have h₀ := b₀.toNat_lt
  have h₁ := b₁.toNat_lt
  rw [beUint16, UInt16.toNat_ofNat_of_lt']
  simp only [UInt16.size]
  omega

lemma putUint16_beUint16 (b₀ b₁ : UInt8) : putUint16 (beUint16 b₀ b₁) = [b₀, b₁] := by
  have h₀ := b₀.toNat_lt
  have h₁ := b₁.toNat_lt
  have hhigh : UInt8.ofNat ((b₀.toNat * 256 + b₁.toNat) / 256) = b₀ := by
    apply UInt8.toNat_inj.mp
    rw [UInt8.toNat_ofNat']
    omega
  have hlow : UInt8.ofNat (b₀.toNat * 256 + b₁.toNat) = b₁ := by
    apply UInt8.toNat_inj.mp
    rw [UInt8.toNat_ofNat']
    omega
  rw [putUint16, toNat_beUint16, hhigh, hlow]

/-- The flags and algorithm bytes of a frame. -/
def semanticBytes (src : Bytes) : Bytes := (src.drop 3).take 3

end Wire

/-- The header determines the flags and algorithm bytes of the frame it was read from. -/
lemma Header.semanticBytes_of_read {src : Bytes} {h : Header} (hr : Header.read src = some h) :
    semanticBytes src = h.flags :: putUint16 h.algorithm := by
  unfold Header.read at hr
  split at hr
  · cases hr
    simp [semanticBytes, putUint16_beUint16]
  · cases hr

/-- The associated data determines the semantic header. -/
lemma semanticAAD_inj {flags flags' : UInt8} {algorithm algorithm' : Algorithm}
    (h : semanticAAD flags algorithm = semanticAAD flags' algorithm') :
    flags :: putUint16 algorithm = flags' :: putUint16 algorithm' := by
  simpa [semanticAAD] using h

set_option maxRecDepth 2048 in
/-- Without the Encrypted flag only the Text flag is left. -/
lemma flags_of_plain {flags : UInt8} (hk : flags &&& ~~~knownFlags = 0)
    (hp : flags &&& flagEncrypted = 0) : flags = 0 ∨ flags = flagText := by
  have hall : ∀ n < 256, UInt8.ofNat n &&& ~~~knownFlags = 0 →
      UInt8.ofNat n &&& flagEncrypted = 0 → UInt8.ofNat n = 0 ∨ UInt8.ofNat n = flagText := by
    decide
  simpa using hall flags.toNat flags.toNat_lt (by simpa using hk) (by simpa using hp)

namespace Codec

variable {ε : Type} {c : Codec ε} {cipher : Cipher ε} {src : Bytes} {msg : Message}

/-- A complete, well-formed frame in the clear at the front of `src`. -/
structure PlainHeader (c : Codec ε) (h : Header) (src : Bytes) : Prop where
  read : Header.read src = some h
  magic : h.magic = Wire.magic
  version : h.version = Wire.version
  flags : h.flags = 0 ∨ h.flags = flagText
  algorithm : h.algorithm = algNone
  length : h.length ≤ c.maxPayload
  complete : h.total ≤ src.length
  utf8 : h.flags = flagText → utf8Valid (h.payload src) = true

def PlainFrame (c : Codec ε) (src : Bytes) : Prop := ∃ h, c.PlainHeader h src

/-- `data` is what the cipher returned for the payload of the frame `src`, under the associated data
of the header that was received. -/
def Opened (cipher : Cipher ε) (src data : Bytes) : Prop :=
  ∃ h sealed, Header.read src = some h ∧ ciphertext h (h.payload src) = .ok sealed ∧
    cipher.openWith sealed (semanticAAD h.flags h.algorithm) = .ok data

/-- The cipher opens the payload of the frame to that payload itself. -/
def OpensToItself (cipher : Cipher ε) (src : Bytes) : Prop :=
  ∃ h, Header.read src = some h ∧ Opened cipher src (h.payload src)

lemma payload_length_le {h : Header} : (h.payload src).length ≤ h.length.toNat := by
  simp only [Header.payload, List.length_take]
  exact Nat.min_le_left _ _

/-- Plain frames are decoded whatever the cipher is. -/
lemma decodeOne_plain {h : Header} (hp : c.PlainHeader h src) :
    c.decodeOne src = .ok (⟨h.kind, h.payload src⟩, h.total) := by
  have henc : h.encrypted = false := by
    rw [Header.encrypted_eq_false]
    rcases hp.flags with hf | hf <;> rw [hf] <;> decide
  have hknown : h.flags &&& ~~~knownFlags = 0 := by
    rcases hp.flags with hf | hf <;> rw [hf] <;> decide
  refine decodeOne_eq_ok.mpr ⟨h, hp.read, ?_, hp.complete, ?_, rfl⟩
  · exact ⟨hp.magic, hp.version, hknown, fun _ => hp.algorithm, hp.length,
      fun he => by rw [henc] at he; cases he⟩
  · refine decodePayload_eq_ok.mpr ⟨h.payload src, by simp [openPayload, henc], ?_, rfl, ?_⟩
    · exact Nat.le_trans payload_length_le (UInt32.le_iff_toNat_le.mp hp.length)
    · rcases hp.flags with hf | hf
      · simp [Message.validate, Header.kind, hf]
      · have hutf := hp.utf8 hf
        simp [Message.validate, Header.kind, hf, hutf, flagText]

/-- A message that was not encrypted comes from a plain frame. -/
lemma plainHeader_of_decoded {h : Header} (hr : Header.read src = some h) (ha : c.Acceptable h)
    (hl : h.total ≤ src.length) (he : h.encrypted = false)
    (hp : c.decodePayload h (h.payload src) = .ok msg) :
    c.PlainHeader h src ∧ msg = ⟨h.kind, h.payload src⟩ := by
  obtain ⟨data, ho, -, rfl, hv⟩ := decodePayload_eq_ok.mp hp
  have hflags := flags_of_plain ha.known (Header.encrypted_eq_false.mp he)
  simp only [openPayload, he, Bool.false_eq_true, if_false, Except.ok.injEq] at ho
  subst ho
  refine ⟨⟨hr, ha.magic, ha.version, hflags, ha.plain he, ha.length, hl, ?_⟩, rfl⟩
  intro hf
  by_contra hu
  simp [Message.validate, Header.kind, hf, hu, flagText] at hv

/-- A message comes from a plain frame or was opened by the cipher. -/
lemma plain_or_opened {n : ℕ} (hc : c.cipher = some cipher) (hd : c.decodeOne src = .ok (msg, n)) :
    (∃ h, c.PlainHeader h src ∧ msg.data = h.payload src) ∨
      ∃ h sealed, Header.read src = some h ∧ h.encrypted = true ∧
        ciphertext h (h.payload src) = .ok sealed ∧
        cipher.openWith sealed (semanticAAD h.flags h.algorithm) = .ok msg.data := by
  obtain ⟨h, hr, ha, hl, hp, -⟩ := decodeOne_eq_ok.mp hd
  cases he : h.encrypted with
  | true =>
    obtain ⟨data, ho, -, rfl, -⟩ := decodePayload_eq_ok.mp hp
    refine Or.inr ⟨h, ?_⟩
    simp only [openPayload, he, if_true, hc] at ho
    split at ho
    · cases ho
    rename_i sealed hs
    cases hw : cipher.openWith sealed (semanticAAD h.flags h.algorithm) with
    | error e =>
      rw [hw] at ho
      cases ho
    | ok plaintext =>
      rw [hw] at ho
      cases ho
      exact ⟨sealed, hr, he, hs, hw⟩
  | false =>
    obtain ⟨hplain, rfl⟩ := plainHeader_of_decoded hr ha hl he hp
    exact Or.inl ⟨h, hplain, rfl⟩

/-- The cipher stands behind every message exactly when no plain frame slips past it. -/
lemma opened_iff (hc : c.cipher = some cipher) :
    (∀ msg n, c.decodeOne src = .ok (msg, n) → Opened cipher src msg.data) ↔
      (c.PlainFrame src → OpensToItself cipher src) := by
  constructor
  · rintro h ⟨hdr, hp⟩
    exact ⟨hdr, hp.read, h _ _ (decodeOne_plain hp)⟩
  · intro h msg n hd
    obtain ⟨hdr, hp, hdata⟩ | ⟨hdr, sealed, hr, -, hs, ho⟩ := plain_or_opened hc hd
    · obtain ⟨hdr', hr', ho⟩ := h ⟨hdr, hp⟩
      rw [hp.read] at hr'
      cases hr'
      rw [hdata]
      exact ho
    · exact ⟨hdr, sealed, hr, hs, ho⟩

/-- The associated data under which the payload of a message is sealed. -/
def messageAAD (cipher : Cipher ε) (msg : Message) : Bytes :=
  semanticAAD ((if msg.type = .text then flagText else 0) ||| flagEncrypted) cipher.algorithm

/-- The cipher opens nothing but the pair of ciphertext and associated data that it sealed for the
message. -/
def OpensOnlySealed (cipher : Cipher ε) (methods : AuthenticatedMethods ε) (rnd : Bytes)
    (msg : Message) : Prop :=
  ∀ sealed aad plaintext, methods.openAAD sealed aad = .ok plaintext →
    methods.sealAAD rnd msg.data (messageAAD cipher msg) = .ok sealed ∧ aad = messageAAD cipher msg

/-- The flags and algorithm bytes of an encoded frame. -/
lemma semanticBytes_encode {rnd frame : Bytes} (hc : c.cipher = some cipher)
    (he : c.encode rnd msg = .ok frame) :
    semanticBytes frame = ((if msg.type = .text then flagText else 0) ||| flagEncrypted) ::
      putUint16 cipher.algorithm := by
  obtain ⟨⟨magic, version, flags, algorithm, length⟩, payload, henc, rfl⟩ := of_encode_eq_ok he
  have hs := henc.sealed
  simp only [sealPayload, hc, bind, Except.bind, pure, Except.pure] at hs
  split at hs
  · cases hs
  cases hs
  rfl

/-- A frame whose flags or algorithm bytes are not those that `Encode` wrote, whatever else was
changed with them, yields no message exactly when it is not a plain frame. -/
lemma tampered_iff {methods : AuthenticatedMethods ε} {rnd frame : Bytes}
    (hc : c.cipher = some cipher) (hm : cipher.authenticated = some methods)
    (he : c.encode rnd msg = .ok frame) (ho : OpensOnlySealed cipher methods rnd msg)
    (ht : semanticBytes src ≠ semanticBytes frame) :
    (∀ x, c.decodeOne src ≠ .ok x) ↔ ¬c.PlainFrame src := by
  constructor
  · rintro h ⟨hdr, hp⟩
    exact h _ (decodeOne_plain hp)
  · rintro h ⟨msg', n⟩ hd
    obtain ⟨hdr, hp, -⟩ | ⟨hdr, sealed, hr, -, -, hopen⟩ := plain_or_opened hc hd
    · exact h ⟨hdr, hp⟩
    · -- the cipher opened it, so the associated data is the one it sealed under
      rw [Cipher.openWith, hm] at hopen
      obtain ⟨-, haad⟩ := ho _ _ _ hopen
      apply ht
      rw [Header.semanticBytes_of_read hr, semanticBytes_encode hc he]
      exact semanticAAD_inj haad

/-- Exactly when a codec with a cipher accepts only what the cipher opened. Plain frames, with the
Encrypted flag clear, are the whole exception: on every other input the data of a decoded message is
what the cipher returned under the received semantic header, and no frame with tampered flags or
algorithm bytes is decoded. -/
theorem decodeOne_authentic_iff (c : Codec ε) (cipher : Cipher ε) (hc : c.cipher = some cipher) :
    (∀ src, (∀ msg n, c.decodeOne src = .ok (msg, n) → Opened cipher src msg.data) ↔
      (c.PlainFrame src → OpensToItself cipher src)) ∧
    ∀ methods rnd msg frame, cipher.authenticated = some methods →
      c.encode rnd msg = .ok frame → OpensOnlySealed cipher methods rnd msg →
      ∀ src, semanticBytes src ≠ semanticBytes frame →
        ((∀ x, c.decodeOne src ≠ .ok x) ↔ ¬c.PlainFrame src) :=
  ⟨fun _ => opened_iff hc, fun _ _ _ _ hm he ho _ ht => tampered_iff hc hm he ho ht⟩

/-- A cipher that has sealed the payload `hi` once, with AES-GCM's identifier. -/
def sealedOnce : Cipher Unit where
  algorithm := 1
  sealBytes _ _ := .error ()
  openBytes _ := .error ()
  authenticated := some {
    sealAAD := fun rnd plaintext aad => .ok (rnd ++ plaintext.map (· ^^^ 0x5a) ++ aad)
    openAAD := fun sealed aad =>
      if sealed = [9, 0x32, 0x33] ++ semanticAAD 2 1 ∧ aad = semanticAAD 2 1 then .ok [0x68, 0x69]
      else .error () }

theorem decodeOne_authentic_iff_sealedOnce :
    let c : Codec Unit := { cipher := some sealedOnce }
    let frame := Header.bytes ⟨magic, version, 2, 1, 9⟩ ++ [9, 0x32, 0x33] ++ semanticAAD 2 1
    c.encode [9] ⟨.binary, [0x68, 0x69]⟩ = .ok frame ∧
      ∀ src, semanticBytes src ≠ semanticBytes frame →
        ((∀ x, c.decodeOne src ≠ .ok x) ↔ ¬c.PlainFrame src) := by
  refine ⟨by decide, (decodeOne_authentic_iff _ sealedOnce rfl).2 _ [9] ⟨.binary, [0x68, 0x69]⟩ _
    rfl (by decide) ?_⟩
  intro sealed aad plaintext h
  simp only at h
  split at h
  · rename_i heq
    obtain ⟨rfl, rfl⟩ := heq
    exact ⟨by decide, by decide⟩
  · cases h

/-- The frame of `sealedOnce` with its flags and algorithm cleared and another payload put in is
decoded, although the cipher does not open it. -/
theorem plain_frame_accepted :
    let c : Codec Unit := { cipher := some sealedOnce }
    let frame := Header.bytes ⟨magic, version, 2, 1, 9⟩ ++ [9, 0x32, 0x33] ++ semanticAAD 2 1
    let src := Header.bytes ⟨magic, version, 0, 0, 2⟩ ++ [0x6e, 0x6f]
    c.encode [9] ⟨.binary, [0x68, 0x69]⟩ = .ok frame ∧ semanticBytes src ≠ semanticBytes frame ∧
      c.decodeOne src = .ok (⟨.binary, [0x6e, 0x6f]⟩, 12) ∧
      ¬Opened sealedOnce src [0x6e, 0x6f] := by
  refine ⟨by decide, by decide, by decide, ?_⟩
  have hread : Header.read (Header.bytes ⟨magic, version, 0, 0, 2⟩ ++ [0x6e, 0x6f]) =
      some ⟨magic, version, 0, 0, 2⟩ := by decide
  have hopen : ∀ sealed, ciphertext ⟨magic, version, 0, 0, 2⟩ [0x6e, 0x6f] = .ok sealed →
      sealedOnce.openWith sealed (semanticAAD 0 0) ≠ .ok [0x6e, 0x6f] := by
    rintro _ ⟨⟩
    decide
  rintro ⟨h, sealed, hr, hs, ho⟩
  rw [hread, Option.some.injEq] at hr
  subst hr
  exact hopen sealed hs ho

end Codec

end Ogrenet
