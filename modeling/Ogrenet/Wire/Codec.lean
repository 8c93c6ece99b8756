import Ogrenet.Wire.Base64

/-!
# The wire codec

`wire/wire.go`: the ten-byte envelope, `Codec.Encode` and `Codec.DecodeOne`. The cipher is a
parameter. Its methods are functions of their input; the randomness that `Seal` draws is an explicit
argument.
-/

namespace Ogrenet

/-- `secure.Algorithm`, a stable wire identifier. -/
abbrev Algorithm := UInt16

def algNone : Algorithm := 0

/-- The methods of `secure.AuthenticatedCipher` beyond those of `secure.Cipher`. -/
structure AuthenticatedMethods (ε : Type) where
  sealAAD : (rnd plaintext aad : Bytes) → Except ε Bytes
  openAAD : (ciphertext aad : Bytes) → Except ε Bytes

/-- A `secure.Cipher` with errors `ε`. `authenticated` is what the type assertion to
`secure.AuthenticatedCipher` finds. -/
structure Cipher (ε : Type) where
  algorithm : Algorithm
  sealBytes : (rnd plaintext : Bytes) → Except ε Bytes
  openBytes : (ciphertext : Bytes) → Except ε Bytes
  authenticated : Option (AuthenticatedMethods ε)

/-- The errors of package `wire`, with those it wraps. -/
inductive WireError (ε : Type) where
  | needMore
  | badMagic
  | unsupportedVersion
  | unsupportedFlags
  | frameTooLarge
  | missingCipher
  | algorithmMismatch
  | trailingData
  | message (e : MessageError)
  | encryptPayload (e : ε)
  | decodeEncryptedText (offset : ℕ)
  | decryptPayload (e : ε)
  deriving DecidableEq, Repr

namespace Wire

def magic : UInt16 := 0x4f47

def version : UInt8 := 1

def headerSize : ℕ := 10

def flagText : UInt8 := 1

def flagEncrypted : UInt8 := 2

def knownFlags : UInt8 := flagText ||| flagEncrypted

def defaultMaxPayload : UInt32 := 16777216

/-- The largest `int` of a 64-bit platform. -/
def maxInt : ℕ := 2 ^ 63 - 1

/-! ### Big-endian fields -/

def beUint16 (b₀ b₁ : UInt8) : UInt16 := .ofNat (b₀.toNat * 256 + b₁.toNat)

def beUint32 (b₀ b₁ b₂ b₃ : UInt8) : UInt32 :=
  .ofNat (((b₀.toNat * 256 + b₁.toNat) * 256 + b₂.toNat) * 256 + b₃.toNat)

def putUint16 (v : UInt16) : Bytes := [.ofNat (v.toNat / 256), .ofNat v.toNat]

def putUint32 (v : UInt32) : Bytes :=
  [.ofNat (v.toNat / 256 ^ 3), .ofNat (v.toNat / 256 ^ 2), .ofNat (v.toNat / 256), .ofNat v.toNat]

end Wire

open Wire

/-- The fixed ten-byte header of version 1. -/
structure Header where
  magic : UInt16
  version : UInt8
  flags : UInt8
  algorithm : Algorithm
  length : UInt32
  deriving DecidableEq, Repr

namespace Header

/-- The header fields at the front of `src`; `none` when it is shorter than a header. -/
def read : Bytes → Option Header
  | m₀ :: m₁ :: v :: f :: a₀ :: a₁ :: l₀ :: l₁ :: l₂ :: l₃ :: _ =>
    some ⟨beUint16 m₀ m₁, v, f, beUint16 a₀ a₁, beUint32 l₀ l₁ l₂ l₃⟩
  | _ => none

def bytes (h : Header) : Bytes :=
  putUint16 h.magic ++ [h.version, h.flags] ++ putUint16 h.algorithm ++ putUint32 h.length

def encrypted (h : Header) : Bool := h.flags &&& flagEncrypted != 0

lemma encrypted_eq_false {h : Header} : h.encrypted = false ↔ h.flags &&& flagEncrypted = 0 := by
  simp [encrypted]

def kind (h : Header) : PayloadType := if h.flags &&& flagText != 0 then .text else .binary

/-- The bytes of the frame that the header announces. -/
def total (h : Header) : ℕ := headerSize + h.length.toNat

/-- The payload bytes of the frame at the front of `src`. -/
def payload (h : Header) (src : Bytes) : Bytes := (src.drop headerSize).take h.length.toNat

end Header

def validateSemanticHeader {ε : Type} (flags : UInt8) (algorithm : Algorithm) :
    Except (WireError ε) Unit :=
  if flags &&& ~~~knownFlags ≠ 0 then .error .unsupportedFlags
  else if flags &&& flagEncrypted = 0 ∧ algorithm ≠ algNone then .error .algorithmMismatch
  else .ok ()

def semanticAAD (flags : UInt8) (algorithm : Algorithm) : Bytes :=
  putUint16 magic ++ [version, flags] ++ putUint16 algorithm

namespace Cipher

variable {ε : Type}

/-- `OpenAAD` for an authenticated cipher and `Open` for any other. -/
def openWith (cipher : Cipher ε) (payload aad : Bytes) : Except ε Bytes :=
  match cipher.authenticated with
  | some methods => methods.openAAD payload aad
  | none => cipher.openBytes payload

/-- `SealAAD` for an authenticated cipher and `Seal` for any other. -/
def sealWith (cipher : Cipher ε) (rnd payload aad : Bytes) : Except ε Bytes :=
  match cipher.authenticated with
  | some methods => methods.sealAAD rnd payload aad
  | none => cipher.sealBytes rnd payload

end Cipher

/-- `wire.Codec`; `none` is a nil cipher. -/
structure Codec (ε : Type) where
  cipher : Option (Cipher ε) := none
  maxPayloadField : UInt32 := 0

namespace Codec

variable {ε : Type}

/-- `Codec.maxPayload()`, which reads the field `MaxPayload`. -/
def maxPayload (c : Codec ε) : UInt32 :=
  if c.maxPayloadField = 0 then defaultMaxPayload else c.maxPayloadField

/-- The checks of `DecodeOne` on the header, before it looks for the payload. -/
def checkHeader (c : Codec ε) (h : Header) : Except (WireError ε) Unit := do
  if h.magic ≠ magic then throw .badMagic
  if h.version ≠ version then throw .unsupportedVersion
  validateSemanticHeader h.flags h.algorithm
  if c.maxPayload < h.length then throw .frameTooLarge
  if h.encrypted then
    match c.cipher with
    | none => throw .missingCipher
    | some cipher => if cipher.algorithm ≠ h.algorithm then throw .algorithmMismatch
  if maxInt < h.length.toNat + headerSize then throw .frameTooLarge

/-- The ciphertext in the payload of an encrypted frame: text frames carry it in base64. -/
def ciphertext (h : Header) (payload : Bytes) : Except ℕ Bytes :=
  match h.kind with
  | .text => base64Decode payload
  | _ => .ok payload

/-- The payload as the application sees it. -/
def openPayload (c : Codec ε) (h : Header) (payload : Bytes) : Except (WireError ε) Bytes :=
  if h.encrypted then
    match ciphertext h payload with
    | .error offset => .error (.decodeEncryptedText offset)
    | .ok sealed =>
      match c.cipher with
      | none => .error .missingCipher
      | some cipher =>
        (cipher.openWith sealed (semanticAAD h.flags h.algorithm)).mapError .decryptPayload
  else .ok payload

/-- `DecodeOne` once the whole payload is there. -/
def decodePayload (c : Codec ε) (h : Header) (payload : Bytes) :
    Except (WireError ε) Message := do
  let payload ← c.openPayload h payload
  if c.maxPayload.toNat < payload.length then throw .frameTooLarge
  let msg : Message := ⟨h.kind, payload⟩
  msg.validate.mapError .message
  return msg

def decodeOne (c : Codec ε) (src : Bytes) : Except (WireError ε) (Message × ℕ) := do
  match Header.read src with
  | none => throw .needMore
  | some h =>
    c.checkHeader h
    if src.length < h.total then throw .needMore
    let msg ← c.decodePayload h (h.payload src)
    return (msg, h.total)

/-- `Decode`, which wants exactly one frame. -/
def decode (c : Codec ε) (src : Bytes) : Except (WireError ε) Message := do
  let (msg, n) ← c.decodeOne src
  if n ≠ src.length then throw .trailingData
  return msg

/-- The payload that `Encode` puts on the wire. -/
def sealPayload (c : Codec ε) (rnd : Bytes) (msg : Message) (flags : UInt8) :
    Except (WireError ε) (UInt8 × Algorithm × Bytes) :=
  match c.cipher with
  | none => .ok (flags, algNone, msg.data)
  | some cipher => do
    let flags := flags ||| flagEncrypted
    let sealed ← (cipher.sealWith rnd msg.data
      (semanticAAD flags cipher.algorithm)).mapError .encryptPayload
    return (flags, cipher.algorithm, if msg.type = .text then base64Encode sealed else sealed)

/-- `Encode`, with the randomness its cipher draws. -/
def encode (c : Codec ε) (rnd : Bytes) (msg : Message) : Except (WireError ε) Bytes := do
  msg.validate.mapError .message
  if c.maxPayload.toNat < msg.data.length then throw .frameTooLarge
  let (flags, algorithm, payload) ←
    c.sealPayload rnd msg (if msg.type = .text then flagText else 0)
  if c.maxPayload.toNat < payload.length ∨ 2 ^ 32 - 1 < payload.length then throw .frameTooLarge
  return Header.bytes ⟨magic, version, flags, algorithm, .ofNat payload.length⟩ ++ payload

/-! ### What the steps of `DecodeOne` accept -/

lemma validateSemanticHeader_eq_ok (flags : UInt8) (algorithm : Algorithm) :
    (validateSemanticHeader flags algorithm : Except (WireError ε) Unit) = .ok () ↔
      flags &&& ~~~knownFlags = 0 ∧ (flags &&& flagEncrypted = 0 → algorithm = algNone) := by
  unfold validateSemanticHeader
  split_ifs with h₁ h₂
  · simp [h₁]
  · simp [h₂]
  · simp only [true_iff]
    exact ⟨not_not.mp h₁, fun h => by_contra fun ha => h₂ ⟨h, ha⟩⟩

/-- A header that `DecodeOne` goes past. -/
structure Acceptable (c : Codec ε) (h : Header) : Prop where
  magic : h.magic = Wire.magic
  version : h.version = Wire.version
  known : h.flags &&& ~~~knownFlags = 0
  plain : h.encrypted = false → h.algorithm = algNone
  length : h.length ≤ c.maxPayload
  cipher : h.encrypted = true → ∃ cipher, c.cipher = some cipher ∧ cipher.algorithm = h.algorithm

lemma checkHeader_eq_ok {c : Codec ε} {h : Header} : c.checkHeader h = .ok () ↔ c.Acceptable h := by
  -- a 32-bit length never overflows a 64-bit int
  have hsmall : ¬maxInt < h.length.toNat + headerSize := by
    have := h.length.toNat_lt
    simp only [maxInt, headerSize]
    omega
  have hsem := validateSemanticHeader_eq_ok (ε := ε) h.flags h.algorithm
  unfold checkHeader
  simp only [bind, Except.bind, pure, Except.pure, throw, throwThe, MonadExceptOf.throw, hsmall,
    if_false]
  constructor
  · intro hh
    split at hh
    · cases hh
    rename_i hmagic
    split at hh
    · cases hh
    rename_i hversion
    split at hh
    · cases hh
    rename_i hvalid
    split at hh
    · cases hh
    rename_i hlength
    obtain ⟨hknown, hplain⟩ := hsem.mp hvalid
    refine ⟨not_not.mp hmagic, not_not.mp hversion, hknown,
      fun he => hplain (Header.encrypted_eq_false.mp he), UInt32.not_lt.mp hlength, fun he => ?_⟩
    rw [if_pos he] at hh
    split at hh
    · cases hh
    rename_i cipher hc
    split at hh
    · cases hh
    rename_i ha
    exact ⟨cipher, hc, not_not.mp ha⟩
  · intro ha
    have hvalid := hsem.mpr ⟨ha.known, fun h0 => ha.plain (Header.encrypted_eq_false.mpr h0)⟩
    have hlength : ¬c.maxPayload < h.length := UInt32.not_lt.mpr ha.length
    simp only [ha.magic, ha.version, hvalid, hlength, ne_eq, not_true_eq_false, if_false]
    split
    · rename_i he
      obtain ⟨cipher, hc, halg⟩ := ha.cipher he
      simp [hc, halg]
    · rfl

lemma decodePayload_eq_ok {c : Codec ε} {h : Header} {payload : Bytes} {msg : Message} :
    c.decodePayload h payload = .ok msg ↔ ∃ data, c.openPayload h payload = .ok data ∧
      data.length ≤ c.maxPayload.toNat ∧ msg = ⟨h.kind, data⟩ ∧ msg.validate = .ok () := by
  unfold decodePayload
  cases ho : c.openPayload h payload with
  | error e => simp [bind, Except.bind]
  | ok data =>
    simp only [bind, Except.bind, throw, throwThe, MonadExceptOf.throw, pure, Except.pure,
      Except.ok.injEq, exists_eq_left']
    split
    · rename_i hlt
      simp [Nat.not_le.mpr hlt]
    · rename_i hle
      cases hv : (⟨h.kind, data⟩ : Message).validate with
      | error e =>
        simp only [Except.mapError, reduceCtorEq, false_iff]
        rintro ⟨-, rfl, hm⟩
        rw [hv] at hm
        cases hm
      | ok _ =>
        simp only [Except.mapError, Except.ok.injEq]
        constructor
        · rintro rfl
          exact ⟨Nat.not_lt.mp hle, rfl, hv⟩
        · rintro ⟨-, rfl, -⟩
          rfl

lemma decodeOne_eq_ok {c : Codec ε} {src : Bytes} {msg : Message} {n : ℕ} :
    c.decodeOne src = .ok (msg, n) ↔ ∃ h, Header.read src = some h ∧ c.Acceptable h ∧
      h.total ≤ src.length ∧ c.decodePayload h (h.payload src) = .ok msg ∧ n = h.total := by
  unfold decodeOne
  cases hr : Header.read src with
  | none => simp [throw, throwThe, MonadExceptOf.throw]
  | some h =>
    simp only [bind, Except.bind, throw, throwThe, MonadExceptOf.throw, pure, Except.pure,
      Option.some.injEq, exists_eq_left']
    rw [← checkHeader_eq_ok]
    cases hc : c.checkHeader h with
    | error e => simp
    | ok _ =>
      simp only [true_and]
      split
      · rename_i hlt
        simp [Nat.not_le.mpr hlt]
      · rename_i hle
        cases hd : c.decodePayload h (h.payload src) with
        | error e => simp
        | ok m => simp [Nat.not_lt.mp hle, eq_comm]

/-- What `Encode` has checked and the frame that it builds. -/
structure Encoded (c : Codec ε) (rnd : Bytes) (msg : Message) (h : Header) (payload : Bytes) :
    Prop where
  valid : msg.validate = .ok ()
  data : msg.data.length ≤ c.maxPayload.toNat
  magic : h.magic = Wire.magic
  version : h.version = Wire.version
  sealed : c.sealPayload rnd msg (if msg.type = .text then flagText else 0) =
    .ok (h.flags, h.algorithm, payload)
  bound : payload.length ≤ c.maxPayload.toNat
  length : h.length.toNat = payload.length

lemma of_encode_eq_ok {c : Codec ε} {rnd frame : Bytes} {msg : Message}
    (h : c.encode rnd msg = .ok frame) :
    ∃ hdr payload, c.Encoded rnd msg hdr payload ∧ frame = hdr.bytes ++ payload := by
  simp only [encode, bind, Except.bind, throw, throwThe, MonadExceptOf.throw, pure,
    Except.pure] at h
  split at h
  · cases h
  rename_i hvalid
  split at h
  · cases h
  rename_i hdata
  split at h
  · cases h
  rename_i sealed hsealed
  obtain ⟨flags, algorithm, payload⟩ := sealed
  simp only at h
  split at h
  · cases h
  rename_i hsize
  cases h
  obtain ⟨hmax, hlen⟩ := not_or.mp hsize
  refine ⟨_, payload, ⟨?_, Nat.not_lt.mp hdata, rfl, rfl, hsealed, Nat.not_lt.mp hmax, ?_⟩, rfl⟩
  · cases hv : msg.validate with
    | error e =>
      rw [hv] at hvalid
      cases hvalid
    | ok _ => rfl
  · rw [UInt32.toNat_ofNat_of_lt' (by simp only [UInt32.size]; omega)]

end Codec

end Ogrenet
