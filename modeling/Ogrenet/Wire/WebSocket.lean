import Mathlib.Algebra.Order.Ring.Int
import Ogrenet.Errors
import Ogrenet.Wire.RoundTrip

/-!
# Sealed WebSocket payloads

`wsSession.encode` and `wsSession.decode` of `transport/websocket.go`. The associated data of a
sealed payload says which scheme and payload type it is for, in four bytes; that of a wire frame has
six. A cipher that opens a payload only under the associated data it was sealed with therefore opens
it in no other context.
-/

namespace Ogrenet

/-- `websocket.MessageType` is an `int`; `other` are the values that are neither of its
constants. -/
inductive WsType where
  | text
  | binary
  | other (v : ℤ)
  deriving DecidableEq, Repr

inductive WsCodecError (ε : Type) where
  | message (e : MessageError)
  | messageTooLarge
  | encrypt (e : ε)
  | unsupportedType (typ : WsType)
  | textBase64 (offset : ℕ)
  | decrypt (e : ε)
  deriving DecidableEq, Repr

/-- `byte(protocol)`. -/
def Scheme.byte : Scheme → UInt8
  | .tcp => 1
  | .udp => 2
  | .tls => 3
  | .ws => 4
  | .wss => 5

/-- `byte(kind)`. -/
def PayloadType.byte : PayloadType → UInt8
  | .binary => 0
  | .text => 1
  | .invalid v => v

def wsAAD (protocol : Scheme) (kind : PayloadType) : Bytes := [0x4f, 0x47, protocol.byte, kind.byte]

/-- The fields of a `wsSession` that `encode` and `decode` read. -/
structure WsCodec (ε : Type) where
  protocol : Scheme
  cipher : Option (Cipher ε) := none
  maxMessage : ℤ

namespace WsCodec

variable {ε : Type}

/-- The message type on the wire. -/
def typeOf : PayloadType → WsType
  | .text => .text
  | _ => .binary

/-- The payload type of a message as received; `none` for an unsupported one. -/
def kindOf : WsType → Option PayloadType
  | .text => some .text
  | .binary => some .binary
  | .other _ => none

/-- The payload that `encode` sends. -/
def sealPayload (s : WsCodec ε) (rnd : Bytes) (msg : Message) : Except (WsCodecError ε) Bytes :=
  match s.cipher with
  | none => .ok msg.data
  | some cipher => do
    let sealed ← (cipher.sealWith rnd msg.data (wsAAD s.protocol msg.type)).mapError .encrypt
    return if msg.type = .text then base64Encode sealed else sealed

/-- `encode`, with the randomness its cipher draws. -/
def encode (s : WsCodec ε) (rnd : Bytes) (msg : Message) :
    Except (WsCodecError ε) (WsType × Bytes) := do
  msg.validate.mapError .message
  if s.maxMessage < msg.data.length then throw .messageTooLarge
  let payload ← s.sealPayload rnd msg
  if s.maxMessage < payload.length then throw .messageTooLarge
  return (typeOf msg.type, payload)

/-- The ciphertext in a sealed payload: texts carry it in base64. -/
def ciphertext (kind : PayloadType) (payload : Bytes) : Except ℕ Bytes :=
  if kind = .text then base64Decode payload else .ok payload

/-- The payload as the application sees it. -/
def openPayload (s : WsCodec ε) (kind : PayloadType) (payload : Bytes) :
    Except (WsCodecError ε) Bytes :=
  match s.cipher with
  | none => .ok payload
  | some cipher => do
    let sealed ← (ciphertext kind payload).mapError .textBase64
    (cipher.openWith sealed (wsAAD s.protocol kind)).mapError .decrypt

def decode (s : WsCodec ε) (typ : WsType) (payload : Bytes) : Except (WsCodecError ε) Message := do
  match kindOf typ with
  | none => throw (.unsupportedType typ)
  | some kind =>
    if s.maxMessage < payload.length then throw .messageTooLarge
    let data ← s.openPayload kind payload
    if s.maxMessage < data.length then throw .messageTooLarge
    let msg : Message := ⟨kind, data⟩
    msg.validate.mapError .message
    return msg

/-! ### What `encode` and `decode` accept -/

lemma decode_eq_ok {s : WsCodec ε} {typ : WsType} {payload : Bytes} {msg : Message} :
    s.decode typ payload = .ok msg ↔ kindOf typ = some msg.type ∧
      (payload.length : ℤ) ≤ s.maxMessage ∧ s.openPayload msg.type payload = .ok msg.data ∧
      (msg.data.length : ℤ) ≤ s.maxMessage ∧ msg.validate = .ok () := by
  obtain ⟨type, data⟩ := msg
  unfold decode
  cases hk : kindOf typ with
  | none => simp [throw, throwThe, MonadExceptOf.throw]
  | some kind =>
    simp only [bind, Except.bind, throw, throwThe, MonadExceptOf.throw, pure, Except.pure,
      Option.some.injEq]
    split
    · rename_i hlt
      simp only [reduceCtorEq, false_iff, not_and]
      exact fun _ hle => absurd hle (Int.not_le.mpr hlt)
    · rename_i hlen
      cases ho : s.openPayload kind payload with
      | error e =>
        simp only [reduceCtorEq, false_iff]
        rintro ⟨rfl, -, hok, -⟩
        rw [ho] at hok
        cases hok
      | ok data' =>
        simp only
        split
        · rename_i hlt
          simp only [reduceCtorEq, false_iff]
          rintro ⟨rfl, -, hok, hle, -⟩
          rw [ho] at hok
          cases hok
          exact Int.not_le.mpr hlt hle
        · rename_i hlen'
          cases hv : (⟨kind, data'⟩ : Message).validate with
          | error e =>
            simp only [Except.mapError, reduceCtorEq, false_iff]
            rintro ⟨rfl, -, hok, -, hvalid⟩
            rw [ho] at hok
            cases hok
            rw [hv] at hvalid
            cases hvalid
          | ok _ =>
            simp only [Except.mapError, Except.ok.injEq, Message.mk.injEq]
            constructor
            · rintro ⟨rfl, rfl⟩
              exact ⟨rfl, Int.not_lt.mp hlen, ho, Int.not_lt.mp hlen', hv⟩
            · rintro ⟨rfl, -, hok, -⟩
              rw [ho] at hok
              cases hok
              exact ⟨rfl, rfl⟩

/-- What `encode` has checked. -/
lemma of_encode_eq_ok {s : WsCodec ε} {rnd payload : Bytes} {msg : Message} {typ : WsType}
    (h : s.encode rnd msg = .ok (typ, payload)) :
    msg.validate = .ok () ∧ (msg.data.length : ℤ) ≤ s.maxMessage ∧
      s.sealPayload rnd msg = .ok payload ∧ (payload.length : ℤ) ≤ s.maxMessage ∧
      typ = typeOf msg.type := by
  simp only [encode, bind, Except.bind, throw, throwThe, MonadExceptOf.throw, pure,
    Except.pure] at h
  split at h
  · cases h
  rename_i hvalid
  split at h
  · cases h
  rename_i hdata
  split at h
  · cases h
  rename_i sealed hsealed
  split at h
  · cases h
  rename_i hlen
  cases h
  refine ⟨?_, Int.not_lt.mp hdata, hsealed, Int.not_lt.mp hlen, rfl⟩
  cases hv : msg.validate with
  | error e =>
    rw [hv] at hvalid
    cases hvalid
  | ok _ => rfl

/-! ### Sealed payloads -/

variable {s s' : WsCodec ε} {c : Codec ε} {cipher : Cipher ε} {methods : AuthenticatedMethods ε}
  {rnd aad payload : Bytes} {msg msg' : Message} {typ typ' : WsType}

/-- The cipher opens the pair of ciphertext and associated data that it sealed for the message, to
the message, and no other pair. -/
def OpensExactly (methods : AuthenticatedMethods ε) (rnd aad : Bytes) (msg : Message) : Prop :=
  ∀ sealed aad' plaintext, methods.openAAD sealed aad' = .ok plaintext ↔
    methods.sealAAD rnd msg.data aad = .ok sealed ∧ aad' = aad ∧ plaintext = msg.data

/-- The payload carries the ciphertext that was sealed for the message under the associated data of
the session and of the type it came with. -/
def Carries (s : WsCodec ε) (methods : AuthenticatedMethods ε) (rnd aad : Bytes) (msg : Message)
    (typ : WsType) (payload : Bytes) : Prop :=
  ∃ kind sealed, kindOf typ = some kind ∧ ciphertext kind payload = .ok sealed ∧
    methods.sealAAD rnd msg.data aad = .ok sealed ∧ aad = wsAAD s.protocol kind

lemma openPayload_eq_ok (hc : s.cipher = some cipher) (hm : cipher.authenticated = some methods)
    {kind : PayloadType} {data : Bytes} : s.openPayload kind payload = .ok data ↔
      ∃ sealed, ciphertext kind payload = .ok sealed ∧
        methods.openAAD sealed (wsAAD s.protocol kind) = .ok data := by
  simp only [openPayload, hc, Cipher.openWith, hm, bind, Except.bind]
  cases hs : ciphertext kind payload with
  | error e => simp [Except.mapError]
  | ok sealed =>
    simp only [Except.mapError, Except.ok.injEq, exists_eq_left']
    cases ho : methods.openAAD sealed (wsAAD s.protocol kind) <;> simp

/-- A session with a cipher accepts sealed payloads only. -/
lemma carries_of_decode (hc : s.cipher = some cipher) (hm : cipher.authenticated = some methods)
    (ho : OpensExactly methods rnd aad msg) (hd : s.decode typ payload = .ok msg') :
    s.Carries methods rnd aad msg typ payload := by
  obtain ⟨hk, -, hopen, -⟩ := decode_eq_ok.mp hd
  obtain ⟨sealed, hs, hopen⟩ := (openPayload_eq_ok hc hm).mp hopen
  obtain ⟨hseal, haad, -⟩ := (ho _ _ _).mp hopen
  exact ⟨msg'.type, sealed, hk, hs, hseal, haad.symm⟩

lemma kindOf_typeOf (hv : msg.validate = .ok ()) : kindOf (typeOf msg.type) = some msg.type := by
  obtain ⟨type, data⟩ := msg
  cases type with
  | binary | text => rfl
  | invalid v => cases hv

/-- What `encode` seals is what `decode` finds in the payload. -/
lemma ciphertext_sealPayload (hc : s.cipher = some cipher)
    (hm : cipher.authenticated = some methods) (hs : s.sealPayload rnd msg = .ok payload) :
    ∃ sealed, ciphertext msg.type payload = .ok sealed ∧
      methods.sealAAD rnd msg.data (wsAAD s.protocol msg.type) = .ok sealed := by
  simp only [sealPayload, hc, Cipher.sealWith, hm, bind, Except.bind, pure, Except.pure] at hs
  cases hw : methods.sealAAD rnd msg.data (wsAAD s.protocol msg.type) with
  | error e =>
    rw [hw] at hs
    cases hs
  | ok sealed =>
    rw [hw] at hs
    cases hs
    refine ⟨sealed, ?_, rfl⟩
    unfold ciphertext
    split
    · exact base64Decode_encode sealed
    · rfl

lemma decode_encode (hc : s.cipher = some cipher) (hm : cipher.authenticated = some methods)
    (ho : OpensExactly methods rnd (wsAAD s.protocol msg.type) msg)
    (he : s.encode rnd msg = .ok (typ, payload)) (hc' : s'.cipher = some cipher)
    (hprotocol : s'.protocol = s.protocol) (hmax : s'.maxMessage = s.maxMessage) :
    s'.decode typ payload = .ok msg := by
  obtain ⟨hv, hdata, hs, hlen, rfl⟩ := of_encode_eq_ok he
  obtain ⟨sealed, hsealed, hseal⟩ := ciphertext_sealPayload hc hm hs
  have hopen := (ho sealed _ msg.data).mpr ⟨hseal, rfl, rfl⟩
  refine decode_eq_ok.mpr ⟨kindOf_typeOf hv, by rw [hmax]; exact hlen, ?_,
    by rw [hmax]; exact hdata,
    hv⟩
  exact (openPayload_eq_ok hc' hm).mpr ⟨sealed, hsealed, by rw [hprotocol]; exact hopen⟩

/-- The associated data says which scheme and type a payload is for. -/
lemma wsAAD_inj {protocol protocol' : Scheme} {kind kind' : PayloadType}
    (hk : kindOf typ = some kind) (hk' : kindOf typ' = some kind')
    (h : wsAAD protocol kind = wsAAD protocol' kind') : protocol = protocol' ∧ typ = typ' := by
  simp only [wsAAD, List.cons.injEq, and_true, true_and] at h
  constructor
  · revert h
    cases protocol <;> cases protocol' <;> simp [Scheme.byte]
  · have hbyte : kind.byte = kind'.byte := h.2
    cases typ <;> cases typ' <;> cases hk <;> cases hk' <;> first
      | rfl
      | exact absurd hbyte (by decide)

/-- No associated data of a session is that of a frame. -/
lemma wsAAD_ne_semanticAAD (protocol : Scheme) (kind : PayloadType) (flags : UInt8)
    (algorithm : Algorithm) : wsAAD protocol kind ≠ semanticAAD flags algorithm := fun h => by
  have := congrArg List.length h
  simp [wsAAD, semanticAAD, Wire.putUint16] at this

/-- A sealed payload is refused under another scheme and with another message type. -/
lemma decode_ne_ok (he : s.encode rnd msg = .ok (typ, payload))
    (ho : OpensExactly methods rnd (wsAAD s.protocol msg.type) msg)
    (hm : cipher.authenticated = some methods) (hc' : s'.cipher = some cipher)
    (hne : s'.protocol ≠ s.protocol ∨ typ' ≠ typ) :
    s'.decode typ' payload ≠ .ok msg' := fun hd => by
  obtain ⟨hv, -, -, -, rfl⟩ := of_encode_eq_ok he
  obtain ⟨kind, sealed, hk, -, -, haad⟩ := carries_of_decode hc' hm ho hd
  obtain ⟨hprotocol, htyp⟩ := wsAAD_inj (kindOf_typeOf hv) hk haad
  exact hne.elim (fun h => h hprotocol.symm) fun h => h htyp.symm

/-- A frame with the Encrypted flag is refused when a session has sealed. -/
lemma decodeOne_ne_ok {src : Bytes} {h : Header} {kind : PayloadType} {x : Message × ℕ}
    (ho : OpensExactly methods rnd (wsAAD s.protocol kind) msg)
    (hm : cipher.authenticated = some methods) (hc : c.cipher = some cipher)
    (hr : Header.read src = some h) (hencrypted : h.encrypted = true) :
    c.decodeOne src ≠ .ok x := fun hd => by
  obtain ⟨h', hplain, -⟩ | ⟨h', sealed, -, -, -, hopen⟩ := Codec.plain_or_opened hc hd
  · cases hplain.read.symm.trans hr
    rcases hplain.flags with hf | hf <;> rw [Header.encrypted, hf] at hencrypted <;>
      exact absurd hencrypted (by decide)
  · rw [Cipher.openWith, hm] at hopen
    obtain ⟨-, haad, -⟩ := (ho _ _ _).mp hopen
    exact wsAAD_ne_semanticAAD _ _ _ _ haad.symm

/-- Sealed payloads are bound to their context. What a session sealed is decoded to its message by a
session of the same scheme and limit; it is refused under another scheme or with another message
type, and in a frame with the Encrypted flag. What a codec sealed is refused by every session. A
session with a cipher accepts nothing but what was sealed for it. -/
theorem sealed_bound_to_context (cipher : Cipher ε) (methods : AuthenticatedMethods ε)
    (hm : cipher.authenticated = some methods) (rnd : Bytes) (msg : Message) :
    (∀ s : WsCodec ε, s.cipher = some cipher →
      OpensExactly methods rnd (wsAAD s.protocol msg.type) msg →
      ∀ typ payload, s.encode rnd msg = .ok (typ, payload) →
        (∀ s' : WsCodec ε, s'.cipher = some cipher → s'.protocol = s.protocol →
          s'.maxMessage = s.maxMessage → s'.decode typ payload = .ok msg) ∧
        (∀ s' : WsCodec ε, s'.cipher = some cipher → ∀ typ', s'.protocol ≠ s.protocol ∨ typ' ≠ typ →
          ∀ msg', s'.decode typ' payload ≠ .ok msg') ∧
        ∀ c : Codec ε, c.cipher = some cipher → ∀ src h, Header.read src = some h →
          h.encrypted = true → h.payload src = payload → ∀ x, c.decodeOne src ≠ .ok x) ∧
    (∀ c : Codec ε, c.cipher = some cipher →
      OpensExactly methods rnd (Codec.messageAAD cipher msg) msg →
      ∀ frame, c.encode rnd msg = .ok frame → ∀ s : WsCodec ε, s.cipher = some cipher →
        ∀ typ msg', s.decode typ (frame.drop Wire.headerSize) ≠ .ok msg') ∧
    ∀ s : WsCodec ε, s.cipher = some cipher → ∀ aad, OpensExactly methods rnd aad msg →
      ∀ typ payload msg', s.decode typ payload = .ok msg' →
        s.Carries methods rnd aad msg typ payload := by
  refine ⟨fun s hc ho typ payload he => ⟨fun s' hc' => decode_encode hc hm ho he hc',
    fun s' hc' typ' hne msg' => decode_ne_ok he ho hm hc' hne,
    fun c hc' src h hr hencrypted _ x => decodeOne_ne_ok ho hm hc' hr hencrypted⟩,
    fun c hc ho frame he s hc' typ msg' hd => ?_,
    fun s hc aad ho typ payload msg' hd => carries_of_decode hc hm ho hd⟩
  obtain ⟨kind, sealed, -, -, -, haad⟩ := carries_of_decode hc' hm ho hd
  exact wsAAD_ne_semanticAAD _ _ _ _ haad.symm

/-- A cipher that has sealed the text `hi` once, for a session of scheme ws. -/
def sealedText : Cipher Unit where
  algorithm := 1
  sealBytes _ _ := .error ()
  openBytes _ := .error ()
  authenticated := some {
    sealAAD := fun rnd plaintext aad => .ok (rnd ++ plaintext.map (· ^^^ 0x5a) ++ aad)
    openAAD := fun sealed aad =>
      if sealed = [9, 0x32, 0x33] ++ wsAAD .ws .text ∧ aad = wsAAD .ws .text then .ok [0x68, 0x69]
      else .error () }

lemma sealedText_opens {methods : AuthenticatedMethods Unit}
    (hm : sealedText.authenticated = some methods) :
    OpensExactly methods [9] (wsAAD .ws .text) ⟨.text, [0x68, 0x69]⟩ := by
  cases hm
  have hseal : [9] ++ [0x68, 0x69].map (· ^^^ (0x5a : UInt8)) = [9, 0x32, 0x33] := by decide
  intro sealed aad plaintext
  simp only [hseal, Except.ok.injEq]
  split
  · rename_i heq
    obtain ⟨rfl, rfl⟩ := heq
    simp [eq_comm]
  · rename_i hne
    simp only [reduceCtorEq, false_iff]
    rintro ⟨rfl, rfl, -⟩
    exact hne ⟨rfl, rfl⟩

theorem sealed_bound_to_context_sealedText :
    let s : WsCodec Unit := { protocol := .ws, cipher := some sealedText, maxMessage := 64 }
    let payload := base64Encode ([9, 0x32, 0x33] ++ wsAAD .ws .text)
    s.encode [9] ⟨.text, [0x68, 0x69]⟩ = .ok (.text, payload) ∧
      s.decode .text payload = .ok ⟨.text, [0x68, 0x69]⟩ ∧
      ∀ msg', WsCodec.decode { s with protocol := .wss } .text payload ≠ .ok msg' := by
  intro s payload
  have he : s.encode [9] ⟨.text, [0x68, 0x69]⟩ = .ok (.text, payload) := by decide
  obtain ⟨hsame, hother, -⟩ := (sealed_bound_to_context sealedText _ rfl [9]
    ⟨.text, [0x68, 0x69]⟩).1 s rfl (sealedText_opens rfl) .text payload he
  exact ⟨he, hsame s rfl rfl rfl, hother _ rfl .text (.inl nofun)⟩

end WsCodec

end Ogrenet
