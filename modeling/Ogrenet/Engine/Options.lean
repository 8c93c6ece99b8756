import Ogrenet.Activity.Clock
import Ogrenet.Session.State
import Ogrenet.Wire.Codec

/-!
# The options of an Engine

`transport/options.go` and the part of `New` that reads it: the options that decide what the
sessions of an Engine are built with, each with the check that it makes on its own value. The
options for TLS, sockets, WebSocket and observers set nothing that a session of this development
reads, and only ever reject.
-/

namespace Ogrenet

/-! ### Errors -/

def errInvalidQueueSize : Err := .plain "transport: write queue size must be positive"

def errInvalidQueuedBytes : Err := .plain "transport: queued-byte limit must be positive"

def errInvalidBuffer : Err := .plain "transport: buffer sizes must be positive"

def errInvalidMessageSize : Err := .plain "transport: message size limit must be positive"

def errInvalidDatagramSize : Err :=
  .plain "transport: datagram size limit must be between 1 and 65507 bytes"

def errInvalidLimits : Err := .plain "transport: resource limits must be non-negative"

def errNilFramer : Err := .plain "transport: framer factory returned nil"

def errNilCipherFactory : Err := .plain "transport: cipher factory is nil"

def errNilCipher : Err := .plain "transport: cipher factory returned nil"

def errConflictingCodecOptions : Err :=
  .plain "transport: custom stream framer and message cipher cannot be combined"

/-! ### Configurations -/

/-- `Limits`, as the option takes it. -/
structure LimitsOption where
  maxConnections : ℤ := 0
  maxConnectionsPerPeer : ℤ := 0
  maxConnectionsPerListener : ℤ := 0
  maxConcurrentHandshakes : ℤ := 0
  maxPendingUpgrades : ℤ := 0
  maxQueuedBytesTotal : ℤ := 0
  deriving DecidableEq, Repr

def LimitsOption.validate (l : LimitsOption) : Except Err Unit :=
  if l.maxConnections < 0 ∨ l.maxConnectionsPerPeer < 0 ∨ l.maxConnectionsPerListener < 0 ∨
      l.maxConcurrentHandshakes < 0 ∨ l.maxPendingUpgrades < 0 ∨ l.maxQueuedBytesTotal < 0 then
    .error errInvalidLimits
  else .ok ()

/-- `wire.Framer`: the default codec, or one of the application. -/
inductive Framer where
  | codec (c : Codec Err)
  | custom

/-- `config`. A factory is what its call returns. -/
structure Config where
  cipher : Option (Cipher Err) := none
  cipherFactory : Option (Except Err (Option (Cipher Err))) := none
  framerFactory : Option (Option Framer) := none
  timeouts : Timeouts
  limits : LimitsOption := {}
  writeQueue : ℤ
  maxQueuedBytes : ℤ
  readBuffer : ℤ
  maxBufferedRead : ℤ
  maxMessageBytes : ℤ
  maxDatagramBytes : ℤ

def defaultConfig : Config where
  timeouts :=
    { connect := defaultConnectTimeout
      handshake := defaultHandshakeTimeout
      write := defaultWriteTimeout
      readIdle := 0
      connectionIdle := 0
      maxLifetime := 0 }
  writeQueue := 256
  maxQueuedBytes := 64 * 2 ^ 20
  readBuffer := 64 * 2 ^ 10
  maxBufferedRead := 32 * 2 ^ 20
  maxMessageBytes := 16 * 2 ^ 20
  maxDatagramBytes := 65507

inductive EngineOption where
  | limits (limits : LimitsOption)
  | cipher (cipher : Option (Cipher Err))
  | cipherFactory (factory : Option (Except Err (Option (Cipher Err))))
  | framerFactory (factory : Option (Option Framer))
  | timeouts (timeouts : Timeouts)
  | writeQueue (size : ℤ)
  | maxQueuedBytes (size : ℤ)
  | readBuffer (size : ℤ)
  | maxBufferedRead (size : ℤ)
  | maxMessageBytes (size : ℤ)
  | maxDatagramBytes (size : ℤ)

/-- What an option does to the configuration. -/
def EngineOption.apply (c : Config) : EngineOption → Except Err Config
  | .limits l => do
    l.validate
    return { c with limits := l }
  | .cipher value =>
    if c.framerFactory.isSome then .error errConflictingCodecOptions
    else .ok { c with cipher := value, cipherFactory := none }
  | .cipherFactory none => .error errNilCipherFactory
  | .cipherFactory (some factory) =>
    if c.framerFactory.isSome then .error errConflictingCodecOptions
    else .ok { c with cipher := none, cipherFactory := some factory }
  | .framerFactory none => .error errNilFramer
  | .framerFactory (some factory) =>
    if c.cipher.isSome ∨ c.cipherFactory.isSome then .error errConflictingCodecOptions
    else .ok { c with framerFactory := some factory }
  | .timeouts t => do
    let normalized ← normalizeTimeouts t
    return { c with timeouts := normalized }
  | .writeQueue size =>
    if size ≤ 0 ∨ size = Wire.maxInt then .error errInvalidQueueSize
    else .ok { c with writeQueue := size }
  | .maxQueuedBytes size =>
    if size ≤ 0 then .error errInvalidQueuedBytes else .ok { c with maxQueuedBytes := size }
  | .readBuffer size =>
    if size ≤ 0 then .error errInvalidBuffer else .ok { c with readBuffer := size }
  | .maxBufferedRead size =>
    if size ≤ 0 then .error errInvalidBuffer else .ok { c with maxBufferedRead := size }
  | .maxMessageBytes size =>
    if size ≤ 0 ∨ 2 ^ 32 - 1 < size then .error errInvalidMessageSize
    else .ok { c with maxMessageBytes := size }
  | .maxDatagramBytes size =>
    if size ≤ 0 ∨ 65507 < size then .error errInvalidDatagramSize
    else .ok { c with maxDatagramBytes := size }

/-- The configuration of the Engine that `New` returns. A nil option is skipped. -/
def newConfig (opts : List (Option EngineOption)) : Except Err Config := do
  let cfg ← opts.foldlM (fun c opt => opt.elim (.ok c) (EngineOption.apply c)) defaultConfig
  cfg.limits.validate
  return cfg

namespace Config

def newCipher (c : Config) : Except Err (Option (Cipher Err)) :=
  match c.cipherFactory with
  | none => .ok c.cipher
  | some (.error e) => .error (.wrap "transport: create cipher" e)
  | some (.ok none) => .error errNilCipher
  | some (.ok (some cipher)) => .ok (some cipher)

def newFramer (c : Config) : Except Err Framer :=
  match c.framerFactory with
  | some none => .error errNilFramer
  | some (some framer) => .ok framer
  | none => do
    let cipher ← c.newCipher
    return .codec { cipher, maxPayloadField := .ofNat c.maxMessageBytes.toNat }

/-- What `adoptStreamWithLease` builds a session with. The site and whether the connection is a
`*tls.Conn` or supports `CloseWrite` come from the connection. -/
def adoptStream (c : Config) (site : Site) (tls halfClose : Bool) : SessionConfig where
  site
  tls
  halfClose
  writeQueue := c.writeQueue.toNat
  maxQueuedBytes := c.maxQueuedBytes.toNat
  maxQueuedBytesTotal := c.limits.maxQueuedBytesTotal.toNat
  wireFramer := c.framerFactory.isNone
  readIdle := 0 < c.timeouts.readIdle
  readSize := c.readBuffer.toNat
  maxRead := c.maxBufferedRead.toNat
  activity := 0 < c.timeouts.connectionIdle ∨ 0 < c.timeouts.maxLifetime

/-! ### What the options have checked -/

/-- The sizes are in the range of their options. -/
structure Valid (c : Config) : Prop where
  limits : c.limits.validate = .ok ()
  writeQueue : 0 < c.writeQueue
  maxQueuedBytes : 0 < c.maxQueuedBytes
  readBuffer : 0 < c.readBuffer
  maxBufferedRead : 0 < c.maxBufferedRead
  maxMessageBytes : 0 < c.maxMessageBytes ∧ c.maxMessageBytes ≤ 2 ^ 32 - 1
  maxDatagramBytes : 0 < c.maxDatagramBytes ∧ c.maxDatagramBytes ≤ 65507

lemma valid_defaultConfig : defaultConfig.Valid := by
  constructor <;> decide

lemma of_guard_eq_ok {p : Prop} [Decidable p] {e : Err} {c c' : Config}
    (h : (if p then .error e else .ok c) = Except.ok c') : ¬ p ∧ c = c' := by
  split at h
  · cases h
  · rename_i hp
    exact ⟨hp, Except.ok.inj h⟩

/-- Every option keeps the ranges. -/
lemma Valid.apply {c c' : Config} (h : c.Valid) {opt : EngineOption} (ha : opt.apply c = .ok c') :
    c'.Valid := by
  cases opt with
  | limits l =>
    cases hl : l.validate with
    | error e =>
      simp only [EngineOption.apply, hl] at ha
      cases ha
    | ok _ =>
      simp only [EngineOption.apply, hl] at ha
      cases ha
      exact { h with limits := hl }
  | timeouts t =>
    cases ht : normalizeTimeouts t with
    | error e =>
      simp only [EngineOption.apply, ht] at ha
      cases ha
    | ok t =>
      simp only [EngineOption.apply, ht] at ha
      cases ha
      exact { h with }
  | cipher value =>
    obtain ⟨-, rfl⟩ := of_guard_eq_ok ha
    exact { h with }
  | cipherFactory factory =>
    cases factory with
    | none => cases ha
    | some factory =>
      obtain ⟨-, rfl⟩ := of_guard_eq_ok ha
      exact { h with }
  | framerFactory factory =>
    cases factory with
    | none => cases ha
    | some factory =>
      obtain ⟨-, rfl⟩ := of_guard_eq_ok ha
      exact { h with }
  | writeQueue size =>
    obtain ⟨hs, rfl⟩ := of_guard_eq_ok ha
    exact { h with writeQueue := Int.not_le.mp (not_or.mp hs).1 }
  | maxQueuedBytes size =>
    obtain ⟨hs, rfl⟩ := of_guard_eq_ok ha
    exact { h with maxQueuedBytes := Int.not_le.mp hs }
  | readBuffer size =>
    obtain ⟨hs, rfl⟩ := of_guard_eq_ok ha
    exact { h with readBuffer := Int.not_le.mp hs }
  | maxBufferedRead size =>
    obtain ⟨hs, rfl⟩ := of_guard_eq_ok ha
    exact { h with maxBufferedRead := Int.not_le.mp hs }
  | maxMessageBytes size =>
    obtain ⟨hs, rfl⟩ := of_guard_eq_ok ha
    obtain ⟨hpos, hmax⟩ := not_or.mp hs
    exact { h with maxMessageBytes := ⟨Int.not_le.mp hpos, Int.not_lt.mp hmax⟩ }
  | maxDatagramBytes size =>
    obtain ⟨hs, rfl⟩ := of_guard_eq_ok ha
    obtain ⟨hpos, hmax⟩ := not_or.mp hs
    exact { h with maxDatagramBytes := ⟨Int.not_le.mp hpos, Int.not_lt.mp hmax⟩ }

lemma Valid.foldlM {c c' : Config} (h : c.Valid) {opts : List (Option EngineOption)}
    (ha : opts.foldlM (fun c opt => opt.elim (.ok c) (EngineOption.apply c)) c = .ok c') :
    c'.Valid := by
  induction opts generalizing c with
  | nil =>
    cases ha
    exact h
  | cons opt opts ih =>
    rw [List.foldlM_cons] at ha
    cases opt with
    | none => exact ih h ha
    | some opt =>
      cases hopt : opt.apply c with
      | error e =>
        rw [Option.elim_some, hopt] at ha
        cases ha
      | ok c₁ =>
        rw [Option.elim_some, hopt] at ha
        exact ih (h.apply hopt) ha

/-- The configuration of an Engine is valid. -/
lemma valid_of_newConfig {opts : List (Option EngineOption)} {c : Config}
    (h : newConfig opts = .ok c) : c.Valid := by
  unfold newConfig at h
  cases hfold :
    opts.foldlM (fun c opt => opt.elim (.ok c) (EngineOption.apply c)) defaultConfig with
  | error e =>
    rw [hfold] at h
    cases h
  | ok c' =>
    rw [hfold] at h
    have hvalid := valid_defaultConfig.foldlM hfold
    simp only [bind, Except.bind, hvalid.limits] at h
    cases h
    exact hvalid

end Config

end Ogrenet
