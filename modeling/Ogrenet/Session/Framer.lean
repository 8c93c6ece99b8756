import Ogrenet.Chunked.Decoder
import Ogrenet.Session.Calls
import Ogrenet.Wire.Arrival

/-!
# The default framer of a stream

`wire.Codec` as the reader of a stream session sees it: what `DecodeOne` finds at the front of the
bytes read so far.
-/

namespace Ogrenet

open Wire Chunked

/-! ### The framer as a decoder -/

/-- The error values of package `wire`. -/
def Err.ofWire : WireError Err → Err
  | .needMore => .sentinel .needMore
  | .badMagic => .sentinel .badMagic
  | .unsupportedVersion => .sentinel .unsupportedVersion
  | .unsupportedFlags => .sentinel .unsupportedFlags
  | .frameTooLarge => .sentinel .frameTooLarge
  | .missingCipher => .sentinel .missingCipher
  | .algorithmMismatch => .sentinel .algorithmMismatch
  | .trailingData => .sentinel .trailingData
  | .message e => .ofMessage e
  | .encryptPayload e => .wrap "wire: encrypt payload" e
  | .decodeEncryptedText offset =>
    .wrap "wire: decode encrypted text"
      (.plain ("illegal base64 data at input byte " ++ toString offset))
  | .decryptPayload e => .wrap "wire: decrypt payload" e

namespace Codec

variable (c : Codec Err) {src : Bytes}

/-- What the reader makes of `DecodeOne`. -/
def verdict (src : Bytes) : Chunked.Verdict Message (WireError Err) :=
  match c.decodeOne src with
  | .ok (msg, n) => .frame msg n
  | .error e => if (Err.ofWire e).is .needMore then .need else .fail e

variable {c}

lemma decodeOne_of_frame {msg : Message} {n : ℕ} (h : c.verdict src = .frame msg n) :
    c.decodeOne src = .ok (msg, n) := by
  unfold verdict at h
  split at h
  · rename_i hd
    cases h
    exact hd
  · split at h <;> cases h

lemma decodeOne_of_fail {e : WireError Err} (h : c.verdict src = .fail e) :
    c.decodeOne src = .error e ∧ (Err.ofWire e).is .needMore = false := by
  unfold verdict at h
  split at h
  · cases h
  · rename_i hd
    split at h
    · cases h
    · rename_i hne
      cases h
      exact ⟨hd, Bool.not_eq_true _ ▸ hne⟩

lemma decodeOne_of_need (h : c.verdict src = .need) :
    ∃ e, c.decodeOne src = .error e ∧ (Err.ofWire e).is .needMore = true := by
  unfold verdict at h
  split at h
  · cases h
  · rename_i e hd
    split at h
    · rename_i hne
      exact ⟨e, hd, hne⟩
    · cases h

/-- The default framer. -/
def decoder (c : Codec Err) : Decoder UInt8 Message (WireError Err) where
  step := c.verdict
  step_nil := rfl
  frame_bounds {xs m n} h := by
    obtain ⟨hd, -, -, hle, -, rfl⟩ := decodeOne_eq_ok.mp (decodeOne_of_frame h)
    exact ⟨Nat.add_pos_left (by decide) _, hle⟩
  frame_append {xs m n} more h := by
    have hd := decodeOne_of_frame h
    simp only [verdict, decodeOne_append (by rw [hd]; nofun) more, hd]
  fail_append {xs e} more h := by
    obtain ⟨hd, hne⟩ := decodeOne_of_fail h
    have hmore : c.decodeOne xs ≠ .error .needMore := by
      rw [hd]
      intro he
      cases he
      exact absurd hne (by decide)
    simp only [verdict, decodeOne_append hmore more, hd, hne]
    rfl

/-- The header `h` announces a frame of the stream, after the frames before it. -/
def Announced (c : Codec Err) (stream : Bytes) (h : Header) : Prop :=
  c.Acceptable h ∧ ∃ rest, c.decoder.After stream rest ∧ Header.read rest = some h

/-- No error of the cipher is, or wraps, `ErrNeedMore`, which package `wire` keeps for frames that
are not complete. -/
def KeepsNeedMore (c : Codec Err) : Prop :=
  ∀ cipher ciphertext aad e, c.cipher = some cipher → cipher.openWith ciphertext aad = .error e →
    e.is .needMore = false

lemma needMore_of_is {e : WireError Err} (hk : c.KeepsNeedMore) (h : c.decodeOne src = .error e)
    (hn : (Err.ofWire e).is .needMore = true) : src.length < headerSize ∨
      ∃ hd, Header.read src = some hd ∧ c.Acceptable hd ∧ src.length < hd.total := by
  rcases of_decodeOne_error h with ⟨-, hshort⟩ | hhead | ⟨hd, payload, hp⟩
  · exact hshort
  · cases e with
    | badMagic | unsupportedVersion | unsupportedFlags | frameTooLarge | missingCipher
    | algorithmMismatch => cases hn
    | _ => cases hhead
  · have hpay := ofPayload_of_decodePayload hp
    cases e with
    | decryptPayload e =>
      obtain ⟨cipher, ciphertext, aad, hc, ho⟩ := open_of_decrypt hp
      have := hk cipher ciphertext aad e hc ho
      rw [show e.is .needMore = true from hn] at this
      cases this
    | message e => cases e <;> cases hn
    | frameTooLarge | missingCipher | decodeEncryptedText offset => cases hn
    | _ => cases hpay

/-- An incomplete frame is shorter than its header announces. -/
lemma fits_of_announced (hk : c.KeepsNeedMore) {cap : ℕ} (hcap : headerSize ≤ cap)
    {stream : Bytes} (hs : ∀ h, c.Announced stream h → h.total ≤ cap) :
    c.decoder.Fits cap stream := by
  intro front back hafter hneed
  obtain ⟨e, hd, hn⟩ := decodeOne_of_need hneed
  rcases needMore_of_is hk hd hn with hlt | ⟨h, hread, hacc, hlt⟩
  · omega
  · have := hs h ⟨hacc, _, hafter, Header.read_append hread back⟩
    omega

end Codec

end Ogrenet
