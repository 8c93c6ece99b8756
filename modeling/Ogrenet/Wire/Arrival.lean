import Ogrenet.Wire.Codec

/-!
# Frames that arrive in pieces

How `DecodeOne` fails, and how its answer changes when more bytes arrive.
-/

namespace Ogrenet

open Wire

/-! ### More bytes behind a frame -/

lemma Header.read_append {src : Bytes} {h : Header} (hr : Header.read src = some h) (more : Bytes) :
    Header.read (src ++ more) = some h := by
  unfold Header.read at hr
  split at hr
  · cases hr
    rfl
  · cases hr

lemma Header.length_of_read_none {src : Bytes} (hr : Header.read src = none) :
    src.length < headerSize := by
  match src, hr with
  | [], _ | [_], _ | [_, _], _ | [_, _, _], _ | [_, _, _, _], _ | [_, _, _, _, _], _
  | [_, _, _, _, _, _], _ | [_, _, _, _, _, _, _], _ | [_, _, _, _, _, _, _, _], _
  | [_, _, _, _, _, _, _, _, _], _ => simp [headerSize]
  | _ :: _ :: _ :: _ :: _ :: _ :: _ :: _ :: _ :: _ :: _, hr => cases hr

lemma Header.payload_append {src : Bytes} {h : Header} (hle : h.total ≤ src.length)
    (more : Bytes) : h.payload (src ++ more) = h.payload src := by
  have hdrop : h.length.toNat ≤ (src.drop headerSize).length := by
    rw [List.length_drop]
    rw [Header.total] at hle
    omega
  rw [Header.payload, Header.payload,
    List.drop_append_of_le_length (Nat.le_trans (Nat.le_add_right _ _) hle),
    List.take_append_of_le_length hdrop]

/-- The errors of the header check. -/
def WireError.ofHeader {ε : Type} : WireError ε → Bool
  | .badMagic | .unsupportedVersion | .unsupportedFlags | .frameTooLarge | .missingCipher
  | .algorithmMismatch => true
  | _ => false

/-- The errors of a complete frame. -/
def WireError.ofPayload {ε : Type} : WireError ε → Bool
  | .frameTooLarge | .missingCipher | .message _ | .decodeEncryptedText _
  | .decryptPayload _ => true
  | _ => false

namespace Codec

variable {ε : Type} {c : Codec ε} {src : Bytes}

lemma ofHeader_of_checkHeader {h : Header} {e : WireError ε} (hh : c.checkHeader h = .error e) :
    e.ofHeader = true := by
  have hsem : ∀ e', validateSemanticHeader h.flags h.algorithm = .error e' →
      (e' : WireError ε).ofHeader = true := fun e' hv => by
    simp only [validateSemanticHeader] at hv
    split at hv
    · cases hv
      rfl
    · split at hv
      · cases hv
        rfl
      · cases hv
  simp only [checkHeader, bind, Except.bind, pure, Except.pure, throw, throwThe,
    MonadExceptOf.throw] at hh
  split at hh
  · cases hh
    rfl
  split at hh
  · cases hh
    rfl
  split at hh
  · rename_i hv
    cases hh
    exact hsem _ hv
  repeat' split at hh
  all_goals cases hh <;> rfl

lemma ofPayload_of_openPayload {h : Header} {payload : Bytes} {e : WireError ε}
    (hh : c.openPayload h payload = .error e) : e.ofPayload = true := by
  simp only [openPayload] at hh
  split at hh
  · split at hh
    · cases hh
      rfl
    · split at hh
      · cases hh
        rfl
      · rename_i ciphertext _ _ cipher _
        cases ho : cipher.openWith ciphertext (semanticAAD h.flags h.algorithm) with
        | error e' =>
          rw [ho] at hh
          cases hh
          rfl
        | ok data =>
          rw [ho] at hh
          cases hh
  · cases hh

lemma ofPayload_of_decodePayload {h : Header} {payload : Bytes} {e : WireError ε}
    (hh : c.decodePayload h payload = .error e) : e.ofPayload = true := by
  simp only [decodePayload, bind, Except.bind, pure, Except.pure, throw, throwThe,
    MonadExceptOf.throw] at hh
  split at hh
  · rename_i ho
    cases hh
    exact ofPayload_of_openPayload ho
  split at hh
  · cases hh
    rfl
  split at hh
  · rename_i hv
    cases hh
    cases hm : Message.validate _ with
    | error e' =>
      rw [hm] at hv
      cases hv
      rfl
    | ok _ =>
      rw [hm] at hv
      cases hv
  · cases hh

/-- How `DecodeOne` fails. -/
lemma of_decodeOne_error {e : WireError ε} (h : c.decodeOne src = .error e) :
    (e = .needMore ∧ (src.length < headerSize ∨
      ∃ hd, Header.read src = some hd ∧ c.Acceptable hd ∧ src.length < hd.total)) ∨
    e.ofHeader = true ∨
    ∃ hd payload, c.decodePayload hd payload = .error e := by
  unfold decodeOne at h
  cases hr : Header.read src with
  | none =>
    rw [hr] at h
    cases h
    exact Or.inl ⟨rfl, Or.inl (Header.length_of_read_none hr)⟩
  | some hd =>
    simp only [hr, bind, Except.bind, throw, throwThe, MonadExceptOf.throw] at h
    cases hc : c.checkHeader hd with
    | error e' =>
      rw [hc] at h
      cases h
      exact Or.inr (Or.inl (ofHeader_of_checkHeader hc))
    | ok _ =>
      simp only [hc] at h
      split at h
      · rename_i hlt
        cases h
        exact Or.inl ⟨rfl, Or.inr ⟨hd, rfl, checkHeader_eq_ok.mp hc, hlt⟩⟩
      · cases hp : c.decodePayload hd (hd.payload src) with
        | error e' =>
          rw [hp] at h
          cases h
          exact Or.inr (Or.inr ⟨hd, _, hp⟩)
        | ok msg =>
          rw [hp] at h
          cases h

/-- `DecodeOne` goes by the bytes of the frame alone. -/
lemma decodeOne_append (h : c.decodeOne src ≠ .error .needMore) (more : Bytes) :
    c.decodeOne (src ++ more) = c.decodeOne src := by
  unfold decodeOne at h ⊢
  cases hr : Header.read src with
  | none => simp [hr, throw, throwThe, MonadExceptOf.throw] at h
  | some hd =>
    rw [Header.read_append hr]
    simp only [hr, bind, Except.bind, throw, throwThe, MonadExceptOf.throw] at h ⊢
    cases hc : c.checkHeader hd with
    | error e => rfl
    | ok _ =>
      simp only [hc] at h ⊢
      by_cases hlt : src.length < hd.total
      · simp [hlt] at h
      · have hle := Nat.not_lt.mp hlt
        have hmore : ¬ (src ++ more).length < hd.total := by
          rw [List.length_append]
          omega
        simp only [hlt, hmore, if_false, pure, Except.pure, Header.payload_append hle]

/-- An error of the cipher comes from `Open`. -/
lemma open_of_decrypt {h : Header} {payload : Bytes} {e : ε}
    (hd : c.decodePayload h payload = .error (.decryptPayload e)) : ∃ cipher ciphertext aad,
      c.cipher = some cipher ∧ cipher.openWith ciphertext aad = .error e := by
  simp only [decodePayload, openPayload, bind, Except.bind, pure, Except.pure, throw, throwThe,
    MonadExceptOf.throw] at hd
  split at hd
  · rename_i e' he
    cases hd
    split at he
    · split at he
      · cases he
      · split at he
        · cases he
        · rename_i ciphertext _ _ cipher hcipher
          cases ho : cipher.openWith ciphertext (semanticAAD h.flags h.algorithm) with
          | error e' =>
            rw [ho] at he
            cases he
            exact ⟨cipher, ciphertext, _, hcipher, ho⟩
          | ok data =>
            rw [ho] at he
            cases he
    · cases he
  · split at hd
    · cases hd
    · split at hd
      · rename_i e' he
        cases hd
        cases hv : Message.validate _ with
        | error e' =>
          rw [hv] at he
          cases he
        | ok _ =>
          rw [hv] at he
          cases he
      · cases hd

end Codec

end Ogrenet
