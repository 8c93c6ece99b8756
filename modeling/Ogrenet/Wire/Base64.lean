import Ogrenet.Wire.Message

/-!
# Base64

`base64.RawStdEncoding` of the Go library: the standard alphabet without padding. As in Go, the
decoder skips carriage returns and line feeds and does not look at the unused bits of a last
incomplete group.
-/

namespace Ogrenet

/-- The letter of a six-bit value. -/
def base64Letter (v : ℕ) : UInt8 :=
  if v < 26 then .ofNat (v + 65)
  else if v < 52 then .ofNat (v - 26 + 97)
  else if v < 62 then .ofNat (v - 52 + 48)
  else if v = 62 then 43
  else 47

/-- The six-bit value of a letter. -/
def base64Value (b : UInt8) : Option ℕ :=
  if 65 ≤ b ∧ b ≤ 90 then some (b.toNat - 65)
  else if 97 ≤ b ∧ b ≤ 122 then some (b.toNat - 97 + 26)
  else if 48 ≤ b ∧ b ≤ 57 then some (b.toNat - 48 + 52)
  else if b = 43 then some 62
  else if b = 47 then some 63
  else none

def base64Encode : Bytes → Bytes
  | [] => []
  | [a] => [base64Letter (a.toNat / 4), base64Letter (a.toNat % 4 * 16)]
  | [a, b] =>
    [base64Letter (a.toNat / 4), base64Letter (a.toNat % 4 * 16 + b.toNat / 16),
      base64Letter (b.toNat % 16 * 4)]
  | a :: b :: c :: rest =>
    base64Letter (a.toNat / 4) :: base64Letter (a.toNat % 4 * 16 + b.toNat / 16) ::
      base64Letter (b.toNat % 16 * 4 + c.toNat / 64) :: base64Letter (c.toNat % 64) ::
      base64Encode rest

/-- The bytes of a group of two, three or four six-bit values. -/
def base64Group : List ℕ → Bytes
  | [a, b] => [.ofNat (a * 4 + b / 16)]
  | [a, b, c] => [.ofNat (a * 4 + b / 16), .ofNat (b % 16 * 16 + c / 4)]
  | [a, b, c, d] =>
    [.ofNat (a * 4 + b / 16), .ofNat (b % 16 * 16 + c / 4), .ofNat (c % 4 * 64 + d)]
  | _ => []

/-- The decoder at input position `si` with the values `group` of the current group read. The error
is the position of `CorruptInputError`. -/
def base64DecodeFrom (si : ℕ) (group : List ℕ) : Bytes → Except ℕ Bytes
  | [] => if group.length = 1 then .error (si - 1) else .ok (base64Group group)
  | b :: bs =>
    match base64Value b with
    | some v =>
      if group.length = 3 then
        match base64DecodeFrom (si + 1) [] bs with
        | .ok out => .ok (base64Group (group ++ [v]) ++ out)
        | .error e => .error e
      else base64DecodeFrom (si + 1) (group ++ [v]) bs
    | none =>
      if b = 10 ∨ b = 13 then base64DecodeFrom (si + 1) group bs
      else .error si

def base64Decode (src : Bytes) : Except ℕ Bytes := base64DecodeFrom 0 [] src

/-! ### Decoding what was encoded -/

lemma base64Value_letter {v : ℕ} (hv : v < 64) : base64Value (base64Letter v) = some v := by
  have hall : ∀ v < 64, base64Value (base64Letter v) = some v := by decide
  exact hall v hv

/-- A letter that does not complete its group is kept. -/
lemma base64DecodeFrom_letter {v : ℕ} (hv : v < 64) (si : ℕ) {group : List ℕ}
    (hg : group.length ≠ 3) (bs : Bytes) :
    base64DecodeFrom si group (base64Letter v :: bs) =
      base64DecodeFrom (si + 1) (group ++ [v]) bs := by
  simp [base64DecodeFrom, base64Value_letter hv, hg]

lemma base64DecodeFrom_last {v : ℕ} (hv : v < 64) (si a b c : ℕ) (bs : Bytes) :
    base64DecodeFrom si [a, b, c] (base64Letter v :: bs) =
      (base64DecodeFrom (si + 1) [] bs).map (base64Group [a, b, c, v] ++ ·) := by
  simp only [base64DecodeFrom, base64Value_letter hv, List.length_cons, List.length_nil]
  cases base64DecodeFrom (si + 1) [] bs <;> rfl

lemma ofNat_eq_of_toNat {n : ℕ} {b : UInt8} (h : n = b.toNat) : UInt8.ofNat n = b := by
  rw [h]
  exact UInt8.ofNat_toNat

lemma base64DecodeFrom_encode (src : Bytes) (si : ℕ) :
    base64DecodeFrom si [] (base64Encode src) = .ok src := by
  fun_induction base64Encode src generalizing si with
  | case1 => rfl
  | case2 a =>
    have ha := a.toNat_lt
    have hbyte : UInt8.ofNat (a.toNat / 4 * 4 + a.toNat % 4 * 16 / 16) = a :=
      ofNat_eq_of_toNat (by omega)
    rw [base64DecodeFrom_letter (by omega) _ (by simp),
      base64DecodeFrom_letter (by omega) _ (by simp)]
    simp only [base64DecodeFrom, base64Group, List.nil_append, List.cons_append, List.length_cons,
      List.length_nil, hbyte]
    rfl
  | case3 a b =>
    have ha := a.toNat_lt
    have hb := b.toNat_lt
    have hbyte₁ : UInt8.ofNat (a.toNat / 4 * 4 + (a.toNat % 4 * 16 + b.toNat / 16) / 16) = a :=
      ofNat_eq_of_toNat (by omega)
    have hbyte₂ : UInt8.ofNat
        ((a.toNat % 4 * 16 + b.toNat / 16) % 16 * 16 + b.toNat % 16 * 4 / 4) = b :=
      ofNat_eq_of_toNat (by omega)
    rw [base64DecodeFrom_letter (by omega) _ (by simp),
      base64DecodeFrom_letter (by omega) _ (by simp),
      base64DecodeFrom_letter (by omega) _ (by simp)]
    simp only [base64DecodeFrom, base64Group, List.nil_append, List.cons_append, List.length_cons,
      List.length_nil, hbyte₁, hbyte₂]
    rfl
  | case4 a b c rest ih =>
    have ha := a.toNat_lt
    have hb := b.toNat_lt
    have hc := c.toNat_lt
    have hbyte₁ : UInt8.ofNat (a.toNat / 4 * 4 + (a.toNat % 4 * 16 + b.toNat / 16) / 16) = a :=
      ofNat_eq_of_toNat (by omega)
    have hbyte₂ : UInt8.ofNat ((a.toNat % 4 * 16 + b.toNat / 16) % 16 * 16 +
        (b.toNat % 16 * 4 + c.toNat / 64) / 4) = b :=
      ofNat_eq_of_toNat (by omega)
    have hbyte₃ : UInt8.ofNat ((b.toNat % 16 * 4 + c.toNat / 64) % 4 * 64 + c.toNat % 64) = c :=
      ofNat_eq_of_toNat (by omega)
    rw [base64DecodeFrom_letter (by omega) _ (by simp),
      base64DecodeFrom_letter (by omega) _ (by simp),
      base64DecodeFrom_letter (by omega) _ (by simp)]
    simp only [List.nil_append, List.cons_append]
    rw [base64DecodeFrom_last (by omega), ih]
    simp only [base64Group, hbyte₁, hbyte₂, hbyte₃]
    rfl

/-- `RawStdEncoding` decodes what it has encoded. -/
lemma base64Decode_encode (src : Bytes) : base64Decode (base64Encode src) = .ok src :=
  base64DecodeFrom_encode src 0

end Ogrenet
