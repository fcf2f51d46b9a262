import Mathlib

/-!
# Base64 for URLs, without padding

Three bytes are four characters; one or two bytes at the end are two or three characters, the bits
left over being zero. A decoder for this form refuses characters outside the alphabet, padding, a
single character at the end, and left-over bits that are not zero.

Results:
* `decode_encode`: what is encoded is decoded again.
* `encode_of_decode`: only that is decoded, so a byte string has one text.
-/

namespace RustyDns.Lib.Base64Url

/-- The character of a six-bit number. -/
def symbol (n : Nat) : Char :=
  if n < 26 then Char.ofNat (65 + n)
  else if n < 52 then Char.ofNat (97 + (n - 26))
  else if n < 62 then Char.ofNat (48 + (n - 52))
  else if n = 62 then '-'
  else '_'

/-- The number of a character of the alphabet. -/
def value (c : Char) : Option Nat :=
  if 65 ≤ c.toNat ∧ c.toNat ≤ 90 then some (c.toNat - 65)
  else if 97 ≤ c.toNat ∧ c.toNat ≤ 122 then some (c.toNat - 97 + 26)
  else if 48 ≤ c.toNat ∧ c.toNat ≤ 57 then some (c.toNat - 48 + 52)
  else if c = '-' then some 62
  else if c = '_' then some 63
  else none

/-- The bytes of four numbers, one after another. -/
def byte1 (x y : Nat) : UInt8 := .ofNat (x * 4 + y / 16)

def byte2 (y z : Nat) : UInt8 := .ofNat (y % 16 * 16 + z / 4)

def byte3 (z w : Nat) : UInt8 := .ofNat (z % 4 * 64 + w)

def decode : List Char → Option (List UInt8)
  | [] => some []
  | [_] => none
  | [a, b] => do
    let x ← value a
    let y ← value b
    if y % 16 = 0 then some [byte1 x y] else none
  | [a, b, c] => do
    let x ← value a
    let y ← value b
    let z ← value c
    if z % 4 = 0 then some [byte1 x y, byte2 y z] else none
  | a :: b :: c :: d :: rest => do
    let x ← value a
    let y ← value b
    let z ← value c
    let w ← value d
    let bytes ← decode rest
    some (byte1 x y :: byte2 y z :: byte3 z w :: bytes)

def encode : List UInt8 → List Char
  | [] => []
  | [p] => [symbol (p.toNat / 4), symbol (p.toNat % 4 * 16)]
  | [p, q] =>
    [symbol (p.toNat / 4), symbol (p.toNat % 4 * 16 + q.toNat / 16), symbol (q.toNat % 16 * 4)]
  | p :: q :: r :: rest =>
    symbol (p.toNat / 4) :: symbol (p.toNat % 4 * 16 + q.toNat / 16) ::
      symbol (q.toNat % 16 * 4 + r.toNat / 64) :: symbol (r.toNat % 64) :: encode rest

/-! ## Characters -/

theorem value_symbol {n : Nat} (h : n < 64) : value (symbol n) = some n := by
  have hall : ∀ n : Fin 64, value (symbol n) = some n.val := by decide
  exact hall ⟨n, h⟩

theorem symbol_of_value {c : Char} {n : Nat} (h : value c = some n) : n < 64 ∧ symbol n = c := by
  have hchar : Char.ofNat c.toNat = c := Char.ofNat_toNat c
  unfold value at h
  split at h
  · cases h
    refine ⟨by omega, ?_⟩
    rw [symbol, if_pos (by omega), show 65 + (c.toNat - 65) = c.toNat by omega, hchar]
  · split at h
    · cases h
      refine ⟨by omega, ?_⟩
      rw [symbol, if_neg (by omega), if_pos (by omega),
        show 97 + (c.toNat - 97 + 26 - 26) = c.toNat by omega, hchar]
    · split at h
      · cases h
        refine ⟨by omega, ?_⟩
        rw [symbol, if_neg (by omega), if_neg (by omega), if_pos (by omega),
          show 48 + (c.toNat - 48 + 52 - 52) = c.toNat by omega, hchar]
      · split at h
        · rename_i hdash
          cases h
          exact ⟨by omega, hdash ▸ rfl⟩
        · split at h
          · rename_i hunder
            cases h
            exact ⟨by omega, hunder ▸ rfl⟩
          · cases h

/-! ## Round trips -/

theorem byte1_eq (p : UInt8) (k : Nat) (hk : k < 16) :
    byte1 (p.toNat / 4) (p.toNat % 4 * 16 + k) = p := by
  have hp := p.toNat_lt
  apply UInt8.toNat_inj.1
  rw [byte1, UInt8.toNat_ofNat']
  omega

theorem byte2_eq (i : Nat) (q : UInt8) (k : Nat) (hk : k < 4) :
    byte2 (i * 16 + q.toNat / 16) (q.toNat % 16 * 4 + k) = q := by
  have hq := q.toNat_lt
  apply UInt8.toNat_inj.1
  rw [byte2, UInt8.toNat_ofNat']
  omega

theorem byte3_eq (i : Nat) (r : UInt8) : byte3 (i * 4 + r.toNat / 64) (r.toNat % 64) = r := by
  have hr := r.toNat_lt
  apply UInt8.toNat_inj.1
  rw [byte3, UInt8.toNat_ofNat']
  omega

theorem decode_encode (bytes : List UInt8) : decode (encode bytes) = some bytes := by
  induction bytes using encode.induct with
  | case1 => rfl
  | case2 p =>
    have hp := p.toNat_lt
    have hbyte := byte1_eq p 0 (by omega)
    rw [Nat.add_zero] at hbyte
    simp only [encode, decode, value_symbol (show p.toNat / 4 < 64 by omega),
      value_symbol (show p.toNat % 4 * 16 < 64 by omega)]
    simp [hbyte]
  | case3 p q =>
    have hp := p.toNat_lt
    have hq := q.toNat_lt
    have hbyte := byte2_eq (p.toNat % 4) q 0 (by omega)
    rw [Nat.add_zero] at hbyte
    simp only [encode, decode, value_symbol (show p.toNat / 4 < 64 by omega),
      value_symbol (show p.toNat % 4 * 16 + q.toNat / 16 < 64 by omega),
      value_symbol (show q.toNat % 16 * 4 < 64 by omega)]
    simp [hbyte, byte1_eq p (q.toNat / 16) (by omega)]
  | case4 p q r rest ih =>
    have hp := p.toNat_lt
    have hq := q.toNat_lt
    have hr := r.toNat_lt
    simp only [encode, decode, value_symbol (show p.toNat / 4 < 64 by omega),
      value_symbol (show p.toNat % 4 * 16 + q.toNat / 16 < 64 by omega),
      value_symbol (show q.toNat % 16 * 4 + r.toNat / 64 < 64 by omega),
      value_symbol (show r.toNat % 64 < 64 by omega), ih]
    simp [byte1_eq p (q.toNat / 16) (by omega), byte2_eq (p.toNat % 4) q (r.toNat / 64) (by omega),
      byte3_eq (q.toNat % 16) r]

section Numbers

variable {x y z w : Nat}

theorem high_byte1 (hx : x < 64) (hy : y < 64) : (byte1 x y).toNat / 4 = x := by
  rw [byte1, UInt8.toNat_ofNat']
  omega

theorem low_byte1 (hy : y < 64) : (byte1 x y).toNat % 4 * 16 = y / 16 * 16 := by
  rw [byte1, UInt8.toNat_ofNat']
  omega

theorem middle (hy : y < 64) (hz : z < 64) :
    (byte1 x y).toNat % 4 * 16 + (byte2 y z).toNat / 16 = y := by
  rw [low_byte1 hy, byte2, UInt8.toNat_ofNat']
  omega

theorem low_byte2 (hz : z < 64) : (byte2 y z).toNat % 16 * 4 = z / 4 * 4 := by
  rw [byte2, UInt8.toNat_ofNat']
  omega

theorem upper (hz : z < 64) (hw : w < 64) :
    (byte2 y z).toNat % 16 * 4 + (byte3 z w).toNat / 64 = z := by
  rw [low_byte2 hz, byte3, UInt8.toNat_ofNat']
  omega

theorem low_byte3 (hw : w < 64) : (byte3 z w).toNat % 64 = w := by
  rw [byte3, UInt8.toNat_ofNat']
  omega

end Numbers

theorem encode_of_decode {text : List Char} {bytes : List UInt8} (h : decode text = some bytes) :
    encode bytes = text := by
  induction text using decode.induct generalizing bytes with
  | case1 =>
    cases h
    rfl
  | case2 a => cases h
  | case3 a b =>
    simp only [decode, Option.bind_eq_bind, Option.bind_eq_some_iff] at h
    obtain ⟨x, hx, y, hy, h⟩ := h
    obtain ⟨hx64, rfl⟩ := symbol_of_value hx
    obtain ⟨hy64, rfl⟩ := symbol_of_value hy
    split at h
    · rename_i hzero
      cases h
      rw [encode, high_byte1 hx64 hy64, low_byte1 hy64, show y / 16 * 16 = y by omega]
    · cases h
  | case4 a b c =>
    simp only [decode, Option.bind_eq_bind, Option.bind_eq_some_iff] at h
    obtain ⟨x, hx, y, hy, z, hz, h⟩ := h
    obtain ⟨hx64, rfl⟩ := symbol_of_value hx
    obtain ⟨hy64, rfl⟩ := symbol_of_value hy
    obtain ⟨hz64, rfl⟩ := symbol_of_value hz
    split at h
    · rename_i hzero
      cases h
      rw [encode, high_byte1 hx64 hy64, middle hy64 hz64, low_byte2 hz64,
        show z / 4 * 4 = z by omega]
    · cases h
  | case5 a b c d rest ih =>
    simp only [decode, Option.bind_eq_bind, Option.bind_eq_some_iff] at h
    obtain ⟨x, hx, y, hy, z, hz, w, hw, tail, htail, h⟩ := h
    obtain ⟨hx64, rfl⟩ := symbol_of_value hx
    obtain ⟨hy64, rfl⟩ := symbol_of_value hy
    obtain ⟨hz64, rfl⟩ := symbol_of_value hz
    obtain ⟨hw64, rfl⟩ := symbol_of_value hw
    cases h
    rw [encode, high_byte1 hx64 hy64, middle hy64 hz64, upper hz64 hw64, low_byte3 hw64,
      ih htail]

end RustyDns.Lib.Base64Url
