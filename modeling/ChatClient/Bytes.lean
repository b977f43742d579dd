/-!
# Bytes — the octets on the wire and the big-endian words among them

Everything the client sends or receives is a list of octets.  Words are written most significant octet first, without
padding: two octets for a 16-bit word, four for a 32-bit length.
- `word16` and `ofWord16` write and read a 16-bit word;
- `word32` and `ofWord32` write and read a length below `2 ^ 32`.

A word read is the word written (`ofWord16_word16`, `ofWord32_word32`), and the octets of a word are the only octets that
read as it (`word16_ofWord16`, `word32_ofWord32`).
-/
namespace ChatClient

/-- A string of octets. -/
abbrev Bytes := List UInt8

namespace Bytes

/-- The two octets of a 16-bit word, the high one first. -/
def word16 (n : Nat) : Bytes := [UInt8.ofNat (n / 256), UInt8.ofNat n]

/-- The 16-bit word two octets spell. -/
def ofWord16 (a b : UInt8) : Nat := a.toNat * 256 + b.toNat

/-- The four octets of a 32-bit word, the highest one first. -/
def word32 (n : Nat) : Bytes :=
  [UInt8.ofNat (n / 16777216), UInt8.ofNat (n / 65536), UInt8.ofNat (n / 256), UInt8.ofNat n]

/-- The 32-bit word four octets spell. -/
def ofWord32 (a b c d : UInt8) : Nat := ((a.toNat * 256 + b.toNat) * 256 + c.toNat) * 256 + d.toNat

/-- The largest length a 32-bit prefix can state. -/
def maxLength : Nat := 4294967295

@[simp] theorem length_word16 (n : Nat) : (word16 n).length = 2 := rfl

theorem ofWord16_lt (a b : UInt8) : ofWord16 a b < 65536 := by
  have := a.toNat_lt
  have := b.toNat_lt
  unfold ofWord16
  omega

theorem ofWord32_lt (a b c d : UInt8) : ofWord32 a b c d < 4294967296 := by
  have := a.toNat_lt
  have := b.toNat_lt
  have := c.toNat_lt
  have := d.toNat_lt
  unfold ofWord32
  omega

/-- **A 16-bit word reads back.** -/
theorem ofWord16_word16 {n : Nat} (h : n < 65536) :
    ofWord16 (UInt8.ofNat (n / 256)) (UInt8.ofNat n) = n := by
  simp only [ofWord16, UInt8.toNat_ofNat']
  omega

/-- **Two octets are the word they spell**, written out. -/
theorem word16_ofWord16 (a b : UInt8) : word16 (ofWord16 a b) = [a, b] := by
  have ha := a.toNat_lt
  have hb := b.toNat_lt
  simp only [word16, ofWord16, List.cons.injEq, and_true]
  constructor <;> apply UInt8.toNat_inj.1 <;> simp only [UInt8.toNat_ofNat'] <;> omega

/-- **A 32-bit word reads back.** -/
theorem ofWord32_word32 {n : Nat} (h : n < 4294967296) :
    ofWord32 (UInt8.ofNat (n / 16777216)) (UInt8.ofNat (n / 65536)) (UInt8.ofNat (n / 256)) (UInt8.ofNat n) = n := by
  simp only [ofWord32, UInt8.toNat_ofNat']
  omega

/-- **Four octets are the word they spell**, written out. -/
theorem word32_ofWord32 (a b c d : UInt8) : word32 (ofWord32 a b c d) = [a, b, c, d] := by
  have ha := a.toNat_lt
  have hb := b.toNat_lt
  have hc := c.toNat_lt
  have hd := d.toNat_lt
  simp only [word32, ofWord32, List.cons.injEq, and_true]
  refine ⟨?_, ?_, ?_, ?_⟩ <;> apply UInt8.toNat_inj.1 <;> simp only [UInt8.toNat_ofNat'] <;> omega

end Bytes
end ChatClient
