import ChatClient.Bytes
/-!
# Utf8 — text as octets

`encode` writes each character as one to four octets, `decode` reads them back.  A reading that fails says where: the
index of the first octet that starts no character, and how many octets from there are certainly wrong.
- An octet that can start no character, or whose successor cannot follow it, is wrong alone.  Overlong forms, surrogates
  and numbers above the last character are refused at their second octet, so they count as one wrong octet too.
- A sequence that goes wrong at its third or fourth octet is wrong up to that octet.
- A text that ends inside a sequence that was right so far has no wrong octet: it is only incomplete.
-/
namespace ChatClient
namespace Utf8

def encodeChar (c : Char) : Bytes :=
  let n := c.toNat
  if n < 0x80 then [UInt8.ofNat n]
  else if n < 0x800 then [UInt8.ofNat (0xC0 + n / 64), UInt8.ofNat (0x80 + n % 64)]
  else if n < 0x10000 then
    [UInt8.ofNat (0xE0 + n / 4096), UInt8.ofNat (0x80 + n / 64 % 64), UInt8.ofNat (0x80 + n % 64)]
  else
    [UInt8.ofNat (0xF0 + n / 262144), UInt8.ofNat (0x80 + n / 4096 % 64), UInt8.ofNat (0x80 + n / 64 % 64),
      UInt8.ofNat (0x80 + n % 64)]

def encode (s : String) : Bytes := s.toList.flatMap encodeChar

/-- The number of octets of a text. -/
def size (s : String) : Nat := (encode s).length

/-- Why octets are no text. -/
structure Fault where
  /-- Where the first sequence that is no character starts. -/
  index : Nat
  /-- How many octets are wrong there; none when the text merely ends too early. -/
  wrong : Option Nat
  deriving DecidableEq, Repr

def Fault.message (f : Fault) : String :=
  match f.wrong with
  | some n => s!"invalid utf-8 sequence of {n} bytes from index {f.index}"
  | none => s!"incomplete utf-8 byte sequence from index {f.index}"

/-- An octet that continues a sequence. -/
def isTail (b : UInt8) : Bool := 0x80 ≤ b && b < 0xC0

/-- The second octet `b` can follow the first octet `a` of a sequence of three or four. -/
def follows (a b : UInt8) : Bool :=
  isTail b &&
    (if a = 0xE0 then 0xA0 ≤ b
     else if a = 0xED then b < 0xA0
     else if a = 0xF0 then 0x90 ≤ b
     else if a = 0xF4 then b < 0x90
     else true)

/-- The character of a sequence of two. -/
def char2 (a b : UInt8) : Char := Char.ofNat (a.toNat % 32 * 64 + b.toNat % 64)

/-- The character of a sequence of three. -/
def char3 (a b c : UInt8) : Char := Char.ofNat (a.toNat % 16 * 4096 + b.toNat % 64 * 64 + c.toNat % 64)

/-- The character of a sequence of four. -/
def char4 (a b c d : UInt8) : Char :=
  Char.ofNat (a.toNat % 8 * 262144 + b.toNat % 64 * 4096 + c.toNat % 64 * 64 + d.toNat % 64)

/-- The characters of the octets that stand at index `i` of a text. -/
def decodeFrom (i : Nat) : Bytes → Except Fault (List Char)
  | [] => .ok []
  | a :: t =>
    if a < 0x80 then (Char.ofNat a.toNat :: ·) <$> decodeFrom (i + 1) t
    else if a < 0xC2 then .error ⟨i, some 1⟩
    else if a < 0xE0 then
      match t with
      | [] => .error ⟨i, none⟩
      | b :: t => if isTail b then (char2 a b :: ·) <$> decodeFrom (i + 2) t else .error ⟨i, some 1⟩
    else if a < 0xF0 then
      match t with
      | [] => .error ⟨i, none⟩
      | b :: t =>
        if follows a b then
          match t with
          | [] => .error ⟨i, none⟩
          | c :: t => if isTail c then (char3 a b c :: ·) <$> decodeFrom (i + 3) t else .error ⟨i, some 2⟩
        else .error ⟨i, some 1⟩
    else if a < 0xF5 then
      match t with
      | [] => .error ⟨i, none⟩
      | b :: t =>
        if follows a b then
          match t with
          | [] => .error ⟨i, none⟩
          | c :: t =>
            if isTail c then
              match t with
              | [] => .error ⟨i, none⟩
              | d :: t => if isTail d then (char4 a b c d :: ·) <$> decodeFrom (i + 4) t else .error ⟨i, some 3⟩
            else .error ⟨i, some 2⟩
        else .error ⟨i, some 1⟩
    else .error ⟨i, some 1⟩

def decode (b : Bytes) : Except Fault String := String.ofList <$> decodeFrom 0 b

end Utf8
end ChatClient
