import ChatClient.Json.Scan
/-!
# Number — the numbers of a JSON text

A number is an integer part without needless zeros, then perhaps a fraction, then perhaps an exponent.  Only one kind has a
use here: a natural number written by its digits alone and below `2 ^ 64` (`Number.natural`).  Everything else, `-0` and
`1.0` included, is some other number; when it is used it must still be within reach of a 64-bit floating number.

To tell that, digits are taken into a 64-bit significand while they fit.  Later digits of the integer part only move the
point, later digits of the fraction are dropped (`Magnitude`).  The number is out of reach when its power of ten is above the
308th, or when significand and power, each rounded to 53 bits, have a product that rounds to infinity.
-/
namespace ChatClient
namespace Json

def wordMax : Nat := 18446744073709551615

/-- A significand and a power of ten. -/
structure Magnitude where
  significand : Nat := 0
  exponent : Int := 0
  deriving DecidableEq, Repr

/-- A number as it is used. -/
inductive Number where
  | natural (n : Nat)
  | other
  deriving DecidableEq, Repr

namespace Magnitude

def digit (c : Char) : Nat := c.toNat - '0'.toNat

/-- One more digit of the integer part. -/
def push (m : Magnitude) (c : Char) : Magnitude :=
  if m.exponent = 0 && m.significand * 10 + digit c ≤ wordMax then ⟨m.significand * 10 + digit c, 0⟩
  else ⟨m.significand, m.exponent + 1⟩

/-- The digits of the fraction, as far as they fit. -/
def pushFraction (m : Magnitude) : List Char → Magnitude
  | [] => m
  | c :: cs =>
    if m.significand * 10 + digit c ≤ wordMax then
      pushFraction ⟨m.significand * 10 + digit c, m.exponent - 1⟩ cs
    else m

/-- The nearest number of 53 significant bits, the even one of two. -/
def round53 (n : Nat) : Nat :=
  let shift := n.log2 - 52
  if shift = 0 then n
  else
    let unit := Nat.pow 2 shift
    let kept := n / unit
    let dropped := n % unit
    (if unit < 2 * dropped || (unit = 2 * dropped && kept % 2 = 1) then kept + 1 else kept) * unit

/-- The least number that rounds to infinity: half a unit above the largest floating number. -/
def infinite : Nat := Nat.pow 2 1024 - Nat.pow 2 970

/-- No 64-bit floating number comes near. -/
def outOfReach (m : Magnitude) : Bool :=
  m.significand ≠ 0 && 0 ≤ m.exponent &&
    (308 < m.exponent || infinite ≤ round53 m.significand * round53 (Nat.pow 10 m.exponent.toNat))

end Magnitude

/-- A number as it is written, behind its sign: its magnitude, whether it has nothing but an integer part, and what is left
behind it.  `ended` is what a number that breaks off at the end of the text counts as. -/
structure Numeral where
  magnitude : Magnitude
  plain : Bool
  rest : List Char

/-- The sign of an exponent, true when it is a minus, and what is left behind it. -/
def scanSign : List Char → Bool × List Char
  | '+' :: s => (false, s)
  | '-' :: s => (true, s)
  | s => (false, s)

def scanExponent (ended : Fault) (m : Magnitude) (s : List Char) : Except Fault Numeral :=
  let (negative, unsigned) := scanSign s
  let digits := unsigned.takeWhile Char.isDigit
  let rest := unsigned.dropWhile Char.isDigit
  if digits.isEmpty then .error (if rest.isEmpty then ended else .malformed)
  else
    let power : Int := digits.foldl (fun n c => n * 10 + Magnitude.digit c) 0
    .ok ⟨⟨m.significand, if negative then m.exponent - power else m.exponent + power⟩, false, rest⟩

/-- What follows the integer part of a number, or its fraction when `plain` is false. -/
def scanTail (ended : Fault) (plain : Bool) (m : Magnitude) : List Char → Except Fault Numeral
  | 'e' :: s => scanExponent ended m s
  | 'E' :: s => scanExponent ended m s
  | s => .ok ⟨m, plain, s⟩

def scanNumber (ended : Fault) (s : List Char) : Except Fault Numeral :=
  let digits := s.takeWhile Char.isDigit
  let rest := s.dropWhile Char.isDigit
  let m := digits.foldl Magnitude.push {}
  match digits with
  | [] => .error (if rest.isEmpty then ended else .malformed)
  | '0' :: _ :: _ => .error .malformed
  | _ =>
    match rest with
    | '.' :: s =>
      let digits := s.takeWhile Char.isDigit
      let rest := s.dropWhile Char.isDigit
      if digits.isEmpty then .error (if rest.isEmpty then ended else .malformed)
      else scanTail ended false (m.pushFraction digits) rest
    | rest => scanTail ended true m rest

/-- A used number, behind its sign. -/
def readNumber : Reader Number := fun s =>
  match scanNumber .truncated s with
  | .error e => .error e
  | .ok n =>
    if n.plain && n.magnitude.exponent = 0 then .ok (.natural n.magnitude.significand, n.rest)
    else if n.magnitude.outOfReach then .error .malformed
    else .ok (.other, n.rest)

/-- Passes over a number, behind its sign. -/
def skipNumber (s : List Char) : Except Fault (List Char) := (·.rest) <$> scanNumber .malformed s

theorem length_dropWhile_le (p : Char → Bool) (s : List Char) : (s.dropWhile p).length ≤ s.length :=
  (List.dropWhile_sublist p).length_le

theorem length_of_scanExponent {ended : Fault} {m : Magnitude} {s : List Char} {n : Numeral}
    (h : scanExponent ended m s = .ok n) : n.rest.length ≤ s.length := by
  have hs : (scanSign s).2.length ≤ s.length := by
    unfold scanSign
    split <;> simp
  unfold scanExponent at h
  dsimp only at h
  split at h
  · cases h
  · cases h
    exact Nat.le_trans (length_dropWhile_le _ _) hs

theorem length_of_scanTail {ended : Fault} {plain : Bool} {m : Magnitude} {s : List Char} {n : Numeral}
    (h : scanTail ended plain m s = .ok n) : n.rest.length ≤ s.length := by
  unfold scanTail at h
  split at h
  · exact Nat.le_trans (length_of_scanExponent h) (Nat.le_succ _)
  · exact Nat.le_trans (length_of_scanExponent h) (Nat.le_succ _)
  · cases h; exact Nat.le_refl _

theorem length_dropWhile_lt {p : Char → Bool} {s : List Char} (h : s.takeWhile p ≠ []) :
    (s.dropWhile p).length < s.length := by
  have hs := congrArg List.length (List.takeWhile_append_dropWhile (p := p) (l := s))
  have hp := List.length_pos_iff.2 h
  rw [List.length_append] at hs
  omega

/-- **A number has at least one digit.** -/
theorem length_of_scanNumber {ended : Fault} {s : List Char} {n : Numeral} (h : scanNumber ended s = .ok n) :
    n.rest.length < s.length := by
  unfold scanNumber at h
  dsimp only at h
  split at h
  · cases h
  · cases h
  · rename_i hne _
    have hs := length_dropWhile_lt (p := Char.isDigit) (s := s) hne
    split at h
    · rename_i t ht
      split at h
      · cases h
      · have h1 := length_of_scanTail h
        have h2 := length_dropWhile_le Char.isDigit t
        rw [ht, List.length_cons] at hs
        omega
    · exact Nat.lt_of_le_of_lt (length_of_scanTail h) hs

theorem length_of_skipNumber {s r : List Char} (h : skipNumber s = .ok r) : r.length < s.length := by
  unfold skipNumber at h
  cases hn : scanNumber .malformed s with
  | error e => rw [hn] at h; cases h
  | ok n =>
    rw [hn] at h
    cases h
    exact length_of_scanNumber hn

end Json
end ChatClient
