/-!
# Blank — white space, and the words between it

White space is the Unicode property `White_Space`: twenty-five characters, listed here as ranges.  It is wider than the
ASCII blanks and narrower than it looks: the information separators, the zero width space and the byte order mark are not
in it.

Three ways to cut a text at white space: `trim` takes it off both ends, `cut` divides at the first one, `words` gives the
stretches without any.
-/
namespace ChatClient
namespace Blank

/-- The ranges of white space, in ascending order. -/
def ranges : List (Nat × Nat) :=
  [(0x9, 0xD), (0x20, 0x20), (0x85, 0x85), (0xA0, 0xA0), (0x1680, 0x1680), (0x2000, 0x200A), (0x2028, 0x2029),
    (0x202F, 0x202F), (0x205F, 0x205F), (0x3000, 0x3000)]

def isBlank (c : Char) : Bool := ranges.any fun r => r.1 ≤ c.toNat && c.toNat ≤ r.2

/-- Without the white space in front. -/
def trimStart (s : List Char) : List Char := s.dropWhile isBlank

/-- Without the white space behind. -/
def trimEnd (s : List Char) : List Char := (s.reverse.dropWhile isBlank).reverse

/-- Without the white space in front and behind. -/
def trim (s : List Char) : List Char := trimEnd (trimStart s)

/-- The text before the first white space, and the text behind that one character. -/
def cut (s : List Char) : List Char × List Char :=
  (s.takeWhile (!isBlank ·), (s.dropWhile (!isBlank ·)).drop 1)

/-- The stretches between white space, empty ones included. -/
def pieces : List Char → List (List Char)
  | [] => [[]]
  | c :: s =>
    if isBlank c then [] :: pieces s
    else
      match pieces s with
      | [] => [[c]]
      | w :: ws => (c :: w) :: ws

def words (s : List Char) : List (List Char) := (pieces s).filter (!·.isEmpty)

end Blank
end ChatClient
