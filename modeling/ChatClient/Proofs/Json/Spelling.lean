import ChatClient.Json.Scan
import ChatClient.Json.Writer
/-!
# Spelling — the texts that stand for one value

A value can be written in many ways.
- White space may stand between any two tokens (`Gap`).
- A character of a string may stand for itself, be escaped by a letter that stands for it, or be given by its number; a
  character that has no number of four hexadecimal digits is given by a pair of numbers (`CharText`).
- A natural number has one spelling, the one `writeNatural` gives it.

The writer picks one of them: no white space, and an escape only where there is no other way (`writeString_spells`,
`writeObject_spells`).
-/
namespace ChatClient
namespace Json

/-- White space, perhaps none. -/
def Gap (g : List Char) : Prop := ∀ c ∈ g, isGap c = true

theorem gap_nil : Gap [] := fun _ h => nomatch h

/-! ## Strings -/

/-- Four hexadecimal digits. -/
inductive HexText : Nat → List Char → Prop
  | digits {a b c d : Char} {i j k l : Nat} : hexDigit? a = some i → hexDigit? b = some j → hexDigit? c = some k →
      hexDigit? d = some l → HexText (((i * 16 + j) * 16 + k) * 16 + l) [a, b, c, d]

/-- The ways to write a character inside a string. -/
inductive CharText (c : Char) : List Char → Prop
  | itself : ' ' ≤ c → c ≠ '"' → c ≠ '\\' → CharText c [c]
  | letter {l : Char} : letterEscape? l = some c → CharText c ['\\', l]
  | number {t : List Char} : HexText c.toNat t → CharText c ('\\' :: 'u' :: t)
  | pair {high low : Nat} {t u : List Char} : HexText high t → HexText low u → isHighHalf high = true →
      isLowHalf low = true → c.toNat = (high - 0xD800) * 1024 + (low - 0xDC00) + 0x10000 →
      CharText c ('\\' :: 'u' :: (t ++ '\\' :: 'u' :: u))

inductive CharsText : List Char → List Char → Prop
  | nil : CharsText [] []
  | cons {c : Char} {cs t u : List Char} : CharText c t → CharsText cs u → CharsText (c :: cs) (t ++ u)

/-- The ways to write a string. -/
inductive StringText (s : String) : List Char → Prop
  | quoted {t : List Char} : CharsText s.toList t → StringText s ('"' :: (t ++ ['"']))

theorem hexDigit?_hexChar : ∀ n < 16, hexDigit? (hexChar n) = some n := by decide

theorem writeChar_spells (c : Char) : CharText c (writeChar c) := by
  unfold writeChar
  iterate 7
    split
    · rename_i h
      subst h
      exact .letter rfl
  split
  · rename_i h
    have hc : c.toNat < 32 := h
    have hn : ((0 * 16 + 0) * 16 + c.toNat / 16) * 16 + c.toNat % 16 = c.toNat := by omega
    have hd : HexText (((0 * 16 + 0) * 16 + c.toNat / 16) * 16 + c.toNat % 16)
        ['0', '0', hexChar (c.toNat / 16), hexChar (c.toNat % 16)] :=
      .digits rfl rfl (hexDigit?_hexChar _ (by omega)) (hexDigit?_hexChar _ (by omega))
    rw [hn] at hd
    exact .number hd
  · rename_i hq hb _ _ _ _ _ hs
    exact .itself (Char.not_lt.1 hs) hq hb

theorem flatMap_writeChar_spells : ∀ cs : List Char, CharsText cs (cs.flatMap writeChar)
  | [] => .nil
  | c :: cs => .cons (writeChar_spells c) (flatMap_writeChar_spells cs)

theorem writeString_spells (s : String) : StringText s (writeString s) := .quoted (flatMap_writeChar_spells s.toList)

/-! ## Objects -/

/-- The ways to write members, whose values are written already, behind the first member or, with `first`, behind the
bracket, and with them the bracket that closes the object. -/
inductive MembersText : Bool → List (String × List Char) → List Char → Prop
  | none {first : Bool} {g : List Char} : Gap g → MembersText first [] (g ++ ['\x7d'])
  | first {name : String} {members : List (String × List Char)} {g₁ g₂ g₃ n v t : List Char} :
      Gap g₁ → StringText name n →
      Gap g₂ → Gap g₃ → MembersText false members t →
      MembersText true ((name, v) :: members) (g₁ ++ (n ++ (g₂ ++ ':' :: (g₃ ++ (v ++ t)))))
  | next {name : String} {members : List (String × List Char)} {g₀ g₁ g₂ g₃ n v t : List Char} :
      Gap g₀ → Gap g₁ →
      StringText name n → Gap g₂ → Gap g₃ → MembersText false members t →
      MembersText false ((name, v) :: members) (g₀ ++ ',' :: (g₁ ++ (n ++ (g₂ ++ ':' :: (g₃ ++ (v ++ t))))))

/-- The ways to write an object with these members, whose values are written already. -/
inductive ObjectText (members : List (String × List Char)) : List Char → Prop
  | braced {t : List Char} : MembersText true members t → ObjectText members ('\x7b' :: t)

theorem writeMembers_spells : ∀ members : List (String × List Char),
    MembersText false members (writeMembers members ++ ['\x7d'])
  | [] => .none gap_nil
  | (name, v) :: members => by
    have h := MembersText.next (v := v) gap_nil gap_nil (writeString_spells name) gap_nil gap_nil
      (writeMembers_spells members)
    simpa [writeMembers, writeMember] using h

theorem writeObject_spells : ∀ members : List (String × List Char), ObjectText members (writeObject members)
  | [] => .braced (.none gap_nil)
  | (name, v) :: members => by
    have h := MembersText.first (v := v) gap_nil (writeString_spells name) gap_nil gap_nil (writeMembers_spells members)
    have := ObjectText.braced h
    simpa [writeObject, writeMember] using this

end Json
end ChatClient
