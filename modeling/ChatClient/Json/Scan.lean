import ChatClient.Text.Utf8
/-!
# Scan — the tokens of a JSON text

Readers take characters off the front of a text.  A text can be wrong in three ways, and the first wrong place from the
left decides which (`Json.Fault`).

Two readings of one token differ.  A value that is *used* has to have a meaning: the escapes of a string must be
characters, a number must be within reach of a 64-bit floating number.  A value that is *skipped* only has to have the right
shape.  A number that breaks off at the end of the text counts as ended too early when it is used, and as ill-formed when
it is skipped.
-/
namespace ChatClient
namespace Json

inductive Fault where
  /-- It is no JSON text. -/
  | malformed
  /-- A value has the wrong type or is out of range, or a name is repeated, unknown or missing. -/
  | mismatch
  | truncated
  deriving DecidableEq, Repr

def Fault.message : Fault → String
  | malformed => "not well-formed"
  | mismatch => "a value has the wrong type or range"
  | truncated => "the text ends too early"

/-- Something that takes characters off the front of a text. -/
abbrev Reader (α : Type) := StateT (List Char) (Except Fault) α

def isGap (c : Char) : Bool := c == ' ' || c == '\n' || c == '\t' || c == '\r'

def skipGap (s : List Char) : List Char := s.dropWhile isGap

theorem length_skipGap_le (s : List Char) : (skipGap s).length ≤ s.length :=
  (List.dropWhile_sublist isGap).length_le

def skipWord : List Char → List Char → Except Fault (List Char)
  | [], s => .ok s
  | _ :: _, [] => .error .truncated
  | c :: cs, d :: s => if c = d then skipWord cs s else .error .malformed

theorem length_skipWord_le : ∀ {w s r : List Char}, skipWord w s = .ok r → r.length ≤ s.length
  | [], s, r, h => by cases h; exact Nat.le_refl _
  | _ :: _, [], r, h => by cases h
  | c :: cs, d :: s, r, h => by
    unfold skipWord at h
    split at h
    · exact Nat.le_trans (length_skipWord_le h) (Nat.le_succ _)
    · cases h

/-! ## Strings -/

/-- The number a hexadecimal digit stands for. -/
def hexDigit? (c : Char) : Option Nat :=
  if '0' ≤ c && c ≤ '9' then some (c.toNat - '0'.toNat)
  else if 'a' ≤ c && c ≤ 'f' then some (c.toNat - 'a'.toNat + 10)
  else if 'A' ≤ c && c ≤ 'F' then some (c.toNat - 'A'.toNat + 10)
  else none

/-- Four hexadecimal digits.  A text with fewer than four octets left ends too early, whatever they are. -/
def readHex : Reader Nat
  | a :: b :: c :: d :: rest =>
    match hexDigit? a, hexDigit? b, hexDigit? c, hexDigit? d with
    | some a, some b, some c, some d => .ok (((a * 16 + b) * 16 + c) * 16 + d, rest)
    | _, _, _, _ => .error .malformed
  | short => if (short.flatMap Utf8.encodeChar).length < 4 then .error .truncated else .error .malformed

theorem length_of_readHex {s r : List Char} {n : Nat} (h : readHex s = .ok (n, r)) : s.length = r.length + 4 := by
  unfold readHex at h
  split at h
  · split at h
    · cases h; rfl
    · cases h
  · split at h <;> cases h

/-- The first half of a pair of escapes that stand for one character. -/
def isHighHalf (n : Nat) : Bool := 0xD800 ≤ n && n < 0xDC00

/-- The second half of such a pair. -/
def isLowHalf (n : Nat) : Bool := 0xDC00 ≤ n && n < 0xE000

/-- The character of an escape by number, behind its `u`. -/
def readNumericEscape (s : List Char) : Except Fault (Char × List Char) :=
  match readHex s with
  | .error e => .error e
  | .ok (high, rest) =>
    if isLowHalf high then .error .malformed
    else if !isHighHalf high then .ok (Char.ofNat high, rest)
    else
      match rest with
      | [] => .error .truncated
      | '\\' :: [] => .error .truncated
      | '\\' :: 'u' :: rest =>
        match readHex rest with
        | .error e => .error e
        | .ok (low, rest) =>
          if isLowHalf low then .ok (Char.ofNat ((high - 0xD800) * 1024 + (low - 0xDC00) + 0x10000), rest)
          else .error .malformed
      | _ => .error .malformed

/-- The character that an escape of one letter stands for. -/
def letterEscape? : Char → Option Char
  | '"' => some '"'
  | '\\' => some '\\'
  | '/' => some '/'
  | 'b' => some '\x08'
  | 'f' => some '\x0c'
  | 'n' => some '\n'
  | 'r' => some '\r'
  | 't' => some '\t'
  | _ => none

/-- The character of an escape, behind its backslash. -/
def readEscape : List Char → Except Fault (Char × List Char)
  | [] => .error .truncated
  | 'u' :: s => readNumericEscape s
  | c :: s =>
    match letterEscape? c with
    | some d => .ok (d, s)
    | none => .error .malformed

theorem length_of_readNumericEscape {s r : List Char} {c : Char} (h : readNumericEscape s = .ok (c, r)) :
    r.length < s.length := by
  unfold readNumericEscape at h
  split at h
  · cases h
  · rename_i high rest hhex
    have := length_of_readHex hhex
    split at h
    · cases h
    split at h
    · cases h; omega
    split at h
    · cases h
    · cases h
    · split at h
      · cases h
      · rename_i low rest' hhex'
        have := length_of_readHex hhex'
        split at h
        · simp only [Except.ok.injEq, Prod.mk.injEq] at h
          obtain ⟨-, rfl⟩ := h
          simp only [List.length_cons] at *
          omega
        · cases h
    · cases h

theorem length_of_readEscape {s r : List Char} {c : Char} (h : readEscape s = .ok (c, r)) : r.length < s.length := by
  unfold readEscape at h
  split at h
  · cases h
  · have := length_of_readNumericEscape h
    simp only [List.length_cons]
    omega
  · split at h
    · cases h; simp
    · cases h

/-- The characters of a used string, behind its opening quote. -/
def readChars (s : List Char) : Except Fault (List Char × List Char) :=
  match s with
  | [] => .error .truncated
  | '"' :: rest => .ok ([], rest)
  | '\\' :: rest =>
    match h : readEscape rest with
    | .error e => .error e
    | .ok (c, left) =>
      have := length_of_readEscape h
      (fun r => (c :: r.1, r.2)) <$> readChars left
  | c :: rest => if c < ' ' then .error .malformed else (fun r => (c :: r.1, r.2)) <$> readChars rest
termination_by s.length
decreasing_by all_goals (simp only [List.length_cons]; omega)

/-- Passes over an escape of a skipped string, behind its backslash: the number of one by number may be any. -/
def skipEscape : List Char → Except Fault (List Char)
  | [] => .error .truncated
  | 'u' :: s => (·.2) <$> readHex s
  | c :: s => if (letterEscape? c).isSome then .ok s else .error .malformed

theorem length_of_skipEscape {s r : List Char} (h : skipEscape s = .ok r) : r.length < s.length := by
  unfold skipEscape at h
  split at h
  · cases h
  · rename_i s
    cases hx : readHex s with
    | error e => rw [hx] at h; cases h
    | ok p =>
      rw [hx] at h
      obtain ⟨n, q⟩ := p
      have := length_of_readHex hx
      cases h
      simp only [List.length_cons]
      omega
  · split at h
    · cases h; simp
    · cases h

/-- Passes over a string, behind its opening quote. -/
def skipChars (s : List Char) : Except Fault (List Char) :=
  match s with
  | [] => .error .truncated
  | '"' :: rest => .ok rest
  | '\\' :: rest =>
    match h : skipEscape rest with
    | .error e => .error e
    | .ok left =>
      have := length_of_skipEscape h
      skipChars left
  | c :: rest => if c < ' ' then .error .malformed else skipChars rest
termination_by s.length
decreasing_by all_goals (simp only [List.length_cons]; omega)

theorem length_of_skipChars : ∀ {s r : List Char}, skipChars s = .ok r → r.length < s.length := by
  intro s
  fun_induction skipChars s with
  | case1 => intro r h; cases h
  | case2 rest => intro r h; cases h; simp
  | case3 rest e he => intro r h; cases h
  | case4 rest left hl hlt ih =>
    intro r h
    have := ih h
    simp only [List.length_cons]
    omega
  | case5 c rest => intro r h; cases h
  | case6 c rest _ _ hc ih =>
    intro r h
    have := ih h
    simp only [List.length_cons]
    omega

end Json
end ChatClient
