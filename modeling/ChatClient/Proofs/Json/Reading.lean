import ChatClient.Json.Record
import ChatClient.Proofs.Json.Spelling
import Mathlib.Data.List.Basic
/-!
# Reading — a spelling is read as the value it stands for

`Reads r x t` says of a text `t` that the reader `r` makes `x` of it, whatever white space is in front, and leaves what is
behind it untouched; `Gives r o t` says what becomes of a text that may also be refused.  Behind a value stands white space,
a comma, a closing bracket or nothing at all (`Delimited`): a number could go on otherwise.

- A string is read character by character (`StringText.reads`), and so is the name of a member.
- The digits of a natural number are taken in one by one, and nothing is lost up to the largest word of 64 bits
  (`reads_writeNatural`).
- An object is read member by member, up to the first that is refused; one that nobody knows is passed over.  What the
  members make of the record is `Record.Yields`, and that is what becomes of the object (`Record.Yields.gives`).  Where
  every member is known and taken, it is `Record.Fills`.
-/
namespace ChatClient
namespace Json

/-- What may stand behind a value. -/
def Delimited (s : List Char) : Prop := ∀ c ∈ s.head?, isGap c = true ∨ c = ',' ∨ c = ']' ∨ c = '\x7d'

/-- The text `t` is read as `x`. -/
def Reads {α : Type} (r : Reader α) (x : α) (t : List Char) : Prop :=
  ∀ g rest, Gap g → Delimited rest → r (g ++ (t ++ rest)) = .ok (x, rest)

/-- What becomes of the text `t`, taken or refused, is `o`. -/
def Gives {α : Type} (r : Reader α) (o : Except Fault α) (t : List Char) : Prop :=
  ∀ g rest, Gap g → Delimited rest → r (g ++ (t ++ rest)) = (·, rest) <$> o

variable {α β σ : Type}

theorem Reads.gives {r : Reader α} {x : α} {t : List Char} (h : Reads r x t) : Gives r (.ok x) t := h

theorem Gives.map {r : Reader α} {o : Except Fault α} {t : List Char} (h : Gives r o t) (f : α → β) :
    Gives (do return f (← r)) (f <$> o) t := by
  intro g rest hg hr
  show (r (g ++ (t ++ rest)) >>= fun p => pure (f p.1, p.2)) = _
  rw [h g rest hg hr]
  cases o <;> rfl

theorem Reads.map {r : Reader α} {x : α} {t : List Char} (h : Reads r x t) (f : α → β) :
    Reads (do return f (← r)) (f x) t :=
  h.gives.map f

/-! ## White space -/

theorem skipGap_append {g : List Char} (hg : Gap g) (s : List Char) : skipGap (g ++ s) = skipGap s :=
  List.dropWhile_append_of_pos hg

theorem skipGap_cons {c : Char} (hc : isGap c = false) (s : List Char) : skipGap (c :: s) = c :: s :=
  List.dropWhile_cons_of_neg (by simp [hc])

/-- **White space is passed over up to what is none.** -/
theorem skipGap_append_cons {g : List Char} {c : Char} (hg : Gap g) (hc : isGap c = false) (s : List Char) :
    skipGap (g ++ c :: s) = c :: s := by
  rw [skipGap_append hg, skipGap_cons hc]

theorem delimited_append {g s : List Char} (hg : Gap g) (hs : Delimited s) : Delimited (g ++ s) := by
  cases g with
  | nil => exact hs
  | cons c g =>
    intro d hd
    cases hd
    exact .inl (hg c List.mem_cons_self)

theorem delimited_cons {c : Char} {s : List Char} (hc : c = ',' ∨ c = ']' ∨ c = '\x7d') : Delimited (c :: s) := by
  intro d hd
  cases hd
  exact .inr hc

/-! ## Strings -/

theorem HexText.readHex {n : Nat} {t : List Char} (h : HexText n t) (s : List Char) : readHex (t ++ s) = .ok (n, s) := by
  obtain ⟨ha, hb, hc, hd⟩ := h
  simp only [List.cons_append, List.nil_append, Json.readHex, ha, hb, hc, hd]

/-- No character has the number of half a pair. -/
theorem toNat_not_half (c : Char) : isHighHalf c.toNat = false ∧ isLowHalf c.toNat = false := by
  have hc : c.toNat < 0xD800 ∨ 0xDFFF < c.toNat := c.valid.imp_right And.left
  simp only [isHighHalf, isLowHalf, Bool.and_eq_false_iff, decide_eq_false_iff_not]
  omega

theorem isLowHalf_of_isHighHalf {n : Nat} (h : isHighHalf n = true) : isLowHalf n = false := by
  simp only [isHighHalf, Bool.and_eq_true, decide_eq_true_eq] at h
  simp only [isLowHalf, Bool.and_eq_false_iff, decide_eq_false_iff_not]
  omega

theorem readNumericEscape_number {c : Char} {t : List Char} (h : HexText c.toNat t) (s : List Char) :
    readNumericEscape (t ++ s) = .ok (c, s) := by
  obtain ⟨hh, hl⟩ := toNat_not_half c
  simp only [readNumericEscape, h.readHex, hh, hl, Bool.not_false, Bool.false_eq_true, if_false, if_true,
    Char.ofNat_toNat]

theorem readNumericEscape_pair {c : Char} {high low : Nat} {t u : List Char} (ht : HexText high t) (hu : HexText low u)
    (hh : isHighHalf high = true) (hl : isLowHalf low = true)
    (hc : c.toNat = (high - 0xD800) * 1024 + (low - 0xDC00) + 0x10000) (s : List Char) :
    readNumericEscape (t ++ '\\' :: 'u' :: (u ++ s)) = .ok (c, s) := by
  simp only [readNumericEscape, ht.readHex, hu.readHex, isLowHalf_of_isHighHalf hh, hh, hl, Bool.not_true,
    Bool.false_eq_true, if_false, if_true, ← hc, Char.ofNat_toNat]

theorem readEscape_letter {l c : Char} (h : letterEscape? l = some c) (s : List Char) :
    readEscape (l :: s) = .ok (c, s) := by
  rw [readEscape, h]
  -- A numeric escape is no escape by letter.
  rintro rfl
  cases h

theorem readChars_itself {c : Char} (hs : ' ' ≤ c) (hq : c ≠ '"') (hb : c ≠ '\\') (s : List Char) :
    readChars (c :: s) = (fun r => (c :: r.1, r.2)) <$> readChars s := by
  rw [readChars, if_neg (Char.not_lt.2 hs)]
  · exact hq
  · exact hb

theorem readChars_escape {c : Char} {s u : List Char} (h : readEscape u = .ok (c, s)) :
    readChars ('\\' :: u) = (fun r => (c :: r.1, r.2)) <$> readChars s := by
  rw [readChars]
  split
  · rename_i he
    rw [h] at he
    cases he
  · rename_i he
    rw [h] at he
    cases he
    rfl

/-- **A character is read off, however it is written.** -/
theorem CharText.readChars {c : Char} {t : List Char} (h : CharText c t) (s : List Char) :
    readChars (t ++ s) = (fun r => (c :: r.1, r.2)) <$> readChars s := by
  cases h with
  | itself hs hq hb => exact readChars_itself hs hq hb s
  | letter hl => exact readChars_escape (readEscape_letter hl s)
  | number ht => exact readChars_escape (readNumericEscape_number ht s)
  | pair ht hu hh hl hc =>
    rw [List.cons_append, List.cons_append, List.append_assoc, List.cons_append, List.cons_append]
    exact readChars_escape (readNumericEscape_pair ht hu hh hl hc s)

theorem CharsText.readChars {cs t : List Char} (h : CharsText cs t) (s : List Char) :
    readChars (t ++ '"' :: s) = .ok (cs, s) := by
  induction h with
  | nil => rw [List.nil_append, Json.readChars]
  | cons hc _ ih =>
    rw [List.append_assoc, hc.readChars, ih]
    rfl

/-- **A string is read as what it stands for.** -/
theorem StringText.reads {s : String} {t : List Char} (h : StringText s t) : Reads readString s t := by
  obtain ⟨h⟩ := h
  intro g rest hg _
  have hq : isGap '"' = false := rfl
  simp only [readString, List.cons_append, skipGap_append_cons hg hq, List.append_assoc, List.nil_append, h.readChars]
  show Except.ok (String.ofList s.toList, rest) = _
  rw [String.ofList_toList]

/-! ## Natural numbers -/

theorem Delimited.head {c : Char} {s : List Char} (h : Delimited (c :: s)) :
    c.isDigit = false ∧ c ≠ '.' ∧ c ≠ 'e' ∧ c ≠ 'E' := by
  have hc := h c rfl
  simp only [isGap, Bool.or_eq_true, beq_iff_eq] at hc
  rcases hc with ((((rfl | rfl) | rfl) | rfl) | rfl | rfl | rfl) <;> decide

theorem isGap_of_isDigit {c : Char} (h : c.isDigit = true) : isGap c = false := by
  rw [Bool.eq_false_iff]
  intro hc
  have hdelimited : Delimited [c] := by
    intro d hd
    cases hd
    exact .inl hc
  rw [hdelimited.head.1] at h
  cases h

theorem isDigit_of_mem_writeNatural {n : Nat} {c : Char} (h : c ∈ writeNatural n) : c.isDigit = true :=
  Nat.isDigit_of_mem_toDigits (by decide) (by decide) h

theorem exists_writeNatural (n : Nat) : ∃ c cs, writeNatural n = c :: cs ∧ c.isDigit = true := by
  obtain ⟨c, cs, hc⟩ := List.exists_cons_of_ne_nil (l := writeNatural n) Nat.toDigits_ne_nil
  exact ⟨c, cs, hc, isDigit_of_mem_writeNatural (hc ▸ List.mem_cons_self)⟩

theorem digit_digitChar : ∀ d < 10, Magnitude.digit d.digitChar = d := by decide

/-- **The digits of a number that fits into a word are taken in without loss.** -/
theorem foldl_push_writeNatural (n : Nat) (h : n ≤ wordMax) : (writeNatural n).foldl Magnitude.push {} = ⟨n, 0⟩ := by
  unfold writeNatural
  by_cases hn : n < 10
  · rw [Nat.toDigits_of_lt_base hn, List.foldl_cons, List.foldl_nil, Magnitude.push, digit_digitChar n hn]
    simp [h]
  · have hs : n / 10 * 10 + n % 10 = n := by omega
    have ih := foldl_push_writeNatural (n / 10) (by omega)
    rw [writeNatural] at ih
    rw [Nat.toDigits_of_base_le (by decide) (by omega), List.foldl_append, ih, List.foldl_cons, List.foldl_nil,
      Magnitude.push, digit_digitChar _ (Nat.mod_lt n (by decide))]
    simp [hs, h]

/-- Only zero starts with a zero. -/
theorem head?_writeNatural {n : Nat} (h : 0 < n) : (writeNatural n).head? ≠ some '0' := by
  unfold writeNatural
  by_cases hn : n < 10
  · have hd : ∀ d < 10, 0 < d → d.digitChar ≠ '0' := by decide
    rw [Nat.toDigits_of_lt_base hn]
    simpa using hd n hn h
  · have ih := head?_writeNatural (n := n / 10) (by omega)
    rw [writeNatural] at ih
    rwa [Nat.toDigits_of_base_le (by decide) (by omega), List.head?_append_of_ne_nil _ Nat.toDigits_ne_nil]

theorem writeNatural_ne_zero_cons (n : Nat) (c : Char) (cs : List Char) : writeNatural n ≠ '0' :: c :: cs := by
  intro h
  rcases Nat.eq_zero_or_pos n with rfl | hn
  · cases h
  · exact head?_writeNatural hn (by rw [h]; rfl)

/-- Digits, at least one. -/
def Digits (ds : List Char) : Prop := ds ≠ [] ∧ ∀ c ∈ ds, c.isDigit = true

/-- What is no digit, and so ends a run of them. -/
def Undigit (s : List Char) : Prop := ∀ c ∈ s.head?, c.isDigit = false

theorem digits_writeNatural (n : Nat) : Digits (writeNatural n) :=
  ⟨Nat.toDigits_ne_nil, fun _ hc => isDigit_of_mem_writeNatural hc⟩

theorem Delimited.undigit {s : List Char} (h : Delimited s) : Undigit s := by
  cases s with
  | nil => nofun
  | cons c s =>
    intro d hd
    cases hd
    exact h.head.1

theorem takeWhile_digits {ds s : List Char} (hd : Digits ds) (hs : Undigit s) :
    (ds ++ s).takeWhile Char.isDigit = ds := by
  rw [List.takeWhile_append_of_pos hd.2]
  cases s with
  | nil => simp
  | cons c s => simp [hs c rfl]

theorem dropWhile_digits {ds s : List Char} (hd : Digits ds) (hs : Undigit s) :
    (ds ++ s).dropWhile Char.isDigit = s := by
  rw [List.dropWhile_append_of_pos hd.2]
  cases s with
  | nil => rfl
  | cons c s => simp [hs c rfl]

/-- A natural number that no fraction follows is scanned, whatever its size. -/
theorem scanNumber_whole {ended : Fault} {n : Nat} {s : List Char} (hs : Undigit s) (hpoint : s.head? ≠ some '.') :
    scanNumber ended (writeNatural n ++ s) = scanTail ended true ((writeNatural n).foldl Magnitude.push {}) s := by
  have hd := digits_writeNatural n
  simp only [scanNumber, takeWhile_digits hd hs, dropWhile_digits hd hs]
  split
  · rename_i hn
    exact absurd hn hd.1
  · rename_i hn
    exact absurd hn (writeNatural_ne_zero_cons _ _ _)
  · split
    · exact absurd rfl hpoint
    · rfl

theorem scanTail_delimited {ended : Fault} {plain : Bool} {m : Magnitude} {rest : List Char} (hr : Delimited rest) :
    scanTail ended plain m rest = .ok ⟨m, plain, rest⟩ := by
  unfold scanTail
  split
  · exact absurd rfl hr.head.2.2.1
  · exact absurd rfl hr.head.2.2.2
  · rfl

theorem Delimited.head?_ne {s : List Char} (h : Delimited s) : s.head? ≠ some '.' := by
  intro hc
  obtain ⟨s, rfl⟩ := List.head?_eq_some_iff.1 hc
  exact h.head.2.1 rfl

theorem scanNumber_delimited {ended : Fault} {n : Nat} {rest : List Char} (hr : Delimited rest) :
    scanNumber ended (writeNatural n ++ rest) = .ok ⟨(writeNatural n).foldl Magnitude.push {}, true, rest⟩ := by
  rw [scanNumber_whole hr.undigit hr.head?_ne, scanTail_delimited hr]

theorem scanNumber_writeNatural {ended : Fault} {n : Nat} {rest : List Char} (h : n ≤ wordMax) (hr : Delimited rest) :
    scanNumber ended (writeNatural n ++ rest) = .ok ⟨⟨n, 0⟩, true, rest⟩ := by
  rw [scanNumber_delimited hr, foldl_push_writeNatural n h]

/-- **A natural number below the bound is read as itself.** -/
theorem reads_writeNatural {bound n : Nat} (hn : n < bound) (hb : bound ≤ wordMax + 1) :
    Reads (readNatural bound) n (writeNatural n) := by
  intro g rest hg hr
  have hread : readNumber (writeNatural n ++ rest) = .ok (.natural n, rest) := by
    simp [readNumber, scanNumber_writeNatural (Nat.le_of_lt_succ (Nat.lt_of_lt_of_le hn hb)) hr]
  obtain ⟨c, cs, hc, hd⟩ := exists_writeNatural n
  rw [hc, List.cons_append] at hread ⊢
  simp only [readNatural, skipGap_append_cons hg (isGap_of_isDigit hd), hd, if_true, hread, hn]

/-! ## Records -/

theorem MembersText.delimited {members : List (String × List Char)} {t : List Char} (h : MembersText false members t)
    (s : List Char) : Delimited (t ++ s) := by
  cases h with
  | none hg =>
    rw [List.append_assoc]
    exact delimited_append hg (delimited_cons (.inr (.inr rfl)))
  | next hg =>
    rw [List.append_assoc]
    exact delimited_append hg (delimited_cons (.inl rfl))

theorem readColon_append {g : List Char} (hg : Gap g) (s : List Char) : readColon (g ++ ':' :: s) = .ok ((), s) := by
  simp only [readColon, skipGap_append_cons hg (by rfl : isGap ':' = false)]

/-- The value of a member that nobody knows is passed over. -/
def Overlooks (r : Reader Unit) (v : List Char) : Prop :=
  ∀ g g' rest, Gap g → Gap g' → Delimited rest → r (g ++ ':' :: (g' ++ (v ++ rest))) = .ok ((), rest)

namespace Record

variable {shape : Record σ α}

theorem readName_text {name : String} {n : List Char} (h : StringText name n) (s : List Char) :
    name?.readName (n ++ s) = .ok (some name, s) := by
  obtain ⟨h⟩ := h
  simp only [List.cons_append, List.append_assoc, List.nil_append, name?.readName, h.readChars]
  show Except.ok (some (String.ofList name.toList), s) = _
  rw [String.ofList_toList]

theorem name?_first {name : String} {g n : List Char} (hg : Gap g) (h : StringText name n) (s : List Char) :
    name? true (g ++ (n ++ s)) = .ok (some name, s) := by
  rw [← readName_text h s]
  obtain ⟨h⟩ := h
  rw [List.cons_append]
  simp [name?, skipGap_append_cons hg (by rfl : isGap '"' = false)]

theorem name?_next {name : String} {g₀ g n : List Char} (h₀ : Gap g₀) (hg : Gap g) (h : StringText name n)
    (s : List Char) : name? false (g₀ ++ ',' :: (g ++ (n ++ s))) = .ok (some name, s) := by
  rw [← readName_text h s]
  obtain ⟨h⟩ := h
  rw [List.cons_append]
  simp [name?, skipGap_append_cons h₀ (by rfl : isGap ',' = false), skipGap_append_cons hg (by rfl : isGap '"' = false)]

theorem name?_none {g : List Char} (first : Bool) (hg : Gap g) (s : List Char) :
    name? first (g ++ '\x7d' :: s) = .ok (none, s) := by
  simp only [name?, skipGap_append_cons hg (by rfl : isGap '\x7d' = false)]

/-- The members of a record, each with the text of its value, take it from one value to another, or one is refused. -/
inductive Yields (shape : Record σ α) : σ → List (String × List Char) → Except Fault σ → Prop
  | nil {x : σ} : Yields shape x [] (.ok x)
  | known {name : String} {m : Member σ} {x y : σ} {v : List Char} {members : List (String × List Char)}
      {o : Except Fault σ} : shape.members.find? (·.name == name) = some m → name ∉ members.map (·.1) →
      Reads (m.read x) y v → Yields shape y members o → Yields shape x ((name, v) :: members) o
  | refused {name : String} {m : Member σ} {x : σ} {v : List Char} {members : List (String × List Char)} {fault : Fault} :
      shape.members.find? (·.name == name) = some m → Gives (m.read x) (.error fault) v →
      Yields shape x ((name, v) :: members) (.error fault)
  | stranger {name : String} {x : σ} {v : List Char} {members : List (String × List Char)} {o : Except Fault σ} :
      shape.members.find? (·.name == name) = none → Overlooks shape.stranger v → Yields shape x members o →
      Yields shape x ((name, v) :: members) o

theorem readMember_known {seen : List String} {name : String} {m : Member σ} {x : σ} {o : Except Fault σ}
    {g₁ g₂ v s : List Char} (hm : shape.members.find? (·.name == name) = some m) (hn : name ∉ seen)
    (hv : Gives (m.read x) o v) (h₁ : Gap g₁) (h₂ : Gap g₂) (hs : Delimited s) :
    shape.readMember seen name x (g₁ ++ ':' :: (g₂ ++ (v ++ s))) = (·, s) <$> o := by
  have hseen : seen.contains name = false := by simpa using hn
  simp only [readMember, hm, hseen, Bool.false_eq_true, if_false]
  show (readColon (g₁ ++ ':' :: (g₂ ++ (v ++ s))) >>= fun p => m.read x p.2) = _
  rw [readColon_append h₁]
  exact hv g₂ s h₂ hs

theorem readMember_stranger {seen : List String} {name : String} {x : σ} {g₁ g₂ v s : List Char}
    (hm : shape.members.find? (·.name == name) = none) (hv : Overlooks shape.stranger v) (h₁ : Gap g₁) (h₂ : Gap g₂)
    (hs : Delimited s) : shape.readMember seen name x (g₁ ++ ':' :: (g₂ ++ (v ++ s))) = .ok (x, s) := by
  simp only [readMember, hm]
  show (shape.stranger (g₁ ++ ':' :: (g₂ ++ (v ++ s))) >>= fun p => pure (x, p.2)) = _
  rw [hv g₁ g₂ s h₁ h₂ hs]
  rfl

theorem readMembers_member {first : Bool} {seen : List String} {name : String} {x y : σ} {r s rest : List Char}
    (hname : name? first s = .ok (some name, r)) (hmember : shape.readMember seen name x r = .ok (y, rest))
    (hlt : rest.length < s.length) :
    shape.readMembers first seen x s = shape.readMembers false (name :: seen) y rest := by
  rw [readMembers, hname]
  dsimp only
  rw [hmember]
  exact if_pos hlt

theorem readMembers_refused {first : Bool} {seen : List String} {name : String} {x : σ} {r s : List Char} {fault : Fault}
    (hname : name? first s = .ok (some name, r)) (hmember : shape.readMember seen name x r = .error fault) :
    shape.readMembers first seen x s = .error fault := by
  rw [readMembers, hname]
  dsimp only
  rw [hmember]

/-- A member in front of an object's members: its name, a colon, the text of its value, and the members behind it. -/
theorem exists_member {first : Bool} {name : String} {v t : List Char} {members : List (String × List Char)}
    (h : MembersText first ((name, v) :: members) t) :
    ∃ g g' t', Gap g ∧ Gap g' ∧ MembersText false members t' ∧ ∀ s,
      name? first (t ++ s) = .ok (some name, g ++ ':' :: (g' ++ (v ++ (t' ++ s)))) ∧
        (t' ++ s).length < (t ++ s).length := by
  cases h with
  | first h₁ hname h₂ h₃ hrest =>
    refine ⟨_, _, _, h₂, h₃, hrest, fun s => ?_⟩
    simp only [List.append_assoc, List.cons_append, name?_first h₁ hname, List.length_append, List.length_cons]
    exact ⟨trivial, by omega⟩
  | next h₀ h₁ hname h₂ h₃ hrest =>
    refine ⟨_, _, _, h₂, h₃, hrest, fun s => ?_⟩
    simp only [List.append_assoc, List.cons_append, name?_next h₀ h₁ hname, List.length_append, List.length_cons]
    exact ⟨trivial, by omega⟩

/-- **An object's members give what they yield**, unless a known one was seen before. -/
theorem Yields.readMembers {x : σ} {members : List (String × List Char)} {o : Except Fault σ}
    (h : Yields shape x members o) {first : Bool} {seen : List String} {t : List Char} (ht : MembersText first members t)
    (hseen : ∀ name ∈ members.map (·.1), shape.members.find? (·.name == name) ≠ none → name ∉ seen)
    (s : List Char) :
    shape.readMembers first seen x (t ++ s) = (·, s) <$> o := by
  induction h generalizing first seen t with
  | nil =>
    cases ht with
    | none hg => rw [List.append_assoc, Record.readMembers, List.singleton_append, name?_none first hg]; rfl
  | @known name m x y v members o hm hn hv _ ih =>
    obtain ⟨g, g', t', hg, hg', ht', hname⟩ := exists_member ht
    have hnew := hseen name List.mem_cons_self (by rw [hm]; nofun)
    have hvalue := readMember_known hm hnew hv.gives hg hg' (ht'.delimited s)
    rw [readMembers_member (hname s).1 hvalue (hname s).2]
    refine ih ht' fun k hk hknown => List.not_mem_cons_of_ne_of_not_mem ?_ (hseen k (List.mem_cons_of_mem _ hk) hknown)
    rintro rfl
    exact hn hk
  | @refused name m x v members fault hm hv =>
    obtain ⟨g, g', t', hg, hg', ht', hname⟩ := exists_member ht
    have hnew := hseen name List.mem_cons_self (by rw [hm]; nofun)
    exact readMembers_refused (hname s).1 (readMember_known hm hnew hv hg hg' (ht'.delimited s))
  | @stranger name x v members o hm hv _ ih =>
    obtain ⟨g, g', t', hg, hg', ht', hname⟩ := exists_member ht
    have hvalue : shape.readMember seen name x (g ++ ':' :: (g' ++ (v ++ (t' ++ s)))) = .ok (x, t' ++ s) :=
      readMember_stranger hm hv hg hg' (ht'.delimited s)
    rw [readMembers_member (hname s).1 hvalue (hname s).2]
    refine ih ht' fun k hk hknown => List.not_mem_cons_of_ne_of_not_mem ?_ (hseen k (List.mem_cons_of_mem _ hk) hknown)
    rintro rfl
    exact hknown hm

/-- **An object gives what its members yield.** -/
theorem Yields.gives {x : σ} {members : List (String × List Char)} {o : Except Fault σ} {t : List Char}
    (h : Yields shape x members o) (ht : ObjectText members t) : Gives (shape.read x) (o >>= shape.finish) t := by
  obtain ⟨ht⟩ := ht
  intro g rest hg _
  simp only [Record.read, List.cons_append, skipGap_append_cons hg (by rfl : isGap '\x7b' = false),
    h.readMembers ht fun _ _ _ => List.not_mem_nil]
  cases o with
  | error fault => rfl
  | ok y =>
    show (shape.finish y >>= fun value => pure (value, rest)) = (·, rest) <$> shape.finish y
    cases shape.finish y <;> rfl

/-- The members of a record, each with the text of its value, take it from one value to another; `seen` are the names that
came before. -/
inductive Fills (shape : Record σ α) : List String → σ → List (String × List Char) → σ → Prop
  | nil {seen : List String} {x : σ} : Fills shape seen x [] x
  | cons {seen : List String} {name : String} {m : Member σ} {x y z : σ} {v : List Char}
      {members : List (String × List Char)} : shape.members.find? (·.name == name) = some m → name ∉ seen →
      Reads (m.read x) y v → Fills shape (name :: seen) y members z → Fills shape seen x ((name, v) :: members) z

theorem Fills.not_mem_seen {seen : List String} {x y : σ} {members : List (String × List Char)}
    (h : Fills shape seen x members y) : ∀ name ∈ members.map (·.1), name ∉ seen := by
  induction h with
  | nil => exact fun _ h => nomatch h
  | cons hm hn hv _ ih =>
    intro name hname
    rcases List.mem_cons.1 hname with rfl | hname
    · exact hn
    · exact fun hseen => ih name hname (List.mem_cons_of_mem _ hseen)

theorem Fills.yields {seen : List String} {x y : σ} {members : List (String × List Char)}
    (h : Fills shape seen x members y) : Yields shape x members (.ok y) := by
  induction h with
  | nil => exact .nil
  | cons hm hn hv hrest ih => exact .known hm (fun hname => hrest.not_mem_seen _ hname List.mem_cons_self) hv ih

/-- **An object is read as what its members make of the record.** -/
theorem Fills.reads {x y : σ} {z : α} {members : List (String × List Char)} {t : List Char}
    (h : Fills shape [] x members y) (hz : shape.finish y = .ok z) (ht : ObjectText members t) :
    Reads (shape.read x) z t := by
  have hgives : Gives (shape.read x) (shape.finish y) t := h.yields.gives ht
  rwa [hz] at hgives

end Record

/-- **A document gives what its text does**, with white space around it. -/
theorem Gives.document {r : Reader α} {o : Except Fault α} {g t g' : List Char} (h : Gives r o t) (hg : Gap g)
    (hg' : Gap g') : readDocument r (g ++ (t ++ g')) = o := by
  have hrest : Delimited g' := by
    rw [← List.append_nil g']
    exact delimited_append hg' (fun _ hc => nomatch hc)
  have hend : skipGap g' = [] := by
    rw [← List.append_nil g', skipGap_append hg']
    rfl
  show (r (g ++ (t ++ g')) >>= fun p => if (skipGap p.2).isEmpty then pure p.1 else throw Fault.malformed) = _
  rw [h g g' hg hrest]
  cases o with
  | error fault => rfl
  | ok x =>
    show (if (skipGap g').isEmpty then Except.ok x else .error Fault.malformed) = _
    rw [hend]
    rfl

theorem Reads.document {r : Reader α} {x : α} {g t g' : List Char} (h : Reads r x t) (hg : Gap g) (hg' : Gap g') :
    readDocument r (g ++ (t ++ g')) = .ok x :=
  h.gives.document hg hg'

end Json
end ChatClient
