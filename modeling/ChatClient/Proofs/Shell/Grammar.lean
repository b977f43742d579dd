import ChatClient.Shell.Instruction
import ChatClient.Proofs.Text.Blank
import Mathlib.Data.List.Induction
/-!
# Grammar — the lines that the shell understands

A line asks for something when it is blank, or has a keyword in front and behind it what the keyword needs (`Line`): words,
a port among them, or a message, which is the rest of the line without the white space around it (`Arguments`).  White space
of any kind and length may stand around the line and between its parts.

These lines, and no others, are understood, and as what they ask for (`understood_exactly`).
-/
namespace ChatClient
namespace Shell

open Blank

/-! ## Ports -/

/-- A number in decimal digits, with any number of zeros in front. -/
def Decimal (n : Nat) (digits : List Char) : Prop :=
  ∃ zeros, digits = List.replicate zeros '0' ++ Nat.toDigits 10 n

/-- A port in decimal digits, with a plus sign in front or without. -/
inductive PortText (p : UInt16) : List Char → Prop
  | plain {digits : List Char} : Decimal p.toNat digits → PortText p digits
  | signed {digits : List Char} : Decimal p.toNat digits → PortText p ('+' :: digits)

theorem number_eq (digits : List Char) : number digits = Nat.ofDigitChars 10 digits 0 := by
  rw [number, Nat.ofDigitChars_eq_foldl]
  simp only [Nat.mul_comm]

theorem number_concat (digits : List Char) (d : Char) :
    number (digits ++ [d]) = 10 * number digits + (d.toNat - '0'.toNat) := by
  rw [number_eq, number_eq, Nat.ofDigitChars_append, Nat.ofDigitChars_cons, Nat.ofDigitChars_nil]

theorem digit_lt {d : Char} (h : d.isDigit = true) : d.toNat - '0'.toNat < 10 := by
  simp only [Char.isDigit, Bool.and_eq_true, decide_eq_true_eq] at h
  have hle : d.toNat ≤ '9'.toNat := h.2
  change d.toNat - 48 < 10
  change d.toNat ≤ 57 at hle
  omega

theorem digitChar_digit {d : Char} (h : d.isDigit = true) : (d.toNat - '0'.toNat).digitChar = d := by
  have hof : ∀ n < 10, n.digitChar = Char.ofNat (48 + n) := by decide
  have hlt := digit_lt h
  simp only [Char.isDigit, Bool.and_eq_true, decide_eq_true_eq] at h
  have hge : '0'.toNat ≤ d.toNat := h.1
  rw [hof _ hlt]
  change Char.ofNat (48 + (d.toNat - 48)) = d
  change 48 ≤ d.toNat at hge
  rw [Nat.add_sub_cancel' hge, Char.ofNat_toNat]

/-- **Decimal digits spell the number that they are read as.** -/
theorem decimal_iff {n : Nat} {digits : List Char} :
    Decimal n digits ↔ digits ≠ [] ∧ (∀ c ∈ digits, c.isDigit = true) ∧ number digits = n := by
  constructor
  · rintro ⟨zeros, rfl⟩
    refine ⟨List.append_ne_nil_of_right_ne_nil _ Nat.toDigits_ne_nil, fun c hc => ?_, ?_⟩
    · rcases List.mem_append.1 hc with hc | hc
      · rw [List.eq_of_mem_replicate hc]
        rfl
      · exact Nat.isDigit_of_mem_toDigits (by decide) (by decide) hc
    · rw [number_eq, Nat.ofDigitChars_append, Nat.ofDigitChars_replicate_zero, Nat.mul_zero, Nat.ofDigitChars_ten_toDigits]
  · rintro ⟨hne, hdigits, rfl⟩
    induction digits using List.reverseRecOn with
    | nil => exact absurd rfl hne
    | append_singleton digits d ih =>
      have hd : d.isDigit = true := hdigits d (by simp)
      have hlast : Nat.toDigits 10 (d.toNat - '0'.toNat) = [d] := by
        rw [Nat.toDigits_of_lt_base (digit_lt hd), digitChar_digit hd]
      rw [number_concat]
      by_cases hnil : digits = []
      · subst hnil
        exact ⟨0, by rw [number, List.foldl_nil, Nat.mul_zero, Nat.zero_add, hlast]; rfl⟩
      obtain ⟨zeros, hzeros⟩ := ih hnil fun c hc => hdigits c (List.mem_append_left _ hc)
      -- A last digit behind nothing but zeros makes them all zeros in front.
      rcases Nat.eq_zero_or_pos (number digits) with hn | hn
      · refine ⟨zeros + 1, ?_⟩
        rw [hn, Nat.toDigits_zero] at hzeros
        rw [hn, Nat.mul_zero, Nat.zero_add, hlast, List.replicate_succ', ← hzeros]
      · refine ⟨zeros, ?_⟩
        rw [← Nat.toDigits_append_toDigits (by decide) hn (digit_lt hd), hlast, ← List.append_assoc, ← hzeros]

theorem port_of_digits {digits : List Char} {p : UInt16} :
    (if !digits.isEmpty && digits.all Char.isDigit && number digits < 65536 then some (UInt16.ofNat (number digits))
      else none) = some p ↔ Decimal p.toNat digits := by
  rw [decimal_iff]
  split
  · rename_i h
    simp only [Bool.and_eq_true, Bool.not_eq_true', List.isEmpty_eq_false_iff, List.all_eq_true, decide_eq_true_eq] at h
    obtain ⟨⟨hne, hdigits⟩, hlt⟩ := h
    rw [Option.some.injEq, ← UInt16.toNat_inj, UInt16.toNat_ofNat_of_lt' hlt]
    exact ⟨fun h => ⟨hne, hdigits, h⟩, fun h => h.2.2⟩
  · rename_i h
    refine ⟨nofun, fun ⟨hne, hdigits, hp⟩ => absurd ?_ h⟩
    have hlt := p.toNat_lt
    simp only [Bool.and_eq_true, Bool.not_eq_true', List.isEmpty_eq_false_iff, List.all_eq_true, decide_eq_true_eq]
    exact ⟨⟨hne, hdigits⟩, by omega⟩

theorem port?_eq_some_iff {w : List Char} {p : UInt16} : port? w = some p ↔ PortText p w := by
  unfold port?
  split
  · rw [port_of_digits]
    refine ⟨.signed, fun h => ?_⟩
    cases h with
    | plain h => cases (decimal_iff.1 h).2.1 '+' List.mem_cons_self
    | signed h => exact h
  · rename_i hplus
    rw [port_of_digits]
    refine ⟨.plain, fun h => ?_⟩
    cases h with
    | plain h => exact h
    | signed h => exact absurd rfl (hplus _)

/-! ## Lines -/

/-- What an instruction needs behind its keyword. -/
inductive Arguments : Instruction → String → List Char → Prop
  | connect {t : List Char} : Words [] t → Arguments (.connect none none) "connect" t
  | host {host : String} {t : List Char} : Words [host.toList] t → Arguments (.connect (some host) none) "connect" t
  | port {host : String} {p : UInt16} {w t : List Char} : PortText p w → Words [host.toList, w] t →
      Arguments (.connect (some host) (some p)) "connect" t
  | login {username password : String} {t : List Char} : Words [username.toList, password.toList] t →
      Arguments (.login username password) "login" t
  | whisper {target message : String} {g₁ g₂ g₃ : List Char} :
      Blanks g₁ → Word target.toList → Blanks g₂ → g₂ ≠ [] →
      Solid message.toList → Blanks g₃ →
      Arguments (.whisper target message) "whisper" (g₁ ++ (target.toList ++ (g₂ ++ (message.toList ++ g₃))))
  | join {room : String} {t : List Char} : Words [room.toList] t → Arguments (.join room) "join" t
  | shout {message : String} {g g' : List Char} : Blanks g → Solid message.toList → Blanks g' →
      Arguments (.shout message) "shout" (g ++ (message.toList ++ g'))
  | disconnect (t : List Char) : Arguments .disconnect "disconnect" t
  | status (t : List Char) : Arguments .status "status" t
  | help (t : List Char) : Arguments .help "help" t
  | question (t : List Char) : Arguments .help "?" t
  | quit (t : List Char) : Arguments .quit "quit" t
  | exit (t : List Char) : Arguments .quit "exit" t

/-- A line that asks for something. -/
inductive Line : Instruction → List Char → Prop
  | blank {g : List Char} : Blanks g → Line .empty g
  | keyword {c : Instruction} {keyword : String} {g t : List Char} : Blanks g → Apart t → Arguments c keyword t →
      Line c (g ++ (keyword.toList ++ t))

variable {c : Instruction} {g m t w : List Char}

theorem Arguments.word {keyword : String} (h : Arguments c keyword t) : Word keyword.toList := by
  have hword : ∀ w : List Char, (!w.isEmpty && w.all (!isBlank ·)) = true → Word w := fun w hw => by
    simpa [Word] using hw
  cases h <;> exact hword _ rfl

/-- What is trimmed is parted at its first white space: a word and something solid, or nothing solid behind the cut. -/
theorem cut_trim (t : List Char) : trim (cut (trim t)).2 = [] ∨
    ∃ g₁ w g₂ m g₃, Blanks g₁ ∧ Word w ∧ Blanks g₂ ∧ g₂ ≠ [] ∧ Solid m ∧ Blanks g₃ ∧
      t = g₁ ++ (w ++ (g₂ ++ (m ++ g₃))) := by
  rcases blanks_or_solid t with ht | ⟨g₁, s, g₃, hg₁, hs, hg₃, rfl⟩
  · rw [trim_blanks ht]
    exact .inl rfl
  obtain ⟨w, u, hw, hu, rfl⟩ := hs.exists_word
  rw [trim_solid hg₁ hs hg₃, cut_word hw hu]
  rcases blanks_or_solid u with hblank | ⟨g₂, m, g, hg₂, hm, hg, rfl⟩
  · exact .inl (trim_blanks fun c hc => hblank c (List.mem_of_mem_drop hc))
  · obtain ⟨b, g', rfl⟩ := hu.exists_cons hm
    exact .inr ⟨g₁, w, b :: g', m, g ++ g₃, hg₁, hw, hg₂, nofun, hm, hg.append hg₃, by simp⟩

theorem cut_trim_word {g₁ g₂ g₃ : List Char}
    (hg₁ : Blanks g₁) (hw : Word w) (hg₂ : Blanks g₂) (hne : g₂ ≠ [])
    (hm : Solid m) (hg₃ : Blanks g₃) :
    (cut (trim (g₁ ++ (w ++ (g₂ ++ (m ++ g₃)))))).1 = w ∧
      trim (cut (trim (g₁ ++ (w ++ (g₂ ++ (m ++ g₃)))))).2 = m := by
  obtain ⟨b, g, rfl⟩ := List.exists_cons_of_ne_nil hne
  have hsolid := hw.solid.append hm (b :: g)
  have happart : Apart (b :: g ++ m) := fun c hc => by
    cases hc
    exact hg₂ b List.mem_cons_self
  have htrim : trim (g₁ ++ (w ++ (b :: g ++ (m ++ g₃)))) = w ++ (b :: g ++ m) := by
    rw [← trim_solid hg₁ hsolid hg₃]
    simp
  rw [htrim, cut_word hw happart]
  have hbehind := trim_solid (g := g) (fun c hc => hg₂ c (List.mem_cons_of_mem b hc)) hm blanks_nil
  rw [List.append_nil] at hbehind
  exact ⟨rfl, hbehind⟩

theorem parse_blank {line : String} (h : Blanks line.toList) : Instruction.parse line = .ok .empty := by
  rw [Instruction.parse, trim_blanks h]
  rfl

theorem parse_keyword {line : String} (hg : Blanks g) (hw : Word w) (ht : Apart t) (h : line.toList = g ++ (w ++ t)) :
    Instruction.parse line = Instruction.ofKeyword w (trim t) := by
  rw [Instruction.parse, h]
  rcases blanks_or_solid t with hblank | ⟨g', m, g'', hg', hm, hg'', rfl⟩
  · have hcut := cut_word hw (t := []) nofun
    rw [List.append_nil] at hcut
    rw [trim_solid hg hw.solid hblank, trim_blanks hblank, hcut]
    rfl
  · obtain ⟨b, g', rfl⟩ := ht.exists_cons hm
    have happart : Apart (b :: g' ++ m) := ht
    have htrim : trim (g ++ (w ++ (b :: g' ++ (m ++ g'')))) = w ++ (b :: g' ++ m) := by
      rw [← trim_solid hg (hw.solid.append hm (b :: g')) hg'']
      simp
    rw [htrim, cut_word hw happart, trim_solid hg' hm hg'']
    exact congrArg (Instruction.ofKeyword w) ((trimStart_append (fun c hc => hg' c (List.mem_cons_of_mem b hc)) m).trans
      (trimStart_eq hm.head))

/-- **What a keyword does not refuse are its arguments.** -/
theorem Arguments.of_ofKeyword (hw : w ≠ []) (h : Instruction.ofKeyword w (trim t) = .ok c) :
    Arguments c (String.ofList w) t := by
  unfold Instruction.ofKeyword at h
  rw [words_trim] at h
  generalize hkeyword : String.ofList w = keyword at h
  -- The cases are the keywords, in the order in which they are looked for.
  split at h
  · exact absurd (by simpa using hkeyword) hw
  · generalize hwords : words t = ws at h
    rw [words_eq_iff] at hwords
    split at h
    · cases h
      exact .connect hwords
    · cases h
      exact .host (by rwa [String.toList_ofList])
    · split at h
      · rename_i p hport
        cases h
        exact .port (port?_eq_some_iff.1 hport) (by rwa [String.toList_ofList])
      · cases h
    · cases h
  · generalize hwords : words t = ws at h
    rw [words_eq_iff] at hwords
    split at h
    · cases h
      exact .login (by rwa [String.toList_ofList, String.toList_ofList])
    · cases h
  · rcases cut_trim t with hempty | ⟨g₁, v, g₂, m, g₃, hg₁, hv, hg₂, hne, hm, hg₃, rfl⟩
    · simp [hempty] at h
    · obtain ⟨htarget, hmessage⟩ := cut_trim_word hg₁ hv hg₂ hne hm hg₃
      simp only [htarget, hmessage, List.isEmpty_eq_false_iff.2 hm.ne_nil, Bool.false_eq_true, if_false, Except.ok.injEq] at h
      have harguments : Arguments (.whisper (String.ofList v) (String.ofList m)) _ _ := .whisper hg₁
        (by rwa [String.toList_ofList]) hg₂ hne (by rwa [String.toList_ofList]) hg₃
      rwa [h, String.toList_ofList, String.toList_ofList] at harguments
  · generalize hwords : words t = ws at h
    rw [words_eq_iff] at hwords
    split at h
    · cases h
      exact .join (by rwa [String.toList_ofList])
    · cases h
  · rcases blanks_or_solid t with hblank | ⟨g, m, g', hg, hm, hg', rfl⟩
    · simp [trim_blanks hblank] at h
    · simp only [trim_solid hg hm hg', List.isEmpty_eq_false_iff.2 hm.ne_nil, Bool.false_eq_true, if_false,
        trimEnd_eq hm.last, Except.ok.injEq] at h
      have harguments : Arguments (.shout (String.ofList m)) _ _ := .shout hg (by rwa [String.toList_ofList]) hg'
      rwa [h, String.toList_ofList] at harguments
  · cases h
    exact .disconnect t
  · cases h
    exact .status t
  · cases h
    exact .help t
  · cases h
    exact .question t
  · cases h
    exact .quit t
  · cases h
    exact .exit t
  · cases h

/-- **No keyword refuses its arguments.** -/
theorem Arguments.ofKeyword {keyword : String} (h : Arguments c keyword t) :
    Instruction.ofKeyword keyword.toList (trim t) = .ok c := by
  unfold Instruction.ofKeyword
  rw [String.ofList_toList, words_trim]
  cases h with
  | connect h => simp only [words_eq_iff.2 h]
  | host h => simp only [words_eq_iff.2 h, String.ofList_toList]
  | port hp h => simp only [words_eq_iff.2 h, port?_eq_some_iff.2 hp, String.ofList_toList]
  | login h => simp only [words_eq_iff.2 h, String.ofList_toList]
  | whisper hg₁ hw hg₂ hne hm hg₃ =>
    obtain ⟨htarget, hmessage⟩ := cut_trim_word hg₁ hw hg₂ hne hm hg₃
    simp only [htarget, hmessage, List.isEmpty_eq_false_iff.2 hm.ne_nil, Bool.false_eq_true, if_false, String.ofList_toList]
  | join h => simp only [words_eq_iff.2 h, String.ofList_toList]
  | shout hg hm hg' =>
    simp only [trim_solid hg hm hg', List.isEmpty_eq_false_iff.2 hm.ne_nil, Bool.false_eq_true, if_false, trimEnd_eq hm.last,
      String.ofList_toList]
  | disconnect | status | help | question | quit | exit => rfl

theorem line_iff {line : String} : Instruction.parse line = .ok c ↔ Line c line.toList := by
  constructor
  · intro h
    rcases blanks_or_solid line.toList with hblank | ⟨g, m, g', hg, hm, hg', hline⟩
    · rw [parse_blank hblank] at h
      cases h
      exact .blank hblank
    · obtain ⟨w, t, hw, ht, rfl⟩ := hm.exists_word
      rw [List.append_assoc] at hline
      rw [parse_keyword hg hw (ht.append_blanks hg') hline] at h
      have hkeyword := Line.keyword hg (ht.append_blanks hg') (.of_ofKeyword hw.1 h)
      rwa [String.toList_ofList, ← hline] at hkeyword
  · intro h
    generalize hline : line.toList = s at h
    cases h with
    | blank hg => exact parse_blank (hline ▸ hg)
    | keyword hg ht h =>
      rw [parse_keyword hg h.word ht hline]
      exact h.ofKeyword

/-- **The shell understands these lines, and no others, and as what they ask for.** -/
theorem understood_exactly (line : String) : (∀ c, Instruction.parse line = .ok c ↔ Line c line.toList) ∧
    ((∃ refusal, Instruction.parse line = .error refusal) ↔ ∀ c, ¬ Line c line.toList) := by
  refine ⟨fun c => line_iff, fun ⟨refusal, h⟩ c hc => ?_, fun h => ?_⟩
  · rw [line_iff.2 hc] at h
    cases h
  · cases hparse : Instruction.parse line with
    | ok c => exact absurd (line_iff.1 hparse) (h c)
    | error refusal => exact ⟨refusal, rfl⟩

end Shell
end ChatClient
