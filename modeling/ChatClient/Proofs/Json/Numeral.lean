import ChatClient.Proofs.Json.Outcome
/-!
# Numeral — the texts of numbers

A number is a natural number with perhaps a minus in front, a fraction behind it, and an exponent behind that
(`NumberText`).  Passing over one takes all of it, however large it is (`skipNumber_append`).

An integer has one text (`writeInteger`), and a reader of natural numbers below a bound makes the integer of it or refuses
it: none is cut down to what fits (`settles_integer`).
-/
namespace ChatClient
namespace Json

inductive FractionText : List Char → Prop
  | none : FractionText []
  | digits {ds : List Char} : Digits ds → FractionText ('.' :: ds)

inductive ExponentText : List Char → Prop
  | none : ExponentText []
  | digits {e : Char} {sign ds : List Char} :
      e = 'e' ∨ e = 'E' → sign = [] ∨ sign = ['+'] ∨ sign = ['-'] → Digits ds →
      ExponentText (e :: (sign ++ ds))

/-- The ways to write a number. -/
inductive NumberText : List Char → Prop
  | unsigned {n : Nat} {f e : List Char} : FractionText f → ExponentText e → NumberText (writeNatural n ++ (f ++ e))
  | negative {n : Nat} {f e : List Char} : FractionText f → ExponentText e →
      NumberText ('-' :: (writeNatural n ++ (f ++ e)))

/-- The text of an integer. -/
def writeInteger : Int → List Char
  | .ofNat n => writeNatural n
  | .negSucc n => '-' :: writeNatural (n + 1)

variable {ended : Fault} {plain : Bool} {m : Magnitude} {ds f e s rest : List Char}

/-! ## Scanning -/

theorem ExponentText.undigit (he : ExponentText e) (hr : Delimited rest) : Undigit (e ++ rest) := by
  cases he with
  | none => exact hr.undigit
  | digits he =>
    intro c hc
    cases hc
    rcases he with rfl | rfl <;> rfl

theorem scanExponent_digits (hd : Digits ds) (hs : Undigit rest) {sign : List Char}
    (hsign : sign = [] ∨ sign = ['+'] ∨ sign = ['-']) :
    ∃ n, scanExponent ended m (sign ++ (ds ++ rest)) = .ok n ∧ n.rest = rest := by
  have hunsigned : (scanSign (sign ++ (ds ++ rest))).2 = ds ++ rest := by
    rcases hsign with rfl | rfl | rfl
    · obtain ⟨c, ds, rfl⟩ := List.exists_cons_of_ne_nil hd.1
      have hc := hd.2 c List.mem_cons_self
      rw [List.nil_append, List.cons_append, scanSign] <;> rintro s ⟨⟩ <;> cases hc
    · rfl
    · rfl
  have hne : ds.isEmpty = false := List.isEmpty_eq_false_iff.2 hd.1
  simp only [scanExponent, hunsigned, takeWhile_digits hd hs, dropWhile_digits hd hs, hne, Bool.false_eq_true, if_false]
  exact ⟨_, rfl, rfl⟩

/-- **An exponent is scanned to its end.** -/
theorem ExponentText.scanTail (he : ExponentText e) (hr : Delimited rest) :
    ∃ n, scanTail ended plain m (e ++ rest) = .ok n ∧ n.rest = rest := by
  cases he with
  | none => exact ⟨_, scanTail_delimited hr, rfl⟩
  | digits he hsign hd =>
    obtain ⟨n, hn, hrest⟩ : ∃ n, scanExponent ended m (_ ++ (_ ++ rest)) = .ok n ∧ n.rest = rest :=
      scanExponent_digits hd hr.undigit hsign
    refine ⟨n, ?_, hrest⟩
    rw [List.cons_append, List.append_assoc, ← hn]
    rcases he with rfl | rfl <;> rfl

theorem scanNumber_fraction {n : Nat} (hf : Digits ds) (hs : Undigit s) : ∃ m,
    scanNumber ended (writeNatural n ++ '.' :: (ds ++ s)) = scanTail ended false m s := by
  have hd := digits_writeNatural n
  have hpoint : Undigit ('.' :: (ds ++ s)) := fun c hc => by cases hc; rfl
  have hne : ds.isEmpty = false := List.isEmpty_eq_false_iff.2 hf.1
  simp only [scanNumber, takeWhile_digits hd hpoint, dropWhile_digits hd hpoint]
  split
  · rename_i hn
    exact absurd hn hd.1
  · rename_i hn
    exact absurd hn (writeNatural_ne_zero_cons _ _ _)
  · simp only [takeWhile_digits hf hs, dropWhile_digits hf hs, hne, Bool.false_eq_true, if_false]
    exact ⟨_, rfl⟩

/-- **A number without its sign is passed over.** -/
theorem skipNumber_append {n : Nat} (hf : FractionText f) (he : ExponentText e) (hr : Delimited rest) :
    skipNumber (writeNatural n ++ (f ++ e) ++ rest) = .ok rest := by
  obtain ⟨k, hk, hrest⟩ : ∃ k, scanNumber .malformed (writeNatural n ++ (f ++ e) ++ rest) = .ok k ∧ k.rest = rest := by
    rw [List.append_assoc, List.append_assoc]
    cases hf with
    | none =>
      have hpoint : (e ++ rest).head? ≠ some '.' := by
        cases he with
        | none => exact hr.head?_ne
        | digits he => rcases he with rfl | rfl <;> simp
      rw [List.nil_append, scanNumber_whole (he.undigit hr) hpoint]
      exact he.scanTail hr
    | digits hd =>
      obtain ⟨m, hm⟩ : ∃ m, scanNumber .malformed (writeNatural n ++ '.' :: (_ ++ (e ++ rest))) =
          scanTail .malformed false m (e ++ rest) := scanNumber_fraction hd (he.undigit hr)
      rw [List.cons_append, hm]
      exact he.scanTail hr
  rw [skipNumber, hk]
  exact congrArg Except.ok hrest

/-! ## Integers -/

theorem push_exponent {m : Magnitude} (hm : 0 ≤ m.exponent) (c : Char) : 0 ≤ (m.push c).exponent ∧
    ((m.push c).exponent = 0 → m.exponent = 0 ∧ (m.push c).significand = m.significand * 10 + Magnitude.digit c) := by
  unfold Magnitude.push
  split
  · rename_i h
    simp only [Bool.and_eq_true, decide_eq_true_eq] at h
    exact ⟨Int.le_refl 0, fun _ => ⟨h.1, rfl⟩⟩
  · exact ⟨Int.add_nonneg hm (by decide), fun h => absurd h (by show m.exponent + 1 ≠ 0; omega)⟩

/-- **A magnitude whose point did not move has lost nothing.** -/
theorem foldl_push_exact (n : Nat) : 0 ≤ ((writeNatural n).foldl Magnitude.push {}).exponent ∧
    (((writeNatural n).foldl Magnitude.push {}).exponent = 0 →
      ((writeNatural n).foldl Magnitude.push {}).significand = n) := by
  unfold writeNatural
  by_cases hn : n < 10
  · obtain ⟨hexponent, hsignificand⟩ := push_exponent (m := {}) (Int.le_refl 0) n.digitChar
    rw [Nat.toDigits_of_lt_base hn, List.foldl_cons, List.foldl_nil]
    refine ⟨hexponent, fun h => (hsignificand h).2.trans ?_⟩
    rw [digit_digitChar n hn]
    exact Nat.zero_add n
  · obtain ⟨ihexponent, ihsignificand⟩ := foldl_push_exact (n / 10)
    rw [writeNatural] at ihexponent ihsignificand
    rw [Nat.toDigits_of_base_le (by decide) (by omega), List.foldl_append, List.foldl_cons, List.foldl_nil]
    obtain ⟨hexponent, hsignificand⟩ := push_exponent ihexponent (n % 10).digitChar
    refine ⟨hexponent, fun h => (hsignificand h).2.trans ?_⟩
    rw [ihsignificand (hsignificand h).1, digit_digitChar _ (Nat.mod_lt n (by decide))]
    omega

/-- **Digits are read as the number they spell, or as no natural number at all**, whatever stands behind them. -/
theorem exists_readNumber (n : Nat) : ∃ o : Except Fault Number, (∀ k, o = .ok (.natural k) → k = n) ∧
    ∀ rest, Delimited rest → readNumber (writeNatural n ++ rest) = (·, rest) <$> o := by
  obtain ⟨-, hexact⟩ := foldl_push_exact n
  have hscan : ∀ rest, Delimited rest → scanNumber .truncated (writeNatural n ++ rest) =
      .ok ⟨(writeNatural n).foldl Magnitude.push {}, true, rest⟩ := fun rest hr => scanNumber_delimited hr
  generalize (writeNatural n).foldl Magnitude.push {} = m at hexact hscan
  by_cases he : m.exponent = 0
  · refine ⟨.ok (.natural m.significand), fun k hk => ?_, fun rest hr => by simp [readNumber, hscan rest hr, he]⟩
    cases hk
    exact hexact he
  by_cases hreach : m.outOfReach = true
  · exact ⟨.error .malformed, by simp, fun rest hr => by simp [readNumber, hscan rest hr, he, hreach]⟩
  · exact ⟨.ok .other, by simp, fun rest hr => by simp [readNumber, hscan rest hr, he, hreach]⟩

theorem refuses_natural {bound n : Nat} (h : bound ≤ n) :
    ∃ fault, Gives (readNatural bound) (.error fault) (writeNatural n) := by
  obtain ⟨o, ho, hread⟩ := exists_readNumber n
  obtain ⟨c, cs, hc, hd⟩ := exists_writeNatural n
  refine ⟨misfit.faultOf o, fun g rest hg hr => ?_⟩
  have hnumber := hread rest hr
  rw [hc, List.cons_append] at hnumber ⊢
  simp only [readNatural, skipGap_append_cons hg (isGap_of_isDigit hd), hd, if_true, hnumber]
  cases o with
  | error fault => rfl
  | ok k =>
    cases k with
    | natural k =>
      obtain rfl := ho k rfl
      exact if_neg (Nat.not_lt.2 h)
    | other => rfl

theorem refuses_negative (bound n : Nat) :
    ∃ fault, Gives (readNatural bound) (.error fault) ('-' :: writeNatural n) := by
  obtain ⟨o, -, hread⟩ := exists_readNumber n
  refine ⟨misfit.faultOf o, fun g rest hg hr => ?_⟩
  have hminus : '-'.isDigit = false := rfl
  simp only [readNatural, List.cons_append, skipGap_append_cons hg (by rfl : isGap '-' = false), hminus, Bool.false_eq_true,
    if_false, misfit, hread rest hr]
  cases o <;> rfl

/-- **An integer is read as itself or refused**, as it is in range or not. -/
theorem settles_integer (bound : Nat) (hb : bound ≤ wordMax + 1) (z : Int) :
    Settles (readNatural bound) (0 ≤ z ∧ z < bound) True (fun n => (n : Int) = z ∧ n < bound) (writeInteger z) := by
  cases z with
  | ofNat n =>
    by_cases hn : n < bound
    · have hrange : 0 ≤ Int.ofNat n ∧ Int.ofNat n < bound := ⟨Int.natCast_nonneg n, Int.ofNat_lt.2 hn⟩
      exact ⟨.ok n, (reads_writeNatural hn hb).gives, (Outcome.ok ⟨rfl, hn⟩).congr (iff_true_intro hrange) Iff.rfl⟩
    · obtain ⟨fault, hfault⟩ := refuses_natural (Nat.not_lt.1 hn)
      exact ⟨.error fault, hfault, .refused fun hrange => hn (Int.ofNat_lt.1 hrange.2)⟩
  | negSucc n =>
    obtain ⟨fault, hfault⟩ := refuses_negative bound (n + 1)
    exact ⟨.error fault, hfault, .refused fun hrange => absurd hrange.1 (Int.not_le.2 (Int.negSucc_lt_zero n))⟩

end Json
end ChatClient
