import ChatClient.Proofs.Json.Numeral
/-!
# Skipping — what is well-formed is passed over

A value that is passed over only has to have the right shape (`WellFormed`): a string with escapes by number of any four
digits, half a pair included, a number of any size, and arrays and objects nested to any depth, an object perhaps with one
name twice.

Wherever the reader stands, it passes over what is well-formed to its end, with the brackets open that were open before
(`WellFormed.skipFrom`).  So a member that nobody knows changes nothing, whatever well-formed value it has
(`WellFormed.overlooked`).
-/
namespace ChatClient
namespace Json

/-! ## The grammar -/

/-- The ways to write something inside a string, whether or not it stands for a character. -/
inductive LooseChar : List Char → Prop
  | itself {c : Char} : ' ' ≤ c → c ≠ '"' → c ≠ '\\' → LooseChar [c]
  | letter {l : Char} : (letterEscape? l).isSome → LooseChar ['\\', l]
  | number {n : Nat} {t : List Char} : HexText n t → LooseChar ('\\' :: 'u' :: t)

inductive LooseChars : List Char → Prop
  | nil : LooseChars []
  | cons {t u : List Char} : LooseChar t → LooseChars u → LooseChars (t ++ u)

inductive LooseText : List Char → Prop
  | quoted {t : List Char} : LooseChars t → LooseText ('"' :: (t ++ ['"']))

/-- A part of a text: a value, or what is left of an array or of an object, its end included, behind the first value or
member or, with `first`, behind the bracket. -/
inductive Part where
  | value
  | elements (first : Bool)
  | members (first : Bool)

/-- The ways to write a part. -/
inductive WellFormed : Part → List Char → Prop
  | keyword {w : String} : w ∈ ["null", "true", "false"] → WellFormed .value w.toList
  | string {t : List Char} : LooseText t → WellFormed .value t
  | number {t : List Char} : NumberText t → WellFormed .value t
  | array {g t : List Char} : Gap g → WellFormed (.elements true) t → WellFormed .value ('[' :: (g ++ t))
  | object {g t : List Char} : Gap g → WellFormed (.members true) t → WellFormed .value ('\x7b' :: (g ++ t))
  | noElements {first : Bool} : WellFormed (.elements first) [']']
  | firstElement {v g t : List Char} : WellFormed .value v → Gap g → WellFormed (.elements false) t →
      WellFormed (.elements true) (v ++ (g ++ t))
  | nextElement {g v g' t : List Char} : Gap g → WellFormed .value v → Gap g' → WellFormed (.elements false) t →
      WellFormed (.elements false) (',' :: (g ++ (v ++ (g' ++ t))))
  | noMembers {first : Bool} : WellFormed (.members first) ['\x7d']
  | firstMember {n g₁ g₂ v g₃ t : List Char} :
      LooseText n → Gap g₁ → Gap g₂ → WellFormed .value v → Gap g₃ →
      WellFormed (.members false) t → WellFormed (.members true) (n ++ (g₁ ++ ':' :: (g₂ ++ (v ++ (g₃ ++ t)))))
  | nextMember {g n g₁ g₂ v g₃ t : List Char} :
      Gap g → LooseText n → Gap g₁ → Gap g₂ → WellFormed .value v → Gap g₃ →
      WellFormed (.members false) t →
      WellFormed (.members false) (',' :: (g ++ (n ++ (g₁ ++ ':' :: (g₂ ++ (v ++ (g₃ ++ t)))))))

/-- Where the reader stands in front of a part, inside the brackets that are open around it. -/
def Part.place (opened : List Bracket) : Part → Place
  | value => ⟨.value, opened⟩
  | elements true => ⟨.firstValue, .array :: opened⟩
  | elements false => ⟨.afterValue, .array :: opened⟩
  | members true => ⟨.firstName, .object :: opened⟩
  | members false => ⟨.afterValue, .object :: opened⟩

variable {opened : List Bracket} {g n r s t v rest : List Char}

/-! ## Strings -/

theorem skipChars_escape (h : skipEscape s = .ok r) : skipChars ('\\' :: s) = skipChars r := by
  rw [skipChars]
  split
  · rename_i he
    rw [h] at he
    cases he
  · rename_i he
    rw [h] at he
    cases he
    rfl

theorem LooseChar.skipChars (h : LooseChar t) (s : List Char) : skipChars (t ++ s) = skipChars s := by
  cases h with
  | itself hs hq hb =>
    rw [List.singleton_append, Json.skipChars, if_neg (Char.not_lt.2 hs)]
    · exact hq
    · exact hb
  | @letter l hl =>
    refine skipChars_escape ?_
    show skipEscape (l :: s) = .ok s
    rw [skipEscape, if_pos hl]
    -- The letter of an escape by number escapes nothing itself.
    rintro rfl
    cases hl
  | number ht =>
    refine skipChars_escape ?_
    show (·.2) <$> readHex (_ ++ s) = .ok s
    rw [ht.readHex]
    rfl

/-- **A string is passed over to its closing quote.** -/
theorem LooseChars.skipChars (h : LooseChars t) (s : List Char) : skipChars (t ++ '"' :: s) = .ok s := by
  induction h with
  | nil => rw [List.nil_append, Json.skipChars]
  | cons hc _ ih => rw [List.append_assoc, hc.skipChars, ih]

/-! ## One step -/

theorem skipFrom_eq {p : Place} (hp : p ≠ ⟨.afterValue, []⟩) (s : List Char) :
    skipFrom p s = skipStep p s >>= fun q => skipFrom q.1 q.2 := by
  rw [skipFrom, if_neg hp]
  split
  · rename_i h
    rw [h]
    rfl
  · rename_i q r h
    show skipFrom q r = _
    rw [h]
    rfl

theorem skipFrom_step {p q : Place} (hp : p ≠ ⟨.afterValue, []⟩) (h : skipStep p s = .ok (q, r)) :
    skipFrom p s = skipFrom q r := by
  rw [skipFrom_eq hp, h]
  rfl

/-- A value that has no brackets takes one step. -/
theorem skipFrom_scalar {c : Char} (hg : Gap g) (hc : isGap c = false) (harray : c ≠ '[') (hobject : c ≠ '\x7b')
    (h : skipScalar c s = .ok r) : skipFrom ⟨.value, opened⟩ (g ++ c :: s) = skipFrom ⟨.afterValue, opened⟩ r := by
  refine skipFrom_step (by simp) ?_
  show skipStepValue opened (g ++ c :: s) = _
  unfold skipStepValue
  rw [skipGap_append_cons hg hc]
  split
  · rename_i heq
    cases heq
  · rename_i heq
    cases heq
    exact absurd rfl harray
  · rename_i heq
    cases heq
    exact absurd rfl hobject
  · rename_i heq
    cases heq
    rw [h]
    rfl

theorem skipFrom_keyword {w : String} (hw : w ∈ ["null", "true", "false"]) (hg : Gap g) (s : List Char) :
    skipFrom ⟨.value, opened⟩ (g ++ (w.toList ++ s)) = skipFrom ⟨.afterValue, opened⟩ s := by
  have hnull : skipScalar 'n' ("ull".toList ++ s) = .ok s := rfl
  have htrue : skipScalar 't' ("rue".toList ++ s) = .ok s := rfl
  have hfalse : skipScalar 'f' ("alse".toList ++ s) = .ok s := rfl
  simp only [List.mem_cons, List.not_mem_nil, or_false] at hw
  rcases hw with rfl | rfl | rfl
  · exact skipFrom_scalar hg rfl (by decide) (by decide) hnull
  · exact skipFrom_scalar hg rfl (by decide) (by decide) htrue
  · exact skipFrom_scalar hg rfl (by decide) (by decide) hfalse

theorem LooseText.skipFrom (h : LooseText t) (hg : Gap g) (s : List Char) :
    skipFrom ⟨.value, opened⟩ (g ++ (t ++ s)) = skipFrom ⟨.afterValue, opened⟩ s := by
  obtain ⟨ht⟩ := h
  have hchars : skipScalar '"' (_ ++ '"' :: s) = .ok s := ht.skipChars s
  rw [List.cons_append, List.append_assoc]
  exact skipFrom_scalar hg rfl (by decide) (by decide) hchars

/-- **A number is passed over, however large it is.** -/
theorem NumberText.skipFrom (h : NumberText t) (hg : Gap g) (hr : Delimited rest) :
    skipFrom ⟨.value, opened⟩ (g ++ (t ++ rest)) = skipFrom ⟨.afterValue, opened⟩ rest := by
  cases h with
  | @unsigned n f e hf he =>
    have hskip := skipNumber_append (n := n) hf he hr
    obtain ⟨c, cs, hc, hd⟩ := exists_writeNatural n
    rw [hc] at hskip ⊢
    refine skipFrom_scalar hg (isGap_of_isDigit hd) ?_ ?_ ?_
    · rintro rfl
      cases hd
    · rintro rfl
      cases hd
    · unfold skipScalar
      iterate 5
        rw [if_neg (by rintro rfl; cases hd)]
      rw [if_pos hd]
      exact hskip
  | negative hf he => exact skipFrom_scalar hg rfl (by decide) (by decide) (skipNumber_append hf he hr)

/-! ## A whole part -/

/-- Where a value stands first, the reader is as if it expected no end. -/
theorem skipFrom_firstValue (h : (skipGap s).head? ≠ some ']') :
    skipFrom ⟨.firstValue, .array :: opened⟩ s = skipFrom ⟨.value, .array :: opened⟩ s := by
  have hstep : skipStep ⟨.firstValue, .array :: opened⟩ s = skipStep ⟨.value, .array :: opened⟩ s := by
    unfold skipStep
    dsimp only
    split
    · rename_i heq
      rw [heq] at h
      exact absurd rfl h
    · rfl
  rw [skipFrom_eq (by simp), skipFrom_eq (by simp), hstep]

/-- A value starts with what is no white space and no end of an array. -/
theorem WellFormed.exists_cons (h : WellFormed .value t) : ∃ c cs, t = c :: cs ∧ isGap c = false ∧ c ≠ ']' := by
  cases h with
  | keyword hw =>
    simp only [List.mem_cons, List.not_mem_nil, or_false] at hw
    rcases hw with rfl | rfl | rfl <;> exact ⟨_, _, rfl, rfl, by decide⟩
  | string ht =>
    obtain ⟨ht⟩ := ht
    exact ⟨_, _, rfl, rfl, by decide⟩
  | number ht =>
    cases ht with
    | @unsigned n f e hf he =>
      obtain ⟨c, cs, hc, hd⟩ := exists_writeNatural n
      refine ⟨c, cs ++ (f ++ e), by rw [hc, List.cons_append], isGap_of_isDigit hd, ?_⟩
      rintro rfl
      cases hd
    | negative => exact ⟨_, _, rfl, rfl, by decide⟩
  | array => exact ⟨_, _, rfl, rfl, by decide⟩
  | object => exact ⟨_, _, rfl, rfl, by decide⟩

/-- Behind the first value or member stands a comma or an end. -/
theorem WellFormed.delimited {p : Part} (h : WellFormed p t) (hp : p = .elements false ∨ p = .members false)
    (s : List Char) : Delimited (t ++ s) := by
  rcases hp with rfl | rfl
  · cases h with
    | noElements => exact delimited_cons (.inr (.inl rfl))
    | nextElement => exact delimited_cons (.inl rfl)
  · cases h with
    | noMembers => exact delimited_cons (.inr (.inr rfl))
    | nextMember => exact delimited_cons (.inl rfl)

theorem skipStepName_text {g' : List Char} (hg : Gap g) (hn : LooseText n) (hg' : Gap g') (s : List Char) :
    skipStepName opened (g ++ (n ++ (g' ++ ':' :: s))) = .ok (⟨.value, opened⟩, s) := by
  obtain ⟨hn⟩ := hn
  simp only [skipStepName, List.cons_append, List.append_assoc, List.nil_append, hn.skipChars,
    skipGap_append_cons hg (by rfl : isGap '"' = false), skipGap_append_cons hg' (by rfl : isGap ':' = false)]

theorem skipStep_firstName {g' : List Char} (hg : Gap g) (hn : LooseText n) (hg' : Gap g') (s : List Char) :
    skipStep ⟨.firstName, opened⟩ (g ++ (n ++ (g' ++ ':' :: s))) = .ok (⟨.value, opened⟩, s) := by
  rw [← skipStepName_text hg hn hg' s]
  obtain ⟨hn⟩ := hn
  unfold skipStep
  dsimp only
  split
  · rename_i heq
    rw [List.cons_append, skipGap_append_cons hg (by rfl : isGap '"' = false)] at heq
    cases heq
  · rfl

/-- **A well-formed part is passed over to its end**, and what is open around it stays open. -/
theorem WellFormed.skipFrom {p : Part} (h : WellFormed p t) : ∀ {g rest : List Char} {opened : List Bracket}, Gap g →
    Delimited rest → skipFrom (p.place opened) (g ++ (t ++ rest)) = skipFrom ⟨.afterValue, opened⟩ rest := by
  -- Inside a bracket more brackets are open than around it, so the induction is over all of them.
  induction h with
  | keyword hw => exact fun hg _ => skipFrom_keyword hw hg _
  | string ht => exact fun hg _ => ht.skipFrom hg _
  | number ht => exact fun hg hr => ht.skipFrom hg hr
  | array hg' _ ih =>
    intro g rest opened hg hr
    rw [List.cons_append, List.append_assoc, ← ih hg' hr]
    refine skipFrom_step (by simp [Part.place]) ?_
    simp only [Part.place, skipStep, skipStepValue, skipGap_append_cons hg (by rfl : isGap '[' = false)]
  | object hg' _ ih =>
    intro g rest opened hg hr
    rw [List.cons_append, List.append_assoc, ← ih hg' hr]
    refine skipFrom_step (by simp [Part.place]) ?_
    simp only [Part.place, skipStep, skipStepValue, skipGap_append_cons hg (by rfl : isGap '\x7b' = false)]
  | @noElements first =>
    intro g rest opened hg hr
    refine skipFrom_step (by cases first <;> simp [Part.place]) ?_
    cases first <;>
      simp [Part.place, skipStep, skipStepAfter, skipGap_append_cons hg (by rfl : isGap ']' = false)]
  | @firstElement v g' t hv hg' ht ihv iht =>
    intro g rest opened hg hr
    obtain ⟨c, cs, rfl, hc, hend⟩ := hv.exists_cons
    have hfirst : (skipGap (g ++ (c :: cs ++ (g' ++ t) ++ rest))).head? ≠ some ']' := by
      rw [List.cons_append, List.cons_append, skipGap_append_cons hg hc]
      simpa using hend
    show Json.skipFrom ⟨.firstValue, .array :: opened⟩ _ = _
    rw [skipFrom_firstValue hfirst, List.append_assoc, List.append_assoc]
    exact (ihv hg (delimited_append hg' (ht.delimited (.inl rfl) rest))).trans (iht hg' hr)
  | @nextElement g₁ v g₂ t hg₁ hv hg₂ ht ihv iht =>
    intro g rest opened hg hr
    rw [List.cons_append, List.append_assoc, List.append_assoc, List.append_assoc, ← iht hg₂ hr]
    refine Eq.trans ?_ (ihv hg₁ (delimited_append hg₂ (ht.delimited (.inl rfl) rest)))
    refine skipFrom_step (by simp [Part.place]) ?_
    simp only [Part.place, skipStep, skipStepAfter, skipGap_append_cons hg (by rfl : isGap ',' = false)]
  | @noMembers first =>
    intro g rest opened hg hr
    refine skipFrom_step (by cases first <;> simp [Part.place]) ?_
    cases first <;>
      simp [Part.place, skipStep, skipStepAfter, skipGap_append_cons hg (by rfl : isGap '\x7d' = false)]
  | @firstMember n g₁ g₂ v g₃ t hn hg₁ hg₂ hv hg₃ ht ihv iht =>
    intro g rest opened hg hr
    simp only [List.append_assoc, List.cons_append]
    rw [← iht hg₃ hr]
    refine Eq.trans ?_ (ihv hg₂ (delimited_append hg₃ (ht.delimited (.inr rfl) rest)))
    exact skipFrom_step (by simp [Part.place]) (skipStep_firstName hg hn hg₁ _)
  | @nextMember g₀ n g₁ g₂ v g₃ t hg₀ hn hg₁ hg₂ hv hg₃ ht ihv iht =>
    intro g rest opened hg hr
    simp only [List.append_assoc, List.cons_append]
    rw [← iht hg₃ hr]
    refine Eq.trans ?_ (ihv hg₂ (delimited_append hg₃ (ht.delimited (.inr rfl) rest)))
    refine (skipFrom_step (q := ⟨.name, .object :: opened⟩) (by simp [Part.place]) ?_).trans
      (skipFrom_step (by simp) (skipStepName_text hg₀ hn hg₁ _))
    simp only [Part.place, skipStep, skipStepAfter, skipGap_append_cons hg (by rfl : isGap ',' = false)]

/-- **A member that nobody knows is passed over**, whatever well-formed value it has. -/
theorem WellFormed.overlooked (h : WellFormed .value v) : Overlooks ignoreStranger v := by
  intro g g' rest hg hg' hr
  show (readColon (g ++ ':' :: (g' ++ (v ++ rest))) >>= fun p => skipValue p.2) = _
  rw [readColon_append hg]
  show ((), ·) <$> Json.skipFrom (Part.value.place []) (g' ++ (v ++ rest)) = _
  rw [h.skipFrom hg' hr, Json.skipFrom, if_pos rfl]
  rfl

end Json
end ChatClient
