import ChatClient.Json.Number
/-!
# Skip — passing over a value that nobody asked for

A skipped value may nest to any depth, so the brackets that are open are kept in a list, not in the reader's own recursion.
At any moment the reader stands somewhere in these brackets and expects something (`Expected`).  One step takes at least one
character (`length_of_skipStep`); the value ends where nothing is open behind a value.
-/
namespace ChatClient
namespace Json

inductive Bracket where
  | array
  | object
  deriving DecidableEq, Repr

inductive Expected where
  | value
  /-- A value or the end of an array that has none yet. -/
  | firstValue
  | name
  /-- A name or the end of an object that has none yet. -/
  | firstName
  /-- A comma or the end of the innermost bracket. -/
  | afterValue
  deriving DecidableEq, Repr

/-- Where the reader stands: what it expects, and the open brackets, the innermost first. -/
structure Place where
  expected : Expected
  opened : List Bracket
  deriving DecidableEq, Repr

/-- Passes over the rest of a value without brackets that starts with `c`. -/
def skipScalar (c : Char) (s : List Char) : Except Fault (List Char) :=
  if c = 'n' then skipWord "ull".toList s
  else if c = 't' then skipWord "rue".toList s
  else if c = 'f' then skipWord "alse".toList s
  else if c = '"' then skipChars s
  else if c = '-' then skipNumber s
  else if c.isDigit then skipNumber (c :: s)
  else .error .malformed

/-- One step where a value is expected. -/
def skipStepValue (opened : List Bracket) (s : List Char) : Except Fault (Place × List Char) :=
  match skipGap s with
  | [] => .error .truncated
  | '[' :: r => .ok (⟨.firstValue, .array :: opened⟩, r)
  | '{' :: r => .ok (⟨.firstName, .object :: opened⟩, r)
  | c :: r => (⟨.afterValue, opened⟩, ·) <$> skipScalar c r

/-- One step where a name is expected: the name and the colon behind it. -/
def skipStepName (opened : List Bracket) (s : List Char) : Except Fault (Place × List Char) :=
  match skipGap s with
  | [] => .error .truncated
  | '"' :: r =>
    match skipChars r with
    | .error e => .error e
    | .ok r =>
      match skipGap r with
      | [] => .error .truncated
      | ':' :: r => .ok (⟨.value, opened⟩, r)
      | _ => .error .malformed
  | _ => .error .malformed

/-- One step behind a value. -/
def skipStepAfter (opened : List Bracket) (s : List Char) : Except Fault (Place × List Char) :=
  match opened, skipGap s with
  | _, [] => .error .truncated
  | .array :: _, ',' :: r => .ok (⟨.value, opened⟩, r)
  | .object :: _, ',' :: r => .ok (⟨.name, opened⟩, r)
  | .array :: outer, ']' :: r => .ok (⟨.afterValue, outer⟩, r)
  | .object :: outer, '}' :: r => .ok (⟨.afterValue, outer⟩, r)
  | _, _ => .error .malformed

def skipStep (p : Place) (s : List Char) : Except Fault (Place × List Char) :=
  match p.expected with
  | .value => skipStepValue p.opened s
  | .firstValue =>
    match skipGap s with
    | ']' :: r => .ok (⟨.afterValue, p.opened.tail⟩, r)
    | _ => skipStepValue p.opened s
  | .name => skipStepName p.opened s
  | .firstName =>
    match skipGap s with
    | '}' :: r => .ok (⟨.afterValue, p.opened.tail⟩, r)
    | _ => skipStepName p.opened s
  | .afterValue => skipStepAfter p.opened s

theorem length_of_skipGap {s r : List Char} {c : Char} (h : skipGap s = c :: r) : r.length < s.length := by
  have := length_skipGap_le s
  rw [h, List.length_cons] at this
  omega

theorem length_of_skipScalar {c : Char} {s r : List Char} (h : skipScalar c s = .ok r) : r.length ≤ s.length := by
  unfold skipScalar at h
  split at h
  · exact length_skipWord_le h
  split at h
  · exact length_skipWord_le h
  split at h
  · exact length_skipWord_le h
  split at h
  · exact Nat.le_of_lt (length_of_skipChars h)
  split at h
  · exact Nat.le_of_lt (length_of_skipNumber h)
  split at h
  · exact Nat.le_of_lt_succ (length_of_skipNumber h)
  · cases h

theorem length_of_skipStepValue {opened : List Bracket} {s r : List Char} {p : Place}
    (h : skipStepValue opened s = .ok (p, r)) : r.length < s.length := by
  unfold skipStepValue at h
  split at h
  · cases h
  · rename_i hg; cases h; exact length_of_skipGap hg
  · rename_i hg; cases h; exact length_of_skipGap hg
  · rename_i c t _ _ hg
    have ht := length_of_skipGap hg
    cases hs : skipScalar c t with
    | error e => rw [hs] at h; cases h
    | ok u =>
      rw [hs] at h
      cases h
      exact Nat.lt_of_le_of_lt (length_of_skipScalar hs) ht

theorem length_of_skipStepName {opened : List Bracket} {s r : List Char} {p : Place}
    (h : skipStepName opened s = .ok (p, r)) : r.length < s.length := by
  unfold skipStepName at h
  split at h
  · cases h
  · rename_i t hg
    have ht := length_of_skipGap hg
    split at h
    · cases h
    · rename_i u hu
      have := length_of_skipChars hu
      split at h
      · cases h
      · rename_i hg'
        have := length_of_skipGap hg'
        cases h
        omega
      · cases h
  · cases h

theorem length_of_skipStepAfter {opened : List Bracket} {s r : List Char} {p : Place}
    (h : skipStepAfter opened s = .ok (p, r)) : r.length < s.length := by
  unfold skipStepAfter at h
  split at h <;> first | (rename_i hg; cases h; exact length_of_skipGap hg) | cases h

/-- **Every step takes at least one character.** -/
theorem length_of_skipStep {p q : Place} {s r : List Char} (h : skipStep p s = .ok (q, r)) : r.length < s.length := by
  unfold skipStep at h
  split at h
  · exact length_of_skipStepValue h
  · split at h
    · rename_i hg; cases h; exact length_of_skipGap hg
    · exact length_of_skipStepValue h
  · exact length_of_skipStepName h
  · split at h
    · rename_i hg; cases h; exact length_of_skipGap hg
    · exact length_of_skipStepName h
  · exact length_of_skipStepAfter h

/-- Passes over what is expected, up to where nothing is open behind a value. -/
def skipFrom (p : Place) (s : List Char) : Except Fault (List Char) :=
  if p = ⟨.afterValue, []⟩ then .ok s
  else
    match h : skipStep p s with
    | .error e => .error e
    | .ok (q, r) =>
      have := length_of_skipStep h
      skipFrom q r
termination_by s.length

/-- Passes over one value. -/
def skipValue : Reader Unit := fun s => ((), ·) <$> skipFrom ⟨.value, []⟩ s

end Json
end ChatClient
