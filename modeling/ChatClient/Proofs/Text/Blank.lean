import ChatClient.Text.Blank
import Mathlib.Data.List.Basic
/-!
# Blank — what is left when white space is cut away

A text is white space throughout, or it has something solid inside, with white space on both sides (`blanks_or_solid`).
Trimming gives what is solid (`trim_solid`), the first cut parts a word from what stands apart from it (`cut_word`), and the
words of a text are the ones that it is made of, white space between them and around (`words_eq_iff`).
-/
namespace ChatClient
namespace Blank

/-- White space throughout, perhaps none. -/
def Blanks (g : List Char) : Prop := ∀ c ∈ g, isBlank c = true

/-- Something without any white space. -/
def Word (w : List Char) : Prop := w ≠ [] ∧ ∀ c ∈ w, isBlank c = false

/-- Nothing, or white space first: what may stand behind a word. -/
def Apart (t : List Char) : Prop := ∀ c ∈ t.head?, isBlank c = true

/-- Something that has no white space in front and none behind. -/
structure Solid (m : List Char) : Prop where
  ne_nil : m ≠ []
  head : ∀ c ∈ m.head?, isBlank c = false
  last : ∀ c ∈ m.getLast?, isBlank c = false

/-- A text made of these words, with white space between them and perhaps around. -/
inductive Words : List (List Char) → List Char → Prop
  | none {g : List Char} : Blanks g → Words [] g
  | cons {g w t : List Char} {ws : List (List Char)} : Blanks g → Word w → Apart t → Words ws t →
      Words (w :: ws) (g ++ (w ++ t))

variable {g g' m s t w : List Char}

theorem blanks_nil : Blanks [] := fun _ h => nomatch h

theorem Blanks.reverse (h : Blanks g) : Blanks g.reverse := fun c hc => h c (List.mem_reverse.1 hc)

theorem Blanks.append (h : Blanks g) (h' : Blanks g') : Blanks (g ++ g') := fun c hc =>
  (List.mem_append.1 hc).elim (h c) (h' c)

theorem Blanks.apart (h : Blanks g) : Apart g := fun c hc => h c (List.mem_of_mem_head? hc)

theorem Word.solid (h : Word w) : Solid w :=
  ⟨h.1, fun c hc => h.2 c (List.mem_of_mem_head? hc), fun c hc => h.2 c (List.mem_of_mem_getLast? hc)⟩

/-- **Solid parts with anything between them are solid together.** -/
theorem Solid.append (h : Solid w) (h' : Solid m) (s : List Char) : Solid (w ++ (s ++ m)) where
  ne_nil := List.append_ne_nil_of_left_ne_nil h.ne_nil _
  head c hc := by
    rw [List.head?_append_of_ne_nil _ h.ne_nil] at hc
    exact h.head c hc
  last c hc := by
    rw [← List.append_assoc, List.getLast?_append_of_ne_nil _ h'.ne_nil] at hc
    exact h'.last c hc

/-- White space parts a word from something solid. -/
theorem Apart.exists_cons (h : Apart (g ++ (m ++ s))) (hm : Solid m) : ∃ b g', g = b :: g' := by
  cases g with
  | nil =>
    obtain ⟨c, m', rfl⟩ := List.exists_cons_of_ne_nil hm.ne_nil
    have hblank := h c rfl
    rw [hm.head c rfl] at hblank
    cases hblank
  | cons b g' => exact ⟨b, g', rfl⟩

theorem Apart.append_blanks (h : Apart t) (hg : Blanks g) : Apart (t ++ g) := by
  cases t with
  | nil => exact hg.apart
  | cons c t => exact h

/-! ## Trimming -/

theorem trimStart_append (hg : Blanks g) (s : List Char) : trimStart (g ++ s) = trimStart s :=
  List.dropWhile_append_of_pos hg

theorem trimStart_eq (h : ∀ c ∈ s.head?, isBlank c = false) : trimStart s = s := by
  cases s with
  | nil => rfl
  | cons c s => exact List.dropWhile_cons_of_neg (by rw [h c rfl]; nofun)

theorem trimEnd_append (hg : Blanks g) (s : List Char) : trimEnd (s ++ g) = trimEnd s := by
  rw [trimEnd, trimEnd, List.reverse_append, List.dropWhile_append_of_pos hg.reverse]

theorem trimEnd_eq (h : ∀ c ∈ s.getLast?, isBlank c = false) : trimEnd s = s := by
  have hrev : trimStart s.reverse = s.reverse := trimStart_eq (by rwa [List.head?_reverse])
  rw [trimEnd, ← trimStart, hrev, List.reverse_reverse]

theorem trim_blanks (hg : Blanks g) : trim g = [] := by
  have h := trimStart_append hg []
  rw [List.append_nil] at h
  rw [trim, h]
  rfl

/-- **Trimming leaves what is solid.** -/
theorem trim_solid (hg : Blanks g) (hm : Solid m) (hg' : Blanks g') : trim (g ++ (m ++ g')) = m := by
  rw [trim, trimStart_append hg, trimStart_eq, trimEnd_append hg', trimEnd_eq hm.last]
  rw [List.head?_append_of_ne_nil _ hm.ne_nil]
  exact hm.head

/-- A text starts with white space, and what is left has none in front. -/
theorem exists_trimStart (s : List Char) : ∃ g, Blanks g ∧ s = g ++ trimStart s ∧
    ∀ c ∈ (trimStart s).head?, isBlank c = false := by
  refine ⟨s.takeWhile isBlank, fun c hc => List.all_eq_true.1 List.all_takeWhile c hc,
    List.takeWhile_append_dropWhile.symm, fun c hc => ?_⟩
  have h := List.head?_dropWhile_not isBlank s
  rw [trimStart] at hc
  rw [Option.mem_def.1 hc] at h
  simpa using h

/-- **A text is white space throughout, or it has something solid inside.** -/
theorem blanks_or_solid (s : List Char) :
    Blanks s ∨ ∃ g m g', Blanks g ∧ Solid m ∧ Blanks g' ∧ s = g ++ (m ++ g') := by
  obtain ⟨g, hg, hs, hhead⟩ := exists_trimStart s
  generalize trimStart s = t at hs hhead
  obtain ⟨r, hr, ht, hlast⟩ := exists_trimStart t.reverse
  generalize trimStart t.reverse = u at ht hlast
  rw [List.reverse_eq_iff, List.reverse_append] at ht
  by_cases hu : u = []
  · left
    rw [hu, List.reverse_nil, List.nil_append] at ht
    rw [hs, ht]
    exact hg.append hr.reverse
  · have hne : u.reverse ≠ [] := by simpa using hu
    refine .inr ⟨g, u.reverse, r.reverse, hg, ⟨hne, fun c hc => hhead c ?_, fun c hc => hlast c ?_⟩, hr.reverse, ?_⟩
    · rw [ht, List.head?_append_of_ne_nil _ hne]
      exact hc
    · rwa [List.getLast?_reverse] at hc
    · rw [hs, ht]

/-- What is solid starts with a word. -/
theorem Solid.exists_word (h : Solid m) : ∃ w t, Word w ∧ Apart t ∧ m = w ++ t := by
  obtain ⟨c, m', rfl⟩ := List.exists_cons_of_ne_nil h.ne_nil
  have hc := h.head c rfl
  refine ⟨(c :: m').takeWhile (!isBlank ·), (c :: m').dropWhile (!isBlank ·), ⟨?_, fun d hd => ?_⟩, fun d hd => ?_,
    List.takeWhile_append_dropWhile.symm⟩
  · simp [hc]
  · simpa using List.all_eq_true.1 List.all_takeWhile d hd
  · have hnot := List.head?_dropWhile_not (!isBlank ·) (c :: m')
    rw [Option.mem_def.1 hd] at hnot
    simpa using hnot

/-! ## Cutting -/

/-- **The first cut parts a word from what stands apart from it.** -/
theorem cut_word (hw : Word w) (ht : Apart t) : cut (w ++ t) = (w, t.drop 1) := by
  have hword : ∀ c ∈ w, (!isBlank c) = true := fun c hc => by rw [hw.2 c hc]; rfl
  rw [cut, List.takeWhile_append_of_pos hword, List.dropWhile_append_of_pos hword]
  cases t with
  | nil => simp
  | cons b t => simp [ht b rfl]

/-! ## Words -/

theorem pieces_eq_splitOnP (s : List Char) : pieces s = s.splitOnP isBlank := by
  induction s with
  | nil => rfl
  | cons c s ih =>
    rw [pieces, ih, List.splitOnP_cons_eq_if_modifyHead]
    cases h : s.splitOnP isBlank with
    | nil => exact absurd h (List.splitOnP_ne_nil _ _)
    | cons w ws => rfl

/-- **White space parts words.** -/
theorem words_append_blank {b : Char} (hb : isBlank b = true) (s t : List Char) :
    words (s ++ b :: t) = words s ++ words t := by
  simp only [words, pieces_eq_splitOnP, List.splitOnP_append_cons s t hb, List.filter_append]

theorem words_blanks_append (hg : Blanks g) (s : List Char) : words (g ++ s) = words s := by
  induction g with
  | nil => rfl
  | cons b g ih =>
    have hb := words_append_blank (hg b List.mem_cons_self) [] (g ++ s)
    exact hb.trans (ih fun c hc => hg c (List.mem_cons_of_mem b hc))

theorem words_blanks (hg : Blanks g) : words g = [] := by
  have h := words_blanks_append hg []
  rwa [List.append_nil] at h

theorem words_append_blanks (hg : Blanks g) (s : List Char) : words (s ++ g) = words s := by
  cases g with
  | nil => rw [List.append_nil]
  | cons b g =>
    rw [words_append_blank (hg b List.mem_cons_self), words_blanks fun c hc => hg c (List.mem_cons_of_mem b hc),
      List.append_nil]

/-- **A word in front is the first of the words.** -/
theorem words_word (hw : Word w) (ht : Apart t) : words (w ++ t) = w :: words t := by
  have hone : words w = [w] := by
    rw [words, pieces_eq_splitOnP, List.splitOnP_eq_singleton hw.2]
    exact List.filter_cons_of_pos (by simpa using hw.1)
  cases t with
  | nil => rw [List.append_nil, hone]; rfl
  | cons b t =>
    have hb := ht b rfl
    rw [words_append_blank hb, hone]
    exact congrArg (w :: ·) (words_append_blank hb [] t).symm

/-- **The words of a text are those that it is made of.** -/
theorem words_eq_iff {ws : List (List Char)} : words s = ws ↔ Words ws s := by
  constructor
  · intro h
    induction ws generalizing s with
    | nil =>
      rcases blanks_or_solid s with hs | ⟨g, m, g', hg, hm, hg', rfl⟩
      · exact .none hs
      · obtain ⟨w, t, hw, ht, rfl⟩ := hm.exists_word
        rw [words_blanks_append hg, List.append_assoc, words_word hw (ht.append_blanks hg')] at h
        cases h
    | cons w ws ih =>
      rcases blanks_or_solid s with hs | ⟨g, m, g', hg, hm, hg', rfl⟩
      · rw [words_blanks hs] at h
        cases h
      · obtain ⟨v, t, hv, ht, rfl⟩ := hm.exists_word
        rw [List.append_assoc] at h ⊢
        have hrest := ht.append_blanks hg'
        rw [words_blanks_append hg, words_word hv hrest] at h
        cases h
        exact .cons hg hv hrest (ih rfl)
  · intro h
    induction h with
    | none hg => exact words_blanks hg
    | cons hg hw ht _ ih => rw [words_blanks_append hg, words_word hw ht, ih]

theorem words_trim (s : List Char) : words (trim s) = words s := by
  rcases blanks_or_solid s with hs | ⟨g, m, g', hg, hm, hg', rfl⟩
  · rw [trim_blanks hs, words_blanks hs]
    rfl
  · rw [trim_solid hg hm hg', words_blanks_append hg, words_append_blanks hg']

end Blank
end ChatClient
