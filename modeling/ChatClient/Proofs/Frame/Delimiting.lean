import ChatClient.Frame.Stream
import ChatClient.Proofs.Frame.Format
/-!
# Delimiting — where the first frame of a stream ends

A frame is whole when its opcode is known and its body has the layout of that opcode: two octets of a return code, or
texts each of the length it declares, none above the limit (`Whole`).  Whether the texts are text does not matter.
- The extent of a stream that starts with a whole frame is that frame, whatever follows (`extent_of_whole`), and an extent
  is found only there (`whole_of_extent`).
- It is not known yet exactly while the stream is the front of such a frame (`Unfinished`, `extent_eq_none_iff`).
- An extent, once found, and a failure, once met, stay the same however many octets follow (`extent_append`).
- A frame that was measured fails to be read only for a text that is none (`Inbound.Sound`), so the errors of measuring
  and those of reading are told apart by what they say (`FrameError.derails`).
-/
namespace ChatClient

/-- An error after which no later frame can be found: the end of a frame could not be told. -/
def FrameError.derails : FrameError → Bool
  | unknownOpcode _ | malformed (.overLimit ..) | malformed (.notRequest _) => true
  | _ => false

namespace Frame

/-- So many texts behind their lengths, none above the limit. -/
inductive Texts (limit : Nat) : Nat → Bytes → Prop
  | nil : Texts limit 0 []
  | cons {count : Nat} {a b c d : UInt8} {s rest : Bytes} : s.length = Bytes.ofWord32 a b c d → s.length ≤ limit →
      Texts limit count rest → Texts limit (count + 1) (a :: b :: c :: d :: (s ++ rest))

/-- A body of this layout. -/
def Layout.Body (limit : Nat) : Layout → Bytes → Prop
  | .code, body => body.length = 2
  | .texts count, body => Texts limit count body

/-- One whole frame: a known opcode and a body of its layout. -/
def Whole (layout : Opcode → Except FrameError Layout) (limit : Nat) (f : Bytes) : Prop :=
  ∃ o shape body, f = opcode o ++ body ∧ layout o = .ok shape ∧ shape.Body limit body

/-- So many texts of which the last octets have not arrived, none so far above the limit. -/
inductive PartTexts (limit : Nat) : Nat → Bytes → Prop
  | length {count : Nat} {b : Bytes} : b.length < 4 → PartTexts limit (count + 1) b
  | octets {count : Nat} {a b c d : UInt8} {s : Bytes} : Bytes.ofWord32 a b c d ≤ limit →
      s.length < Bytes.ofWord32 a b c d → PartTexts limit (count + 1) (a :: b :: c :: d :: s)
  | later {count : Nat} {a b c d : UInt8} {s rest : Bytes} : s.length = Bytes.ofWord32 a b c d → s.length ≤ limit →
      PartTexts limit count rest → PartTexts limit (count + 1) (a :: b :: c :: d :: (s ++ rest))

/-- A body of this layout of which the last octets have not arrived. -/
def Layout.Part (limit : Nat) : Layout → Bytes → Prop
  | .code, body => body.length < 2
  | .texts count, body => PartTexts limit count body

/-- The front of a frame that has not arrived as a whole. -/
def Unfinished (layout : Opcode → Except FrameError Layout) (limit : Nat) (b : Bytes) : Prop :=
  b.length < 2 ∨ ∃ o shape body, b = opcode o ++ body ∧ layout o = .ok shape ∧ shape.Part limit body

section
variable {o : Opcode} {limit : Nat}

/-! ## Texts -/

theorem textsExtent_of_texts {count : Nat} {b : Bytes} (h : Texts limit count b) (t : Bytes) :
    textsExtent o limit count (b ++ t) = .ok (some b.length) := by
  induction h with
  | nil => rfl
  | @cons count w x y z s rest hs hlimit _ ih =>
    simp only [List.cons_append, List.append_assoc, textsExtent, ← hs]
    rw [if_neg (by omega), if_neg (by rw [List.length_append]; omega), List.drop_left, ih]
    simp only [Functor.map, Except.map, Option.map_some, List.length_cons, List.length_append]
    congr 2
    omega

theorem texts_of_textsExtent : ∀ {count : Nat} {b : Bytes} {n : Nat}, textsExtent o limit count b = .ok (some n) →
    Texts limit count (b.take n)
  | 0, b, n, h => by
    cases h
    exact .nil
  | count + 1, a :: b :: c :: d :: rest, n, h => by
    rw [textsExtent] at h
    split at h
    · cases h
    rename_i hlimit
    split at h
    · cases h
    rename_i hlen
    obtain ⟨r, hr, h⟩ := map_eq_ok_iff.1 h
    obtain ⟨k, rfl, rfl⟩ := Option.map_eq_some_iff.1 h
    have hrest := texts_of_textsExtent hr
    generalize hd : Bytes.ofWord32 a b c d = declared at *
    have hs : (rest.take declared).length = declared := by rw [List.length_take]; omega
    rw [show 4 + declared + k = declared + k + 1 + 1 + 1 + 1 by omega]
    simp only [List.take_succ_cons]
    rw [List.take_add]
    exact .cons (hs.trans hd.symm) (by omega) hrest
  | _ + 1, [], n, h | _ + 1, [_], n, h | _ + 1, [_, _], n, h | _ + 1, [_, _, _], n, h => by cases h

theorem textsExtent_eq_none_iff : ∀ {count : Nat} {b : Bytes},
    textsExtent o limit count b = .ok none ↔ PartTexts limit count b
  | 0, b => ⟨nofun, nofun⟩
  | count + 1, a :: b :: c :: d :: rest => by
    constructor
    · intro h
      rw [textsExtent] at h
      split at h
      · cases h
      rename_i hlimit
      split at h
      · rename_i hlen
        exact .octets (by omega) hlen
      rename_i hlen
      obtain ⟨r, hr, h⟩ := map_eq_ok_iff.1 h
      rw [Option.map_eq_none_iff.1 h] at hr
      have hpart := textsExtent_eq_none_iff.1 hr
      have hs : (rest.take (Bytes.ofWord32 a b c d)).length = Bytes.ofWord32 a b c d := by rw [List.length_take]; omega
      rw [← List.take_append_drop (Bytes.ofWord32 a b c d) rest]
      exact .later hs (by omega) hpart
    · rintro (h | ⟨hlimit, hlen⟩ | @⟨_, _, _, _, _, s, t, hs, hlimit, hpart⟩)
      · simp only [List.length_cons] at h
        omega
      · rw [textsExtent, if_neg (by omega), if_pos hlen]
      · rw [textsExtent, if_neg (by omega), if_neg (by rw [List.length_append]; omega), ← hs, List.drop_left,
          textsExtent_eq_none_iff.2 hpart]
        rfl
  | _ + 1, [] | _ + 1, [_] | _ + 1, [_, _] | _ + 1, [_, _, _] =>
    ⟨fun _ => .length (by simp only [List.length_cons, List.length_nil]; omega), fun _ => rfl⟩

/-- **What has been told of some texts stays true** when more octets arrive. -/
theorem textsExtent_append (t : Bytes) : ∀ {count : Nat} {b : Bytes}, textsExtent o limit count b ≠ .ok none →
    textsExtent o limit count (b ++ t) = textsExtent o limit count b
  | 0, b, h => rfl
  | count + 1, a :: b :: c :: d :: rest, h => by
    simp only [List.cons_append, textsExtent] at h ⊢
    split
    · rfl
    rename_i hlimit
    rw [if_neg hlimit] at h
    split at h
    · exact absurd rfl h
    rename_i hlen
    rw [if_neg (by rw [List.length_append]; omega), if_neg hlen, List.drop_append_of_le_length (by omega),
      textsExtent_append t fun hn => h (by rw [hn]; rfl)]
  | _ + 1, [], h | _ + 1, [_], h | _ + 1, [_, _], h | _ + 1, [_, _, _], h => absurd rfl h

theorem textsExtent_error : ∀ {count : Nat} {b : Bytes} {e : FrameError}, textsExtent o limit count b = .error e →
    ∃ declared, e = .malformed (.overLimit o declared limit)
  | 0, _, _, h => by cases h
  | count + 1, a :: b :: c :: d :: rest, e, h => by
    rw [textsExtent] at h
    split at h
    · cases h
      exact ⟨_, rfl⟩
    split at h
    · cases h
    · cases hr : textsExtent o limit count (rest.drop (Bytes.ofWord32 a b c d)) with
      | ok r => rw [hr] at h; cases h
      | error e' =>
        rw [hr] at h
        cases h
        exact textsExtent_error hr
  | _ + 1, [], _, h | _ + 1, [_], _, h | _ + 1, [_, _], _, h | _ + 1, [_, _, _], _, h => by cases h

/-! ## Whole frames -/

theorem bodyExtent_of_body {shape : Layout} {b : Bytes} (h : shape.Body limit b) (t : Bytes) :
    bodyExtent o limit shape (b ++ t) = .ok (some b.length) := by
  cases shape with
  | code =>
    rcases b with _ | ⟨x, _ | ⟨y, _ | ⟨z, b⟩⟩⟩
    · cases h
    · cases h
    · rfl
    · cases h
  | texts count => exact textsExtent_of_texts h t

theorem body_of_bodyExtent {shape : Layout} {b : Bytes} {n : Nat} (h : bodyExtent o limit shape b = .ok (some n)) :
    shape.Body limit (b.take n) := by
  cases shape with
  | code =>
    rcases b with _ | ⟨x, _ | ⟨y, b⟩⟩ <;> cases h
    rfl
  | texts count => exact texts_of_textsExtent h

theorem bodyExtent_eq_none_iff {shape : Layout} {b : Bytes} :
    bodyExtent o limit shape b = .ok none ↔ shape.Part limit b := by
  cases shape with
  | code =>
    rcases b with _ | ⟨x, _ | ⟨y, b⟩⟩
    · exact ⟨fun _ => Nat.zero_lt_two, fun _ => rfl⟩
    · exact ⟨fun _ => Nat.one_lt_two, fun _ => rfl⟩
    · refine ⟨nofun, fun h => ?_⟩
      change b.length + 1 + 1 < 2 at h
      omega
  | texts count => exact textsExtent_eq_none_iff

theorem bodyExtent_append {shape : Layout} {b : Bytes} (t : Bytes) (h : bodyExtent o limit shape b ≠ .ok none) :
    bodyExtent o limit shape (b ++ t) = bodyExtent o limit shape b := by
  cases shape with
  | code =>
    rcases b with _ | ⟨x, _ | ⟨y, b⟩⟩
    · exact absurd rfl h
    · exact absurd rfl h
    · rfl
  | texts count => exact textsExtent_append t h

theorem bodyExtent_error {shape : Layout} {b : Bytes} {e : FrameError} (h : bodyExtent o limit shape b = .error e) :
    ∃ declared, e = .malformed (.overLimit o declared limit) := by
  cases shape with
  | code => rcases b with _ | ⟨x, _ | ⟨y, b⟩⟩ <;> cases h
  | texts count => exact textsExtent_error h

end

section
variable {layout : Opcode → Except FrameError Layout} {limit : Nat}

theorem extent_opcode (o : Opcode) (b : Bytes) : extent layout limit (opcode o ++ b) =
    (do let shape ← layout o; let size ← bodyExtent o limit shape b; return size.map (2 + ·)) := by
  simp only [opcode, Bytes.word16, List.cons_append, List.nil_append, extent, Bytes.ofWord16_word16 o.value_lt,
    Opcode.ofValue?_value]

/-- The octets of a stream are too few for an opcode, start with none, or start with one. -/
theorem opcode_cases (b : Bytes) : b.length < 2 ∨
    (∃ x y t, b = x :: y :: t ∧ Opcode.ofValue? (Bytes.ofWord16 x y) = none) ∨ ∃ o body, b = opcode o ++ body := by
  rcases b with _ | ⟨x, _ | ⟨y, t⟩⟩
  · exact .inl (by decide)
  · exact .inl (Nat.lt_succ_self 1)
  · cases h : Opcode.ofValue? (Bytes.ofWord16 x y) with
    | none => exact .inr (.inl ⟨x, y, t, rfl, h⟩)
    | some o => exact .inr (.inr ⟨o, t, by rw [opcode_eq h]; rfl⟩)

theorem extent_short {b : Bytes} (h : b.length < 2) : extent layout limit b = .ok none := by
  rcases b with _ | ⟨x, _ | ⟨y, t⟩⟩
  · rfl
  · rfl
  · simp only [List.length_cons] at h
    omega

theorem extent_unknown {x y : UInt8} {t : Bytes} (h : Opcode.ofValue? (Bytes.ofWord16 x y) = none) :
    extent layout limit (x :: y :: t) = .error (.unknownOpcode (Bytes.ofWord16 x y)) := by
  simp only [extent, h]

/-- **A whole frame at the front is measured**, whatever follows it. -/
theorem extent_of_whole {f : Bytes} (h : Whole layout limit f) (t : Bytes) :
    extent layout limit (f ++ t) = .ok (some f.length) := by
  obtain ⟨o, shape, body, rfl, hshape, hbody⟩ := h
  rw [List.append_assoc, extent_opcode, hshape]
  change (bodyExtent o limit shape (body ++ t) >>= fun size => pure (size.map (2 + ·))) = _
  rw [bodyExtent_of_body hbody]
  change Except.ok (some (2 + body.length)) = _
  rw [List.length_append]
  rfl

/-- **What is measured is a whole frame.** -/
theorem whole_of_extent {b : Bytes} {n : Nat} (h : extent layout limit b = .ok (some n)) :
    Whole layout limit (b.take n) := by
  rcases opcode_cases b with hb | ⟨x, y, t, rfl, hb⟩ | ⟨o, body, rfl⟩
  · rw [extent_short hb] at h
    cases h
  · rw [extent_unknown hb] at h
    cases h
  · rw [extent_opcode, bind_eq_ok_iff] at h
    obtain ⟨shape, hshape, h⟩ := h
    obtain ⟨size, hsize, h⟩ := bind_eq_ok_iff.1 h
    obtain ⟨k, rfl, rfl⟩ := Option.map_eq_some_iff.1 (Except.ok.inj h)
    refine ⟨o, shape, body.take k, ?_, hshape, body_of_bodyExtent hsize⟩
    exact @List.take_length_add_append _ (opcode o) body k

/-- **What has been told of the first frame stays true** when more octets arrive. -/
theorem extent_append {b : Bytes} (h : extent layout limit b ≠ .ok none) (t : Bytes) :
    extent layout limit (b ++ t) = extent layout limit b := by
  rcases opcode_cases b with hb | ⟨x, y, u, rfl, hb⟩ | ⟨o, body, rfl⟩
  · exact absurd (extent_short hb) h
  · rw [List.cons_append, List.cons_append, extent_unknown hb, extent_unknown hb]
  · rw [List.append_assoc, extent_opcode, extent_opcode]
    rw [extent_opcode] at h
    cases hshape : layout o with
    | error e => rfl
    | ok shape =>
      rw [hshape] at h
      change (bodyExtent o limit shape (body ++ t) >>= _) = (bodyExtent o limit shape body >>= _)
      rw [bodyExtent_append]
      intro hn
      apply h
      change (bodyExtent o limit shape body >>= _) = _
      rw [hn]
      rfl

/-- **An extent is not known exactly while the first frame is unfinished.** -/
theorem extent_eq_none_iff {b : Bytes} : extent layout limit b = .ok none ↔ Unfinished layout limit b := by
  constructor
  · intro h
    rcases opcode_cases b with hb | ⟨x, y, t, rfl, hb⟩ | ⟨o, body, rfl⟩
    · exact .inl hb
    · rw [extent_unknown hb] at h
      cases h
    · rw [extent_opcode, bind_eq_ok_iff] at h
      obtain ⟨shape, hshape, h⟩ := h
      obtain ⟨size, hsize, h⟩ := bind_eq_ok_iff.1 h
      rw [Option.map_eq_none_iff.1 (Except.ok.inj h)] at hsize
      exact .inr ⟨o, shape, body, rfl, hshape, bodyExtent_eq_none_iff.1 hsize⟩
  · rintro (h | ⟨o, shape, body, rfl, hshape, hpart⟩)
    · exact extent_short h
    · rw [extent_opcode, hshape]
      change (bodyExtent o limit shape body >>= _) = _
      rw [bodyExtent_eq_none_iff.2 hpart]
      rfl

end

/-! ## Reading what was measured -/

section
variable {α : Type} {limit : Nat}

/-- A reader that takes so many texts and nothing else: it fails only for one that is no text. -/
def ReadsTexts (limit count : Nat) (p : Reader α) : Prop :=
  ∀ b, Texts limit count b →
    (∃ m, p b = .ok (m, [])) ∨ ∃ field fault, p b = .error (.malformed (.notText field fault))

theorem readsTexts_pure (m : α) : ReadsTexts limit 0 (pure m) := by
  rintro b ⟨⟩
  exact .inl ⟨m, rfl⟩

theorem readsTexts_bind {count : Nat} {field : String} {k : String → Reader α}
    (hk : ∀ s, ReadsTexts limit count (k s)) : ReadsTexts limit (count + 1) (readText field >>= k) := by
  rintro _ (_ | @⟨_, w, x, y, z, s, rest, hs, -, hrest⟩)
  have hlen : ¬ (s ++ rest).length < s.length := by
    rw [List.length_append]
    omega
  cases hd : Utf8.decode s with
  | ok t =>
    have hread : readText field (w :: x :: y :: z :: (s ++ rest)) = .ok (t, rest) := by
      simp only [readText, ← hs, if_neg hlen, List.take_left, List.drop_left, hd]
    rcases hk t rest hrest with ⟨m, hm⟩ | ⟨field', fault, hf⟩
    · exact .inl ⟨m, reader_bind_eq_ok_iff.2 ⟨t, rest, hread, hm⟩⟩
    · exact .inr ⟨field', fault, reader_bind_eq_error_iff.2 (.inr ⟨t, rest, hread, hf⟩)⟩
  | error fault =>
    have hread : readText field (w :: x :: y :: z :: (s ++ rest)) = .error (.malformed (.notText field fault)) := by
      simp only [readText, ← hs, if_neg hlen, List.take_left, hd]
    exact .inr ⟨field, fault, reader_bind_eq_error_iff.2 (.inl hread)⟩

theorem readWhole_of_body {body : Opcode → Reader α} {o : Opcode} {b : Bytes}
    (h : (∃ m, body o b = .ok (m, [])) ∨ ∃ field fault, body o b = .error (.malformed (.notText field fault))) :
    (∃ m, readWhole body (opcode o ++ b) = .ok m) ∨
      ∃ field fault, readWhole body (opcode o ++ b) = .error (.malformed (.notText field fault)) := by
  rcases h with ⟨m, hm⟩ | ⟨field, fault, hf⟩
  · exact .inl ⟨m, readWhole_eq_ok_iff.2 ⟨o, b, rfl, hm⟩⟩
  · exact .inr ⟨field, fault, readWhole_eq_error_iff.2 (.inr ⟨o, b, rfl, .inl hf⟩)⟩

end
end Frame

namespace Inbound

open ChatClient.Frame

variable {α : Type}

/-- An output after which no later frame can be found. -/
def derails : Except FrameError α → Bool
  | .ok _ => false
  | .error e => e.derails

/-- A reading that agrees with its layouts: a whole frame is refused only for a text that is none, and an opcode without
a layout derails. -/
structure Sound (g : Inbound α) : Prop where
  read_whole : ∀ f, Whole g.layout g.limit f →
    (∃ m, g.read f = .ok m) ∨ ∃ field fault, g.read f = .error (.malformed (.notText field fault))
  layout_error : ∀ o e, g.layout o = .error e → e.derails = true

theorem responses_sound (limit : Nat) : (responses limit).Sound where
  read_whole := by
    rintro _ ⟨o, shape, body, rfl, hshape, hbody⟩
    apply readWhole_of_body
    cases o with
    | command c =>
      cases hshape
      rcases body with _ | ⟨x, _ | ⟨y, _ | ⟨z, b⟩⟩⟩ <;> cases hbody
      exact .inl ⟨_, rfl⟩
    | delivery =>
      cases hshape
      exact readsTexts_bind (fun _ => readsTexts_bind fun _ => readsTexts_pure _) body hbody
  layout_error := by rintro (c | _) e h <;> cases h

theorem requests_sound_within (limit : Nat) : Sound { requests with limit } where
  read_whole := by
    rintro _ ⟨o, shape, body, rfl, hshape, hbody⟩
    apply readWhole_of_body
    cases o with
    | command c =>
      have htwo : ∀ {f f' : String} {make : String → String → Request},
          ReadsTexts limit 2 (do return make (← readText f) (← readText f')) :=
        readsTexts_bind fun _ => readsTexts_bind fun _ => readsTexts_pure _
      have hone : ∀ {f : String} {make : String → Request}, ReadsTexts limit 1 (do return make (← readText f)) :=
        readsTexts_bind fun _ => readsTexts_pure _
      cases c <;> cases hshape <;> first | exact htwo body hbody | exact hone body hbody
    | delivery => cases hshape
  layout_error := by
    rintro (c | _) e h
    · cases c <;> cases h
    · cases h
      rfl

theorem requests_sound : requests.Sound := requests_sound_within defaultLimit

/-! ## The first output of a buffer -/

section
variable {g : Inbound α} {b rest : Bytes} {out : Except FrameError α}

/-- **A whole frame at the front is the first output**, and it is taken off. -/
theorem next_of_whole {f : Bytes} (h : Whole g.layout g.limit f) (t : Bytes) : g.next (f ++ t) = some (g.read f, t) := by
  simp only [next, extent_of_whole h]
  rw [List.take_left, List.drop_left]

theorem next_of_extent_error {e : FrameError} (h : extent g.layout g.limit b = .error e) :
    g.next b = some (.error e, []) := by
  simp only [next, h]

theorem next_eq_none_iff : g.next b = none ↔ Unfinished g.layout g.limit b := by
  rw [← extent_eq_none_iff]
  unfold next
  split
  · rename_i h
    simp [h]
  · rename_i h
    simp [h]
  · rename_i h
    simp [h]

theorem next_cases (h : g.next b = some (out, rest)) :
    (∃ f, Whole g.layout g.limit f ∧ out = g.read f ∧ b = f ++ rest) ∨
      ∃ e, extent g.layout g.limit b = .error e ∧ out = .error e ∧ rest = [] := by
  unfold next at h
  split at h
  · cases h
  · rename_i n hn
    cases h
    exact .inl ⟨_, whole_of_extent hn, rfl, (List.take_append_drop _ _).symm⟩
  · rename_i e he
    cases h
    exact .inr ⟨e, he, rfl, rfl⟩

theorem Sound.derails_read (hg : g.Sound) {f : Bytes} (hf : Whole g.layout g.limit f) : derails (g.read f) = false := by
  rcases hg.read_whole f hf with ⟨m, h⟩ | ⟨field, fault, h⟩ <;> rw [h] <;> rfl

theorem Sound.derails_extent (hg : g.Sound) {e : FrameError} (h : extent g.layout g.limit b = .error e) :
    e.derails = true := by
  rcases opcode_cases b with hb | ⟨x, y, t, rfl, hb⟩ | ⟨o, body, rfl⟩
  · rw [extent_short hb] at h
    cases h
  · rw [extent_unknown hb] at h
    cases h
    rfl
  · rw [extent_opcode, bind_eq_error_iff] at h
    rcases h with h | ⟨shape, _, h⟩
    · exact hg.layout_error o e h
    rcases bind_eq_error_iff.1 h with h | ⟨_, _, h⟩
    · obtain ⟨declared, rfl⟩ := bodyExtent_error h
      rfl
    · cases h

/-- **The first output stays the same when more octets arrive.**  They stay behind what is left, unless the output derails
the stream: then they are dropped with it. -/
theorem Sound.next_append (hg : g.Sound) (h : g.next b = some (out, rest)) (t : Bytes) :
    g.next (b ++ t) = some (out, if derails out then [] else rest ++ t) := by
  rcases next_cases h with ⟨f, hf, rfl, rfl⟩ | ⟨e, he, rfl, rfl⟩
  · rw [List.append_assoc, next_of_whole hf, hg.derails_read hf]
    rfl
  · rw [next_of_extent_error ((extent_append (by rw [he]; nofun) t).trans he)]
    rw [if_pos (show derails (.error e : Except FrameError α) = true from hg.derails_extent he)]

end
end Inbound
end ChatClient
