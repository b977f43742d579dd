import ChatClient.Proofs.Frame.Cursor
import ChatClient.Proofs.Frame.Overlong
/-!
# Agreement — where a frame ends and what it says

The end of a frame is found by walking over the lengths it declares; the frame is then read on its own, which looks at the
lengths a second time.  The two agree, whatever the octets (`Cursor.Agrees`):
- a frame whose end was found is taken off the buffer, and its reading can only fail for a text that is none;
- octets that read as a message within the limit are found and taken off, whatever follows them, and octets that read as a
  message with a text above the limit are given up at this text, with all that follows.

A frame has at least four octets, those of its opcode and a code or a length (`Cursor.Safe.four_le`).
-/
namespace ChatClient

open ChatClient.Frame

/-! ## Texts above the limit -/

/-- **Texts are given up at the first above the limit.** -/
theorem Frame.textsExtent_of_find? {o : Opcode} {limit : Nat} {s : String} (t : Bytes) : ∀ {ss : List String},
    (∀ x ∈ ss, Utf8.size x ≤ Bytes.maxLength) → ss.find? (limit < Utf8.size ·) = some s →
    textsExtent o limit ss.length (ss.flatMap text ++ t) = .error (.malformed (.overLimit o (Utf8.size s) limit))
  | [], _, h => by cases h
  | x :: ss, hfit, h => by
    obtain ⟨hx, hss⟩ := List.forall_mem_cons.1 hfit
    rw [List.flatMap_cons, List.append_assoc, List.length_cons]
    by_cases hover : limit < Utf8.size x
    · rw [List.find?_cons_of_pos (by simpa using hover)] at h
      cases h
      rw [text, List.append_assoc, textsExtent_overlong hx hover]
    · rw [List.find?_cons_of_neg (by simpa using hover)] at h
      change textsExtent o limit (ss.length + 1) (lengthed (Utf8.encode x) ++ _) = _
      rw [textsExtent_lengthed hx (Nat.le_of_not_lt hover), textsExtent_of_find? t hss h]
      rfl

theorem Frame.extent_of_find? {layout : Opcode → Except FrameError Layout} {o : Opcode} {limit : Nat} {s : String}
    {ss : List String} (hlayout : layout o = .ok (.texts ss.length)) (hfit : ∀ x ∈ ss, Utf8.size x ≤ Bytes.maxLength)
    (h : ss.find? (limit < Utf8.size ·) = some s) (t : Bytes) :
    extent layout limit (opcode o ++ ss.flatMap text ++ t) = .error (.malformed (.overLimit o (Utf8.size s) limit)) := by
  rw [List.append_assoc, extent_opcode, hlayout]
  change (textsExtent o limit ss.length (ss.flatMap text ++ t) >>= _) = _
  rw [textsExtent_of_find? t hfit h]
  rfl

theorem Response.extent_of_find? {limit : Nat} {b : Bytes} {m : Response} {s : String} (hm : m.encode = .ok b)
    (h : m.texts.find? (limit < Utf8.size ·) = some s) (t : Bytes) :
    extent (Inbound.responses limit).layout limit (b ++ t) =
      .error (.malformed (.overLimit m.opcode (Utf8.size s) limit)) := by
  obtain ⟨hfit, rfl⟩ := encode_eq_ok_iff.1 hm
  cases m with
  | ack command code => cases h
  | delivery sender message =>
    have hframe : (delivery sender message).frame =
        Frame.opcode .delivery ++ (delivery sender message).texts.flatMap text := by
      simp [frame, texts]
    rw [hframe]
    exact Frame.extent_of_find? rfl hfit h t

theorem Request.extent_of_find? {limit : Nat} {b : Bytes} {r : Request} {s : String} (hr : r.Statable ∧ b = r.frame)
    (h : (r.fields.map (·.value)).find? (limit < Utf8.size ·) = some s) (t : Bytes) :
    extent Inbound.requests.layout limit (b ++ t) = .error (.malformed (.overLimit r.opcode (Utf8.size s) limit)) := by
  obtain ⟨hfit, rfl⟩ := hr
  have hframe : r.frame = Frame.opcode r.opcode ++ (r.fields.map (·.value)).flatMap text := by
    rw [List.flatMap_map]
    rfl
  rw [hframe]
  refine Frame.extent_of_find? (by cases r <;> rfl) (fun x hx => ?_) h t
  obtain ⟨f, hf, rfl⟩ := List.mem_map.1 hx
  exact hfit f hf

namespace Cursor

variable {α : Type} {g : Cursor α}

/-- **A frame has at least four octets.** -/
theorem Safe.four_le (hg : g.Safe) {f : Bytes} (h : Whole g.layout g.limit f) : 4 ≤ f.length := by
  obtain ⟨o, shape, body, rfl, hshape, hbody⟩ := h
  rw [List.length_append, opcode, Bytes.length_word16]
  suffices 2 ≤ body.length by omega
  cases shape with
  | code => exact Nat.le_of_eq hbody.symm
  | texts count =>
    cases hbody with
    | nil => rcases hg.texts_count o _ hshape with h | h <;> cases h
    | cons => simp only [List.length_cons]; omega

/-- **Finding the end of a frame and reading it agree.** -/
structure Agrees (g : Cursor α) (opcode : α → Opcode) (texts : α → List String) : Prop where
  /-- Neither looking for the end of a frame nor reading octets as one ever stops the program. -/
  safe : ∀ b, (∃ found, (g.seek b).run = some found) ∧ (g.fetch b).run = some (g.read b)
  /-- As long as no end is found, a call finds nothing, -/
  waits : ∀ b, (g.seek b).run = some (.ok none) → g.call b = some (.ok none, b)
  /-- and a call that finds nothing leaves the buffer as it was. -/
  unchanged : ∀ b rest, g.call b = some (.ok none, rest) → rest = b
  /-- A frame whose end is found is taken off the buffer and read, and at most a text of it is none. -/
  takes : ∀ b n, (g.seek b).run = some (.ok (some n)) → 4 ≤ n ∧ n ≤ b.length ∧
    g.call b = some (some <$> g.read (b.take n), b.drop n) ∧
    ((∃ m, g.read (b.take n) = .ok m) ∨
      ∃ field fault, g.read (b.take n) = .error (.malformed (.notText field fault)))
  /-- Where an end cannot be told, the buffer is emptied. -/
  clears : ∀ b e, (g.seek b).run = some (.error e) → g.call b = some (.error e, [])
  /-- A message within the limit is taken off whatever follows it, -/
  accepts : ∀ b m, g.read b = .ok m → (∀ s ∈ texts m, s.utf8ByteSize ≤ g.limit) →
    ∀ t, g.call (b ++ t) = some (.ok (some m), t)
  /-- and one with a text above the limit is given up on account of the first of them. -/
  refuses : ∀ b m s, g.read b = .ok m → (texts m).find? (g.limit < ·.utf8ByteSize) = some s →
    ∀ t, g.call (b ++ t) = some (.error (.malformed (.overLimit (opcode m) s.utf8ByteSize g.limit)), [])

theorem Safe.agrees (hg : g.Safe) {opcode : α → Opcode} {texts : α → List String}
    (hwhole : ∀ b m, g.read b = .ok m → (∀ s ∈ texts m, Utf8.size s ≤ g.limit) → Whole g.layout g.limit b)
    (hover : ∀ b m s, g.read b = .ok m → (texts m).find? (g.limit < Utf8.size ·) = some s →
      ∀ t, extent g.layout g.limit (b ++ t) = .error (.malformed (.overLimit (opcode m) (Utf8.size s) g.limit))) :
    g.Agrees opcode texts := by
  have hextent : ∀ {b r}, (g.seek b).run = some r → extent g.layout g.limit b = r := fun h =>
    Option.some.inj ((hg.seek_eq _).symm.trans h)
  have herror : ∀ {b e}, extent g.layout g.limit b = .error e → g.call b = some (.error e, []) := fun h =>
    hg.call_of_next (Inbound.next_of_extent_error h)
  simp only [Utf8.size_eq] at hwhole hover
  refine ⟨fun b => ⟨⟨_, hg.seek_eq b⟩, hg.fetch_eq b⟩, fun b h => ?_, fun b rest h => ?_, fun b n h => ?_,
    fun b e h => herror (hextent h), fun b m hm hfit t => ?_, fun b m s hm hs t => herror (hover b m s hm hs t)⟩
  · exact hg.call_of_next_none (by rw [Inbound.next, hextent h])
  · rw [hg.call_eq] at h
    cases hn : g.next b with
    | none =>
      rw [hn] at h
      cases h
      rfl
    | some r =>
      obtain ⟨out, left⟩ := r
      rw [hn] at h
      cases out <;> cases h
  · have hn := hextent h
    have hlength : (b.take n).length = n := by
      rw [List.length_take]
      exact Nat.min_eq_left (extent_le hn).2
    refine ⟨hlength ▸ hg.four_le (whole_of_extent hn), (extent_le hn).2, hg.call_of_next ?_,
      hg.sound.read_whole _ (whole_of_extent hn)⟩
    rw [Inbound.next, hn]
  · have hnext := Inbound.next_of_whole (hwhole b m hm hfit) t
    rw [hm] at hnext
    exact hg.call_of_next hnext

/-- **Both ends find frames where they read them**, whatever their limit. -/
theorem boundaries_agree (limit : UInt32) : (responses limit.toNat).Agrees Response.opcode Response.texts ∧
    (requests limit.toNat).Agrees Request.opcode fun r => r.fields.map (·.value) := by
  refine ⟨(responses_safe _).agrees (fun b m hm hfit => ?_) fun b m s hm hs t => ?_,
    (requests_safe _).agrees (fun b r hr hfit => ?_) fun b r s hr hs t => ?_⟩
  · obtain ⟨-, rfl⟩ := Response.encode_eq_ok_iff.1 (Response.decode_eq_ok_iff.1 hm)
    exact Response.whole (Nat.le_of_lt_succ limit.toNat_lt) hfit
  · exact Response.extent_of_find? (Response.decode_eq_ok_iff.1 hm) hs t
  · obtain ⟨-, rfl⟩ := Request.decode_eq_ok_iff.1 hr
    exact Request.whole (Nat.le_of_lt_succ limit.toNat_lt) fun f hf => hfit _ (List.mem_map_of_mem hf)
  · exact Request.extent_of_find? (Request.decode_eq_ok_iff.1 hr) hs t

end Cursor
end ChatClient
