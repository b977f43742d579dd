import ChatClient.Proofs.Frame.Transfer
/-!
# Overlong — what becomes of a delivery above the limit

A delivery with a text above the limit is given up at the length that says so: what has arrived by then is dropped, and
what arrives later is read as a stream of its own (`overlong_derails`).  Where reads cut the stream decides what this is.
If the cut falls on the end of a frame, the frames behind it come out as they were sent.  If it falls inside the delivery,
its own octets are read as frames: a sender can word a message so that it is taken for a delivery from somebody else
(`overlong_text_taken`).
-/
namespace ChatClient

open ChatClient.Frame

namespace Frame

/-- Octets behind their length. -/
def lengthed (s : Bytes) : Bytes := Bytes.word32 s.length ++ s

/-- The octets of a delivery with these texts. -/
def delivery (sender message : Bytes) : Bytes := opcode .delivery ++ lengthed sender ++ lengthed message

/-- The length of the first text of a delivery that is above the limit, if one is. -/
def excess (limit : Nat) (sender message : Bytes) : Nat :=
  if limit < sender.length then sender.length else message.length

/-- A delivery up to and with the length of its first text above the limit. -/
def overlongFront (limit : Nat) (sender message : Bytes) : Bytes :=
  if limit < sender.length then opcode .delivery ++ Bytes.word32 sender.length
  else opcode .delivery ++ lengthed sender ++ Bytes.word32 message.length

end Frame

section
variable {limit count : Nat} {s b t : Bytes}

theorem textsExtent_overlong {o : Opcode} {n : Nat} (hn : n ≤ Bytes.maxLength) (hover : limit < n) (t : Bytes) :
    textsExtent o limit (count + 1) (Bytes.word32 n ++ t) = .error (.malformed (.overLimit o n limit)) := by
  simp only [Bytes.word32, List.cons_append, List.nil_append, textsExtent, Bytes.ofWord32_word32 (Nat.lt_succ_of_le hn)]
  rw [if_pos hover]

theorem textsExtent_lengthed {o : Opcode} (hs : s.length ≤ Bytes.maxLength) (hle : s.length ≤ limit) (t : Bytes) :
    textsExtent o limit (count + 1) (lengthed s ++ t) =
      (·.map (4 + s.length + ·)) <$> textsExtent o limit count t := by
  simp only [lengthed, Bytes.word32, List.cons_append, List.nil_append, textsExtent,
    Bytes.ofWord32_word32 (Nat.lt_succ_of_le hs)]
  rw [if_neg (Nat.not_lt.2 hle), if_neg (by rw [List.length_append]; omega), List.drop_left]

/-- A front of some texts is unfinished if what there is of the texts behind the first is. -/
theorem partTexts_of_lengthed (hs : s.length ≤ Bytes.maxLength) (hle : s.length ≤ limit) (hb : b <+: lengthed s ++ t)
    (hlater : ∀ u, u <+: t → b = lengthed s ++ u → PartTexts limit count u) : PartTexts limit (count + 1) b := by
  by_cases hlen : b.length < 4
  · exact .length hlen
  obtain ⟨u, rfl⟩ : Bytes.word32 s.length <+: b := by
    refine List.prefix_of_prefix_length_le ?_ hb (Nat.le_of_not_lt hlen)
    rw [lengthed, List.append_assoc]
    exact List.prefix_append ..
  rw [lengthed, List.append_assoc, List.prefix_append_right_inj] at hb
  have hstated := Bytes.ofWord32_word32 (Nat.lt_succ_of_le hs)
  by_cases hu : u.length < s.length
  · exact .octets (hstated.symm ▸ hle) (hstated.symm ▸ hu)
  · obtain ⟨v, rfl⟩ : s <+: u :=
      List.prefix_of_prefix_length_le (List.prefix_append ..) hb (Nat.le_of_not_lt hu)
    have hv : PartTexts limit count v :=
      hlater v ((List.prefix_append_right_inj _).1 hb) (by rw [lengthed, List.append_assoc])
    exact .later (s := s) hstated.symm hle hv

end

namespace Inbound

variable {α : Type} {g : Inbound α} {limit : Nat} {sender message b rest : Bytes}

/-! ## A stream given up at some octet -/

/-- **A stream is given up in the chunk that brings the octet that derails it.**  This chunk is dropped, and the later ones
are read as a stream of their own. -/
theorem feedAll_of_front {front : Bytes} {e : FrameError}
    (hwait : ∀ b, b <+: front → b.length < front.length → g.next b = none)
    (hfail : ∀ t, g.next (front ++ t) = some (.error e, [])) : ∀ {chunks : List Bytes} {buffer : Bytes},
    front <+: buffer ++ chunks.flatten → buffer.length < front.length →
    ∃ before c after, chunks = before ++ c :: after ∧ (buffer ++ before.flatten).length < front.length ∧
      front.length ≤ (buffer ++ (before ++ [c]).flatten).length ∧
      g.feedAll buffer chunks = (.error e :: (g.feedAll [] after).1, (g.feedAll [] after).2)
  | [], buffer, hfront, hlt => by
    have hle := hfront.length_le
    rw [List.flatten_nil, List.append_nil] at hle
    omega
  | c :: chunks, buffer, hfront, hlt => by
    rw [List.flatten_cons, ← List.append_assoc] at hfront
    by_cases hlen : (buffer ++ c).length < front.length
    · -- The octet is still to come.
      have hnone : g.next (buffer ++ c) = none :=
        hwait _ (List.prefix_of_prefix_length_le (List.prefix_append ..) hfront (Nat.le_of_lt hlen)) hlen
      obtain ⟨before, d, after, rfl, hbefore, hafter, hfeed⟩ := feedAll_of_front hwait hfail hfront hlen
      refine ⟨c :: before, d, after, rfl, ?_, ?_, ?_⟩
      · rwa [List.flatten_cons, ← List.append_assoc]
      · rwa [List.cons_append, List.flatten_cons, ← List.append_assoc]
      · rw [feedAll_cons, drain_of_next_none hnone, hfeed]
        rfl
    · obtain ⟨t, ht⟩ : front <+: buffer ++ c :=
        List.prefix_of_prefix_length_le hfront (List.prefix_append ..) (Nat.le_of_not_lt hlen)
      have hnil : g.drain [] = ([], []) := drain_of_next_none (next_eq_none_iff.2 (.inl Nat.zero_lt_two))
      refine ⟨[], c, chunks, rfl, ?_, ?_, ?_⟩
      · rwa [List.flatten_nil, List.append_nil]
      · simpa using Nat.le_of_not_lt hlen
      · rw [feedAll_cons, ← ht, drain_of_next (hfail t), hnil]
        rfl

/-! ## The front of an overlong delivery -/

theorem delivery_of_overlongFront (limit : Nat) (sender message : Bytes) :
    overlongFront limit sender message <+: delivery sender message := by
  unfold overlongFront delivery lengthed
  split
  · exact ⟨sender ++ lengthed message, by simp [lengthed]⟩
  · exact ⟨message, by simp⟩

/-- **A delivery is given up at the length of its first text above the limit**, whatever follows. -/
theorem next_overlongFront (hsender : sender.length ≤ Bytes.maxLength) (hmessage : message.length ≤ Bytes.maxLength)
    (hover : limit < sender.length ∨ limit < message.length) (t : Bytes) :
    (responses limit).next (overlongFront limit sender message ++ t) =
      some (.error (.malformed (.overLimit .delivery (excess limit sender message) limit)), []) := by
  refine next_of_extent_error ?_
  unfold overlongFront excess
  split
  · rename_i hlong
    rw [List.append_assoc, extent_opcode]
    change (textsExtent .delivery limit 2 _ >>= _) = _
    rw [textsExtent_overlong hsender hlong]
    rfl
  · rename_i hshort
    rw [List.append_assoc, List.append_assoc, extent_opcode]
    change (textsExtent .delivery limit 2 _ >>= _) = _
    rw [textsExtent_lengthed hsender (Nat.le_of_not_lt hshort),
      textsExtent_overlong hmessage (hover.resolve_left hshort)]
    rfl

/-- Before that length has arrived as a whole, more octets are waited for. -/
theorem next_of_overlongFront (hsender : sender.length ≤ Bytes.maxLength) (hb : b <+: overlongFront limit sender message)
    (hlt : b.length < (overlongFront limit sender message).length) : (responses limit).next b = none := by
  refine next_eq_none_iff.2 ?_
  by_cases hlen : b.length < 2
  · exact .inl hlen
  right
  unfold overlongFront at hb hlt
  obtain ⟨body, rfl⟩ : opcode .delivery <+: b := by
    refine List.prefix_of_prefix_length_le ?_ hb (Nat.le_of_not_lt hlen)
    split
    · exact List.prefix_append ..
    · rw [List.append_assoc]
      exact List.prefix_append ..
  refine ⟨.delivery, .texts 2, body, rfl, rfl, ?_⟩
  split at hb
  · rw [if_pos ‹_›, List.length_append, List.length_append] at hlt
    exact .length (Nat.lt_of_add_lt_add_left hlt)
  · rename_i hshort
    rw [if_neg hshort, List.append_assoc, List.length_append, List.length_append, List.length_append] at hlt
    rw [List.append_assoc, List.prefix_append_right_inj] at hb
    refine partTexts_of_lengthed hsender (Nat.le_of_not_lt hshort) hb fun u hu hbody => .length ?_
    rw [hbody, List.length_append, Nat.add_lt_add_iff_left, Nat.add_lt_add_iff_left] at hlt
    exact hlt

/-! ## What comes out instead -/

/-- **The chunk that brings the excessive length is dropped**, and what arrives later is read as a stream of its own. -/
theorem feedAll_overlong (hsender : sender.length ≤ Bytes.maxLength) (hmessage : message.length ≤ Bytes.maxLength)
    (hover : limit < sender.length ∨ limit < message.length) {chunks : List Bytes}
    (hchunks : chunks.flatten = delivery sender message ++ rest) :
    ∃ before c after, chunks = before ++ c :: after ∧
      before.flatten.length < (overlongFront limit sender message).length ∧
      (overlongFront limit sender message).length ≤ (before ++ [c]).flatten.length ∧
      (responses limit).feedAll [] chunks =
        (.error (.malformed (.overLimit .delivery (excess limit sender message) limit)) ::
          ((responses limit).feedAll [] after).1, ((responses limit).feedAll [] after).2) := by
  have hfront : overlongFront limit sender message <+: [] ++ chunks.flatten := by
    rw [List.nil_append, hchunks]
    exact (delivery_of_overlongFront ..).trans (List.prefix_append ..)
  have hpos : ([] : Bytes).length < (overlongFront limit sender message).length := by
    unfold overlongFront
    split <;> simp only [opcode, List.length_append, List.length_nil, Bytes.length_word16] <;> omega
  have hfail := next_overlongFront hsender hmessage hover
  simpa only [List.nil_append] using
    feedAll_of_front (fun b hb hlt => next_of_overlongFront hsender hb hlt) hfail hfront hpos

/-- **The text of an overlong delivery is taken for frames** if a read ends right before it: whatever responses it is worded
as come out. -/
theorem feedAll_of_worded (hlimit : limit ≤ Bytes.maxLength) (hsender : sender.length ≤ limit) {ms : List Response}
    (hms : ∀ m ∈ ms, ∀ s ∈ m.texts, Utf8.size s ≤ limit)
    (hmessage : (ms.flatMap Response.frame).length ≤ Bytes.maxLength)
    (hlong : limit < (ms.flatMap Response.frame).length) :
    let front := overlongFront limit sender (ms.flatMap Response.frame)
    front ++ ms.flatMap Response.frame = delivery sender (ms.flatMap Response.frame) ∧
    (responses limit).feedAll [] [front, ms.flatMap Response.frame] =
      (.error (.malformed (.overLimit .delivery (ms.flatMap Response.frame).length limit)) :: ms.map .ok, []) := by
  intro front
  have hnot : ¬ limit < sender.length := Nat.not_lt.2 hsender
  have hnext := next_overlongFront (Nat.le_trans hsender hlimit) hmessage (.inr hlong) []
  have hnil : (responses limit).drain [] = ([], []) := drain_of_next_none (next_eq_none_iff.2 (.inl Nat.zero_lt_two))
  have hlater := ((responses_sound limit).transfers (Response.takes hlimit hms)).all [ms.flatMap Response.frame] (by simp)
  rw [List.append_nil, excess, if_neg hnot] at hnext
  refine ⟨?_, ?_⟩
  · change overlongFront _ _ _ ++ _ = _
    rw [overlongFront, if_neg hnot, delivery]
    simp [lengthed]
  · rw [feedAll_cons, List.nil_append, drain_of_next hnext, hnil, hlater]
    rfl

/-- **What becomes of a delivery above the limit**, with frames within the limit behind it, however the stream is cut.
- Nothing comes out before the length that is above the limit has arrived; then the error does.
- The chunk that brings this length is dropped, with all that has arrived, and the later chunks are read as a stream of
  their own.
- If that cut falls on the end of the delivery, or of a frame behind it, the frames that are left come out as they are. -/
theorem overlong_derails (limit : UInt32) (sender message : Bytes) (hsender : sender.length ≤ Bytes.maxLength)
    (hmessage : message.length ≤ Bytes.maxLength)
    (hover : limit.toNat < sender.length ∨ limit.toNat < message.length) (ms : List Response)
    (hms : ∀ m ∈ ms, ∀ s ∈ m.texts, s.utf8ByteSize ≤ limit.toNat) (chunks : List Bytes)
    (hchunks : chunks.flatten = delivery sender message ++ ms.flatMap Response.frame) :
    ∃ before c after, chunks = before ++ c :: after ∧
      before.flatten.length < (overlongFront limit.toNat sender message).length ∧
      (overlongFront limit.toNat sender message).length ≤ (before ++ [c]).flatten.length ∧
      (responses limit.toNat).feedAll [] chunks =
        (.error (.malformed (.overLimit .delivery (excess limit.toNat sender message) limit.toNat)) ::
          ((responses limit.toNat).feedAll [] after).1, ((responses limit.toNat).feedAll [] after).2) ∧
      ∀ k, (before ++ [c]).flatten = delivery sender message ++ (ms.take k).flatMap Response.frame →
        (responses limit.toNat).feedAll [] after = ((ms.drop k).map .ok, []) := by
  have hlimit : limit.toNat ≤ Bytes.maxLength := Nat.le_of_lt_succ limit.toNat_lt
  simp only [← Utf8.size_eq] at hms
  obtain ⟨before, c, after, rfl, hbefore, hafter, hfeed⟩ := feedAll_overlong hsender hmessage hover hchunks
  refine ⟨before, c, after, rfl, hbefore, hafter, hfeed, fun k hcut => ?_⟩
  have hrest : after.flatten = (ms.drop k).flatMap Response.frame := by
    rw [List.append_cons, List.flatten_append, hcut, List.append_assoc, List.append_cancel_left_eq] at hchunks
    rw [← List.take_append_drop k ms, List.flatMap_append, List.take_append_drop, List.append_cancel_left_eq] at hchunks
    exact hchunks
  exact ((responses_sound _).transfers (Response.takes hlimit fun m hm => hms m (List.mem_of_mem_drop hm))).all after hrest

/-- A message of fifteen octets to a client that takes eight, worded as a delivery from somebody else. -/
def wordedMessage : Bytes := [1, 43, 0, 0, 0, 3, 98, 111, 98, 0, 0, 0, 2, 104, 105]

/-- Read in one piece it is dropped, and the delivery behind it comes out. -/
theorem overlong_derails_in_one_piece :
    let eve : Bytes := [101, 118, 101]
    let amy : Response := .delivery "amy" "yo"
    (eve.length ≤ Bytes.maxLength ∧ wordedMessage.length ≤ Bytes.maxLength ∧
      ((8 : UInt32).toNat < eve.length ∨ (8 : UInt32).toNat < wordedMessage.length) ∧
      ∀ m ∈ [amy], ∀ s ∈ m.texts, s.utf8ByteSize ≤ (8 : UInt32).toNat) ∧
    (responses 8).feedAll [] [delivery eve wordedMessage, amy.frame] =
      ([.error (.malformed (.overLimit .delivery 15 8)), .ok amy], []) := by
  intro eve amy
  have heve : eve.length ≤ Bytes.maxLength := by decide
  have hmessage : wordedMessage.length ≤ Bytes.maxLength := by decide
  have hover : (8 : UInt32).toNat < eve.length ∨ (8 : UInt32).toNat < wordedMessage.length := by decide
  have hamy : ∀ m ∈ [amy], ∀ s ∈ m.texts, s.utf8ByteSize ≤ (8 : UInt32).toNat := by decide +kernel
  refine ⟨⟨heve, hmessage, hover, hamy⟩, ?_⟩
  obtain ⟨before, c, after, heq, hbefore, -, hfeed, hrest⟩ :=
    overlong_derails 8 eve wordedMessage heve hmessage hover [amy] hamy [delivery eve wordedMessage, amy.frame] (by simp)
  rcases before with _ | ⟨x, before⟩
  · obtain ⟨rfl, rfl⟩ : delivery eve wordedMessage = c ∧ [amy.frame] = after := by simpa using heq
    rw [hrest 0 (by simp)] at hfeed
    exact hfeed
  · obtain ⟨rfl, -⟩ : delivery eve wordedMessage = x ∧ _ := by simpa using heq
    rw [List.flatten_cons, List.length_append] at hbefore
    exact absurd (Nat.lt_of_le_of_lt (Nat.le_add_right ..) hbefore) (by decide)

/-- **Not only the frames behind an overlong delivery come out.**  A read that ends right before its message lets out the
delivery that it is worded as. -/
theorem overlong_text_taken : ¬ ∀ (limit : UInt32) (sender message : Bytes), sender.length ≤ Bytes.maxLength →
    message.length ≤ Bytes.maxLength → (limit.toNat < sender.length ∨ limit.toNat < message.length) →
    ∀ ms : List Response, (∀ m ∈ ms, ∀ s ∈ m.texts, s.utf8ByteSize ≤ limit.toNat) → ∀ chunks : List Bytes,
      chunks.flatten = delivery sender message ++ ms.flatMap Response.frame →
        (((responses limit.toNat).feedAll [] chunks).1.filterMap Except.toOption).Sublist ms := by
  intro h
  have hbob : ∀ m ∈ [Response.delivery "bob" "hi"], ∀ s ∈ m.texts, Utf8.size s ≤ 8 := by decide +kernel
  have hworded : [Response.delivery "bob" "hi"].flatMap Response.frame = wordedMessage := by decide +kernel
  have hsender : ([101, 118, 101] : Bytes).length ≤ 8 := by decide
  obtain ⟨hwhole, hfeed⟩ := feedAll_of_worded (by decide) hsender hbob (by decide +kernel) (by decide +kernel)
  rw [hworded] at hwhole hfeed
  have hsub := h 8 [101, 118, 101] wordedMessage (by decide) (by decide) (by decide) [] nofun
    [overlongFront 8 [101, 118, 101] wordedMessage, wordedMessage] (by simpa using hwhole)
  change (((responses 8).feedAll [] _).1.filterMap Except.toOption).Sublist [] at hsub
  rw [hfeed] at hsub
  cases hsub

end Inbound
end ChatClient
