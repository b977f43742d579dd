import ChatClient.Proofs.Frame.Format
/-!
# Requests — what a client can send and what a server makes of it

A request is written exactly when each of its texts is within its limit, and refused on account of the first that is not
(`encode_eq_ok_iff`, `encode_eq_error_iff`).  A server reads a request off exactly the octets it is written as
(`decode_eq_ok_iff`): the writer goes by the list of fields, the reader by the opcode, and they agree on every string of
octets.  The reader does not look at the limits, so it also accepts the frame of a request that no client would send.
-/
namespace ChatClient
namespace Frame

/-- **What is refused is the first field over its limit.** -/
theorem checkFields_eq_error_iff {e : FrameError} : ∀ {fs : List Field}, checkFields fs = .error e ↔
    ∃ before f after, fs = before ++ f :: after ∧ (∀ g ∈ before, Utf8.size g.value ≤ g.limit) ∧
      f.limit < Utf8.size f.value ∧ e = .fieldTooLong f.name (Utf8.size f.value) f.limit
  | [] => by simp [checkFields]
  | f :: fs => by
    rw [checkFields]
    split
    · rename_i hlt
      constructor
      · intro h
        exact ⟨[], f, fs, rfl, by simp, hlt, (Except.error.inj h).symm⟩
      · rintro ⟨before, g, after, heq, hbefore, -, rfl⟩
        cases before with
        | nil =>
          cases heq
          rfl
        | cons f' before =>
          cases heq
          have := hbefore f List.mem_cons_self
          omega
    · rename_i hle
      rw [checkFields_eq_error_iff]
      constructor
      · rintro ⟨before, g, after, rfl, hbefore, hg, he⟩
        refine ⟨f :: before, g, after, rfl, ?_, hg, he⟩
        exact List.forall_mem_cons.2 ⟨by omega, hbefore⟩
      · rintro ⟨before, g, after, heq, hbefore, hg, he⟩
        cases before with
        | nil =>
          cases heq
          exact absurd hg hle
        | cons f' before =>
          cases heq
          exact ⟨before, g, after, rfl, fun x hx => hbefore x (List.mem_cons_of_mem _ hx), hg, he⟩

/-! ## Readers of texts -/

section
variable {α : Type} {b rest : Bytes} {m : α} {field field' : String}

theorem read_one_eq_ok_iff {make : String → α} :
    (do return make (← readText field) : Reader α) b = .ok (m, rest) ↔
      ∃ s, make s = m ∧ Utf8.size s ≤ Bytes.maxLength ∧ b = text s ++ rest := by
  simp only [reader_bind_eq_ok_iff, reader_pure_eq_ok_iff, readText_eq_ok_iff]
  constructor
  · rintro ⟨s, _, ⟨hs, hb⟩, hm, rfl⟩
    exact ⟨s, hm, hs, hb⟩
  · rintro ⟨s, hm, hs, hb⟩
    exact ⟨s, rest, ⟨hs, hb⟩, hm, rfl⟩

theorem read_two_eq_ok_iff {make : String → String → α} :
    (do return make (← readText field) (← readText field') : Reader α) b = .ok (m, rest) ↔
      ∃ s t, make s t = m ∧ (Utf8.size s ≤ Bytes.maxLength ∧ Utf8.size t ≤ Bytes.maxLength) ∧
        b = text s ++ text t ++ rest := by
  simp only [reader_bind_eq_ok_iff, reader_pure_eq_ok_iff, readText_eq_ok_iff]
  constructor
  · rintro ⟨s, _, ⟨hs, rfl⟩, t, _, ⟨ht, rfl⟩, hm, rfl⟩
    exact ⟨s, t, hm, ⟨hs, ht⟩, (List.append_assoc _ _ _).symm⟩
  · rintro ⟨s, t, hm, ⟨hs, ht⟩, rfl⟩
    exact ⟨s, _, ⟨hs, List.append_assoc _ _ _⟩, t, rest, ⟨ht, rfl⟩, hm, rfl⟩

end
end Frame

namespace Request

open ChatClient.Frame

variable {r : Request} {b rest : Bytes} {o : Opcode}

/-- Every text of the request is within its limit. -/
def Fits (r : Request) : Prop := ∀ f ∈ r.fields, Utf8.size f.value ≤ f.limit

/-- Every text of the request has a length that a prefix can state. -/
def Statable (r : Request) : Prop := ∀ f ∈ r.fields, Utf8.size f.value ≤ Bytes.maxLength

/-- The frame of a request behind its opcode. -/
def body (r : Request) : Bytes := r.fields.flatMap fun f => text f.value

theorem frame_eq (r : Request) : r.frame = Frame.opcode r.opcode ++ r.body := rfl

theorem limit_le (r : Request) : ∀ f ∈ r.fields, f.limit ≤ maxMessageLength := by
  cases r <;> simp [fields, maxUsernameLength, maxPasswordLength, maxRoomLength, maxMessageLength]

theorem Fits.statable (h : r.Fits) : r.Statable := by
  intro f hf
  have h1 := h f hf
  have h2 := r.limit_le f hf
  rw [maxMessageLength] at h2
  rw [Bytes.maxLength]
  omega

/-! ## Writing -/

theorem encode_eq_ok_iff : r.encode = .ok b ↔ r.Fits ∧ r.frame = b := by
  rw [encode, bind_eq_ok_iff]
  constructor
  · rintro ⟨_, hcheck, hb⟩
    exact ⟨checkFields_eq_ok_iff.1 hcheck, Except.ok.inj hb⟩
  · rintro ⟨hfits, rfl⟩
    exact ⟨(), checkFields_eq_ok_iff.2 hfits, rfl⟩

theorem encode_eq_error_iff {e : FrameError} : r.encode = .error e ↔
    ∃ before f after, r.fields = before ++ f :: after ∧ (∀ g ∈ before, Utf8.size g.value ≤ g.limit) ∧
      f.limit < Utf8.size f.value ∧ e = .fieldTooLong f.name (Utf8.size f.value) f.limit := by
  rw [← checkFields_eq_error_iff, encode, bind_eq_error_iff]
  constructor
  · rintro (h | ⟨_, _, h⟩)
    · exact h
    · cases h
  · exact .inl

/-! ## Reading -/

/-- **The body of a request is read exactly where it was written**, and behind its opcode only. -/
theorem readBody_eq_ok_iff : readBody o b = .ok (r, rest) ↔ o = r.opcode ∧ r.Statable ∧ b = r.body ++ rest := by
  rcases o with (_ | _ | _ | _) | _
  · rw [readBody, read_two_eq_ok_iff]
    cases r <;> simp [opcode, command, Statable, body, fields, and_assoc]
  · rw [readBody, read_two_eq_ok_iff]
    cases r <;> simp [opcode, command, Statable, body, fields, and_assoc]
  · rw [readBody, read_one_eq_ok_iff]
    cases r <;> simp [opcode, command, Statable, body, fields]
  · rw [readBody, read_one_eq_ok_iff]
    cases r <;> simp [opcode, command, Statable, body, fields]
  · constructor
    · intro h
      cases h
    · rintro ⟨ho, -⟩
      cases ho

/-- **A request is read off its frame and off nothing else.** -/
theorem decode_eq_ok_iff : decode b = .ok r ↔ r.Statable ∧ b = r.frame := by
  rw [decode, readWhole_eq_ok_iff, frame_eq]
  simp only [readBody_eq_ok_iff, List.append_nil]
  constructor
  · rintro ⟨o, _, rfl, rfl, hs, rfl⟩
    exact ⟨hs, rfl⟩
  · rintro ⟨hs, rfl⟩
    exact ⟨r.opcode, r.body, rfl, rfl, hs, rfl⟩

theorem decode_delivery (b : Bytes) :
    decode (Frame.opcode .delivery ++ b) = .error (.malformed (.notRequest .delivery)) := by
  rw [decode, readWhole_eq_error_iff]
  exact .inr ⟨.delivery, b, rfl, .inl rfl⟩

/-- The octets of a request, spelled out: its opcode, and each text behind its length. -/
theorem frame_spelled (r : Request) : r.frame = Bytes.word16 r.opcode.value ++
    r.fields.flatMap fun f => Bytes.word32 f.value.utf8ByteSize ++ f.value.toByteArray.data.toList := by
  simp only [frame, Frame.opcode, text, Utf8.size_eq, Utf8.encode_eq]

/-- **A request and its frame determine each other.**
- A request has one or two texts, in this order and with these limits.
- It is written exactly when all of them are within their limits, in octets; otherwise the first that is not is named,
  with its length and its limit.
- What was written is read back.
- Octets that are read as a request are its opcode and then each text behind its length, so it is written as them if its
  texts are within their limits.
- A delivery is never read as a request. -/
theorem format_exact (r : Request) (b : Bytes) :
    (r.fields = match r with
      | login username password => [⟨"username", username, 32⟩, ⟨"password", password, 32⟩]
      | whisper target message => [⟨"target", target, 32⟩, ⟨"message", message, 256⟩]
      | join room => [⟨"room", room, 32⟩]
      | shout message => [⟨"message", message, 256⟩]) ∧
    ((∃ f, r.encode = .ok f) ↔ ∀ f ∈ r.fields, f.value.utf8ByteSize ≤ f.limit) ∧
    (∀ e, r.encode = .error e ↔ ∃ before f after, r.fields = before ++ f :: after ∧
      (∀ g ∈ before, g.value.utf8ByteSize ≤ g.limit) ∧ f.limit < f.value.utf8ByteSize ∧
      e = .fieldTooLong f.name f.value.utf8ByteSize f.limit) ∧
    (∀ f, r.encode = .ok f → decode f = .ok r) ∧
    (decode b = .ok r →
      b = Bytes.word16 r.opcode.value ++
        r.fields.flatMap (fun f => Bytes.word32 f.value.utf8ByteSize ++ f.value.toByteArray.data.toList) ∧
      ((∀ f ∈ r.fields, f.value.utf8ByteSize ≤ f.limit) → r.encode = .ok b)) ∧
    (Bytes.leading? b = some 299 → decode b = .error (.malformed (.notRequest .delivery))) := by
  have hfits : (∀ f ∈ r.fields, f.value.utf8ByteSize ≤ f.limit) ↔ r.Fits := by
    simp only [Fits, Utf8.size_eq]
  refine ⟨by cases r <;> rfl, ?_, fun e => ?_, fun f hf => ?_, fun hb => ⟨?_, fun hlimits => ?_⟩, fun hb => ?_⟩
  · rw [hfits]
    simp [encode_eq_ok_iff]
  · simp only [encode_eq_error_iff, Utf8.size_eq]
  · obtain ⟨h, rfl⟩ := encode_eq_ok_iff.1 hf
    exact decode_eq_ok_iff.2 ⟨h.statable, rfl⟩
  · rw [← frame_spelled]
    exact (decode_eq_ok_iff.1 hb).2
  · exact encode_eq_ok_iff.2 ⟨hfits.1 hlimits, (decode_eq_ok_iff.1 hb).2.symm⟩
  · rcases b with _ | ⟨x, _ | ⟨y, b⟩⟩
    · cases hb
    · cases hb
    · have hxy : Opcode.ofValue? (Bytes.ofWord16 x y) = some .delivery :=
        Opcode.ofValue?_eq_some_iff.2 (Option.some.inj hb)
      have := decode_delivery b
      rwa [opcode_eq hxy] at this

end Request
end ChatClient
