import ChatClient.Frame.Reader
import ChatClient.Frame.Writer
import ChatClient.Proofs.Text.Utf8
/-!
# Format — reading a frame is undoing its writing

Each part of a frame is read exactly where it was written: a reader takes a part off the front of some octets when they
start with that part on the wire, and leaves the rest (`readOpcode_eq_ok_iff`, `readCode_eq_ok_iff`,
`readText_eq_ok_iff`).  A whole frame is its opcode and its body and nothing behind them (`readWhole_eq_ok_iff`), so a
message is read from exactly one string of octets, the one it is written as.

What is not a frame is refused, and the opcode is looked at first: an unknown one is reported by its value, everything
else as malformed (`Response.readBody_error`, `readWhole_eq_error_iff`).
-/
namespace ChatClient

/-- The 16-bit word at the front of some octets. -/
def Bytes.leading? : Bytes → Option Nat
  | a :: b :: _ => some (ofWord16 a b)
  | _ => none

theorem Opcode.ofValue?_eq_none_iff {n : Nat} : Opcode.ofValue? n = none ↔ ∀ o : Opcode, o.value ≠ n := by
  rw [Option.eq_none_iff_forall_ne_some]
  refine forall_congr' fun o => not_congr ?_
  rw [Opcode.ofValue?_eq_some_iff, eq_comm]

namespace Frame

/-! ## Readers one after the other -/

section
variable {α β : Type} {p : Reader α} {k : α → Reader β} {b rest : Bytes}

theorem reader_pure_eq_ok_iff {a m : α} : (pure a : Reader α) b = .ok (m, rest) ↔ a = m ∧ b = rest := by
  change Except.ok (a, b) = .ok (m, rest) ↔ _
  rw [Except.ok.injEq, Prod.mk.injEq]

theorem reader_bind_eq_ok_iff {m : β} :
    (p >>= k) b = .ok (m, rest) ↔ ∃ a left, p b = .ok (a, left) ∧ k a left = .ok (m, rest) := by
  change p b >>= (fun r => k r.1 r.2) = _ ↔ _
  rw [bind_eq_ok_iff]
  exact ⟨fun ⟨r, h⟩ => ⟨r.1, r.2, h⟩, fun ⟨a, left, h⟩ => ⟨(a, left), h⟩⟩

theorem reader_bind_eq_error_iff {e : FrameError} :
    (p >>= k) b = .error e ↔ p b = .error e ∨ ∃ a left, p b = .ok (a, left) ∧ k a left = .error e := by
  change p b >>= (fun r => k r.1 r.2) = _ ↔ _
  rw [bind_eq_error_iff]
  exact or_congr_right ⟨fun ⟨r, h⟩ => ⟨r.1, r.2, h⟩, fun ⟨a, left, h⟩ => ⟨(a, left), h⟩⟩

end

/-! ## The parts of a frame -/

section
variable {b rest : Bytes} {e : FrameError}

theorem opcode_eq {x y : UInt8} {o : Opcode} (h : Opcode.ofValue? (Bytes.ofWord16 x y) = some o) :
    opcode o = [x, y] := by
  rw [opcode, ← Opcode.ofValue?_eq_some_iff.1 h, Bytes.word16_ofWord16]

/-- **An opcode is read exactly where it was written.** -/
theorem readOpcode_eq_ok_iff {o : Opcode} : readOpcode b = .ok (o, rest) ↔ b = opcode o ++ rest := by
  constructor
  · intro h
    unfold readOpcode at h
    split at h
    · rename_i x y t
      split at h
      · rename_i o' ho
        cases h
        rw [opcode_eq ho]
        rfl
      · cases h
    · cases h
  · rintro rfl
    simp only [opcode, Bytes.word16, List.cons_append, List.nil_append, readOpcode,
      Bytes.ofWord16_word16 o.value_lt, Opcode.ofValue?_value]

theorem readOpcode_eq_error_iff : readOpcode b = .error e ↔
    (b.length < 2 ∧ e = .malformed (.shortHeader b.length)) ∨
    ∃ n, Bytes.leading? b = some n ∧ Opcode.ofValue? n = none ∧ e = .unknownOpcode n := by
  rcases b with _ | ⟨x, _ | ⟨y, t⟩⟩
  · simp [readOpcode, Bytes.leading?, eq_comm]
  · simp [readOpcode, Bytes.leading?, eq_comm]
  · simp only [readOpcode, Bytes.leading?, Option.some.injEq, List.length_cons]
    cases h : Opcode.ofValue? (Bytes.ofWord16 x y) with
    | some o =>
      constructor
      · intro he
        cases he
      · rintro (⟨h2, _⟩ | ⟨n, rfl, hn, _⟩)
        · omega
        · rw [h] at hn
          cases hn
    | none =>
      constructor
      · intro he
        cases he
        exact .inr ⟨_, rfl, h, rfl⟩
      · rintro (⟨h2, _⟩ | ⟨n, rfl, _, rfl⟩)
        · omega
        · rfl

/-- **A return code is read exactly where it was written.** -/
theorem readCode_eq_ok_iff {c : ReturnCode} : readCode b = .ok (c, rest) ↔ b = code c ++ rest := by
  constructor
  · intro h
    unfold readCode at h
    split at h
    · rename_i x y t
      cases h
      rw [code, UInt16.toUInt16_toInt16, UInt16.toNat_ofNat', Nat.mod_eq_of_lt (Bytes.ofWord16_lt x y),
        Bytes.word16_ofWord16]
      rfl
    · cases h
  · rintro rfl
    simp only [code, Bytes.word16, List.cons_append, List.nil_append, readCode,
      Bytes.ofWord16_word16 c.value.toUInt16.toNat_lt, UInt16.ofNat_toNat, Int16.toInt16_toUInt16]

theorem readCode_error (h : readCode b = .error e) : e = .malformed .missingCode := by
  unfold readCode at h
  split at h <;> cases h
  rfl

/-- **A text is read exactly where it was written**, if its length is one that a prefix can state. -/
theorem readText_eq_ok_iff {field s : String} :
    readText field b = .ok (s, rest) ↔ Utf8.size s ≤ Bytes.maxLength ∧ b = text s ++ rest := by
  constructor
  · intro h
    unfold readText at h
    split at h
    · rename_i w x y z t
      dsimp only at h
      split at h
      · cases h
      rename_i hlen
      split at h
      · rename_i s' hs
        cases h
        have hs := Utf8.decode_eq_ok_iff.1 hs
        have hsize : Utf8.size s = Bytes.ofWord32 w x y z := by
          rw [Utf8.size, ← hs, List.length_take]
          omega
        refine ⟨?_, ?_⟩
        · have := Bytes.ofWord32_lt w x y z
          rw [hsize, Bytes.maxLength]
          omega
        · rw [text, hsize, Bytes.word32_ofWord32, ← hs, List.append_assoc, List.take_append_drop]
          rfl
      · cases h
    · cases h
  · rintro ⟨hsize, rfl⟩
    have hlt : Utf8.size s < 4294967296 := Nat.lt_succ_of_le hsize
    simp only [text, Bytes.word32, List.cons_append, List.nil_append, readText, Bytes.ofWord32_word32 hlt]
    rw [if_neg (by rw [List.length_append, Utf8.size]; omega), Utf8.size, List.take_left, List.drop_left,
      Utf8.decode_eq_ok_iff.2 rfl]

theorem readText_error {field : String} (h : readText field b = .error e) : ∃ cause, e = .malformed cause := by
  unfold readText at h
  split at h
  · dsimp only at h
    split at h
    · cases h
      exact ⟨_, rfl⟩
    split at h <;> cases h
    exact ⟨_, rfl⟩
  · cases h
    exact ⟨_, rfl⟩

/-! ## Whole frames -/

variable {α : Type} {body : Opcode → Reader α}

/-- **A whole frame is its opcode and its body**, and nothing behind them. -/
theorem readWhole_eq_ok_iff {m : α} :
    readWhole body b = .ok m ↔ ∃ o rest, b = opcode o ++ rest ∧ body o rest = .ok (m, []) := by
  simp only [readWhole, bind_eq_ok_iff, Prod.exists, readOpcode_eq_ok_iff]
  refine exists_congr fun o => exists_congr fun rest => and_congr_right fun _ => ?_
  constructor
  · rintro ⟨m', left, hbody, h⟩
    split at h
    · rename_i hleft
      cases h
      rw [hbody, List.isEmpty_iff.1 hleft]
    · cases h
  · intro h
    exact ⟨m, [], h, rfl⟩

theorem readWhole_eq_error_iff : readWhole body b = .error e ↔ readOpcode b = .error e ∨
    ∃ o rest, b = opcode o ++ rest ∧ (body o rest = .error e ∨
      ∃ m left, body o rest = .ok (m, left) ∧ left ≠ [] ∧ e = .malformed (.trailing left.length o)) := by
  simp only [readWhole, bind_eq_error_iff, Prod.exists, readOpcode_eq_ok_iff]
  refine or_congr_right <| exists_congr fun o => exists_congr fun rest => and_congr_right fun _ =>
    or_congr_right <| exists_congr fun m => exists_congr fun left => and_congr_right fun _ => ?_
  split
  · rename_i hleft
    exact ⟨nofun, fun h => absurd (List.isEmpty_iff.1 hleft) h.1⟩
  · rename_i hleft
    exact ⟨fun h => ⟨fun hn => hleft (List.isEmpty_iff.2 hn), (Except.error.inj h).symm⟩, fun h => congrArg _ h.2.symm⟩

theorem checkFields_eq_ok_iff : ∀ {fs : List Field}, checkFields fs = .ok () ↔ ∀ f ∈ fs, Utf8.size f.value ≤ f.limit
  | [] => by simp [checkFields]
  | f :: fs => by
    rw [checkFields, List.forall_mem_cons]
    split
    · rename_i hlt
      exact ⟨nofun, fun h => by omega⟩
    · rename_i hle
      rw [checkFields_eq_ok_iff]
      exact ⟨fun h => ⟨by omega, h⟩, fun h => h.2⟩

end
end Frame

namespace Response

open ChatClient.Frame

/-- The texts of a response, in wire order. -/
def texts : Response → List String
  | ack .. => []
  | delivery sender message => [sender, message]

/-- **A response is written as its frame** if every text of it has a length that a prefix can state. -/
theorem encode_eq_ok_iff {r : Response} {b : Bytes} :
    r.encode = .ok b ↔ (∀ s ∈ r.texts, Utf8.size s ≤ Bytes.maxLength) ∧ r.frame = b := by
  have hframe : ∀ {x : Except FrameError PUnit}, (x >>= fun _ => pure r.frame) = .ok b ↔ x = .ok () ∧ r.frame = b := by
    intro x
    rw [bind_eq_ok_iff]
    exact ⟨fun ⟨_, h, hb⟩ => ⟨h, Except.ok.inj hb⟩, fun ⟨h, hb⟩ => ⟨(), h, congrArg _ hb⟩⟩
  cases r with
  | ack c code => exact hframe.trans (and_congr_left fun _ => ⟨fun _ => nofun, fun _ => rfl⟩)
  | delivery sender message =>
    refine hframe.trans (and_congr_left fun _ => ?_)
    rw [checkFields_eq_ok_iff]
    simp only [texts, List.forall_mem_cons, List.not_mem_nil, false_implies, implies_true]

/-- The frame of a response behind its opcode. -/
def body : Response → Bytes
  | ack _ code => Frame.code code
  | delivery sender message => text sender ++ text message

theorem frame_eq (r : Response) : r.frame = Frame.opcode r.opcode ++ r.body := by
  cases r with
  | ack c code => rfl
  | delivery sender message => exact List.append_assoc _ _ _

/-- **The body of a response is read exactly where it was written**, and behind its opcode only. -/
theorem readBody_eq_ok_iff {o : Opcode} {b rest : Bytes} {r : Response} : readBody o b = .ok (r, rest) ↔
    o = r.opcode ∧ (∀ s ∈ r.texts, Utf8.size s ≤ Bytes.maxLength) ∧ b = r.body ++ rest := by
  cases o with
  | command c =>
    rw [readBody, reader_bind_eq_ok_iff]
    constructor
    · rintro ⟨code, left, hcode, h⟩
      obtain ⟨rfl, rfl⟩ := reader_pure_eq_ok_iff.1 h
      exact ⟨rfl, nofun, readCode_eq_ok_iff.1 hcode⟩
    · rintro ⟨ho, -, rfl⟩
      cases r with
      | ack c' code =>
        cases ho
        exact ⟨code, rest, readCode_eq_ok_iff.2 rfl, reader_pure_eq_ok_iff.2 ⟨rfl, rfl⟩⟩
      | delivery sender message => cases ho
  | delivery =>
    rw [readBody, reader_bind_eq_ok_iff]
    simp only [reader_bind_eq_ok_iff, reader_pure_eq_ok_iff, readText_eq_ok_iff]
    constructor
    · rintro ⟨sender, _, ⟨hs, rfl⟩, message, _, ⟨hm, rfl⟩, rfl, rfl⟩
      refine ⟨rfl, ?_, (List.append_assoc _ _ _).symm⟩
      rw [texts, List.forall_mem_cons, List.forall_mem_singleton]
      exact ⟨hs, hm⟩
    · rintro ⟨ho, hfit, rfl⟩
      cases r with
      | ack c code => cases ho
      | delivery sender message =>
        rw [texts, List.forall_mem_cons, List.forall_mem_singleton] at hfit
        exact ⟨sender, _, ⟨hfit.1, List.append_assoc _ _ _⟩, message, rest, ⟨hfit.2, rfl⟩, rfl, rfl⟩

theorem readBody_error {o : Opcode} {b : Bytes} {e : FrameError} (h : readBody o b = .error e) :
    ∃ cause, e = .malformed cause := by
  cases o with
  | command c =>
    rw [readBody, reader_bind_eq_error_iff] at h
    rcases h with h | ⟨_, _, _, h⟩
    · exact ⟨_, readCode_error h⟩
    · cases h
  | delivery =>
    rw [readBody, reader_bind_eq_error_iff] at h
    rcases h with h | ⟨_, _, _, h⟩
    · exact readText_error h
    rw [reader_bind_eq_error_iff] at h
    rcases h with h | ⟨_, _, _, h⟩
    · exact readText_error h
    · cases h

theorem decode_eq_ok_iff {b : Bytes} {r : Response} : decode b = .ok r ↔ encode r = .ok b := by
  rw [decode, readWhole_eq_ok_iff, encode_eq_ok_iff, frame_eq]
  simp only [readBody_eq_ok_iff, List.append_nil]
  constructor
  · rintro ⟨o, _, rfl, rfl, hfit, rfl⟩
    exact ⟨hfit, rfl⟩
  · rintro ⟨hfit, rfl⟩
    exact ⟨r.opcode, r.body, rfl, rfl, hfit, rfl⟩

/-- A response is refused for its opcode or as malformed. -/
theorem decode_error {b : Bytes} {e : FrameError} (h : decode b = .error e) :
    (∃ n, e = .unknownOpcode n) ∨ ∃ cause, e = .malformed cause := by
  rw [decode, readWhole_eq_error_iff, readOpcode_eq_error_iff] at h
  rcases h with (⟨_, rfl⟩ | ⟨n, _, _, rfl⟩) | ⟨_, _, _, h | ⟨_, _, _, _, rfl⟩⟩
  · exact .inr ⟨_, rfl⟩
  · exact .inl ⟨n, rfl⟩
  · exact .inr (readBody_error h)
  · exact .inr ⟨_, rfl⟩

theorem decode_eq_unknownOpcode_iff {b : Bytes} {n : Nat} :
    decode b = .error (.unknownOpcode n) ↔ Bytes.leading? b = some n ∧ ∀ o : Opcode, o.value ≠ n := by
  rw [decode, readWhole_eq_error_iff, readOpcode_eq_error_iff, ← Opcode.ofValue?_eq_none_iff]
  constructor
  · rintro ((⟨_, h⟩ | ⟨m, hm, hn, h⟩) | ⟨o, rest, _, h | ⟨_, _, _, _, h⟩⟩)
    · cases h
    · cases h
      exact ⟨hm, hn⟩
    · obtain ⟨_, h⟩ := readBody_error h
      cases h
    · cases h
  · rintro ⟨hm, hn⟩
    exact .inl (.inr ⟨n, hm, hn, rfl⟩)

/-- **A response and its frame determine each other**, and whatever is no frame is refused.
- Octets are read as a response exactly when that response is written as them.
- Every response whose texts have a length that a prefix can state is written, and read back.
- Two octets in front that are the value of no opcode are reported as such, and nothing else is.
- All other octets that are no frame are malformed. -/
theorem decode_canonical (b : Bytes) :
    (∀ r, decode b = .ok r ↔ encode r = .ok b) ∧
    (∀ r : Response, (∀ s ∈ r.texts, s.utf8ByteSize ≤ Bytes.maxLength) →
      ∃ f, encode r = .ok f ∧ decode f = .ok r) ∧
    (∀ n, decode b = .error (.unknownOpcode n) ↔ Bytes.leading? b = some n ∧ ∀ o : Opcode, o.value ≠ n) ∧
    ((∀ r, encode r ≠ .ok b) → (∀ n, Bytes.leading? b = some n → ∃ o : Opcode, o.value = n) →
      ∃ cause, decode b = .error (.malformed cause)) := by
  refine ⟨fun r => decode_eq_ok_iff, fun r hfit => ?_, fun n => decode_eq_unknownOpcode_iff, fun hnone hknown => ?_⟩
  · have hr : encode r = .ok r.frame := encode_eq_ok_iff.2 ⟨fun s hs => by rw [Utf8.size_eq]; exact hfit s hs, rfl⟩
    exact ⟨r.frame, hr, decode_eq_ok_iff.2 hr⟩
  · cases h : decode b with
    | ok r => exact absurd (decode_eq_ok_iff.1 h) (hnone r)
    | error e =>
      rcases decode_error h with ⟨n, rfl⟩ | ⟨cause, rfl⟩
      · obtain ⟨hn, hno⟩ := decode_eq_unknownOpcode_iff.1 h
        obtain ⟨o, ho⟩ := hknown n hn
        exact absurd ho (hno o)
      · exact ⟨cause, rfl⟩

end Response
end ChatClient
