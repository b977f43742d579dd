import ChatClient.Proofs.Except
import ChatClient.Text.Utf8
/-!
# Utf8 — a text and its octets determine each other

Reading octets gives a text exactly when they are the octets of that text (`decode_eq_ok_iff`): what was written is read
back, and no other octets are read as the same text, so overlong forms and surrogates are refused.  The octets written
are those that a text is stored as (`encode_eq`), and their number is the size of the text (`size_eq`).

Both directions go sequence by sequence.  A sequence of octets that passes the checks of its width is what its character
is written as (`encodeChar_char2` and its siblings), and it is read as that character (`decodeFrom_two` and its siblings).
-/
namespace ChatClient
namespace Utf8

theorem toNat_ofNat {n : Nat} (h : n.isValidChar) : (Char.ofNat n).toNat = n := by
  unfold Char.ofNat
  rw [dif_pos h]
  rfl

theorem toNat_ofNat_of_lt {n : Nat} (h : n < 256) : (UInt8.ofNat n).toNat = n := by
  rw [UInt8.toNat_ofNat']
  omega

theorem isTail_iff {b : UInt8} : isTail b = true ↔ 128 ≤ b.toNat ∧ b.toNat < 192 := by
  simp only [isTail, Bool.and_eq_true, decide_eq_true_eq, UInt8.le_iff_toNat_le, UInt8.lt_iff_toNat_lt,
    UInt8.reduceToNat]

theorem follows_iff {a b : UInt8} : follows a b = true ↔ (128 ≤ b.toNat ∧ b.toNat < 192) ∧
    (a.toNat = 224 → 160 ≤ b.toNat) ∧ (a.toNat = 237 → b.toNat < 160) ∧ (a.toNat = 240 → 144 ≤ b.toNat) ∧
    (a.toNat = 244 → b.toNat < 144) := by
  rw [follows, Bool.and_eq_true, isTail_iff]
  refine and_congr_right fun _ => ?_
  simp only [← UInt8.toNat_inj, UInt8.le_iff_toNat_le, UInt8.lt_iff_toNat_lt, UInt8.reduceToNat]
  split
  · rw [decide_eq_true_eq]
    omega
  split
  · rw [decide_eq_true_eq]
    omega
  split
  · rw [decide_eq_true_eq]
    omega
  split
  · rw [decide_eq_true_eq]
    omega
  · rw [eq_self, true_iff]
    omega

/-! ## One sequence and its character -/

section
variable {a b c d : UInt8}

theorem encodeChar_char1 (ha : a.toNat < 128) : encodeChar (Char.ofNat a.toNat) = [a] := by
  have hn : (Char.ofNat a.toNat).toNat = a.toNat := toNat_ofNat (Or.inl (by omega))
  simp only [encodeChar, hn, if_pos ha, UInt8.ofNat_toNat]

theorem encodeChar_char2 (ha : 194 ≤ a.toNat ∧ a.toNat < 224) (hb : isTail b = true) :
    encodeChar (char2 a b) = [a, b] := by
  rw [isTail_iff] at hb
  have hn : (char2 a b).toNat = a.toNat % 32 * 64 + b.toNat % 64 := toNat_ofNat (Or.inl (by omega))
  simp only [encodeChar, hn]
  rw [if_neg (by omega), if_pos (by omega)]
  simp only [List.cons.injEq, and_true]
  constructor <;> apply UInt8.toNat_inj.1 <;> simp only [UInt8.toNat_ofNat'] <;> omega

theorem encodeChar_char3 (ha : 224 ≤ a.toNat ∧ a.toNat < 240) (hb : follows a b = true) (hc : isTail c = true) :
    encodeChar (char3 a b c) = [a, b, c] := by
  rw [follows_iff] at hb
  rw [isTail_iff] at hc
  have hn : (char3 a b c).toNat = a.toNat % 16 * 4096 + b.toNat % 64 * 64 + c.toNat % 64 :=
    toNat_ofNat (by rw [Nat.isValidChar]; omega)
  simp only [encodeChar, hn]
  rw [if_neg (by omega), if_neg (by omega), if_pos (by omega)]
  simp only [List.cons.injEq, and_true]
  refine ⟨?_, ?_, ?_⟩ <;> apply UInt8.toNat_inj.1 <;> simp only [UInt8.toNat_ofNat'] <;> omega

theorem encodeChar_char4 (ha : 240 ≤ a.toNat ∧ a.toNat < 245) (hb : follows a b = true) (hc : isTail c = true)
    (hd : isTail d = true) : encodeChar (char4 a b c d) = [a, b, c, d] := by
  rw [follows_iff] at hb
  rw [isTail_iff] at hc hd
  have hn : (char4 a b c d).toNat =
      a.toNat % 8 * 262144 + b.toNat % 64 * 4096 + c.toNat % 64 * 64 + d.toNat % 64 :=
    toNat_ofNat (by rw [Nat.isValidChar]; omega)
  simp only [encodeChar, hn]
  rw [if_neg (by omega), if_neg (by omega), if_neg (by omega)]
  simp only [List.cons.injEq, and_true]
  refine ⟨?_, ?_, ?_, ?_⟩ <;> apply UInt8.toNat_inj.1 <;> simp only [UInt8.toNat_ofNat'] <;> omega

variable {i : Nat} {t : Bytes}

theorem decodeFrom_one (ha : a.toNat < 128) :
    decodeFrom i (a :: t) = (Char.ofNat a.toNat :: ·) <$> decodeFrom (i + 1) t := by
  rw [decodeFrom.eq_def]
  exact if_pos (UInt8.lt_iff_toNat_lt.2 ha)

theorem decodeFrom_two (ha : 194 ≤ a.toNat ∧ a.toNat < 224) (hb : isTail b = true) :
    decodeFrom i (a :: b :: t) = (char2 a b :: ·) <$> decodeFrom (i + 2) t := by
  rw [decodeFrom.eq_def]
  simp only [UInt8.lt_iff_toNat_lt, UInt8.reduceToNat]
  rw [if_neg (by omega), if_neg (by omega), if_pos ha.2, if_pos hb]

theorem decodeFrom_three (ha : 224 ≤ a.toNat ∧ a.toNat < 240) (hb : follows a b = true) (hc : isTail c = true) :
    decodeFrom i (a :: b :: c :: t) = (char3 a b c :: ·) <$> decodeFrom (i + 3) t := by
  rw [decodeFrom.eq_def]
  simp only [UInt8.lt_iff_toNat_lt, UInt8.reduceToNat]
  rw [if_neg (by omega), if_neg (by omega), if_neg (by omega), if_pos ha.2, if_pos hb, if_pos hc]

theorem decodeFrom_four (ha : 240 ≤ a.toNat ∧ a.toNat < 245) (hb : follows a b = true) (hc : isTail c = true)
    (hd : isTail d = true) :
    decodeFrom i (a :: b :: c :: d :: t) = (char4 a b c d :: ·) <$> decodeFrom (i + 4) t := by
  rw [decodeFrom.eq_def]
  simp only [UInt8.lt_iff_toNat_lt, UInt8.reduceToNat]
  rw [if_neg (by omega), if_neg (by omega), if_neg (by omega), if_neg (by omega), if_pos ha.2, if_pos hb, if_pos hc,
    if_pos hd]

end

/-! ## Texts -/

/-- **A character that was written is read back**, and what follows it is read behind it. -/
theorem decodeFrom_encodeChar (i : Nat) (c : Char) (t : Bytes) :
    decodeFrom i (encodeChar c ++ t) = (c :: ·) <$> decodeFrom (i + (encodeChar c).length) t := by
  have hc : c.toNat < 0xd800 ∨ 0xdfff < c.toNat ∧ c.toNat < 0x110000 := c.valid
  have hn : ∀ {n : Nat}, n = c.toNat → Char.ofNat n = c := fun h => by rw [h, Char.ofNat_toNat]
  generalize hm : c.toNat = n at hc hn
  unfold encodeChar
  rw [hm]
  dsimp only
  split
  next h =>
    have e := toNat_ofNat_of_lt (Nat.lt_trans h (by omega : 0x80 < 256))
    rw [List.singleton_append, decodeFrom_one (by rw [e]; exact h), hn e]
    rfl
  split
  next h1 h2 =>
    have ea : (UInt8.ofNat (0xC0 + n / 64)).toNat = 0xC0 + n / 64 := toNat_ofNat_of_lt (by omega)
    have eb : (UInt8.ofNat (0x80 + n % 64)).toNat = 0x80 + n % 64 := toNat_ofNat_of_lt (by omega)
    rw [List.cons_append, List.singleton_append, decodeFrom_two (by omega) (isTail_iff.2 (by omega)), char2,
      hn (by omega)]
    rfl
  split
  next h1 h2 h3 =>
    have ea : (UInt8.ofNat (0xE0 + n / 4096)).toNat = 0xE0 + n / 4096 := toNat_ofNat_of_lt (by omega)
    have eb : (UInt8.ofNat (0x80 + n / 64 % 64)).toNat = 0x80 + n / 64 % 64 := toNat_ofNat_of_lt (by omega)
    have ec : (UInt8.ofNat (0x80 + n % 64)).toNat = 0x80 + n % 64 := toNat_ofNat_of_lt (by omega)
    rw [List.cons_append, List.cons_append, List.singleton_append, decodeFrom_three (by omega)
      (follows_iff.2 (by omega)) (isTail_iff.2 (by omega)), char3, hn (by omega)]
    rfl
  next h1 h2 h3 =>
    have ea : (UInt8.ofNat (0xF0 + n / 262144)).toNat = 0xF0 + n / 262144 := toNat_ofNat_of_lt (by omega)
    have eb : (UInt8.ofNat (0x80 + n / 4096 % 64)).toNat = 0x80 + n / 4096 % 64 := toNat_ofNat_of_lt (by omega)
    have ec : (UInt8.ofNat (0x80 + n / 64 % 64)).toNat = 0x80 + n / 64 % 64 := toNat_ofNat_of_lt (by omega)
    have ed : (UInt8.ofNat (0x80 + n % 64)).toNat = 0x80 + n % 64 := toNat_ofNat_of_lt (by omega)
    rw [List.cons_append, List.cons_append, List.cons_append, List.singleton_append, decodeFrom_four (by omega)
      (follows_iff.2 (by omega)) (isTail_iff.2 (by omega)) (isTail_iff.2 (by omega)), char4, hn (by omega)]
    rfl

theorem decodeFrom_encode : ∀ (cs : List Char) (i : Nat), decodeFrom i (cs.flatMap encodeChar) = .ok cs
  | [], i => by rw [List.flatMap_nil, decodeFrom]
  | c :: cs, i => by
    rw [List.flatMap_cons, decodeFrom_encodeChar, decodeFrom_encode cs]
    rfl

/-- **Octets that are read are the octets of the characters read.** -/
theorem encode_of_decodeFrom {i : Nat} {b : Bytes} {cs : List Char} (h : decodeFrom i b = .ok cs) :
    cs.flatMap encodeChar = b := by
  fun_induction decodeFrom i b generalizing cs with
  | case1 => cases h; rfl
  | case2 i a t ha ih =>
    obtain ⟨ds, hds, rfl⟩ := map_eq_ok_iff.1 h
    rw [List.flatMap_cons, ih hds, encodeChar_char1 (UInt8.lt_iff_toNat_lt.1 ha), List.singleton_append]
  | case5 i a _ h1 h2 b t hb ih =>
    obtain ⟨ds, hds, rfl⟩ := map_eq_ok_iff.1 h
    rw [UInt8.not_lt, UInt8.le_iff_toNat_le] at h1
    rw [UInt8.lt_iff_toNat_lt] at h2
    rw [List.flatMap_cons, ih hds, encodeChar_char2 ⟨h1, h2⟩ hb]
    rfl
  | case9 i a _ _ h2 h3 b hb c t hc ih =>
    obtain ⟨ds, hds, rfl⟩ := map_eq_ok_iff.1 h
    rw [UInt8.not_lt, UInt8.le_iff_toNat_le] at h2
    rw [UInt8.lt_iff_toNat_lt] at h3
    rw [List.flatMap_cons, ih hds, encodeChar_char3 ⟨h2, h3⟩ hb hc]
    rfl
  | case15 i a _ _ _ h3 h4 b hb c hc d t hd ih =>
    obtain ⟨ds, hds, rfl⟩ := map_eq_ok_iff.1 h
    rw [UInt8.not_lt, UInt8.le_iff_toNat_le] at h3
    rw [UInt8.lt_iff_toNat_lt] at h4
    rw [List.flatMap_cons, ih hds, encodeChar_char4 ⟨h3, h4⟩ hb hc hd]
    rfl
  | _ => cases h

/-- **Octets spell a text exactly when they are its octets.** -/
theorem decode_eq_ok_iff {b : Bytes} {s : String} : decode b = .ok s ↔ b = encode s := by
  rw [decode, map_eq_ok_iff]
  constructor
  · rintro ⟨cs, hcs, rfl⟩
    rw [encode, String.toList_ofList, encode_of_decodeFrom hcs]
  · rintro rfl
    exact ⟨s.toList, decodeFrom_encode _ _, String.ofList_toList⟩

/-! ## The octets a text is stored as -/

theorem encodeChar_eq (c : Char) : encodeChar c = String.utf8EncodeChar c := by
  have hc : c.toNat < 0xd800 ∨ 0xdfff < c.toNat ∧ c.toNat < 0x110000 := c.valid
  unfold encodeChar String.utf8EncodeChar
  rw [show c.val.toNat = c.toNat from rfl]
  generalize c.toNat = n at hc
  dsimp only
  split
  · rw [if_pos (by omega)]
  split
  · rw [if_neg (by omega), if_pos (by omega), show 0xC0 + n / 64 = n / 64 % 32 + 0xC0 by omega, Nat.add_comm 0x80]
  split
  · rw [if_neg (by omega), if_neg (by omega), if_pos (by omega), show 0xE0 + n / 4096 = n / 4096 % 16 + 0xE0 by omega,
      Nat.add_comm 0x80, Nat.add_comm 0x80]
  · rw [if_neg (by omega), if_neg (by omega), if_neg (by omega),
      show 0xF0 + n / 262144 = n / 262144 % 8 + 0xF0 by omega, Nat.add_comm 0x80, Nat.add_comm 0x80, Nat.add_comm 0x80]

/-- **The octets of a text are those it is stored as.** -/
theorem encode_eq (s : String) : encode s = s.toByteArray.data.toList := by
  obtain ⟨cs, rfl⟩ := s.exists_eq_ofList
  rw [encode, String.toList_ofList, String.toByteArray_ofList, List.utf8Encode, List.data_toByteArray, funext encodeChar_eq]

theorem size_eq (s : String) : size s = s.utf8ByteSize := by
  rw [size, encode_eq, ← String.size_toByteArray]
  rfl

end Utf8
end ChatClient
