import ChatClient.Frame.Cursor
import ChatClient.Proofs.Frame.Delimiting
/-!
# Cursor — reading by position never reaches too far

Whatever the octets are, no position that is reached for is missing, no front is longer than the buffer and no position
outgrows its word: finding the end of the first frame is `Frame.extent` (`seek_eq`), fetching a part of a frame is reading
it (`Fetches`), and a call on a buffer is `Inbound.next`, which leaves the buffer alone when there is no frame
(`Cursor.Safe.call_eq`).

An end whose frames have one or two texts or none, and which fetches what it reads, is `Cursor.Safe`; both ends are.
-/
namespace ChatClient
namespace Frame

/-! ## Reaching for octets -/

section
variable {α β : Type} {x : Option α} {a : α} {i n : Nat} {b : Bytes}

theorem reach_bind (h : x = some a) (k : α → Checked β) : reach x >>= k = k a := by
  subst h
  rfl

theorem further_bind (h : i + n < positions) (k : Nat → Checked β) : further i n >>= k = k (i + n) := by
  rw [further, if_pos h]
  rfl

theorem split?_of_le (h : n ≤ b.length) : split? n b = some (b.take n, b.drop n) := if_pos h

theorem word16At_of_drop {w x : UInt8} {t : Bytes} (h : b.drop i = w :: x :: t) :
    word16At b i = pure (Bytes.ofWord16 w x) := by
  have h0 : b[i]? = some w := by rw [← List.head?_drop, h]; rfl
  have h1 : b[i + 1]? = some x := by rw [← List.getElem?_drop, h]; rfl
  rw [word16At, reach_bind h0, reach_bind h1]

theorem word32At_of_drop {w x y z : UInt8} {t : Bytes} (h : b.drop i = w :: x :: y :: z :: t) :
    word32At b i = pure (Bytes.ofWord32 w x y z) := by
  have h0 : b[i]? = some w := by rw [← List.head?_drop, h]; rfl
  have h1 : b[i + 1]? = some x := by rw [← List.getElem?_drop, h]; rfl
  have h2 : b[i + 2]? = some y := by rw [← List.getElem?_drop, h]; rfl
  have h3 : b[i + 3]? = some z := by rw [← List.getElem?_drop, h]; rfl
  rw [word32At, reach_bind h0, reach_bind h1, reach_bind h2, reach_bind h3]

end

/-! ## Finding the end of the first frame -/

/-- The most octets a text and its length can take. -/
def textSpan : Nat := 4294967299

/-- **Walking over texts by position measures them.**  A text spans less than `textSpan` octets, so no position outgrows
its word as long as there is room for that many octets a text. -/
theorem seekTexts_eq {o : Opcode} {limit : Nat} {b : Bytes} : ∀ {count i : Nat}, i ≤ b.length →
    i + count * textSpan < positions →
    (seekTexts o limit b count i).run = some ((·.map (i + ·)) <$> textsExtent o limit count (b.drop i))
  | 0, i, _, _ => rfl
  | count + 1, i, hi, hroom => by
    rw [Nat.succ_mul, textSpan, positions] at hroom
    rw [seekTexts, further_bind (by rw [positions]; omega)]
    have hlen : (b.drop i).length = b.length - i := List.length_drop
    rcases hb : b.drop i with _ | ⟨w, _ | ⟨x, _ | ⟨y, _ | ⟨z, rest⟩⟩⟩⟩
    -- Fewer than four octets are left for the length.
    iterate 4
      rw [hb] at hlen
      simp only [List.length_cons, List.length_nil] at hlen
      rw [if_pos (by omega)]
      rfl
    rw [hb] at hlen
    simp only [List.length_cons] at hlen
    have hdeclared := Bytes.ofWord32_lt w x y z
    rw [if_neg (by omega), word32At_of_drop hb, textsExtent]
    generalize Bytes.ofWord32 w x y z = declared at *
    rw [pure_bind]
    by_cases hlimit : limit < declared
    · rw [if_pos hlimit, if_pos hlimit]
      rfl
    rw [if_neg hlimit, if_neg hlimit, further_bind (by rw [positions]; omega),
      further_bind (by rw [positions]; omega)]
    by_cases hshort : rest.length < declared
    · rw [if_pos (by omega), if_pos hshort]
      rfl
    have hrest : b.drop (i + (4 + declared)) = rest.drop declared := by
      rw [← List.drop_drop, hb, Nat.add_comm 4]
      rfl
    rw [if_neg (by omega), if_neg hshort, seekTexts_eq (by omega) (by rw [textSpan, positions]; omega), hrest]
    cases textsExtent o limit count (rest.drop declared) with
    | error e => rfl
    | ok size =>
      cases size with
      | none => rfl
      | some k =>
        change some (Except.ok (some (i + (4 + declared) + k))) = some (Except.ok (some (i + (4 + declared + k))))
        rw [Nat.add_assoc i]

/-- **Seeking the end of the first frame finds its extent**, and never reaches too far. -/
theorem seek_eq {layout : Opcode → Except FrameError Layout}
    (hfew : ∀ o count, layout o = .ok (.texts count) → count ≤ 2) (limit : Nat) (b : Bytes) :
    (seek layout limit b).run = some (extent layout limit b) := by
  rcases b with _ | ⟨w, _ | ⟨x, body⟩⟩
  · rfl
  · rfl
  rw [seek, if_neg (by simp only [List.length_cons]; omega), word16At_of_drop (t := body) rfl, pure_bind, extent]
  cases Opcode.ofValue? (Bytes.ofWord16 w x) with
  | none => rfl
  | some o =>
    dsimp only
    cases hshape : layout o with
    | error e => rfl
    | ok shape =>
      cases shape with
      | code =>
        rcases body with _ | ⟨y, _ | ⟨z, rest⟩⟩
        · rfl
        · rfl
        · dsimp only
          rw [if_neg (by simp only [List.length_cons]; omega)]
          rfl
      | texts count =>
        have hcount := hfew o count hshape
        have hroom : 2 + count * textSpan < positions := by
          rw [textSpan, positions]
          omega
        dsimp only
        rw [seekTexts_eq (by simp only [List.length_cons]; omega) hroom]
        change some ((·.map (2 + ·)) <$> textsExtent o limit count body) =
          some (textsExtent o limit count body >>= fun size => pure (size.map (2 + ·)))
        cases textsExtent o limit count body <;> rfl

/-! ## Fetching a frame -/

theorem checked_bind {α β : Type} {x : Checked α} {y : Except FrameError α} {k : α → Checked β}
    {q : α → Except FrameError β} (hx : x.run = some y) (hk : ∀ a, (k a).run = some (q a)) :
    (x >>= k).run = some (y >>= q) := by
  cases y with
  | error e =>
    rw [show x = throw e from hx]
    rfl
  | ok a =>
    rw [show x = pure a from hx, pure_bind]
    exact hk a

/-- Fetching gives what reading gives, whatever the octets. -/
def Fetches {α : Type} (x : Fetcher α) (p : Reader α) : Prop := ∀ b, (x b).run = some (p b)

section
variable {α β : Type} {x : Fetcher α} {p : Reader α} {k : α → Fetcher β} {q : α → Reader β}

theorem fetcher_bind_apply (b : Bytes) : (x >>= k) b = x b >>= fun r => k r.1 r.2 := rfl

theorem fetcher_get_bind (k : Bytes → Fetcher α) (b : Bytes) : (get >>= k) b = k b b := rfl

theorem fetches_pure (a : α) : Fetches (pure a) (pure a) := fun _ => rfl

theorem fetches_throw (e : FrameError) : Fetches (throw e : Fetcher α) (throw e) := fun _ => rfl

theorem fetches_bind (hx : Fetches x p) (hk : ∀ a, Fetches (k a) (q a)) : Fetches (x >>= k) (p >>= q) :=
  fun b => checked_bind (hx b) fun r => hk r.1 r.2

theorem fetch_of_le {n : Nat} {b : Bytes} (h : n ≤ b.length) : fetch n b = pure (b.take n, b.drop n) := by
  rw [fetch, split?_of_le h]
  rfl

theorem fetchWord16_cons (w y : UInt8) (rest : Bytes) :
    fetchWord16 (w :: y :: rest) = pure (Bytes.ofWord16 w y, rest) := by
  rw [fetchWord16, fetcher_bind_apply, fetch_of_le (by simp only [List.length_cons]; omega), pure_bind,
    word16At_of_drop (t := []) rfl]
  rfl

theorem fetchWord32_cons (v w y z : UInt8) (rest : Bytes) :
    fetchWord32 (v :: w :: y :: z :: rest) = pure (Bytes.ofWord32 v w y z, rest) := by
  rw [fetchWord32, fetcher_bind_apply, fetch_of_le (by simp only [List.length_cons]; omega), pure_bind,
    word32At_of_drop (t := []) rfl]
  rfl

theorem fetches_opcode : Fetches fetchOpcode readOpcode := by
  rintro (_ | ⟨w, _ | ⟨y, rest⟩⟩)
  · rfl
  · rfl
  rw [fetchOpcode, fetcher_get_bind, if_neg (by simp only [List.length_cons]; omega), fetcher_bind_apply,
    fetchWord16_cons, pure_bind, readOpcode]
  cases Opcode.ofValue? (Bytes.ofWord16 w y) <;> rfl

theorem fetches_code : Fetches fetchCode readCode := by
  rintro (_ | ⟨w, _ | ⟨y, rest⟩⟩)
  · rfl
  · rfl
  rw [fetchCode, fetcher_get_bind, if_neg (by simp only [List.length_cons]; omega), fetcher_bind_apply,
    fetchWord16_cons]
  rfl

theorem fetches_text (field : String) : Fetches (fetchText field) (readText field) := by
  rintro (_ | ⟨v, _ | ⟨w, _ | ⟨y, _ | ⟨z, rest⟩⟩⟩⟩)
  iterate 4 rfl
  rw [fetchText, fetcher_get_bind, if_neg (by simp only [List.length_cons]; omega), fetcher_bind_apply,
    fetchWord32_cons, pure_bind, fetcher_get_bind, readText]
  dsimp only
  generalize Bytes.ofWord32 v w y z = declared
  by_cases hshort : rest.length < declared
  · rw [if_pos hshort, if_pos hshort]
    rfl
  rw [if_neg hshort, if_neg hshort, fetcher_bind_apply, fetch_of_le (Nat.le_of_not_lt hshort), pure_bind]
  dsimp only
  cases Utf8.decode (rest.take declared) <;> rfl

theorem fetchWhole_eq {body : Opcode → Fetcher α} {read : Opcode → Reader α} (h : ∀ o, Fetches (body o) (read o))
    (b : Bytes) : (fetchWhole body b).run = some (readWhole read b) := by
  refine checked_bind (fetches_opcode b) fun r => checked_bind (h r.1 r.2) fun r' => ?_
  dsimp only
  split <;> rfl

end
end Frame

theorem Request.fetches_body (o : Opcode) : Frame.Fetches (fetchBody o) (readBody o) := by
  have hone : ∀ {f : String} {make : String → Request}, Frame.Fetches
      (do return make (← Frame.fetchText f)) (do return make (← Frame.readText f)) :=
    Frame.fetches_bind (Frame.fetches_text _) fun _ => Frame.fetches_pure _
  have htwo : ∀ {f f' : String} {make : String → String → Request}, Frame.Fetches
      (do return make (← Frame.fetchText f) (← Frame.fetchText f'))
      (do return make (← Frame.readText f) (← Frame.readText f')) :=
    Frame.fetches_bind (Frame.fetches_text _) fun _ =>
      Frame.fetches_bind (Frame.fetches_text _) fun _ => Frame.fetches_pure _
  rcases o with (_ | _ | _ | _) | _
  · exact htwo
  · exact htwo
  · exact hone
  · exact hone
  · exact Frame.fetches_throw _

theorem Response.fetches_body (o : Opcode) : Frame.Fetches (fetchBody o) (readBody o) := by
  cases o with
  | command c => exact Frame.fetches_bind Frame.fetches_code fun _ => Frame.fetches_pure _
  | delivery =>
    exact Frame.fetches_bind (Frame.fetches_text _) fun _ =>
      Frame.fetches_bind (Frame.fetches_text _) fun _ => Frame.fetches_pure _

/-! ## One call on a buffer -/

namespace Cursor

open ChatClient.Frame

variable {α : Type} {g : Cursor α}

/-- An end that reads as its layouts say, that has one or two texts in a frame or none, and that fetches what it reads. -/
structure Safe (g : Cursor α) : Prop where
  sound : g.toInbound.Sound
  texts_count : ∀ o count, g.layout o = .ok (.texts count) → count = 1 ∨ count = 2
  fetch_eq : ∀ b, (g.fetch b).run = some (g.read b)

theorem responses_safe (limit : Nat) : (responses limit).Safe where
  sound := Inbound.responses_sound limit
  texts_count := by
    rintro (c | _) count h
    · cases h
    · cases h
      exact .inr rfl
  fetch_eq := fetchWhole_eq Response.fetches_body

theorem requests_safe (limit : Nat) : (requests limit).Safe where
  sound := Inbound.requests_sound_within limit
  texts_count := by
    rintro ((_ | _ | _ | _) | _) count h <;> cases h
    · exact .inr rfl
    · exact .inr rfl
    · exact .inl rfl
    · exact .inl rfl
  fetch_eq := fetchWhole_eq Request.fetches_body

namespace Safe

theorem seek_eq (hg : g.Safe) (b : Bytes) : (g.seek b).run = some (extent g.layout g.limit b) := by
  refine Frame.seek_eq (fun o count h => ?_) g.limit b
  rcases hg.texts_count o count h with rfl | rfl
  · exact Nat.le_succ 1
  · exact Nat.le_refl 2

/-- **A call on a buffer never stops the program.**  It takes the first output off the buffer, and leaves the buffer alone
while there is none. -/
theorem call_eq (hg : g.Safe) (b : Bytes) : g.call b = some (match g.next b with
    | none => (.ok none, b)
    | some (out, rest) => (some <$> out, rest)) := by
  rw [call, hg.seek_eq, Inbound.next]
  cases hextent : extent g.layout g.limit b with
  | error e => rfl
  | ok size =>
    cases size with
    | none => rfl
    | some n =>
      change (split? n b >>= fun r => (g.fetch r.1).run >>= fun out => pure (some <$> out, r.2)) = _
      rw [split?_of_le (extent_le hextent).2]
      change ((g.fetch (b.take n)).run >>= fun out => pure (some <$> out, b.drop n)) = _
      rw [hg.fetch_eq]
      rfl

theorem call_of_next_none (hg : g.Safe) {b : Bytes} (h : g.next b = none) : g.call b = some (.ok none, b) := by
  rw [hg.call_eq, h]

theorem call_of_next (hg : g.Safe) {b rest : Bytes} {out : Except FrameError α} (h : g.next b = some (out, rest)) :
    g.call b = some (some <$> out, rest) := by
  rw [hg.call_eq, h]

end Safe
end Cursor
end ChatClient
