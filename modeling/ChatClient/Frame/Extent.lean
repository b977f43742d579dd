import ChatClient.Frame.Error
/-!
# Extent — where the first frame of a stream ends

A connection delivers octets, not frames: what has arrived may hold half a frame or three.  The extent of the first frame
follows from its opcode and the lengths it declares, before any text is looked at.  It is one of three things:
- not known yet, because octets are missing (`none`);
- a number of octets, all of which have arrived;
- a failure: no such opcode, an opcode that this side never receives, or a declared length above the limit.  After that no
  later frame can be found either.
-/
namespace ChatClient
namespace Frame

/-- The shape of what follows an opcode. -/
inductive Layout where
  | code
  | texts (count : Nat)
  deriving DecidableEq, Repr

/-- How many octets this many texts take, once all of them have arrived. -/
def textsExtent (o : Opcode) (limit : Nat) : Nat → Bytes → Except FrameError (Option Nat)
  | 0, _ => .ok (some 0)
  | count + 1, a :: b :: c :: d :: rest =>
    let declared := Bytes.ofWord32 a b c d
    if limit < declared then .error (.malformed (.overLimit o declared limit))
    else if rest.length < declared then .ok none
    else (·.map (4 + declared + ·)) <$> textsExtent o limit count (rest.drop declared)
  | _ + 1, _ => .ok none

/-- How many octets a body of this layout takes, once all of them have arrived. -/
def bodyExtent (o : Opcode) (limit : Nat) : Layout → Bytes → Except FrameError (Option Nat)
  | .code, _ :: _ :: _ => .ok (some 2)
  | .code, _ => .ok none
  | .texts count, body => textsExtent o limit count body

/-- How many octets the first frame takes, once all of them have arrived. -/
def extent (layout : Opcode → Except FrameError Layout) (limit : Nat) : Bytes → Except FrameError (Option Nat)
  | a :: b :: body =>
    match Opcode.ofValue? (Bytes.ofWord16 a b) with
    | none => .error (.unknownOpcode (Bytes.ofWord16 a b))
    | some o => do
      let shape ← layout o
      let size ← bodyExtent o limit shape body
      return size.map (2 + ·)
  | _ => .ok none

/-- The texts measured are among the octets. -/
theorem textsExtent_le {o : Opcode} {limit : Nat} :
    ∀ {count : Nat} {b : Bytes} {n : Nat}, textsExtent o limit count b = .ok (some n) → n ≤ b.length
  | 0, b, n, h => by
    simp only [textsExtent, Except.ok.injEq, Option.some.injEq] at h
    omega
  | _ + 1, [], n, h => by simp [textsExtent] at h
  | _ + 1, [_], n, h => by simp [textsExtent] at h
  | _ + 1, [_, _], n, h => by simp [textsExtent] at h
  | _ + 1, [_, _, _], n, h => by simp [textsExtent] at h
  | count + 1, a :: b :: c :: d :: rest, n, h => by
    unfold textsExtent at h
    dsimp only at h
    split at h
    · cases h
    split at h
    · cases h
    next hlen =>
      cases hrec : textsExtent o limit count (rest.drop (Bytes.ofWord32 a b c d)) with
      | error e => rw [hrec] at h; cases h
      | ok r =>
        rw [hrec] at h
        cases r with
        | none => cases h
        | some k =>
          have hk := textsExtent_le hrec
          simp only [Functor.map, Except.map, Option.map, Except.ok.injEq, Option.some.injEq] at h
          simp only [List.length_drop] at hk
          simp only [List.length_cons]
          omega

theorem bodyExtent_le {o : Opcode} {limit : Nat} {shape : Layout} {b : Bytes} {n : Nat}
    (h : bodyExtent o limit shape b = .ok (some n)) : n ≤ b.length := by
  unfold bodyExtent at h
  split at h
  · simp only [Except.ok.injEq, Option.some.injEq] at h
    simp only [List.length_cons]
    omega
  · cases h
  · exact textsExtent_le h

/-- **A measured frame holds at least its opcode, and all of it has arrived.** -/
theorem extent_le {layout : Opcode → Except FrameError Layout} {limit : Nat} {b : Bytes} {n : Nat}
    (h : extent layout limit b = .ok (some n)) : 2 ≤ n ∧ n ≤ b.length := by
  unfold extent at h
  split at h
  · rename_i x y body
    split at h
    · cases h
    · rename_i o _
      cases hl : layout o with
      | error e => rw [hl] at h; cases h
      | ok shape =>
        rw [hl] at h
        cases hb : bodyExtent o limit shape body with
        | error e => simp only [bind, Except.bind, hb] at h; cases h
        | ok r =>
          simp only [bind, Except.bind, hb, pure, Except.pure, Except.ok.injEq] at h
          cases r with
          | none => cases h
          | some k =>
            have hk := bodyExtent_le hb
            simp only [Option.map_some, Option.some.injEq] at h
            simp only [List.length_cons]
            omega
  · cases h

/-- A stream whose first frame cannot be found has at least an opcode's octets. -/
theorem length_of_extent_error {layout : Opcode → Except FrameError Layout} {limit : Nat} {b : Bytes} {e : FrameError}
    (h : extent layout limit b = .error e) : 2 ≤ b.length := by
  unfold extent at h
  split at h
  · simp only [List.length_cons]
    omega
  · cases h

end Frame
end ChatClient
