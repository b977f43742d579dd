import ChatClient.Proofs.Frame.Chunking
/-!
# Retention — how many octets are kept back for a frame that has not arrived

Octets are kept back while they are the front of a frame (`Unfinished`).  Such a frame has an opcode and at most two texts,
and a text that declares more than the limit is refused as soon as its length has arrived, so what is kept back is shorter
than an opcode with two texts at the limit (`Brief.length_lt`).  That holds behind every drain, whatever the stream was and
whatever was drained before it (`Brief.length_feedAll_lt`): a frame that cannot be delimited leaves nothing.
-/
namespace ChatClient
namespace Frame

/-- The most octets that a body of this layout can have. -/
def Layout.most (limit : Nat) : Layout → Nat
  | .code => 2
  | .texts count => count * (4 + limit)

theorem PartTexts.length_lt {limit count : Nat} {b : Bytes} (h : PartTexts limit count b) :
    b.length < count * (4 + limit) := by
  -- By the texts that are there: each takes its share, and the one that is not, less than its own.
  induction h with
  | length hb =>
    rw [Nat.succ_mul]
    omega
  | octets hlimit hs =>
    rw [Nat.succ_mul]
    simp only [List.length_cons]
    omega
  | later hs hlimit _ ih =>
    rw [Nat.succ_mul]
    simp only [List.length_cons, List.length_append]
    omega

/-- **A body of which octets are missing is shorter than the longest of its layout.** -/
theorem Layout.Part.length_lt {limit : Nat} {shape : Layout} {b : Bytes} (h : shape.Part limit b) :
    b.length < shape.most limit := by
  cases shape with
  | code => exact h
  | texts count => exact PartTexts.length_lt h

end Frame

namespace Inbound

open ChatClient.Frame

variable {α : Type} {g : Inbound α} {b : Bytes}

/-- The length of a frame with two texts at the limit. -/
def longest (g : Inbound α) : Nat := 10 + 2 * g.limit

/-- No layout is longer than two texts. -/
def Brief (g : Inbound α) : Prop := ∀ o shape, g.layout o = .ok shape → 2 + shape.most g.limit ≤ g.longest

theorem responses_brief (limit : Nat) : (responses limit).Brief := by
  rintro (c | _) _ ⟨⟩
  · change 2 + 2 ≤ 10 + 2 * limit
    omega
  · change 2 + 2 * (4 + limit) ≤ 10 + 2 * limit
    omega

theorem requests_brief : requests.Brief := by
  rintro (c | _) shape h
  · cases c <;> cases h <;> decide
  · cases h

/-- **What is kept back for the rest of a frame is shorter than the longest frame.** -/
theorem Brief.length_lt (hg : g.Brief) (h : g.next b = none) : b.length < g.longest := by
  rcases next_eq_none_iff.1 h with hb | ⟨o, shape, body, rfl, hshape, hpart⟩
  · have hlongest : g.longest = 10 + 2 * g.limit := rfl
    omega
  · have hmost := hg o shape hshape
    have hbody := hpart.length_lt
    rw [List.length_append, opcode, Bytes.length_word16]
    omega

theorem Brief.length_drain_lt (hg : g.Brief) (b : Bytes) : (g.drain b).2.length < g.longest :=
  hg.length_lt (next_drain b)

/-- **Behind every chunk of a stream less is kept back than the longest frame has**, however the stream is cut. -/
theorem Brief.length_feedAll_lt (hg : g.Brief) : ∀ {buffer : Bytes} (chunks : List Bytes), buffer.length < g.longest →
    (g.feedAll buffer chunks).2.length < g.longest
  | _, [], h => h
  | buffer, chunk :: chunks, _ => by
    rw [feedAll_cons]
    exact hg.length_feedAll_lt chunks (hg.length_drain_lt (buffer ++ chunk))

end Inbound
end ChatClient
