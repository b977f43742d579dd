import ChatClient.Frame.Extent
import ChatClient.Frame.Reader
/-!
# Stream — frames out of the octets a connection delivers

The octets that arrived and belong to no finished frame are kept in a buffer.  `Inbound.next` takes the first frame off
it; `Inbound.drain` takes frames until the next one is incomplete; `Inbound.feed` appends what arrived and drains.
- A frame that is complete but unreadable is one output, its error, and is taken off like any other.
- When the end of the first frame cannot be told, the error is the output and the whole buffer is dropped: there is no way
  to find the next frame.

Both ends of a connection read in this way; they differ in the layouts they expect (`Inbound.responses`,
`Inbound.requests`).
-/
namespace ChatClient

/-- How one end reads what arrives: the layout behind each opcode, the most octets a text may declare, and the message a
whole frame is. -/
structure Inbound (α : Type) where
  layout : Opcode → Except FrameError Frame.Layout
  limit : Nat
  read : Bytes → Except FrameError α

namespace Inbound

/-- The most octets a text may declare, unless configured otherwise. -/
def defaultLimit : Nat := 4096

/-- What a client receives. -/
def responses (limit : Nat) : Inbound Response where
  layout
    | .command _ => .ok .code
    | .delivery => .ok (.texts 2)
  limit := limit
  read := Response.decode

/-- What a server receives. -/
def requests : Inbound Request where
  layout
    | .command .login => .ok (.texts 2)
    | .command .whisper => .ok (.texts 2)
    | .command .join => .ok (.texts 1)
    | .command .shout => .ok (.texts 1)
    | .delivery => .error (.malformed (.notRequest .delivery))
  limit := defaultLimit
  read := Request.decode

variable {α : Type}

/-- The first output of a buffer and what is left behind it; none while the first frame is incomplete. -/
def next (g : Inbound α) (buffer : Bytes) : Option (Except FrameError α × Bytes) :=
  match Frame.extent g.layout g.limit buffer with
  | .ok none => none
  | .ok (some n) => some (g.read (buffer.take n), buffer.drop n)
  | .error e => some (.error e, [])

/-- **Every output shortens the buffer.** -/
theorem length_lt_of_next {g : Inbound α} {b rest : Bytes} {out : Except FrameError α}
    (h : g.next b = some (out, rest)) : rest.length < b.length := by
  unfold next at h
  split at h
  · cases h
  · rename_i n hn
    have := Frame.extent_le hn
    simp only [Option.some.injEq, Prod.mk.injEq] at h
    rw [← h.2, List.length_drop]
    omega
  · rename_i e he
    have := Frame.length_of_extent_error he
    simp only [Option.some.injEq, Prod.mk.injEq] at h
    rw [← h.2, List.length_nil]
    omega

/-- All outputs of a buffer, in order, and what is left behind them. -/
def drain (g : Inbound α) (buffer : Bytes) : List (Except FrameError α) × Bytes :=
  match h : g.next buffer with
  | none => ([], buffer)
  | some (out, rest) =>
    have := length_lt_of_next h
    let (outs, left) := g.drain rest
    (out :: outs, left)
termination_by buffer.length

/-- The outputs once a chunk has arrived behind the buffer. -/
def feed (g : Inbound α) (buffer chunk : Bytes) : List (Except FrameError α) × Bytes := g.drain (buffer ++ chunk)

/-- The outputs of one chunk after the other. -/
def feedAll (g : Inbound α) (buffer : Bytes) : List Bytes → List (Except FrameError α) × Bytes
  | [] => ([], buffer)
  | chunk :: chunks =>
    let (outs, left) := g.feed buffer chunk
    let (more, last) := g.feedAll left chunks
    (outs ++ more, last)

/-- What the end of the stream adds: a last frame, nothing behind an empty buffer, an error behind half a frame. -/
def finish (g : Inbound α) (buffer : Bytes) : Option (Except FrameError α) × Bytes :=
  match g.next buffer with
  | some (out, rest) => (some out, rest)
  | none => (if buffer.isEmpty then none else some (.error .unfinished), buffer)

end Inbound
end ChatClient
