import ChatClient.Config
import ChatClient.Event
import ChatClient.Frame.Stream
import ChatClient.Network.Socket
/-!
# Connection — an open connection and the loop that reads it

Every connection has a loop of its own that reads octets behind a buffer and takes the frames off it.  The loop goes by
small steps, so that callers can act between any two of them:
- *reading*: a loop that has been stopped ends; one that cannot get room behind the buffer for a read breaks down, which
  ends it without a report; otherwise one read is made, and a chunk is put behind the buffer;
- *draining*: the first output of the buffer is reported, until its next frame is incomplete;
- *leaving*: the end of the connection is reported;
- *ended*: nothing more.
A stop is noticed only where the loop would read, so a chunk that has been read is drained to its end.

`Connection.work` bounds the steps the loop still makes before it waits or has ended (`work_advance_lt`).
-/
namespace ChatClient

inductive Phase where
  | reading
  | draining
  | leaving (loss : Loss)
  | ended
  deriving DecidableEq, Repr

structure Connection where
  peer : Network.Endpoint
  socket : Network.Socket := {}
  /-- What was read and belongs to no finished frame. -/
  buffer : Bytes := []
  phase : Phase := .reading
  stopped : Bool := false
  deriving DecidableEq, Repr

inductive Report where
  | output (out : Except FrameError Response)
  | lost (loss : Loss)

namespace Connection

/-- The most octets that a buffer is given room for: as many as half of all addresses. -/
def mostRoom : Nat := 9223372036854775807

/-- There is room behind the buffer for one more read. -/
def roomy (k : Connection) (config : SessionConfig) : Bool :=
  k.buffer.length + max config.readBufferSize.toNat 1 ≤ mostRoom

def advance (k : Connection) (config : SessionConfig) : Connection × Option Report :=
  match k.phase with
  | .reading =>
    if k.stopped || !k.roomy config then ({ k with phase := .ended }, none)
    else
      match k.socket.read config.readBufferSize.toNat with
      | (socket, .chunk octets) => ({ k with socket, buffer := k.buffer ++ octets, phase := .draining }, none)
      | (socket, .pending) => ({ k with socket }, none)
      | (socket, .ended) => ({ k with socket, phase := .leaving .closed }, none)
      | (socket, .failed fault) => ({ k with socket, phase := .leaving (.broken fault) }, none)
  | .draining =>
    match (Inbound.responses config.maxFieldLength.toNat).next k.buffer with
    | none => ({ k with phase := .reading }, none)
    | some (out, rest) => ({ k with buffer := rest }, some (.output out))
  | .leaving loss => ({ k with phase := .ended }, some (.lost loss))
  | .ended => (k, none)

/-- The loop waits for the peer, or has ended. -/
def idle (k : Connection) (config : SessionConfig) : Bool :=
  match k.phase with
  | .reading => !k.stopped && k.roomy config && k.socket.quiet
  | .ended => true
  | _ => false

/-- A bound on the steps until the loop is idle: an octet that waits is read, drained, and may be a frame's last. -/
def work (k : Connection) : Nat :=
  3 * k.socket.waiting.length + k.buffer.length +
    match k.phase with
    | .ended => 0
    | .leaving _ => 1
    | .reading => 2
    | .draining => 3

/-- **A loop that is not idle gets on.** -/
theorem work_advance_lt {k : Connection} {config : SessionConfig} (h : k.idle config = false) :
    (k.advance config).1.work < k.work := by
  unfold advance
  split
  next hp =>
    split
    · simp [work, hp]
    next hs =>
      replace h : k.socket.quiet = false := by
        cases hq : k.socket.quiet <;> simp_all [idle]
      have hread : (k.socket.read config.readBufferSize.toNat).2 ≠ .pending := fun hc => by
        rw [Network.Socket.read_pending_iff, h] at hc
        cases hc
      split
      next t b hb =>
        obtain ⟨hw, h1, -⟩ := Network.Socket.read_chunk hb
        simp only [work, hp, hw, List.length_append]
        omega
      next t hb => exact absurd (by rw [hb]) hread
      next t hb =>
        have := Network.Socket.waiting_of_read hb nofun
        simp only [work, hp, this, List.length_nil]
        omega
      next t f hb =>
        have := Network.Socket.waiting_of_read hb nofun
        simp only [work, hp, this, List.length_nil]
        omega
  next hp =>
    split
    · simp [work, hp]
    next out rest hn =>
      have := Inbound.length_lt_of_next hn
      simp only [work, hp]
      omega
  next hp => simp [work, hp]
  next hp => simp [idle, hp] at h

end Connection
end ChatClient
