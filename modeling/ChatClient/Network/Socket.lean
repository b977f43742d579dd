import ChatClient.Bytes
import ChatClient.Network.Fault
/-!
# Socket — one end of an open connection

A connection carries octets both ways, in order, and the network and the other end decide what becomes of them (`Act`).
- Octets of the peer wait here until they are read; one read takes at most its limit, and at least one octet if any waits.
- Octets that are written are *underway* once the system has taken them, and arrive piece by piece while the peer is open.
  A write that ends well has had all of its octets taken, which says nothing of their arrival.
- A write can *choke*: the system takes a front of its octets, which may be empty, and then reports a fault.
- When the peer has *closed* the connection, what waits can still be read, and then every read sees the end.  Octets written
  to it are taken and never arrive, until it *refuses* them: then it is gone.
- When the peer has *reset* the connection, the next read or write reports so, once, and what waited is lost.  After that
  the peer is *gone*: reads see the end, writes find a broken pipe.
- Our side ends its writing by `shutdown`; a later write finds a broken pipe, unless it has nothing to write.  An end that
  is given up after that while octets wait there that nobody will read *discards* what has not arrived by then, although the
  peer is open.
-/
namespace ChatClient
namespace Network

inductive Peer where
  | opened
  | closed
  | reset
  | gone
  deriving DecidableEq, Repr

/-- What the other end and the network between do to a connection. -/
inductive Act where
  | send (octets : Bytes)
  | close
  | reset
  /-- The next octets underway arrive, at most so many. -/
  | arrive (count : Nat)
  /-- So many octets more will be taken of what is written, and then this fault reported. -/
  | choke (room : Nat) (fault : Fault)
  | refuse
  | discard
  deriving DecidableEq, Repr

inductive Reading where
  | chunk (octets : Bytes)
  | pending
  | ended
  | failed (fault : Fault)
  deriving DecidableEq, Repr

/-- One end of a connection: the octets that wait to be read, those the peer has received, those underway to it, and who has
ended what. -/
structure Socket where
  waiting : Bytes := []
  received : Bytes := []
  underway : Bytes := []
  peer : Peer := .opened
  shut : Bool := false
  /-- How many octets more will be taken before a write fails, and how it then does. -/
  choke : Option (Nat × Fault) := none
  discarded : Bool := false
  deriving DecidableEq, Repr

namespace Socket

/-- What the system has taken of everything that was written. -/
def taken (s : Socket) : Bytes := s.received ++ s.underway

/-- One read of at most so many octets, a limit of zero counting as one. -/
def read (s : Socket) (limit : Nat) : Socket × Reading :=
  if s.peer = .reset then ({ s with peer := .gone, waiting := [] }, .failed .reset)
  else if s.waiting ≠ [] then
    ({ s with waiting := s.waiting.drop (max limit 1) }, .chunk (s.waiting.take (max limit 1)))
  else if s.peer = .opened then (s, .pending)
  else (s, .ended)

/-- The system takes octets that are written. -/
def put (s : Socket) (octets : Bytes) : Socket := { s with underway := s.underway ++ octets }

/-- One write, which goes on until all of its octets are taken or a fault is reported. -/
def write (s : Socket) (octets : Bytes) : Socket × Option Fault :=
  if octets = [] then (s, none)
  else if s.peer = .reset then ({ s with peer := .gone, waiting := [] }, some .reset)
  else if s.peer = .gone ∨ s.shut then (s, some .brokenPipe)
  else
    match s.choke with
    | none => (s.put octets, none)
    | some (room, fault) =>
      if room < octets.length then ({ s.put (octets.take room) with choke := none }, some fault)
      else ({ s.put octets with choke := some (room - octets.length, fault) }, none)

/-- Ends our writing side. -/
def shutdown (s : Socket) : Socket := { s with shut := true }

/-- The other end or the network acts.  An end that is no longer open does nothing but refuse, if it was closed. -/
def meet (s : Socket) (a : Act) : Socket :=
  if s.peer = .opened then
    match a with
    | .send octets => { s with waiting := s.waiting ++ octets }
    | .close => { s with peer := .closed }
    | .reset => { s with peer := .reset }
    | .arrive count =>
      let count := if s.discarded then 0 else count
      { s with received := s.received ++ s.underway.take count, underway := s.underway.drop count }
    | .choke room fault => { s with choke := some (room, fault) }
    | .discard => { s with discarded := s.discarded || s.shut && !s.waiting.isEmpty }
    | .refuse => s
  else if s.peer = .closed ∧ a = .refuse then { s with peer := .gone }
  else s

/-- Everything underway arrives. -/
def deliver (s : Socket) : Socket := s.meet (.arrive s.underway.length)

/-- Nothing can be read now, and the connection has not ended. -/
def quiet (s : Socket) : Bool := s.waiting.isEmpty && s.peer = .opened

/-- **A chunk is what waited first**, neither empty nor above the limit, and the rest keeps waiting. -/
theorem read_chunk {s t : Socket} {limit : Nat} {b : Bytes} (h : s.read limit = (t, .chunk b)) :
    s.waiting = b ++ t.waiting ∧ 1 ≤ b.length ∧ b.length ≤ max limit 1 := by
  unfold read at h
  split at h
  · cases h
  split at h
  next hw =>
    cases h
    refine ⟨(List.take_append_drop _ _).symm, ?_, ?_⟩
    · have := List.length_pos_iff.2 hw
      rw [List.length_take]
      omega
    · rw [List.length_take]
      omega
  · split at h <;> cases h

/-- A read without a chunk leaves nothing waiting. -/
theorem waiting_of_read {s t : Socket} {limit : Nat} {r : Reading} (h : s.read limit = (t, r))
    (hr : ∀ b, r ≠ .chunk b) : t.waiting = [] := by
  unfold read at h
  split at h
  · cases h; rfl
  split at h
  · cases h; exact absurd rfl (hr _)
  next hw =>
    have hw : s.waiting = [] := by simpa using hw
    split at h <;> cases h <;> exact hw

/-- **A read is pending exactly when the connection is quiet.** -/
theorem read_pending_iff {s : Socket} {limit : Nat} : (s.read limit).2 = .pending ↔ s.quiet = true := by
  unfold read quiet
  split <;> simp_all
  split
  · split <;> simp_all
  · simp_all

end Socket
end Network
end ChatClient
