import ChatClient.Network.Dial
import ChatClient.Network.Socket
/-!
# Exchange — one connection, used by hand

One connection at a time is opened, written, read into a buffer and half-closed, and its other end acts.  What is written
arrives at once.  A new connection replaces the one before it and starts with an empty buffer; a dial that fails changes
nothing.
-/
namespace ChatClient
namespace Network

/-- A connection in use, with the most octets one read of it takes. -/
structure Line where
  peer : Endpoint
  limit : Nat
  socket : Socket := {}
  deriving DecidableEq, Repr

/-- The other end is open and ours has ended. -/
def Line.halfClosed (l : Line) : Bool := l.socket.shut && l.socket.peer = .opened

structure Exchange where
  /-- How many connections were opened. -/
  opened : Nat := 0
  line : Option Line := none
  buffer : Bytes := []
  deriving DecidableEq, Repr

namespace Exchange

inductive Action where
  | connect (target : Endpoint) (limit : Nat)
  | send (octets : Bytes)
  | receive
  | close
  | peer (act : Act)
  deriving DecidableEq, Repr

inductive Outcome where
  | done
  | connected (id : Nat) (peer : Endpoint)
  | received (count : Nat)
  | pending
  | ended
  | failed (error : Error)
  deriving DecidableEq, Repr

/-- Why there is nothing to act on. -/
inductive Misuse where
  | unopened
  /-- The other end is not open, so it cannot send. -/
  | unreachable
  deriving DecidableEq, Repr

/-- What an action shows: its outcome, the octets it brought to the other end, and whether that end, itself open, has seen
ours end. -/
structure Shown where
  outcome : Outcome
  wire : Bytes := []
  ended : Bool := false
  deriving DecidableEq, Repr

def connect (x : Exchange) (network : Network) (target : Endpoint) (limit : Nat) : Exchange × Shown :=
  match network target with
  | some .accepted =>
    ({ opened := x.opened + 1, line := some { peer := target, limit }, buffer := [] },
      { outcome := .connected x.opened target })
  | some (.failed fault) => (x, { outcome := .failed (.connectFailed target fault) })
  | none => (x, { outcome := .failed (.connectTimedOut target) })

/-- An action of ours on an open connection. -/
def send (x : Exchange) (l : Line) (octets : Bytes) : Exchange × Shown :=
  let (socket, fault) := l.socket.write octets
  let outcome := match fault with
    | none => .done
    | some f => .failed (.sendFailed f)
  let after := { l with socket := socket.deliver }
  ({ x with line := some after },
    { outcome, wire := after.socket.received.drop l.socket.received.length, ended := after.halfClosed })

def receive (x : Exchange) (l : Line) : Exchange × Shown :=
  let (socket, reading) := l.socket.read l.limit
  let after := { l with socket }
  let (buffer, outcome) := match reading with
    | .chunk octets => (x.buffer ++ octets, Outcome.received octets.length)
    | .pending => (x.buffer, .pending)
    | .ended => (x.buffer, .ended)
    | .failed f => (x.buffer, .failed (.receiveFailed f))
  ({ x with line := some after, buffer }, { outcome, ended := after.halfClosed })

def close (x : Exchange) (l : Line) : Exchange × Shown :=
  let after := { l with socket := l.socket.shutdown }
  ({ x with line := some after }, { outcome := .done, ended := after.halfClosed })

/-- The other end acts.  It cannot send where nothing is open; to end what has ended is no mistake. -/
def meet (x : Exchange) (act : Act) : Except Misuse (Exchange × Shown) :=
  match x.line, act with
  | some l, act =>
    if l.socket.peer = .opened then
      .ok ({ x with line := some { l with socket := l.socket.meet act } }, { outcome := .done })
    else
      match act with
      | .send _ => .error .unreachable
      | _ => .ok (x, { outcome := .done })
  | none, .send _ => .error .unreachable
  | none, _ => .ok (x, { outcome := .done })

def act (x : Exchange) (network : Network) : Action → Except Misuse (Exchange × Shown)
  | .connect target limit => .ok (x.connect network target limit)
  | .peer a => x.meet a
  | .send octets => onLine (x.send · octets)
  | .receive => onLine x.receive
  | .close => onLine x.close
where
  onLine (f : Line → Exchange × Shown) : Except Misuse (Exchange × Shown) :=
    match x.line with
    | none => .error .unopened
    | some l => .ok (f l)

end Exchange
end Network
end ChatClient
