import ChatClient.Event
import ChatClient.Frame.Writer
import ChatClient.Outstanding
import ChatClient.Response
import ChatClient.Session.Error
import ChatClient.Session.State
/-!
# Session — the record that callers and the receive loop share

A session has a state, the connection it uses, the handshake it waits for, and the counts of unanswered requests.  Callers
and the receive loop change it one after the other, each by one of the operations below; what happens between two of them
(a handshake, a write, a read) happens outside the record.
- `beginConnect`, then `connected` or `unconnected`: a call of `connect` holds the state `connecting` while its handshake
  runs, so that a second one is turned down.
- `dispatch`: the gate of a request, its encoding, and its count; `retract` when its sending failed.
- `release`: a disconnect takes the connection away and calls the pending handshake off.
- `accept` and `lose`: what the receive loop reports, which applies only to the connection in use (`uses`).
-/
namespace ChatClient

structure Link where
  id : Nat
  peer : Network.Endpoint
  deriving DecidableEq, Repr

/-- The name of a connection in reports. -/
def connectionName (id : Nat) : String := s!"conn-{id}"

structure Session where
  state : Session.State := .disconnected
  link : Option Link := none
  /-- The call of `connect` whose handshake runs. -/
  pending : Option Nat := none
  outstanding : Outstanding := {}
  deriving DecidableEq, Repr

/-- What the observer hears of a response. -/
def Response.event : Response → Event
  | ack .login code => if code.isSuccess then .authenticated code.text else .loginFailed code code.text
  | ack command code => .commandResult command code code.text
  | delivery sender message => .incomingWhisper sender message

namespace Session

def uses (s : Session) (id : Nat) : Bool := s.link.any (·.id = id)

/-- A call of `connect` starts. -/
def beginConnect (s : Session) (call : Nat) : Except Error Session :=
  if s.state = .disconnected then .ok { s with state := .connecting, pending := some call }
  else .error .alreadyConnected

/-- The pending handshake failed. -/
def unconnected (s : Session) : Session := { s with state := .disconnected, pending := none }

/-- The pending handshake succeeded; nothing is outstanding on the new connection. -/
def connected (_ : Session) (link : Link) : Session :=
  { state := .connected, link := some link, pending := none, outstanding := {} }

/-- Why a request of this command may not be sent in this state. -/
def objection : State → Command → Option Error
  | .connected, .login => none
  | .authenticated, .login => some .alreadyAuthenticated
  | _, .login => some .notConnected
  | .authenticated, _ => none
  | _, _ => some .notAuthenticated

/-- A request goes out: the connection to write to, the octets, and the session that counts it.  The state is looked at
before the request is. -/
def dispatch (s : Session) (r : Request) : Except Error (Session × Nat × Bytes) :=
  match objection s.state r.command with
  | some e => .error e
  | none =>
    match r.encode with
    | .error e => .error (.frame e)
    | .ok octets =>
      match s.link with
      | none => .error .notConnected
      | some link => .ok ({ s with outstanding := s.outstanding.sent r.command }, link.id, octets)

/-- The sending of a request failed. -/
def retract (s : Session) (command : Command) : Session := { s with outstanding := s.outstanding.failed command }

/-- The session without its connection and without its handshake. -/
def release (s : Session) : Session := { s with state := .disconnected, link := none, pending := none }

/-- A response on the connection in use arrived; an acknowledgement is matched with the requests.  Only the
acknowledgement of a login with success authenticates, and only a session that is not yet authenticated. -/
def accept (s : Session) (r : Response) : Session × Option Match :=
  match r with
  | .ack command code =>
    let (outstanding, answer) := s.outstanding.received command
    let state := if command = .login ∧ code.isSuccess ∧ s.state = .connected then .authenticated else s.state
    ({ s with state, outstanding }, some answer)
  | .delivery .. => (s, none)

/-- The connection in use ended by itself. -/
def lose (s : Session) : Session := { s with state := .disconnected, link := none }

end Session
end ChatClient
