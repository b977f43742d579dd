import ChatClient.Client.Caller
/-!
# Script — a conversation told turn by turn

In each turn the single caller or the other end acts; unless the turn is *held*, everything in flight then settles.  A
turn tells what came of it: the result of the call, the events, the state, and what the other end saw.
- A connect can be *left running*.  Its result is asked for later, even if the address has answered at once, held or not; the
  oldest one not yet told comes first, and each is told once.
- What is written arrives within the turn, and no write fails on its way.  The octets that reached the other end in a held
  turn are told with the next turn that is not held.
- After the session is given up it has no state to tell.
-/
namespace ChatClient

inductive Action where
  | connect (target : Network.Endpoint)
  | leaveConnecting (target : Network.Endpoint)
  | askConnect
  | wait (span : Nat)
  | request (r : Request)
  | disconnect
  | peer (act : Network.Act)
  | ignore
  | drop
  deriving DecidableEq, Repr

inductive Outcome where
  | done
  | failed (error : Session.Error)
  | pending
  | nothing
  deriving DecidableEq, Repr

namespace Outcome

def ofResult : Except Session.Error Unit → Outcome
  | .ok () => done
  | .error e => failed e

def ofCall (happened : List Occurrence) : Outcome :=
  match happened.findSome? Occurrence.result? with
  | some r => ofResult r
  | none => done

end Outcome

/-- A connect left running: its call, or what came of it. -/
inductive Left where
  | running (call : Nat)
  | finished (outcome : Outcome)
  deriving DecidableEq, Repr

/-- A left connect after this happened. -/
def Left.after (happened : List Occurrence) : Left → Left
  | running call =>
    match happened.find? (·.call? = some call) with
    | some o => finished (Outcome.ofCall [o])
    | none => running call
  | l => l

structure Turn where
  outcome : Outcome
  events : List Event
  streamOpen : Bool
  /-- The state and the address of the other end, while there is a session. -/
  session : Option (Session.State × Option Network.Endpoint)
  wire : Bytes
  /-- The other end saw our side end. -/
  ended : Bool
  notes : List (Outstanding.Note × Option Match)
  outstanding : Outstanding

namespace Client

/-- How many octets have reached the other end of each connection. -/
def reached (c : Client) : List Nat := c.connections.map (·.socket.received.length)

/-- What has reached the other ends beyond so many octets of each connection. -/
def reachedBeyond (c : Client) (counts : List Nat) : Bytes :=
  (c.connections.zipIdx.map fun (k, id) => k.socket.received.drop (counts[id]?.getD 0)).flatten

/-- Our side of a connection whose other end is open was ended. -/
def endedSince (before after : Client) : Bool :=
  after.connections.zipIdx.any fun (k, id) =>
    k.socket.shut && k.socket.peer = .opened && !(before.connections[id]?.any (·.socket.shut))

end Client

structure Script where
  network : Network
  client : Client
  left : List Left := []
  /-- How many octets of each connection were told of. -/
  told : List Nat := []

namespace Script

/-- The oldest left connect is asked for. -/
def ask (s : Script) : Script × Outcome :=
  match s.left with
  | [] => (s, .nothing)
  | .running _ :: _ => (s, .pending)
  | .finished outcome :: rest => ({ s with left := rest }, outcome)

/-- The action itself; none when the other end is to send and there is no connection it could send on. -/
def act (s : Script) : Action → Option (Script × Outcome × List Occurrence)
  | .connect target =>
    let (client, happened) := s.client.connect s.network target
    some ({ s with client }, Outcome.ofCall happened, happened)
  | .leaveConnecting target =>
    let (client, happened) := s.client.dial s.network target
    let left := match happened with
      | .started call :: _ => Left.running call
      | _ => .finished (Outcome.ofCall happened)
    some ({ s with client, left := s.left ++ [left] }, .pending, happened)
  | .askConnect => let (s, outcome) := s.ask; some (s, outcome, [])
  | .wait span => some ({ s with client := (s.client.step (.wait span)).1 }, .done, [])
  | .request r =>
    let (client, happened) := s.client.request r
    some ({ s with client }, Outcome.ofCall happened, happened)
  | .disconnect =>
    let (client, happened) := s.client.leave
    some ({ s with client }, Outcome.ofCall happened, happened)
  | .peer a =>
    match s.client.live?, a with
    | some id, _ => some ({ s with client := (s.client.step (.peer id a)).1 }, .done, [])
    | none, .send _ => none
    | none, _ => some (s, .done, [])
  | .ignore => some ({ s with client := (s.client.step .ignore).1 }, .done, [])
  | .drop => some ({ s with client := (s.client.step .drop).1 }, .done, [])

/-- The observer can still be told something. -/
def streamOpen (c : Client) : Bool :=
  c.observed && !(c.dropped && c.connections.all fun k => k.phase = .ended)

def turn (s : Script) (action : Action) (held : Bool) : Option (Script × Turn) := do
  let (next, outcome, happened) ← s.act action
  let next := { next with client := next.client.deliver }
  let (client, later) := if held then (next.client, []) else next.client.settle
  let all := happened ++ later
  let next := { next with client, left := next.left.map (Left.after all) }
  let tells := !held || action = .disconnect
  let told := if tells then client.reached else next.told
  let turn := {
    outcome
    events := if client.observed then all.filterMap Occurrence.event? else []
    streamOpen := streamOpen client
    session := if client.dropped then none else some (client.session.state, client.session.link.map (·.peer))
    wire := if tells then client.reachedBeyond next.told else []
    ended := s.client.endedSince client
    notes := all.filterMap Occurrence.note?
    outstanding := client.session.outstanding }
  some ({ next with told }, turn)

end Script
end ChatClient
