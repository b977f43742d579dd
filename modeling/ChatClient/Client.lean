import ChatClient.Connection
import ChatClient.Network.Dial
import ChatClient.Session
/-!
# Client — a session and everything in flight around it

Callers and receive loops run at the same time.  A client is the session they share together with what each of them has in
hand: handshakes, writes, half-closes, and a loop per connection.  Its steps are as small as the parts that exclude each
other, and any order of them is a run; a step whose moment has not come changes nothing.
- `connect`, `answer`, `wait`, `finish`: a call of `connect` starts, its handshake is answered or runs out of time, and it
  ends.
- `send`, `write`, `retract`: a request passes the gate, is written, and is taken back if that failed.
- `disconnect`, `close`: the connection in use is taken away and its loop stopped, and our side of it is ended.
- `receive`: the loop of a connection makes a step.
- `peer`: the other end of a connection acts.
- `ignore`: the observer stops listening.  `drop`: the session is given up, and every loop and handshake told to stop.

A step tells what happened (`Occurrence`), in order.  The number of a connection is its place in the list of all that
were ever opened, so no two share one.
-/
namespace ChatClient

open Network (Endpoint Answer Act Fault)

/-- A handshake in flight. -/
structure Attempt where
  call : Nat
  target : Endpoint
  deadline : Nat
  outcome : Option (Except Network.Error Unit) := none
  cancelled : Bool := false

namespace Attempt

/-- A handshake whose time has run out before it was answered. -/
def expire (now : Nat) (a : Attempt) : Attempt :=
  if a.outcome.isNone && a.deadline ≤ now then { a with outcome := some (.error (.connectTimedOut a.target)) } else a

/-- The handshake is answered, if it has not been. -/
def meet (answer : Answer) (a : Attempt) : Attempt :=
  if a.outcome.isSome then a
  else
    match answer with
    | .accepted => { a with outcome := some (.ok ()) }
    | .failed fault => { a with outcome := some (.error (.connectFailed a.target fault)) }

end Attempt

/-- A request in flight, on the connection that was in use when it passed the gate. -/
structure Write where
  call : Nat
  id : Nat
  request : Request
  octets : Bytes
  fault : Option Fault := none
  deriving DecidableEq, Repr

structure Client where
  config : SessionConfig := {}
  session : Session := {}
  /-- The time, in nanoseconds. -/
  now : Nat := 0
  /-- The number of the next call that goes on after its first step. -/
  calls : Nat := 0
  attempts : List Attempt := []
  writes : List Write := []
  /-- The connections whose half-close is still to come. -/
  closing : List Nat := []
  connections : List Connection := []
  observed : Bool := true
  dropped : Bool := false

inductive Step where
  | connect (target : Endpoint)
  | answer (call : Nat) (answer : Answer)
  | wait (span : Nat)
  | finish (call : Nat)
  | send (request : Request)
  | write (call : Nat)
  | retract (call : Nat)
  | disconnect
  | close (id : Nat)
  | receive (id : Nat)
  | peer (id : Nat) (act : Act)
  | ignore
  | drop
  deriving DecidableEq, Repr

inductive Occurrence where
  /-- A call was turned down at once. -/
  | refused (error : Session.Error)
  | started (call : Nat)
  | connected (call id : Nat)
  | unconnected (call : Nat) (error : Network.Error)
  | sent (call id : Nat) (request : Request)
  | unsent (call id : Nat) (request : Request) (fault : Fault)
  /-- A disconnect took this connection away, or there was none. -/
  | disconnected (id : Option Nat)
  /-- The counts of a connection took note of something. -/
  | noted (id : Nat) (note : Outstanding.Note) (answer : Option Match)
  /-- The session took a response. -/
  | handled (id : Nat) (response : Response)
  /-- The loop of a connection reported an event. -/
  | emitted (id : Nat) (event : Event)
  deriving DecidableEq, Repr

namespace Client

/-- The same client but for one connection. -/
def setConnection (c : Client) (id : Nat) (k : Connection) : Client :=
  { c with connections := c.connections.set id k }

def beginConnect (c : Client) (target : Endpoint) : Client × List Occurrence :=
  match c.session.beginConnect c.calls with
  | .error e => (c, [.refused e])
  | .ok session =>
    let attempt := { call := c.calls, target, deadline := c.now + c.config.connectTimeout.nanoseconds }
    ({ c with session, calls := c.calls + 1, attempts := c.attempts ++ [attempt] }, [.started c.calls])

/-- A call of `connect` ends once its handshake has.  One that was called off changes nothing: by now the session may wait
for another. -/
def finishConnect (c : Client) (call : Nat) : Client × List Occurrence :=
  match c.attempts.find? (·.call = call) with
  | none => (c, [])
  | some a =>
    let rest := { c with attempts := c.attempts.filter (·.call ≠ call) }
    if a.cancelled then (rest, [.unconnected call .abandoned])
    else
      match a.outcome with
      | none => (c, [])
      | some (.error e) => ({ rest with session := c.session.unconnected }, [.unconnected call e])
      | some (.ok ()) =>
        let id := c.connections.length
        ({ rest with
            session := c.session.connected ⟨id, a.target⟩
            connections := c.connections ++ [{ peer := a.target }] },
          [.noted id .reset none, .connected call id])

def beginSend (c : Client) (r : Request) : Client × List Occurrence :=
  match c.session.dispatch r with
  | .error e => (c, [.refused e])
  | .ok (session, id, octets) =>
    ({ c with session, calls := c.calls + 1, writes := c.writes ++ [{ call := c.calls, id, request := r, octets }] },
      [.noted id (.sent r.command) none, .started c.calls])

/-- A request is written; a write that fails still has its count to take back. -/
def write (c : Client) (call : Nat) : Client × List Occurrence :=
  match c.writes.find? (·.call = call) with
  | none => (c, [])
  | some w =>
    match w.fault, c.connections[w.id]? with
    | none, some k =>
      let (socket, fault) := k.socket.write w.octets
      let c := c.setConnection w.id { k with socket }
      match fault with
      | none => ({ c with writes := c.writes.filter (·.call ≠ call) }, [.sent call w.id w.request])
      | some f =>
        ({ c with writes := c.writes.map fun v => if v.call = call then { v with fault := some f } else v }, [])
    | _, _ => (c, [])

/-- A request whose write failed is taken back, if its connection is still the one in use. -/
def retract (c : Client) (call : Nat) : Client × List Occurrence :=
  match c.writes.find? (·.call = call) with
  | none => (c, [])
  | some w =>
    match w.fault with
    | none => (c, [])
    | some f =>
      let rest := { c with writes := c.writes.filter (·.call ≠ call) }
      if c.session.uses w.id then
        ({ rest with session := c.session.retract w.request.command },
          [.noted w.id (.failed w.request.command) none, .unsent call w.id w.request f])
      else (rest, [.unsent call w.id w.request f])

/-- A disconnect calls the pending handshake off and takes the connection away. -/
def disconnect (c : Client) : Client × List Occurrence :=
  if c.session.state = .disconnected then (c, [.disconnected none])
  else
    let called := c.attempts.map fun a => if c.session.pending = some a.call then { a with cancelled := true } else a
    let c' := { c with session := c.session.release, attempts := called }
    match c.session.link with
    | none => (c', [.disconnected none])
    | some link =>
      ({ c' with
          closing := c.closing ++ [link.id]
          connections := c.connections.modify link.id fun k => { k with stopped := true } },
        [.disconnected (some link.id)])

def close (c : Client) (id : Nat) : Client × List Occurrence :=
  if id ∈ c.closing then
    ({ c with
        closing := c.closing.filter (· ≠ id)
        connections := c.connections.modify id fun k => { k with socket := k.socket.shutdown } },
      [])
  else (c, [])

/-- What the session makes of a report of a loop.  Only the connection in use can change the session. -/
def take (c : Client) (id : Nat) : Report → Client × List Occurrence
  | .output (.error e) => (c, [.emitted id (.frameDiscarded e.message)])
  | .output (.ok r) =>
    if c.session.uses id then
      let (session, answer) := c.session.accept r
      ({ c with session },
        .handled id r :: (r.command?.map fun command => .noted id (.received command) answer).toList ++ [.emitted id r.event])
    else (c, [])
  | .lost loss =>
    if c.session.uses id then
      ({ c with session := c.session.lose }, [.emitted id (.connectionLost loss.message)])
    else (c, [])

/-- The loop of a connection makes a step.  The last one that holds a connection of a session given up closes it. -/
def receive (c : Client) (id : Nat) : Client × List Occurrence :=
  match c.connections[id]? with
  | none => (c, [])
  | some k =>
    let (k, report) := k.advance c.config
    let k := if c.dropped && k.phase = .ended then { k with socket := k.socket.shutdown } else k
    match report with
    | none => (c.setConnection id k, [])
    | some report => (c.setConnection id k).take id report

def drop (c : Client) : Client :=
  { c with
    dropped := true
    attempts := c.attempts.map fun a => { a with cancelled := true }
    connections := c.connections.map fun k => { k with stopped := true } }

/-- One step.  A session given up takes no more calls. -/
def step (c : Client) : Step → Client × List Occurrence
  | .connect target => if c.dropped then (c, []) else c.beginConnect target
  | .answer call answer =>
    ({ c with attempts := c.attempts.map fun a => if a.call = call then Attempt.meet answer a else a }, [])
  | .wait span =>
    ({ c with now := c.now + span, attempts := c.attempts.map (Attempt.expire (c.now + span)) }, [])
  | .finish call => c.finishConnect call
  | .send r => if c.dropped then (c, []) else c.beginSend r
  | .write call => c.write call
  | .retract call => c.retract call
  | .disconnect => if c.dropped then (c, []) else c.disconnect
  | .close id => c.close id
  | .receive id => c.receive id
  | .peer id act => ({ c with connections := c.connections.modify id fun k => { k with socket := k.socket.meet act } }, [])
  | .ignore => ({ c with observed := false }, [])
  | .drop => (c.drop, [])

def run (c : Client) : List Step → Client × List Occurrence
  | [] => (c, [])
  | s :: rest =>
    let (c, now) := c.step s
    let (c, later) := c.run rest
    (c, now ++ later)

theorem run_append (c : Client) (l m : List Step) :
    c.run (l ++ m) = (((c.run l).1.run m).1, (c.run l).2 ++ ((c.run l).1.run m).2) := by
  induction l generalizing c with
  | nil => rfl
  | cons s l ih => simp only [List.cons_append, run, ih, List.append_assoc]

end Client
end ChatClient
