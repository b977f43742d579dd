import ChatClient.Client
/-!
# Caller — calls made one at a time

A single caller makes a call and waits for its end before it makes the next.  Each call here is the run of all its steps;
between two calls the receive loops go on for as long as there is something to read (`settle`).
-/
namespace ChatClient
namespace Client

/-- The connection whose other end can still act. -/
def live? (c : Client) : Option Nat :=
  match c.session.link with
  | none => none
  | some link =>
    match c.connections[link.id]? with
    | none => none
    | some k => if k.socket.peer = .opened then some link.id else none

/-- The loop of a connection goes on until it is idle, for at most so many steps. -/
def receiveWithin (c : Client) (id : Nat) : Nat → Client × List Occurrence
  | 0 => (c, [])
  | steps + 1 =>
    match c.connections[id]? with
    | none => (c, [])
    | some k =>
      if k.idle c.config then (c, [])
      else
        let (c, now) := c.step (.receive id)
        let (c, later) := c.receiveWithin id steps
        (c, now ++ later)

/-- The loop of a connection goes on until it is idle. -/
def receiveAll (c : Client) (id : Nat) : Client × List Occurrence :=
  match c.connections[id]? with
  | none => (c, [])
  | some k => c.receiveWithin id k.work

/-- The loops of these connections go on until they are idle. -/
def receiveEach (c : Client) : List Nat → Client × List Occurrence
  | [] => (c, [])
  | id :: ids =>
    let (c, now) := c.receiveAll id
    let (c, later) := c.receiveEach ids
    (c, now ++ later)

/-- Handshakes that are over end their calls, and every loop goes on until it is idle. -/
def settle (c : Client) : Client × List Occurrence :=
  let (c, ends) := c.run (c.attempts.map fun a => .finish a.call)
  let (c, received) := c.receiveEach (List.range c.connections.length)
  (c, ends ++ received)

/-- Everything underway arrives. -/
def deliver (c : Client) : Client :=
  { c with connections := c.connections.map fun k => { k with socket := k.socket.deliver } }

/-- A call of `connect` starts, and ends at once if the address answers. -/
def dial (c : Client) (network : Network) (target : Network.Endpoint) : Client × List Occurrence :=
  match c.step (.connect target), network target with
  | (next, [.started call]), some answer =>
    let (next, later) := next.run [.answer call answer, .finish call]
    (next, .started call :: later)
  | result, _ => result

/-- A whole call of `connect`; where nobody answers, it lasts until its time is up. -/
def connect (c : Client) (network : Network) (target : Network.Endpoint) : Client × List Occurrence :=
  match c.dial network target with
  | (next, [.started call]) =>
    let (next, later) := next.run [.wait c.config.connectTimeout.nanoseconds, .finish call]
    (next, .started call :: later)
  | result => result

def request (c : Client) (r : Request) : Client × List Occurrence :=
  c.run [.send r, .write c.calls, .retract c.calls]

/-- A whole call of `disconnect`, which lasts until the loop of its connection has ended. -/
def leave (c : Client) : Client × List Occurrence :=
  match c.step .disconnect with
  | (next, [.disconnected (some id)]) =>
    let (next, later) := (next.step (.close id)).1.receiveAll id
    (next, .disconnected (some id) :: later)
  | result => result

end Client

/-- What the caller of `connect`, of a request or of `disconnect` is told, once the call is over. -/
def Occurrence.result? : Occurrence → Option (Except Session.Error Unit)
  | refused e => some (.error e)
  | connected .. | sent .. | disconnected _ => some (.ok ())
  | unconnected _ e => some (.error (.connect e))
  | unsent _ _ _ f => some (.error (.transport (.sendFailed f)))
  | _ => none

def Occurrence.call? : Occurrence → Option Nat
  | connected call _ | unconnected call _ | sent call _ _ | unsent call _ _ _ => some call
  | _ => none

/-- The event that the observer is told. -/
def Occurrence.event? : Occurrence → Option Event
  | emitted _ event => some event
  | _ => none

/-- What the counts took note of, and their answer. -/
def Occurrence.note? : Occurrence → Option (Outstanding.Note × Option Match)
  | noted _ note answer => some (note, answer)
  | _ => none

end ChatClient
