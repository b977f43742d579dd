import ChatClient.Shell.Console
/-!
# Program — the shell and its printer, step by step

The shell reads one line after the other, and waits for the end of what a line makes it do before it reads the next.  Beside
it a printer shows the events of the session, which wait for it in a queue; the receive loops go on, and the other ends and
the network act.  A program goes by steps so small that any of them can act between any two of another (`Tick`):
- `task`: the shell goes on from the stage it is at, by at most one step of its client;
- `printer`: the event that has waited longest is shown;
- `answer`, `wait`, `receive`, `peer`: the steps of the client that nobody calls for.

When the shell has given its session up it waits for the printer, which ends once no loop is left that could report and the
queue is empty; then the program is done.

`Console` goes through the same stages, a whole line at a time.
-/
namespace ChatClient
namespace Shell

open Network (Endpoint Answer Act)

/-- The request that an instruction makes. -/
def Instruction.request? : Instruction → Option Request
  | login username password => some (.login username password)
  | whisper target message => some (.whisper target message)
  | join room => some (.join room)
  | shout message => some (.shout message)
  | _ => none

/-- The call that an instruction makes: the step of the client that it starts with. -/
def Instruction.call? (config : ClientConfig) : Instruction → Option Step
  | connect host port => some (.connect (endpoint config host port))
  | disconnect | quit => some .disconnect
  | i => i.request?.map .send

/-- What the shell is at. -/
inductive Stage where
  | starting
  /-- A handshake runs. -/
  | dialling (call : Nat) (target : Endpoint)
  | prompting
  /-- The next line is waited for. -/
  | ready
  /-- A request has passed the gate. -/
  | sending (call : Nat)
  | retracting (call : Nat)
  /-- A connection was taken away, and its loop has to end; behind the last line it is the last one. -/
  | leaving (id : Nat) (last : Bool)
  /-- The address of the other end was asked for, and the state is next. -/
  | inquiring (peer : Option Endpoint)
  /-- There is no connection any more, and the session is given up next. -/
  | parting
  /-- The printer has to end. -/
  | ending
  | done
  deriving DecidableEq, Repr

/-- The shell has read its last line. -/
def Stage.quits : Stage → Bool
  | leaving _ last => last
  | parting | ending | done => true
  | _ => false

/-- What is printed at once. -/
inductive Printed where
  | said (text : String)
  | event (event : Event)
  deriving DecidableEq, Repr

def Printed.text : Printed → String
  | said text => text
  | event e => shown e.line

inductive Tick where
  | task
  | printer
  | answer (call : Nat) (answer : Answer)
  | wait (span : Nat)
  | receive (id : Nat)
  | peer (id : Nat) (act : Act)
  deriving DecidableEq, Repr

structure Program where
  config : ClientConfig
  client : Client
  stage : Stage := .starting
  /-- The lines still to be read. -/
  input : List String
  /-- The events that the printer has still to show. -/
  queue : List Event := []

namespace Program

/-- The program before its first step. -/
def ofConfig (config : ClientConfig) (input : List String) : Program :=
  { config, client := { config := config.session }, input }

/-- The step of the client by which the shell goes on. -/
def taskStep? (p : Program) : Option Step :=
  match p.stage with
  | .starting => some (.connect (endpoint p.config none none))
  | .dialling call _ => some (.finish call)
  | .ready =>
    match p.input with
    | [] => some .disconnect
    | line :: _ =>
      match Instruction.parse line with
      | .error _ => none
      | .ok i => i.call? p.config
  | .sending call => some (.write call)
  | .retracting call => some (.retract call)
  | .leaving id _ => if id ∈ p.client.closing then some (.close id) else none
  | .parting => some .drop
  | .prompting | .inquiring _ | .ending | .done => none

/-- The step of the client in a tick. -/
def clientStep? (p : Program) : Tick → Option Step
  | .task => p.taskStep?
  | .printer => none
  | .answer call answer => some (.answer call answer)
  | .wait span => some (.wait span)
  | .receive id => some (.receive id)
  | .peer id act => some (.peer id act)

/-- The client after a tick, and what it told. -/
def act (p : Program) (t : Tick) : Client × List Occurrence :=
  match p.clientStep? t with
  | some s => p.client.step s
  | none => (p.client, [])

/-- A call of `connect` has started, or was turned down. -/
def dialled (target : Endpoint) (told : List Occurrence) : Stage × List Printed :=
  match told with
  | [.started call] => (.dialling call target, [])
  | _ => (.prompting, [.said (dialReport target told)])

/-- A request has passed the gate, or was turned down. -/
def requested (told : List Occurrence) : Stage × List Printed :=
  match told with
  | [.noted .., .started call] => (.sending call, [])
  | _ => (.prompting, [.said (complaint told)])

/-- A disconnect is over. -/
def departed (last : Bool) : Stage × List Printed :=
  if last then (.parting, []) else (.prompting, [.said "Disconnected.\n"])

/-- A disconnect has taken a connection away, or there was none. -/
def detached (last : Bool) (told : List Occurrence) : Stage × List Printed :=
  match told with
  | [.disconnected (some id)] => (.leaving id last, [])
  | _ => departed last

/-- What a line leads to, once the client has told this. -/
def obeyed (p : Program) (told : List Occurrence) : Instruction → Stage × List Printed
  | .connect host port => dialled (endpoint p.config host port) told
  | .disconnect => detached false told
  | .quit => detached true told
  | .status => (.inquiring (p.client.session.link.map (·.peer)), [])
  | .help => (.prompting, [.said (helpText ++ "\n")])
  | .empty => (.prompting, [])
  | .login .. | .whisper .. | .join .. | .shout .. => requested told

/-- Every receive loop has ended. -/
def quiet (p : Program) : Bool := p.client.connections.all (·.phase = .ended)

/-- The next stage of the shell, and what it prints on the way, once the client has told this. -/
def resume (p : Program) (told : List Occurrence) : Stage × List Printed :=
  match p.stage with
  | .starting =>
    let (stage, out) := dialled (endpoint p.config none none) told
    (stage, .said (greeting ++ "\n") :: out)
  | .dialling _ target =>
    match told with
    | [] => (p.stage, [])
    | _ => (.prompting, [.said (dialReport target told)])
  | .prompting => (.ready, [.said prompt])
  | .ready =>
    match p.input with
    | [] => detached true told
    | line :: _ =>
      match Instruction.parse line with
      | .error refusal => (.ready, [.said (shown refusal.message)])
      | .ok i => p.obeyed told i
  | .sending call =>
    match told with
    | [] => (.retracting call, [])
    | _ => (.prompting, [.said (complaint told)])
  | .retracting _ => (.prompting, [.said (complaint told)])
  | .leaving id last =>
    if id ∈ p.client.closing then (p.stage, [])
    else if p.client.connections[id]?.all (·.phase = .ended) then departed last
    else (p.stage, [])
  | .inquiring peer => (.prompting, [.said (statusReport p.client.session.state peer)])
  | .parting => (.ending, [])
  | .ending => if p.quiet && p.queue.isEmpty then (.done, []) else (.ending, [])
  | .done => (.done, [])

/-- One step: what is left, what the client told, and what is printed. -/
def step (p : Program) (t : Tick) : Program × List Occurrence × List Printed :=
  let (client, told) := p.act t
  let queue := p.queue ++ told.filterMap Occurrence.event?
  match t with
  | .task =>
    let (stage, out) := p.resume told
    ({ p with client, stage, queue, input := if p.stage = .ready then p.input.tail else p.input }, told, out)
  | .printer =>
    match p.queue with
    | [] => (p, [], [])
    | e :: rest => ({ p with queue := rest }, [], [.event e])
  | _ => ({ p with client, queue }, told, [])

def run (p : Program) : List Tick → Program × List Occurrence × List Printed
  | [] => (p, [], [])
  | t :: rest =>
    let (p, now, out) := p.step t
    let (p, later, more) := p.run rest
    (p, now ++ later, out ++ more)

end Program
end Shell
end ChatClient
