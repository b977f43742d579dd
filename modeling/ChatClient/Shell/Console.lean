import ChatClient.Client.Caller
import ChatClient.Config.Load
import ChatClient.Shell.Instruction
/-!
# Console — the shell, line by line

The shell opens a connection when it starts, then acts on one line after the other until `quit` or the end of its input;
either way it disconnects and gives its session up, and what is still to be told is printed before it ends.
- A line that is not understood, and every event, is shown over the prompt, which is printed again behind it (`shown`).
- The outcome of an instruction is printed plainly, and the prompt behind it; there is none behind the last line.

Between two lines the other end acts and the receive loops go on (`background`).
-/
namespace ChatClient
namespace Shell

def prompt : String := "$ "

def greeting : String := "Type help or ? to list commands."

/-- A line printed over the prompt. -/
def shown (line : String) : String := s!"\r{line}\n{prompt}"

/-- The events among what happened, each shown in its turn. -/
def printed (happened : List Occurrence) : String :=
  String.join ((happened.filterMap Occurrence.event?).map fun e => shown e.line)

/-- The address that a connect is for: what the line leaves out is taken from the configuration. -/
def endpoint (config : ClientConfig) (host : Option String) (port : Option UInt16) : Network.Endpoint :=
  ⟨host.getD config.host, port.getD config.port⟩

/-- What is said of a call of `connect` that is over. -/
def dialReport (target : Network.Endpoint) (happened : List Occurrence) : String :=
  match happened.findSome? Occurrence.result? with
  | some (.error e) => s!"Error connecting to server: {e.message}\n"
  | _ => s!"Successfully connected to {target.text}.\n"

/-- What a request or a disconnect prints: nothing, or why it failed. -/
def complaint (happened : List Occurrence) : String :=
  match happened.findSome? Occurrence.result? with
  | some (.error e) => e.message ++ "\n"
  | _ => ""

/-- What is said of the state, with the address of the other end if there is one. -/
def statusReport (state : Session.State) : Option Network.Endpoint → String
  | some peer => s!"{state.name} to {peer.text}\n"
  | none => s!"{state.name}\n"

structure Console where
  config : ClientConfig
  client : Client
  running : Bool := true

namespace Console

def ofConfig (config : ClientConfig) : Console := { config, client := { config := config.session } }

/-- The console after this, and what its events print. -/
def after (s : Console) (r : Client × List Occurrence) : Console × String := ({ s with client := r.1 }, printed r.2)

def target (s : Console) (host : Option String) (port : Option UInt16) : Network.Endpoint :=
  endpoint s.config host port

def connect (s : Console) (network : Network) (target : Network.Endpoint) : Console × String :=
  let r := s.client.connect network target
  let (s, events) := s.after r
  (s, events ++ dialReport target r.2)

def request (s : Console) (r : Request) : Console × String :=
  let r := s.client.request r
  let (s, events) := s.after r
  (s, events ++ complaint r.2)

def status (s : Console) : String := statusReport s.client.session.state (s.client.session.link.map (·.peer))

/-- The shell's end: it disconnects, gives the session up, and prints what the loops still report. -/
def finish (s : Console) : Console × String :=
  let (client, left) := s.client.leave
  let (client, last) := (client.step .drop).1.settle
  ({ s with client, running := false }, printed (left ++ last))

/-- The start: a greeting, a first connect, a prompt. -/
def start (config : ClientConfig) (network : Network) : Console × String :=
  let s := ofConfig config
  let (s, out) := s.connect network (s.target none none)
  (s, greeting ++ "\n" ++ out ++ prompt)

/-- What an instruction other than `quit` does and prints. -/
def obey (s : Console) (network : Network) : Instruction → Console × String
  | .connect host port => s.connect network (s.target host port)
  | .login username password => s.request (.login username password)
  | .whisper target message => s.request (.whisper target message)
  | .join room => s.request (.join room)
  | .shout message => s.request (.shout message)
  | .disconnect =>
    let (s, events) := s.after s.client.leave
    (s, events ++ "Disconnected.\n")
  | .status => (s, s.status)
  | .help => (s, helpText ++ "\n")
  | .quit | .empty => (s, "")

/-- One line; a shell that has ended takes none. -/
def enter (s : Console) (network : Network) (line : String) : Console × String :=
  if s.running then
    match Instruction.parse line with
    | .error refusal => (s, shown refusal.message)
    | .ok .quit => s.finish
    | .ok i =>
      let (s, out) := s.obey network i
      (s, out ++ prompt)
  else (s, "")

/-- The address that a line makes the shell dial, if it does. -/
def dials? (s : Console) (line : String) : Option Network.Endpoint :=
  match Instruction.parse line with
  | .ok (.connect host port) =>
    if s.running && s.client.session.state = .disconnected then some (s.target host port) else none
  | _ => none

/-- What happens without the user: a step of a loop or of the other end. -/
def background (s : Console) (step : Step) : Console × String := s.after (s.client.step step)

/-- Everything in flight settles, and what is underway arrives. -/
def settle (s : Console) : Console × String :=
  let (client, happened) := s.client.settle
  s.after (client.deliver, happened)

/-- The other end of the connection in use acts, if it still can. -/
def meet (s : Console) (act : Network.Act) : Option (Console × String) :=
  s.client.live?.map fun id => s.background (.peer id act)

def endInput (s : Console) : Console × String := if s.running then s.finish else (s, "")

end Console

/-- What the shell says when it has no configuration. -/
def failure (e : LoadError) : String := s!"murmur-shell: {e.message}\n"

/-- The configuration that the shell's argument names, if it has one. -/
def configure (files : FileTree) : Option String → Except LoadError ClientConfig
  | none => .ok {}
  | some path => ClientConfig.load files path

end Shell
end ChatClient
