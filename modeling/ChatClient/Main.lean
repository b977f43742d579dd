import ChatClient.Shell.Console
import Std.Async.DNS
import Std.Async.TCP
import Std.Async.Timer
/-!
# Main — the shell on a terminal and a real network

The program waits for the next line of its input or the next octets of its connection, whichever comes first, hands it to
the console, and prints what the console says.  What the console wrote to its connection is then sent, and its end of the
connection shut when the console has shut it.
-/
namespace ChatClient
namespace Shell

open Std.Async Std.Net

/-- What the program waits for. -/
inductive Signal where
  | line (read : Except IO.Error String)
  | octets (read : Except IO.Error (Option ByteArray))

/-- The system's side of the connection in use: what of it was sent, and the read under way. -/
structure Wire where
  id : Nat
  socket : TCP.Socket.Client
  sent : Nat := 0
  shut : Bool := false
  reading : Task Signal

def readLine (input : IO.FS.Stream) : IO (Task Signal) := do
  return (← IO.asTask input.getLine .dedicated).map .line

def readOctets (socket : TCP.Socket.Client) (limit : Nat) : IO (Task Signal) := do
  let reading : Task (Except IO.Error (Option ByteArray)) ← (socket.recv? (UInt64.ofNat (max limit 1))).toIO
  return reading.map Signal.octets

def address (host : String) (port : UInt16) : IO SocketAddress :=
  match IPv4Addr.ofString host, IPv6Addr.ofString host with
  | some ip, _ => return SocketAddress.v4 ⟨ip, port⟩
  | none, some ip => return SocketAddress.v6 ⟨ip, port⟩
  | none, none => do
    let found : Array IPAddr ← (DNS.getAddrInfo host "" none).block
    match found.toList with
    | .v4 ip :: _ => return SocketAddress.v4 ⟨ip, port⟩
    | .v6 ip :: _ => return SocketAddress.v6 ⟨ip, port⟩
    | [] => throw (IO.userError "no address for the host")

/-- The system's report as a fault. -/
def faultOf (e : IO.Error) : Network.Fault :=
  let text := toString e
  if text.contains "connection refused" then .refused
  else if text.contains "network is unreachable" then .unreachable
  else if text.contains "connection reset" then .reset
  else if text.contains "broken pipe" then .brokenPipe
  else .other text

/-- Dials an address, for no longer than the patience. -/
def dial (target : Network.Endpoint) (patience : Duration) : IO (Option (Except IO.Error TCP.Socket.Client)) := do
  let attempt : IO TCP.Socket.Client := do
    let socket ← TCP.Socket.Client.mk
    (socket.connect (← address target.host target.port)).block
    socket.noDelay
    return socket
  let milliseconds := min (patience.nanoseconds / 1000000) 4000000000
  let sleep : IO Unit := IO.sleep (UInt32.ofNat milliseconds)
  let connecting := (← IO.asTask attempt .dedicated).map some
  let waiting := (← IO.asTask sleep .dedicated).map fun _ => none
  IO.waitAny [connecting, waiting]

def say (text : String) : IO Unit := do
  let out ← IO.getStdout
  out.putStr text
  out.flush

/-- Sends what the console has written, and shuts our side if the console has. -/
def deliver (s : Console) (w : Wire) : IO Wire := do
  match s.client.connections[w.id]? with
  | none => return w
  | some k =>
    try
      if w.sent < k.socket.taken.length then
        (w.socket.send ⟨(k.socket.taken.drop w.sent).toArray⟩).block
      if k.socket.shut && !w.shut then w.socket.shutdown.block
    catch _ => pure ()
    return { w with sent := k.socket.taken.length, shut := k.socket.shut }

/-- A dial for the console, as the network it then meets, and the connection that came of it. -/
def meetNetwork (target : Option Network.Endpoint) (config : SessionConfig) :
    IO (Network × Option TCP.Socket.Client) := do
  match target with
  | none => return (.isolated, none)
  | some target =>
    match ← dial target config.connectTimeout with
    | none => return (fun _ => none, none)
    | some (.ok socket) => return (fun _ => some .accepted, some socket)
    | some (.error e) => return (fun _ => some (.failed (faultOf e)), none)

/-- The wire of the connection in use: the old one, a new one, or none. -/
def rewire (s : Console) (old : Option Wire) (opened : Option TCP.Socket.Client) : IO (Option Wire) := do
  let old ← old.mapM (deliver s)
  match s.client.session.link, opened with
  | some link, some socket =>
    return some { id := link.id, socket, reading := ← readOctets socket s.config.session.readBufferSize.toNat }
  | some _, none => return old
  | none, _ => return none

/-- Octets, the end of the stream or an error arrived. -/
def arrive (s : Console) (read : Except IO.Error (Option ByteArray)) : Console × String :=
  let act := match read with
    | .ok (some octets) => Network.Act.send octets.toList
    | .ok none => .close
    | .error _ => .reset
  match s.meet act with
  | none => (s, "")
  | some (s, first) => let (s, more) := s.settle; (s, first ++ more)

partial def serve (s : Console) (input : IO.FS.Stream) (line : Task Signal) (wire : Option Wire) : IO UInt32 := do
  match ← IO.waitAny (line :: (wire.map (·.reading)).toList) (by simp) with
  | .line (.error e) =>
    IO.eprintln s!"murmur-shell: {e}"
    return 1
  | .line (.ok text) =>
    let (network, opened) ← meetNetwork (s.dials? text) s.config.session
    let (s, out) := if text.isEmpty then s.endInput else s.enter network text
    say out
    let wire ← rewire s wire opened
    if s.running then serve s input (← readLine input) wire else return 0
  | .octets read =>
    let (s, out) := arrive s read
    say out
    let wire ← (← rewire s wire none).mapM fun w => do
      return { w with reading := ← readOctets w.socket s.config.session.readBufferSize.toNat }
    serve s input line wire

/-- The file at a path, as a tree that holds nothing else. -/
def readTree (path : String) : IO FileTree := do
  try
    let octets ← IO.FS.readBinFile path
    return fun _ => .ok octets.toList
  catch e =>
    let fault := match e with
      | .noFileOrDirectory .. => FileFault.missing
      | .inappropriateType .. => .directory
      | e => .other (toString e)
    return fun _ => .error fault

def program (argument : Option String) : IO UInt32 := do
  let files ← match argument with
    | some path => readTree path
    | none => pure Host.bare.tree
  match configure files argument with
  | .error e =>
    IO.eprint (failure e)
    return 1
  | .ok config =>
    let (network, opened) ← meetNetwork (some ⟨config.host, config.port⟩) config.session
    let (s, out) := Console.start config network
    say out
    let input ← IO.getStdin
    serve s input (← readLine input) (← rewire s none opened)

end Shell
end ChatClient

def main (args : List String) : IO UInt32 := ChatClient.Shell.program args.head?
