/-!
# Fault — how the network fails

A fault is what the system reports when a dial, a read or a write goes wrong.  An error is a
fault together with what was being done.
-/
namespace ChatClient
namespace Network

structure Endpoint where
  host : String
  port : UInt16
  deriving DecidableEq, Repr

def Endpoint.text (e : Endpoint) : String := s!"{e.host}:{e.port.toNat}"

/-- What the system reports: a write to an end that is gone, no route to an address, a connection that the other end cut,
an address where nobody listens, or anything else. -/
inductive Fault where
  | brokenPipe
  | unreachable
  | reset
  | refused
  | other (text : String)
  deriving DecidableEq, Repr

/-- A fault in words: the system's text and number for it. -/
def Fault.message : Fault → String
  | brokenPipe => "Broken pipe (os error 32)"
  | unreachable => "Network is unreachable (os error 101)"
  | reset => "Connection reset by peer (os error 104)"
  | refused => "Connection refused (os error 111)"
  | other text => text

/-- What went wrong with a connection. -/
inductive Error where
  | connectFailed (target : Endpoint) (fault : Fault)
  | connectTimedOut (target : Endpoint)
  /-- A disconnect came before the connection did. -/
  | abandoned
  | sendFailed (fault : Fault)
  | receiveFailed (fault : Fault)
  deriving DecidableEq, Repr

def Error.message : Error → String
  | connectFailed target fault => s!"connect to {target.text} failed: {fault.message}"
  | connectTimedOut target => s!"connect to {target.text} timed out"
  | abandoned => "connection closed: connect cancelled by disconnect"
  | sendFailed fault => s!"send failed: {fault.message}"
  | receiveFailed fault => s!"receive failed: {fault.message}"

end Network
end ChatClient
