import ChatClient.Frame.Error
import ChatClient.Network.Fault
import ChatClient.ReturnCode
/-!
# Event — what a session tells its observer

Events carry what the server said or what happened to the connection; `Event.line` is how the shell shows one.
-/
namespace ChatClient

/-- Why a connection ended without being asked to: the server closed it, or reading from it failed. -/
inductive Loss where
  | closed
  | broken (fault : Network.Fault)
  deriving DecidableEq, Repr

def Loss.message : Loss → String
  | closed => "server closed the connection"
  | broken fault => (Network.Error.receiveFailed fault).message

/-- What a session reports.  After a rejected login and after a frame that could not be read the connection stays; a lost
connection is one that ended without being asked to. -/
inductive Event where
  | authenticated (message : String)
  | loginFailed (code : ReturnCode) (message : String)
  | commandResult (command : Command) (code : ReturnCode) (message : String)
  | incomingWhisper (sender message : String)
  | frameDiscarded (reason : String)
  | connectionLost (reason : String)
  deriving DecidableEq, Repr

def Event.line : Event → String
  | authenticated message => message
  | loginFailed _ message => message
  | commandResult command _ message => s!"{command.name}: {message}"
  | incomingWhisper sender message => s!"[From {sender}] : {message}"
  | frameDiscarded reason => s!"(ignored a bad message from the server: {reason})"
  | connectionLost reason => s!"Connection lost: {reason}"

end ChatClient
