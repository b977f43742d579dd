import ChatClient.Frame.Error
import ChatClient.Network.Fault
/-!
# Error — why a call on a session fails

The first four are told by the state of the session before anything touches the network.
-/
namespace ChatClient
namespace Session

inductive Error where
  | alreadyConnected
  | notConnected
  | notAuthenticated
  | alreadyAuthenticated
  | connect (cause : Network.Error)
  | frame (cause : FrameError)
  | transport (cause : Network.Error)
  deriving DecidableEq, Repr

def Error.message : Error → String
  | alreadyConnected => "already connected"
  | notConnected => "not connected"
  | notAuthenticated => "not logged in"
  | alreadyAuthenticated => "already logged in"
  | connect cause => s!"could not connect: {cause.message}"
  | frame cause => cause.message
  | transport cause => cause.message

end Session
end ChatClient
