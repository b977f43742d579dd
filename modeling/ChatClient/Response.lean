import ChatClient.Opcode
import ChatClient.ReturnCode
/-!
# Response — what a server sends

An acknowledgement answers a request and says nothing but the command and a return code.  A delivery answers nothing: it
hands on another user's message.
-/
namespace ChatClient

inductive Response where
  | ack (command : Command) (code : ReturnCode)
  | delivery (sender message : String)
  deriving DecidableEq, Repr

namespace Response

def opcode : Response → Opcode
  | ack c _ => .command c
  | delivery .. => .delivery

/-- The command an acknowledgement answers. -/
def command? : Response → Option Command
  | ack c _ => some c
  | delivery .. => none

end Response
end ChatClient
