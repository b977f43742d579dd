import ChatClient.Opcode
/-!
# Request — what a client sends

One request per command.  A request is its command and a short list of named texts, each with a limit on its octets; the
list (`Request.fields`) drives both the check of the limits and the writing of the frame.
-/
namespace ChatClient

/-- The most octets of a user's name, as who logs in and as whom a whisper is for. -/
def maxUsernameLength : Nat := 32

/-- The most octets of a password. -/
def maxPasswordLength : Nat := 32

/-- The most octets of a room's name. -/
def maxRoomLength : Nat := 32

/-- The most octets of a whispered or shouted message. -/
def maxMessageLength : Nat := 256

inductive Request where
  | login (username password : String)
  | whisper (target message : String)
  | join (room : String)
  | shout (message : String)
  deriving DecidableEq, Repr

/-- A text of a request: its name, its value and the most octets it may have. -/
structure Field where
  name : String
  value : String
  limit : Nat
  deriving DecidableEq, Repr

namespace Request

def command : Request → Command
  | login .. => .login
  | whisper .. => .whisper
  | join .. => .join
  | shout .. => .shout

def opcode (r : Request) : Opcode := .command r.command

/-- The texts of a request, in wire order. -/
def fields : Request → List Field
  | login username password => [⟨"username", username, maxUsernameLength⟩, ⟨"password", password, maxPasswordLength⟩]
  | whisper target message => [⟨"target", target, maxUsernameLength⟩, ⟨"message", message, maxMessageLength⟩]
  | join room => [⟨"room", room, maxRoomLength⟩]
  | shout message => [⟨"message", message, maxMessageLength⟩]

end Request
end ChatClient
