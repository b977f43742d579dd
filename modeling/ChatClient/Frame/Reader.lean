import ChatClient.Frame.Error
import ChatClient.Request
import ChatClient.Response
/-!
# Reader — frames as messages

The whole of the octets has to be one frame: too few are refused at the part that is missing, and octets left over are
refused by their number.  The parts are read in order, so the first fault is the one reported.
-/
namespace ChatClient
namespace Frame

/-- Something that takes octets off the front of a frame. -/
abbrev Reader (α : Type) := StateT Bytes (Except FrameError) α

def readOpcode : Reader Opcode
  | a :: b :: rest =>
    match Opcode.ofValue? (Bytes.ofWord16 a b) with
    | some o => .ok (o, rest)
    | none => .error (.unknownOpcode (Bytes.ofWord16 a b))
  | short => .error (.malformed (.shortHeader short.length))

def readCode : Reader ReturnCode
  | a :: b :: rest => .ok (⟨(UInt16.ofNat (Bytes.ofWord16 a b)).toInt16⟩, rest)
  | _ => .error (.malformed .missingCode)

/-- Reads the text called `field`. -/
def readText (field : String) : Reader String
  | a :: b :: c :: d :: rest =>
    let declared := Bytes.ofWord32 a b c d
    if rest.length < declared then .error (.malformed (.shortField field declared rest.length))
    else
      match Utf8.decode (rest.take declared) with
      | .ok s => .ok (s, rest.drop declared)
      | .error fault => .error (.malformed (.notText field fault))
  | _ => .error (.malformed (.missingLength field))

/-- Reads a whole frame: its opcode, then the body this opcode has, then nothing. -/
def readWhole {α : Type} (body : Opcode → Reader α) (octets : Bytes) : Except FrameError α := do
  let (o, rest) ← readOpcode octets
  let (message, rest) ← body o rest
  if rest.isEmpty then return message
  else throw (.malformed (.trailing rest.length o))

end Frame

namespace Request

/-- The rest of a request behind its opcode. -/
def readBody : Opcode → Frame.Reader Request
  | .command .login => return .login (← Frame.readText "username") (← Frame.readText "password")
  | .command .whisper => return .whisper (← Frame.readText "target") (← Frame.readText "message")
  | .command .join => return .join (← Frame.readText "room")
  | .command .shout => return .shout (← Frame.readText "message")
  | .delivery => throw (.malformed (.notRequest .delivery))

def decode (octets : Bytes) : Except FrameError Request := Frame.readWhole readBody octets

end Request

namespace Response

/-- The rest of a response behind its opcode. -/
def readBody : Opcode → Frame.Reader Response
  | .command c => return .ack c (← Frame.readCode)
  | .delivery => return .delivery (← Frame.readText "sender") (← Frame.readText "message")

def decode (octets : Bytes) : Except FrameError Response := Frame.readWhole readBody octets

end Response
end ChatClient
