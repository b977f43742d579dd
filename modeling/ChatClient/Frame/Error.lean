import ChatClient.Opcode
import ChatClient.Text.Utf8
/-!
# Error — why a frame cannot be written or read

Each failure is a cause; `FrameError.message` puts it into words.
-/
namespace ChatClient

/-- What is wrong with octets that should have been a frame.  A field is short when it declares more octets than there are,
and over the limit when it declares more than the reader accepts. -/
inductive Malformation where
  | shortHeader (size : Nat)
  | missingCode
  | missingLength (field : String)
  | shortField (field : String) (declared available : Nat)
  | notText (field : String) (fault : Utf8.Fault)
  | trailing (count : Nat) (opcode : Opcode)
  | notRequest (opcode : Opcode)
  | overLimit (opcode : Opcode) (declared limit : Nat)
  deriving DecidableEq, Repr

/-- Why a frame cannot be written or read; `unfinished` when the stream ended inside it. -/
inductive FrameError where
  | fieldTooLong (field : String) (length limit : Nat)
  | malformed (cause : Malformation)
  | unknownOpcode (value : Nat)
  | unfinished
  deriving DecidableEq, Repr

def Malformation.message : Malformation → String
  | shortHeader size => s!"frame is {size} bytes, opcode needs 2"
  | missingCode => "acknowledgement is missing its return code"
  | missingLength field => s!"{field} is missing its length prefix"
  | shortField field declared available => s!"{field} declares {declared} bytes, {available} available"
  | notText field fault => s!"{field} is not UTF-8: {fault.message}"
  | trailing count opcode => s!"{count} trailing bytes after {opcode.label}"
  | notRequest opcode => s!"{opcode.label} is not a request"
  | overLimit opcode declared limit => s!"{opcode.label} declares a {declared}-byte field, limit is {limit}"

def FrameError.message : FrameError → String
  | fieldTooLong field length limit => s!"{field} is {length} bytes, limit is {limit}"
  | malformed cause => s!"malformed frame: {cause.message}"
  | unknownOpcode value => s!"unknown opcode {value}"
  | unfinished => "codec i/o error: bytes remaining on stream"

end ChatClient
