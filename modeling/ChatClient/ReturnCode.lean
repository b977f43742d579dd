/-!
# ReturnCode — what an acknowledgement says

A signed 16-bit number.  One table serves every command: `0` is success, `1` to `4` name what failed, and any other
number is reported as it is.
-/
namespace ChatClient

structure ReturnCode where
  value : Int16
  deriving DecidableEq, Repr

namespace ReturnCode

/-- Only zero is success. -/
def isSuccess (c : ReturnCode) : Bool := c.value == 0

/-- The table's text for the code, if it has one. -/
def text? (c : ReturnCode) : Option String :=
  match c.value.toInt with
  | 0 => some "Action successful"
  | 1 => some "Failed to login"
  | 2 => some "Failed to join room"
  | 3 => some "Failed to whisper"
  | 4 => some "Failed to shout"
  | _ => none

def text (c : ReturnCode) : String := c.text?.getD s!"Unknown return code {c.value.toInt}"

end ReturnCode
end ChatClient
