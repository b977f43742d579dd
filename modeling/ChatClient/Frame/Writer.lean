import ChatClient.Frame.Error
import ChatClient.Request
import ChatClient.Response
/-!
# Writer — messages as frames

A frame is its opcode and then, without padding, either a return code or texts, each behind its length in octets:
- a request is its opcode and its fields in order;
- an acknowledgement is its opcode and its code;
- a delivery is its opcode, the sender and the message.

A request with a text over its limit is refused as a whole, on account of the first such field (`Request.check`).  A
response has no limits of its own: its texts only have to have a length that the prefix can state.
-/
namespace ChatClient
namespace Frame

def opcode (o : Opcode) : Bytes := Bytes.word16 o.value

def code (c : ReturnCode) : Bytes := Bytes.word16 c.value.toUInt16.toNat

/-- A text on the wire: its length, then its octets. -/
def text (s : String) : Bytes := Bytes.word32 (Utf8.size s) ++ Utf8.encode s

/-- The first of these fields that is over its limit is refused. -/
def checkFields : List Field → Except FrameError Unit
  | [] => .ok ()
  | f :: fs =>
    if f.limit < Utf8.size f.value then .error (.fieldTooLong f.name (Utf8.size f.value) f.limit) else checkFields fs

end Frame

namespace Request

/-- Every text of the request is within its limit. -/
def check (r : Request) : Except FrameError Unit := Frame.checkFields r.fields

/-- The frame of a request, whatever the lengths of its texts. -/
def frame (r : Request) : Bytes := Frame.opcode r.opcode ++ r.fields.flatMap (fun f => Frame.text f.value)

/-- The frame of a request whose texts are within their limits. -/
def encode (r : Request) : Except FrameError Bytes := do
  r.check
  return r.frame

end Request

namespace Response

/-- The frame of a response, whatever the lengths of its texts. -/
def frame : Response → Bytes
  | ack c code => Frame.opcode (.command c) ++ Frame.code code
  | delivery sender message => Frame.opcode .delivery ++ Frame.text sender ++ Frame.text message

/-- The frame of a response whose texts have a length that a prefix can state. -/
def encode (r : Response) : Except FrameError Bytes := do
  match r with
  | ack .. => pure ()
  | delivery sender message =>
    Frame.checkFields [⟨"sender", sender, Bytes.maxLength⟩, ⟨"message", message, Bytes.maxLength⟩]
  return r.frame

end Response
end ChatClient
