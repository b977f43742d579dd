import ChatClient.Frame.Writer
/-!
# Buffer — messages put onto the end of a buffer

A connection's writer keeps one buffer and puts each message behind the last, part by part.  Everything is checked before
the first part is put, so a message that is refused leaves the buffer as it was.
-/
namespace ChatClient
namespace Frame

/-- Puts each text behind its length. -/
def putFields (buffer : Bytes) (fs : List Field) : Bytes :=
  fs.foldl (fun buffer f => buffer ++ Bytes.word32 (Utf8.size f.value) ++ Utf8.encode f.value) buffer

/-- Puts one message after the other, a refused one or not. -/
def putAll {α : Type} (put : Bytes → α → Except FrameError Unit × Bytes) (buffer : Bytes) :
    List α → List (Except FrameError Unit) × Bytes
  | [] => ([], buffer)
  | m :: ms =>
    let (result, buffer) := put buffer m
    let (results, buffer) := putAll put buffer ms
    (result :: results, buffer)

end Frame

def Request.put (buffer : Bytes) (r : Request) : Except FrameError Unit × Bytes :=
  match r.check with
  | .error e => (.error e, buffer)
  | .ok () => (.ok (), Frame.putFields (buffer ++ Bytes.word16 r.opcode.value) r.fields)

def Response.put (buffer : Bytes) : Response → Except FrameError Unit × Bytes
  | ack c code => (.ok (), buffer ++ Bytes.word16 (Opcode.command c).value ++ Bytes.word16 code.value.toUInt16.toNat)
  | delivery sender message =>
    let fields : List Field := [⟨"sender", sender, Bytes.maxLength⟩, ⟨"message", message, Bytes.maxLength⟩]
    match Frame.checkFields fields with
    | .error e => (.error e, buffer)
    | .ok () => (.ok (), Frame.putFields (buffer ++ Bytes.word16 Opcode.delivery.value) fields)

end ChatClient
