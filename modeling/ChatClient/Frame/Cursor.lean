import ChatClient.Frame.Stream
/-!
# Cursor — frames found and read by position

In memory, octets are reached by their positions, a front is split off by its length, and a position is a word of 64 bits.
An octet that is not there, a front longer than the buffer and a position that outgrows its word each stop the program.
This module does what `Frame.extent`, the readers and `Inbound.next` do, step by step in this way: a computation that is
`Checked` gives a result, is refused with an error, or stops (`none`).
- `Frame.seek` walks from one declared length to the next, to the end of the first frame.
- `Frame.fetchText` and its like take the parts of a frame off its front.
- `Cursor.call` is one call on a buffer; `Cursor.drainWithin` makes one call after the other until one finds no frame.
-/
namespace ChatClient
namespace Frame

/-- A computation that gives a result, is refused, or stops the program. -/
abbrev Checked (α : Type) := ExceptT FrameError Option α

/-- What is reached for; where there is nothing, the program stops. -/
def reach {α : Type} (x : Option α) : Checked α := ExceptT.lift x

/-- The number of positions that a word can tell apart. -/
def positions : Nat := 18446744073709551616

/-- The position so many octets further on. -/
def further (i n : Nat) : Checked Nat := reach (if i + n < positions then some (i + n) else none)

/-- A front of so many octets, and what is behind it. -/
def split? (n : Nat) (b : Bytes) : Option (Bytes × Bytes) := if n ≤ b.length then some (b.take n, b.drop n) else none

def word16At (b : Bytes) (i : Nat) : Checked Nat := do
  return Bytes.ofWord16 (← reach b[i]?) (← reach b[i + 1]?)

def word32At (b : Bytes) (i : Nat) : Checked Nat := do
  return Bytes.ofWord32 (← reach b[i]?) (← reach b[i + 1]?) (← reach b[i + 2]?) (← reach b[i + 3]?)

/-! ## Where the first frame ends -/

/-- The position behind so many texts, the first of which starts at position `i`; none until all of them have arrived. -/
def seekTexts (o : Opcode) (limit : Nat) (b : Bytes) : Nat → Nat → Checked (Option Nat)
  | 0, i => return some i
  | count + 1, i => do
    let start ← further i 4
    if b.length < start then return none
    else
      let declared ← word32At b i
      if limit < declared then throw (.malformed (.overLimit o declared limit))
      else
        let size ← further 4 declared
        let next ← further i size
        if b.length < next then return none else seekTexts o limit b count next

/-- The position behind the first frame; none until all of it has arrived. -/
def seek (layout : Opcode → Except FrameError Layout) (limit : Nat) (b : Bytes) : Checked (Option Nat) :=
  if b.length < 2 then return none
  else do
    let value ← word16At b 0
    match Opcode.ofValue? value with
    | none => throw (.unknownOpcode value)
    | some o =>
      match layout o with
      | .error e => throw e
      | .ok .code => return if b.length < 4 then none else some 4
      | .ok (.texts count) => seekTexts o limit b count 2

/-! ## Parts of a frame -/

/-- Something that takes octets off the front of a frame, and reaches for no others. -/
abbrev Fetcher (α : Type) := StateT Bytes Checked α

def fetch (n : Nat) : Fetcher Bytes := fun b => reach (split? n b)

def fetchWord16 : Fetcher Nat := do word16At (← fetch 2) 0

def fetchWord32 : Fetcher Nat := do word32At (← fetch 4) 0

def fetchOpcode : Fetcher Opcode := do
  let b ← get
  if b.length < 2 then throw (.malformed (.shortHeader b.length))
  else
    let value ← fetchWord16
    match Opcode.ofValue? value with
    | some o => return o
    | none => throw (.unknownOpcode value)

def fetchCode : Fetcher ReturnCode := do
  let b ← get
  if b.length < 2 then throw (.malformed .missingCode) else return ⟨(UInt16.ofNat (← fetchWord16)).toInt16⟩

/-- Fetches the text called `field`. -/
def fetchText (field : String) : Fetcher String := do
  let b ← get
  if b.length < 4 then throw (.malformed (.missingLength field))
  else
    let declared ← fetchWord32
    let rest ← get
    if rest.length < declared then throw (.malformed (.shortField field declared rest.length))
    else
      match Utf8.decode (← fetch declared) with
      | .ok s => return s
      | .error fault => throw (.malformed (.notText field fault))

/-- Fetches a whole frame: its opcode, then the body this opcode has, then nothing. -/
def fetchWhole {α : Type} (body : Opcode → Fetcher α) (octets : Bytes) : Checked α := do
  let (o, rest) ← fetchOpcode octets
  let (message, rest) ← body o rest
  if rest.isEmpty then return message else throw (.malformed (.trailing rest.length o))

end Frame

/-- The rest of a request behind its opcode. -/
def Request.fetchBody : Opcode → Frame.Fetcher Request
  | .command .login => return .login (← Frame.fetchText "username") (← Frame.fetchText "password")
  | .command .whisper => return .whisper (← Frame.fetchText "target") (← Frame.fetchText "message")
  | .command .join => return .join (← Frame.fetchText "room")
  | .command .shout => return .shout (← Frame.fetchText "message")
  | .delivery => throw (.malformed (.notRequest .delivery))

/-- The rest of a response behind its opcode. -/
def Response.fetchBody : Opcode → Frame.Fetcher Response
  | .command c => return .ack c (← Frame.fetchCode)
  | .delivery => return .delivery (← Frame.fetchText "sender") (← Frame.fetchText "message")

/-- One end of a connection, and how it fetches the message that a whole frame is. -/
structure Cursor (α : Type) extends Inbound α where
  fetch : Bytes → Frame.Checked α

namespace Cursor

/-- What a client receives, by position. -/
def responses (limit : Nat) : Cursor Response :=
  { Inbound.responses limit with fetch := Frame.fetchWhole Response.fetchBody }

/-- What a server receives, by position, whatever its limit. -/
def requests (limit : Nat) : Cursor Request :=
  { Inbound.requests with limit, fetch := Frame.fetchWhole Request.fetchBody }

/-- The server's own limit is the default. -/
example : (requests Inbound.defaultLimit).toInbound = Inbound.requests := rfl

variable {α : Type}

def seek (g : Cursor α) (b : Bytes) : Frame.Checked (Option Nat) := Frame.seek g.layout g.limit b

/-- One call on a buffer: what it returns, nothing while the first frame is incomplete, and the buffer behind it.  A frame
is split off the buffer before it is read; where its end cannot be told, the buffer is cleared. -/
def call (g : Cursor α) (b : Bytes) : Option (Except FrameError (Option α) × Bytes) := do
  match ← (g.seek b).run with
  | .error e => return (.error e, [])
  | .ok none => return (.ok none, b)
  | .ok (some n) =>
    let (frame, rest) ← Frame.split? n b
    return (some <$> (← (g.fetch frame).run), rest)

/-- At most so many calls, up to the first that finds no frame: what they return, in order, and the buffer behind them. -/
def drainWithin (g : Cursor α) : Nat → Bytes → Option (List (Except FrameError (Option α)) × Bytes)
  | 0, b => return ([], b)
  | calls + 1, b => do
    match ← g.call b with
    | (.ok none, b) => return ([.ok none], b)
    | (out, b) =>
      let (outs, b) ← g.drainWithin calls b
      return (out :: outs, b)

end Cursor
end ChatClient
