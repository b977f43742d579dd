import ChatClient.Json.Skip
/-!
# Record — values with a type, read as they come

A reader that wants a type finds out at the first character whether the value can have it.  A number, a string or a keyword
of the wrong type is read to its end before it is refused, so a fault inside it is reported first; a bracket of the wrong
type is refused at once.

A record is written either as an object or as an array of its members in order.
- In an array, members may be missing from the end on; a member too many is ill-formed.
- In an object, each member comes at most once, a repeated one being refused at its second name.  What another name does is
  up to the record.
- What is missing keeps the value it had before; at the end the record may still be refused as a whole (`Record.finish`).
-/
namespace ChatClient
namespace Json

/-- What is wrong with the value at the front of a text that should have had another type. -/
def misfit (s : List Char) : Fault :=
  match s with
  | [] => .truncated
  | '[' :: _ => .mismatch
  | '{' :: _ => .mismatch
  | '"' :: r => faultOf (readChars r)
  | '-' :: r => faultOf (readNumber r)
  | 'n' :: r => faultOf (skipWord "ull".toList r)
  | 't' :: r => faultOf (skipWord "rue".toList r)
  | 'f' :: r => faultOf (skipWord "alse".toList r)
  | c :: _ => if c.isDigit then faultOf (readNumber s) else .malformed
where
  /-- The fault of a value that was read for nothing. -/
  faultOf {α : Type} : Except Fault α → Fault
    | .error e => e
    | .ok _ => .mismatch

def readString : Reader String := fun s =>
  match skipGap s with
  | '"' :: r => (fun p => (String.ofList p.1, p.2)) <$> readChars r
  | r => .error (misfit r)

/-- A natural number below `bound`. -/
def readNatural (bound : Nat) : Reader Nat := fun s =>
  match skipGap s with
  | [] => .error .truncated
  | c :: r =>
    if c.isDigit then
      match readNumber (c :: r) with
      | .ok (.natural n, rest) => if n < bound then .ok (n, rest) else .error .mismatch
      | .ok (.other, _) => .error .mismatch
      | .error e => .error e
    else .error (misfit (c :: r))

/-- A member of a record: its name, and how its value changes the record. -/
structure Member (σ : Type) where
  name : String
  read : σ → Reader σ

/-- A record: its members in order, what another name does, what the record is in the end. -/
structure Record (σ α : Type) where
  members : List (Member σ)
  stranger : Reader Unit
  finish : σ → Except Fault α

def readColon : Reader Unit := fun s =>
  match skipGap s with
  | [] => .error .truncated
  | ':' :: r => .ok ((), r)
  | _ => .error .malformed

/-- A member nobody knows is passed over. -/
def ignoreStranger : Reader Unit := do
  readColon
  skipValue

/-- A member nobody knows is refused at its name. -/
def refuseStranger : Reader Unit := throw .mismatch

namespace Record

variable {σ α : Type}

/-- What an element of an array starts with, behind the comma if it is not the first; none where the array ends. -/
def element? (first : Bool) (s : List Char) : Except Fault (Option (List Char)) :=
  match skipGap s with
  | [] => .error .truncated
  | ']' :: _ => .ok none
  | c :: r =>
    if first then .ok (some (c :: r))
    else if c = ',' then
      match skipGap r with
      | [] => .error .truncated
      | ']' :: _ => .error .malformed
      | r => .ok (some r)
    else .error .malformed

def readElements : List (Member σ) → Bool → σ → Reader σ
  | [], _, x => pure x
  | m :: ms, first, x => fun s => do
    match ← element? first s with
    | none => return (x, s)
    | some r =>
      let (x, r) ← m.read x r
      readElements ms false x r

/-- The end of an array that has all its members. -/
def closeArray : Reader Unit := fun s =>
  match skipGap s with
  | [] => .error .truncated
  | ']' :: r => .ok ((), r)
  | _ => .error .malformed

/-- The name of a member, with the comma in front of it if it is not the first; none where the object ends. -/
def name? (first : Bool) (s : List Char) : Except Fault (Option String × List Char) :=
  match skipGap s with
  | [] => .error .truncated
  | '}' :: r => .ok (none, r)
  | c :: r =>
    if first then readName (c :: r)
    else if c = ',' then
      match skipGap r with
      | [] => .error .truncated
      | r => readName r
    else .error .malformed
where
  /-- A name, where nothing else may be. -/
  readName : List Char → Except Fault (Option String × List Char)
    | '"' :: r => (fun p => (some (String.ofList p.1), p.2)) <$> readChars r
    | _ => .error .malformed

/-- The value of the member called `name`, `seen` being the names that came before. -/
def readMember (shape : Record σ α) (seen : List String) (name : String) (x : σ) : Reader σ :=
  match shape.members.find? (·.name == name) with
  | some m => if seen.contains name then throw .mismatch else do readColon; m.read x
  | none => do shape.stranger; return x

/-- The members of an object, up to its end.  Every member takes at least its name. -/
def readMembers (shape : Record σ α) (first : Bool) (seen : List String) (x : σ) (s : List Char) :
    Except Fault (σ × List Char) :=
  match name? first s with
  | .error e => .error e
  | .ok (none, r) => .ok (x, r)
  | .ok (some name, r) =>
    match shape.readMember seen name x r with
    | .error e => .error e
    | .ok (x, r) => if r.length < s.length then shape.readMembers false (name :: seen) x r else .error .malformed
termination_by s.length

/-- The record, its missing members as in `x`. -/
def read (shape : Record σ α) (x : σ) : Reader α := fun s =>
  match skipGap s with
  | '[' :: r => do
    let (x, r) ← readElements shape.members true x r
    let value ← shape.finish x
    let ((), r) ← closeArray r
    return (value, r)
  | '{' :: r => do
    let (x, r) ← shape.readMembers true [] x r
    let value ← shape.finish x
    return (value, r)
  | r => .error (misfit r)

end Record

/-- The value that a whole text is. -/
def readDocument {α : Type} (r : Reader α) (s : List Char) : Except Fault α := do
  let (x, rest) ← r s
  if (skipGap rest).isEmpty then return x else throw .malformed

end Json
end ChatClient
