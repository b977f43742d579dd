/-!
# Writer — values as JSON text

Written without white space.  A string is put between quotes; a quote, a backslash and the control characters are escaped,
by a letter where there is one and else by number, and every other character stands for itself.
-/
namespace ChatClient
namespace Json

def hexChar (n : Nat) : Char := if n < 10 then Char.ofNat ('0'.toNat + n) else Char.ofNat ('a'.toNat + (n - 10))

/-- A character inside a string. -/
def writeChar (c : Char) : List Char :=
  if c = '"' then ['\\', '"']
  else if c = '\\' then ['\\', '\\']
  else if c = '\x08' then ['\\', 'b']
  else if c = '\x0c' then ['\\', 'f']
  else if c = '\n' then ['\\', 'n']
  else if c = '\r' then ['\\', 'r']
  else if c = '\t' then ['\\', 't']
  else if c < ' ' then ['\\', 'u', '0', '0', hexChar (c.toNat / 16), hexChar (c.toNat % 16)]
  else [c]

def writeString (s : String) : List Char := '"' :: s.toList.flatMap writeChar ++ ['"']

def writeNatural (n : Nat) : List Char := Nat.toDigits 10 n

def writeMember (name : String) (value : List Char) : List Char := writeString name ++ ':' :: value

/-- The members of an object behind the first. -/
def writeMembers : List (String × List Char) → List Char
  | [] => []
  | (name, value) :: rest => ',' :: writeMember name value ++ writeMembers rest

/-- An object with these members. -/
def writeObject : List (String × List Char) → List Char
  | [] => ['\x7b', '\x7d']
  | (name, value) :: rest => '\x7b' :: writeMember name value ++ writeMembers rest ++ ['\x7d']

end Json
end ChatClient
