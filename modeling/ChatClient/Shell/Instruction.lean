import ChatClient.Text.Blank
/-!
# Instruction — what a line typed into the shell asks for

A line is a keyword and what it needs, with any white space around and between.  `whisper` and `shout` take the rest of
the line as their message, with the white space inside it kept; the other keywords take words.
- `connect`, with nothing, a host, or a host and a port;
- `login` with two words, `join` with one;
- `whisper` with a word and a message, `shout` with a message;
- `disconnect`, `status`, `help` (or `?`) and `quit` (or `exit`), whatever follows.
A blank line asks for nothing.
-/
namespace ChatClient
namespace Shell

/-- A line, understood. -/
inductive Instruction where
  /-- Open a connection; what is left out comes from the configuration. -/
  | connect (host : Option String) (port : Option UInt16)
  | login (username password : String)
  | whisper (target message : String)
  | join (room : String)
  | shout (message : String)
  | disconnect
  | status
  | help
  | quit
  | empty
  deriving DecidableEq, Repr

/-- Why a line is not understood. -/
inductive Refusal where
  | usage (form : String)
  | invalidPort (word : String)
  | unknown (word : String)
  deriving DecidableEq, Repr

def Refusal.message : Refusal → String
  | usage form => s!"usage: {form}"
  | invalidPort word => s!"invalid port: {word}"
  | unknown word => s!"unknown command: {word} (try help)"

/-- What the shell knows, one line a keyword. -/
def helpText : String :=
  "Commands:\n" ++
  "  connect [host] [port]     open a connection\n" ++
  "  login <user> <password>   log in\n" ++
  "  whisper <user> <message>  send a private message\n" ++
  "  join <room>               enter a room\n" ++
  "  shout <message>           message everyone in the room\n" ++
  "  disconnect                close the connection\n" ++
  "  status                    show the session state\n" ++
  "  help                      show this list\n" ++
  "  quit                      disconnect and exit"

/-- The number that decimal digits spell. -/
def number (digits : List Char) : Nat := digits.foldl (fun n c => n * 10 + (c.toNat - '0'.toNat)) 0

/-- A port: decimal digits, at most one plus sign in front, below 65536. -/
def port? (word : List Char) : Option UInt16 :=
  let digits := match word with
    | '+' :: digits => digits
    | digits => digits
  if !digits.isEmpty && digits.all Char.isDigit && number digits < 65536 then some (UInt16.ofNat (number digits))
  else none

namespace Instruction

open Blank (trim trimStart trimEnd cut words)

/-- The instruction of a keyword and the text behind it. -/
def ofKeyword (word rest : List Char) : Except Refusal Instruction :=
  match String.ofList word with
  | "" => .ok .empty
  | "connect" =>
    match words rest with
    | [] => .ok (.connect none none)
    | [host] => .ok (.connect (some (String.ofList host)) none)
    | [host, port] =>
      match port? port with
      | some p => .ok (.connect (some (String.ofList host)) (some p))
      | none => .error (.invalidPort (String.ofList port))
    | _ => .error (.usage "connect [host] [port]")
  | "login" =>
    match words rest with
    | [username, password] => .ok (.login (String.ofList username) (String.ofList password))
    | _ => .error (.usage "login <user> <password>")
  | "whisper" =>
    let (target, message) := cut rest
    if (trim message).isEmpty then .error (.usage "whisper <user> <message>")
    else .ok (.whisper (String.ofList target) (String.ofList (trim message)))
  | "join" =>
    match words rest with
    | [room] => .ok (.join (String.ofList room))
    | _ => .error (.usage "join <room>")
  | "shout" =>
    if rest.isEmpty then .error (.usage "shout <message>") else .ok (.shout (String.ofList (trimEnd rest)))
  | "disconnect" => .ok .disconnect
  | "status" => .ok .status
  | "help" | "?" => .ok .help
  | "quit" | "exit" => .ok .quit
  | other => .error (.unknown other)

def parse (line : String) : Except Refusal Instruction :=
  let (word, rest) := cut (trim line.toList)
  ofKeyword word (trimStart rest)

end Instruction
end Shell
end ChatClient
