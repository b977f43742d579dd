/-!
# Opcode — the tag at the front of every frame

Five opcodes are defined and the set is closed.  Four of them name a *command*, something a client asks for and the
server acknowledges; the fifth, a delivery, is only ever pushed by the server.
-/
namespace ChatClient

/-- What a client can ask the server to do: prove who is speaking, send a private message to one user, enter a named room,
send a message to everyone in the current room. -/
inductive Command where
  | login
  | whisper
  | join
  | shout
  deriving DecidableEq, Repr

namespace Command

def all : List Command := [.login, .whisper, .join, .shout]

def name : Command → String
  | .login => "login"
  | .whisper => "whisper"
  | .join => "join"
  | .shout => "shout"

end Command

/-- The 16-bit tag of a frame: a request of some kind or the acknowledgement of one, or a private message handed on by the
server. -/
inductive Opcode where
  | command (c : Command)
  | delivery
  deriving DecidableEq, Repr

namespace Opcode

/-- Every opcode, in wire order. -/
def all : List Opcode := Command.all.map .command ++ [.delivery]

def value : Opcode → Nat
  | .command .login => 200
  | .command .whisper => 201
  | .command .join => 202
  | .command .shout => 203
  | .delivery => 299

def ofValue? : Nat → Option Opcode
  | 200 => some (.command .login)
  | 201 => some (.command .whisper)
  | 202 => some (.command .join)
  | 203 => some (.command .shout)
  | 299 => some .delivery
  | _ => none

/-- The name of an opcode, without its value. -/
def name : Opcode → String
  | .command .login => "Login"
  | .command .whisper => "Whisper"
  | .command .join => "JoinRoom"
  | .command .shout => "Shout"
  | .delivery => "WhisperDelivery"

/-- An opcode in words: its name and its value. -/
def label (o : Opcode) : String := s!"{o.name}({o.value})"

theorem value_lt (o : Opcode) : o.value < 65536 := by
  rcases o with c | _
  · cases c <;> decide
  · decide

theorem ofValue?_value (o : Opcode) : ofValue? o.value = some o := by
  rcases o with c | _
  · cases c <;> rfl
  · rfl

/-- **The numbering is one to one**: a value has an opcode exactly when it is that opcode's value. -/
theorem ofValue?_eq_some_iff {n : Nat} {o : Opcode} : ofValue? n = some o ↔ n = o.value := by
  constructor
  · intro h
    unfold ofValue? at h
    split at h <;> first | (cases h; rfl) | cases h
  · rintro rfl
    exact ofValue?_value o

end Opcode
end ChatClient
