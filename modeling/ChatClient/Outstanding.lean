import ChatClient.Opcode
/-!
# Outstanding — which acknowledgements are still to come

The protocol has no request numbers: an acknowledgement only says which command it answers.  A connection therefore counts,
for each command, the requests that are still unanswered.
- A request that is about to be sent counts one up; one whose sending failed counts one down again.
- An acknowledgement matches when a request of its kind is outstanding, and counts one down; otherwise it is unsolicited
  and changes nothing.
- A new connection starts from zero.
Counts are 32-bit numbers.
-/
namespace ChatClient

/-- Whether an acknowledgement answers a request. -/
inductive Match where
  | matched
  | unsolicited
  deriving DecidableEq, Repr

def Match.name : Match → String
  | matched => "Matched"
  | unsolicited => "Unsolicited"

/-- The unanswered requests of a connection, counted by command. -/
structure Outstanding where
  login : UInt32 := 0
  whisper : UInt32 := 0
  join : UInt32 := 0
  shout : UInt32 := 0
  deriving DecidableEq, Repr

namespace Outstanding

def count (o : Outstanding) : Command → UInt32
  | .login => o.login
  | .whisper => o.whisper
  | .join => o.join
  | .shout => o.shout

/-- The same counts but for one command. -/
def set (o : Outstanding) (c : Command) (n : UInt32) : Outstanding :=
  match c with
  | .login => { o with login := n }
  | .whisper => { o with whisper := n }
  | .join => { o with join := n }
  | .shout => { o with shout := n }

@[simp] theorem count_set (o : Outstanding) (c d : Command) (n : UInt32) :
    (o.set c n).count d = if d = c then n else o.count d := by
  cases c <;> cases d <;> rfl

/-- A request is about to be sent. -/
def sent (o : Outstanding) (c : Command) : Outstanding := o.set c (o.count c + 1)

/-- The sending of a request failed. -/
def failed (o : Outstanding) (c : Command) : Outstanding := if o.count c = 0 then o else o.set c (o.count c - 1)

/-- An acknowledgement arrived. -/
def received (o : Outstanding) (c : Command) : Outstanding × Match :=
  if o.count c = 0 then (o, .unsolicited) else (o.set c (o.count c - 1), .matched)

/-- What happens to the counts of a session. -/
inductive Note where
  | sent (c : Command)
  | failed (c : Command)
  | received (c : Command)
  | reset
  deriving DecidableEq, Repr

/-- Takes note of what happened; an acknowledgement has an answer. -/
def take (o : Outstanding) : Note → Outstanding × Option Match
  | .sent c => (o.sent c, none)
  | .failed c => (o.failed c, none)
  | .received c => ((o.received c).1, some (o.received c).2)
  | .reset => ({}, none)

/-- The counts after a history, from these. -/
def after (o : Outstanding) (history : List Note) : Outstanding := history.foldl (fun o n => (o.take n).1) o

end Outstanding
end ChatClient
