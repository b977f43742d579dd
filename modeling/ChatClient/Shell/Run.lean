import ChatClient.Shell.Console
/-!
# Run — the shell from its start to its end

What reaches the shell is lines of the user, and in between steps of the receive loops and of the other ends.  A line comes
with the network as it is at that moment, for the case that it makes the shell dial.  A run is the start, every input in its
turn, and the end of the input; what it printed is told piece by piece.
-/
namespace ChatClient
namespace Shell

inductive Input where
  | line (text : String) (network : Network)
  | receive (id : Nat)
  | peer (id : Nat) (act : Network.Act)

namespace Console

def take (s : Console) : Input → Console × String
  | .line text network => s.enter network text
  | .receive id => s.background (.receive id)
  | .peer id act => s.background (.peer id act)

/-- The inputs in their turn, and what each of them printed. -/
def takeAll (s : Console) : List Input → Console × List String
  | [] => (s, [])
  | input :: inputs =>
    let (s, out) := s.take input
    let (s, outs) := s.takeAll inputs
    (s, out :: outs)

end Console

def run (config : ClientConfig) (network : Network) (inputs : List Input) : Console × List String :=
  let (s, first) := Console.start config network
  let (s, outs) := s.takeAll inputs
  let (s, last) := s.endInput
  (s, first :: outs ++ [last])

end Shell
end ChatClient
