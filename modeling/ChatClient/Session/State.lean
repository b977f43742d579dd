/-!
# State — where a session is in the life of its connection

`disconnected`, then `connecting` while a handshake runs, `connected` once it has succeeded, `authenticated` once the
server has accepted a login; a disconnect, a loss or a failed handshake leads back to `disconnected`.
-/
namespace ChatClient
namespace Session

inductive State where
  | disconnected
  | connecting
  | connected
  | authenticated
  deriving DecidableEq, Repr, Inhabited

namespace State

def name : State → String
  | disconnected => "disconnected"
  | connecting => "connecting"
  | connected => "connected"
  | authenticated => "authenticated"

/-- A connection is open. -/
def isConnected : State → Bool
  | connected | authenticated => true
  | disconnected | connecting => false

/-- The server has accepted a login. -/
def isAuthenticated : State → Bool
  | authenticated => true
  | _ => false

theorem isConnected_iff {s : State} : s.isConnected = true ↔ s = connected ∨ s = authenticated := by
  cases s <;> simp [isConnected]

theorem isConnected_of_isAuthenticated {s : State} (h : s.isAuthenticated = true) : s.isConnected = true := by
  cases s <;> first | rfl | cases h

end State
end Session
end ChatClient
