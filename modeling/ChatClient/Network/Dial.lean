import ChatClient.Network.Fault
/-!
# Dial — what comes of dialling an address

An address accepts, or fails with a fault, or never answers; a handshake that is never answered runs out of time.
-/
namespace ChatClient
namespace Network

inductive Answer where
  | accepted
  | failed (fault : Fault)
  deriving DecidableEq, Repr

end Network

/-- What each address answers, if it ever does. -/
abbrev Network := Network.Endpoint → Option Network.Answer

/-- A host without a network: no address can be reached, its own included. -/
def Network.isolated : Network := fun _ => some (.failed .unreachable)

end ChatClient
