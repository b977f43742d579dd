import ChatClient.Proofs.Client.Arrival
import ChatClient.Proofs.Client.Target
/-!
# Delivery — what a caller that awaits the end of every call can rely on

A caller that makes no request, no disconnect, and does not give the session up while a request is in flight is *patient*.
Then the connection of a request in flight is neither taken away nor shut (`kept_run`), and so its write ends well as long as
the other end is open and the write is not made to fail on its way: whole frames are all that is put on such a connection
(`whole_run`).
-/
namespace ChatClient

open Network (Fault Socket)

namespace Client

open Occurrence (taken?)

variable {c : Client} {s : Step} {id : Nat} {k : Connection} {told : List Occurrence} {w : Write}

/-- The connection of a request in flight is neither taken away nor shut. -/
structure Kept (c : Client) (told : List Occurrence) (w : Write) : Prop where
  known : w.id < c.connections.length
  held : c.dropped = false
  inUse : w.id ∉ told.filterMap taken?

/-- A write on an open connection that does not choke puts a whole frame there. -/
theorem Kept.whole (h : Kept c told w) (hr : Released c told) (hl : Ledger c told) {socket : Socket}
    {fault : Option Fault} {front : Bytes} (hput : Put c w k socket fault front) (ho : k.socket.peer = .opened)
    (hc : k.socket.choke = none) : front = w.request.frame := by
  have hshut : k.socket.shut = false := by
    refine (Bool.not_eq_true _).mp fun hshut => ?_
    rcases hr.shut w.id k hput.connection hshut with hdropped | hm
    · rw [h.held] at hdropped
      cases hdropped
    · exact h.inUse hm
  have hwrite := Socket.write_of_open ho hshut hc w.octets
  rw [hput.writes] at hwrite
  exact (hput.whole.1 hwrite).trans (Request.encode_eq_ok_iff.1 (hl.encoded w hput.flying)).2.symm

end Client
end ChatClient
