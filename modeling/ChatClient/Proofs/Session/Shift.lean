import ChatClient.Proofs.Client.History
import ChatClient.Proofs.Session.Coupling
/-!
# Shift — what a step does to the connection in use

A session uses one connection after the other.  A step leaves the one in use alone; or there is none before it and after
it, while a handshake starts or fails; or it puts a new one in use; or a response on the one in use is taken; or the one
in use ends, by a disconnect or by a loss.  `Shift` lists these with what is told, and `step_shift` says that there are no
others in a client whose fields go together.
-/
namespace ChatClient

open Occurrence (turning)

namespace Client

variable {c : Client}

inductive Shift (c : Client) (s : Step) (c' : Client) (told : List Occurrence) : Prop
  | keep (state : c'.session.state = c.session.state) (link : c'.session.link = c.session.link)
      (length : c'.connections.length = c.connections.length) (quiet : ∀ o ∈ told, o.turning = false)
  | dial (free : c.session.link = none) (link : c'.session.link = none)
      (state : c'.session.state.isConnected = false) (length : c'.connections.length = c.connections.length)
      (quiet : ∀ o ∈ told, o.turning = false)
  | establish (a : Attempt) (free : c.session.link = none)
      (session : c'.session = c.session.connected ⟨c.connections.length, a.target⟩)
      (length : c'.connections.length = c.connections.length + 1)
      (tells : told = [.noted c.connections.length .reset none, .connected a.call c.connections.length])
  | handle (link : Link) (r : Response) (rest : List Occurrence) (step : s = .receive link.id)
      (used : c.session.link = some link) (known : link.id < c.connections.length)
      (session : c'.session = (c.session.accept r).1) (length : c'.connections.length = c.connections.length)
      (tells : told = .handled link.id r :: rest) (quiet : ∀ o ∈ rest, o.turning = false)
  | detach (link : Link) (alive : c.dropped = false) (used : c.session.link = some link)
      (session : c'.session = c.session.release) (length : c'.connections.length = c.connections.length)
      (tells : told = [.disconnected (some link.id)])
  | lose (link : Link) (k : Connection) (loss : Loss) (step : s = .receive link.id)
      (used : c.session.link = some link) (connection : c.connections[link.id]? = some k)
      (leaving : k.phase = .leaving loss) (session : c'.session = c.session.lose)
      (length : c'.connections.length = c.connections.length)
      (tells : told = [.emitted link.id (.connectionLost loss.message)])

/-- **A step does one of these things to the connection in use.** -/
theorem step_shift (h : c.Coupled) (s : Step) : Shift c s (c.step s).1 (c.step s).2 := by
  have hm := step_move c s
  generalize c.step s = next at hm
  rcases next with ⟨c', told⟩
  cases hm with
  | start target hd hs =>
    have hl : c.session.link = none := h.session.link_eq_none (by rw [hs]; rfl)
    exact .dial hl hl rfl rfl (by simp [turning])
  | fail a e ha hc ho =>
    have hs : c.session.state = .connecting :=
      h.session.pending.1 (by rw [h.awaited a (List.mem_of_find?_eq_some ha) hc]; rfl)
    have hl : c.session.link = none := h.session.link_eq_none (by rw [hs]; rfl)
    exact .dial hl hl rfl rfl (by simp [turning])
  | callOff hd hs hl => exact .dial hl rfl rfl rfl (by simp [turning])
  | establish a ha hc ho =>
    have hs : c.session.state = .connecting :=
      h.session.pending.1 (by rw [h.awaited a (List.mem_of_find?_eq_some ha) hc]; rfl)
    have hl : c.session.link = none := h.session.link_eq_none (by rw [hs]; rfl)
    exact .establish a hl rfl (by simp) rfl
  | detach link hd hs hl => exact .detach link hd hl rfl (by simp) rfl
  | handle id k k' r hk hadv hu =>
    obtain ⟨link, hl, rfl⟩ := Session.uses_iff.1 hu
    have hknown : link.id < c.connections.length := (List.getElem?_eq_some_iff.1 hk).1
    refine .handle link r _ rfl hl hknown rfl (by simp [setConnection]) rfl ?_
    refine List.forall_mem_append.2 ⟨?_, List.forall_mem_singleton.2 (Occurrence.event_turning r link.id)⟩
    cases r.command? <;> simp [turning]
  | lose id k k' loss hk hadv hu =>
    obtain ⟨link, hl, rfl⟩ := Session.uses_iff.1 hu
    have ht := Connection.advance_turn k c.config
    rw [hadv] at ht
    cases ht with
    | leave _ hp => exact .lose link k loss rfl hl hk hp rfl (by simp [setConnection]) rfl
  | _ => exact .keep rfl rfl (by simp [setConnection]) (by simp [turning])

end Client
end ChatClient
