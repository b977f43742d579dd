import ChatClient.Proofs.Client.Effect
import ChatClient.Proofs.Session.Endings
/-!
# Retired — what the loop of a connection no longer in use can still do

A connection that a disconnect has taken away stays out of use (`Retired.run`), but its loop may still hold a chunk that it
has read, with several frames in it, and it looks for its stop only where it would read again.  What it makes of the
rest of the chunk leaves the session as it is; a frame that can be read is passed over in silence, and so is the end of the
connection.  A frame that cannot be read is still told to the observer (`retired_loop`), even when another connection is in
use by then (`retired_loop_tells`).
-/
namespace ChatClient

/-- The error of the frame that the loop takes off its buffer next, if it cannot be read. -/
def Connection.discard? (k : Connection) (config : SessionConfig) : Option FrameError :=
  if k.phase = .draining then
    match (Inbound.responses config.maxFieldLength.toNat).next k.buffer with
    | some (.error e, _) => some e
    | _ => none
  else none

namespace Client

variable {c : Client} {id : Nat} {k : Connection}

/-- A connection that was opened and is not in use. -/
structure Retired (id : Nat) (c : Client) : Prop where
  known : id < c.connections.length
  unused : c.session.uses id = false

theorem uses_eq_false {s : Session} (h : s.link = none) : s.uses id = false := by
  rw [Session.uses, h]
  rfl

namespace Retired

theorem of_link {c' : Client} (h : Retired id c) (link : c'.session.link = c.session.link)
    (length : c'.connections.length = c.connections.length) : Retired id c' where
  known := length ▸ h.known
  unused := by
    rw [Session.uses, link]
    exact h.unused

/-- **A connection that is out of use stays so**: a new one has a number of its own. -/
theorem step (h : Retired id c) (hc : c.Coupled) (s : Step) : Retired id (c.step s).1 := by
  cases step_shift hc s with
  | keep state link length => exact h.of_link link length
  | dial free link state length => exact ⟨length ▸ h.known, uses_eq_false link⟩
  | establish a free session length =>
    have hne : c.connections.length ≠ id := Nat.ne_of_gt h.known
    refine ⟨by rw [length]; exact Nat.lt_succ_of_lt h.known, ?_⟩
    rw [session]
    simpa [Session.uses, Session.connected] using hne
  | handle link r rest step used known session length =>
    exact h.of_link (by rw [session, Session.accept_link]) length
  | detach link alive used session length => exact ⟨length ▸ h.known, uses_eq_false (by rw [session]; rfl)⟩
  | lose link k loss step used connection leaving session length =>
    exact ⟨length ▸ h.known, uses_eq_false (by rw [session]; rfl)⟩

theorem run : ∀ (steps : List Step) {c : Client}, Retired id c → c.Coupled → Retired id (c.run steps).1
  | [], _, h, _ => h
  | s :: rest, c, h, hc => by
    rw [run_cons]
    exact Retired.run rest (h.step hc s) (hc.move (step_move c s))

/-- What the loop of a connection out of use tells: the frame that it could not read, if that was what it did. -/
theorem told (h : Retired id c) (hk : c.connections[id]? = some k) :
    (c.receive id).2 = (k.discard? c.config).toList.map fun e => .emitted id (.frameDiscarded e.message) := by
  have hu : ¬ c.session.uses id = true := by
    rw [h.unused]
    exact Bool.false_ne_true
  rw [receive_told hk]
  have ht := k.advance_turn c.config
  generalize k.advance c.config = next at ht
  rcases next with ⟨k', report⟩
  cases ht with
  | output out rest hp hn =>
    rw [Connection.discard?, if_pos hp, hn]
    cases out with
    | error e => rfl
    | ok r =>
      rw [telling, take, if_neg hu]
      rfl
  | leave loss hp =>
    rw [Connection.discard?, if_neg (by rw [hp]; simp), telling, take, if_neg hu]
    rfl
  | pause hp hn =>
    rw [Connection.discard?, if_pos hp, hn]
    rfl
  | halt hp | breakDown hp | read chunk left hp | wait hp | sense hp | fault hp | rest hp =>
    rw [Connection.discard?, if_neg (by rw [hp]; simp)]
    rfl

/-- **The loop of a connection out of use changes that connection only.** -/
theorem receive (h : Retired id c) : ∃ k, (c.receive id).1 = c.setConnection id k := by
  have hm := receive_move (c := c) id
  generalize c.receive id = next at hm
  rcases next with ⟨c', told⟩
  cases hm with
  | idle =>
    refine ⟨c'.connections.get ⟨id, h.known⟩, ?_⟩
    rw [setConnection, List.get_eq_getElem, List.set_getElem_self]
  | loop | discard | passOver => exact ⟨_, rfl⟩
  | handle i k k' r hk hadv hu | lose i k k' loss hk hadv hu =>
    rw [h.unused] at hu
    cases hu

end Retired

/-- **What the loop of a connection no longer in use does**, from then on and in every order of steps.
- The connection stays out of use.
- A step of its loop changes this connection only: neither the state, nor the link, nor the counts of the session.
- It tells nothing but a frame that it cannot read, and tells every such frame. -/
theorem retired_loop (config : SessionConfig) (steps more : List Step) (id : Nat)
    (known : id < (run { config } steps).1.connections.length)
    (unused : (run { config } steps).1.session.uses id = false) :
    let c := ((run { config } steps).1.run more).1
    c.session.uses id = false ∧ (c.step (.receive id)).1.session = c.session ∧
    (∃ k, (c.step (.receive id)).1 = c.setConnection id k) ∧
    ∃ k, c.connections[id]? = some k ∧
      (c.step (.receive id)).2 = (k.discard? config).toList.map fun e => .emitted id (.frameDiscarded e.message) := by
  intro c
  have hc : (run { config } steps).1.Coupled := (coupled_new config).run steps
  have hretired : Retired id c := Retired.run more ⟨known, unused⟩ hc
  have hconfig : c.config = config := by rw [run_config, run_config]
  obtain ⟨k, hk⟩ := hretired.receive
  have hlast : c.connections[id]? = some (c.connections.get ⟨id, hretired.known⟩) := List.getElem?_eq_getElem _
  have htold := hretired.told hlast
  rw [hconfig] at htold
  refine ⟨hretired.unused, ?_, ⟨k, hk⟩, _, hlast, htold⟩
  rw [step, hk]
  rfl

/-- A disconnect comes between a welcome and an octet pair that is no opcode, both read in one chunk; a new connection is
welcomed before the loop of the old one goes on. -/
def lateDiscard : List Step :=
  [.connect ⟨"localhost", 47007⟩, .answer 0 .accepted, .finish 0, .peer 0 (.send [0, 200, 0, 0, 0, 9]), .receive 0,
    .receive 0, .disconnect, .connect ⟨"localhost", 47007⟩, .answer 1 .accepted, .finish 1,
    .peer 1 (.send [0, 200, 0, 0]), .receive 1, .receive 1]

theorem retired_loop_of_late_discard :
    let c := (run {} lateDiscard).1
    (0 < (run {} lateDiscard).1.connections.length ∧ (run {} lateDiscard).1.session.uses 0 = false) ∧
    c.session.state = .authenticated ∧ (c.step (.receive 0)).1.session = c.session ∧
    (c.step (.receive 0)).2 = [.emitted 0 (.frameDiscarded "unknown opcode 9")] := by
  intro c
  have hknown : 0 < (run {} lateDiscard).1.connections.length := by decide +kernel
  have hunused : (run {} lateDiscard).1.session.uses 0 = false := by decide +kernel
  obtain ⟨-, hsession, -, -⟩ := retired_loop {} lateDiscard [] 0 hknown hunused
  exact ⟨⟨hknown, hunused⟩, by decide +kernel, hsession, by decide +kernel⟩

/-- **The loop of a connection no longer in use is not silent.** -/
theorem retired_loop_tells : ¬ ∀ (config : SessionConfig) (steps : List Step) (id : Nat),
    id < (run { config } steps).1.connections.length → (run { config } steps).1.session.uses id = false →
      ∀ event, .emitted id event ∉ ((run { config } steps).1.step (.receive id)).2 := by
  intro h
  refine h {} lateDiscard 0 (by decide +kernel) (by decide +kernel) (.frameDiscarded "unknown opcode 9") ?_
  decide +kernel

end Client
end ChatClient
