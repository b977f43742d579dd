import ChatClient.Proofs.Client.Effect
import ChatClient.Proofs.Frame.Retention
/-!
# Retention — how many octets the loop of a connection holds

A loop reads only when what it holds is the front of a frame that has not arrived, and one read brings a bounded chunk.  So
whatever the other end sends and whenever the loop gets on, its buffer never holds more than the longest such front and one
chunk behind it (`Confined`).
-/
namespace ChatClient
namespace Connection

variable {config : SessionConfig} {k k' : Connection} {report : Option Report}

/-- What a connection holds is within bounds, and within narrower ones whenever its loop might read. -/
structure Confined (config : SessionConfig) (k : Connection) : Prop where
  held : k.buffer.length ≤ 9 + 2 * config.maxFieldLength.toNat + max config.readBufferSize.toNat 1
  kept : k.phase ≠ .draining → k.buffer.length < 10 + 2 * config.maxFieldLength.toNat

namespace Confined

theorem of_kept (h : k.buffer.length < 10 + 2 * config.maxFieldLength.toNat) : k.Confined config :=
  ⟨by omega, fun _ => h⟩

theorem new (config : SessionConfig) (peer : Network.Endpoint) : Confined config { peer := peer } :=
  of_kept (Nat.lt_of_lt_of_le (by decide : 0 < 10) (Nat.le_add_right _ _))

theorem of_same (h : k.Confined config) (hbuffer : k'.buffer = k.buffer) (hphase : k'.phase = k.phase) :
    k'.Confined config := by
  refine ⟨?_, fun hd => ?_⟩
  · rw [hbuffer]
    exact h.held
  · rw [hphase] at hd
    rw [hbuffer]
    exact h.kept hd

/-- **A turn of the loop keeps the bounds**: it reads behind a front only, and what it takes off makes the buffer shorter. -/
theorem turn (h : k.Confined config) (ht : Turn config k k' report) : k'.Confined config := by
  have hbrief := Inbound.responses_brief config.maxFieldLength.toNat
  cases ht with
  | read chunk left hp hs hr hw hne hle =>
    have hkept := h.kept (by rw [hp]; nofun)
    refine ⟨?_, fun hd => absurd rfl hd⟩
    change (k.buffer ++ chunk).length ≤ _
    rw [List.length_append]
    omega
  | output out rest hp hn =>
    have hheld := h.held
    have hshorter := Inbound.length_lt_of_next hn
    refine ⟨?_, fun hd => absurd hp hd⟩
    change rest.length ≤ _
    omega
  | pause hp hn => exact of_kept (hbrief.length_lt hn)
  | halt hp | breakDown hp | sense hp | fault hp | leave loss hp => exact of_kept (h.kept (by rw [hp]; nofun))
  | wait | rest => exact h

end Confined
end Connection

namespace Client

variable {c : Client} {id : Nat} {k k' : Connection} {s : Step} {told : List Occurrence}

theorem Effect.confined (he : Effect c id k s k' told) (h : k.Confined c.config) : k'.Confined c.config := by
  cases he with
  | bystand => exact h
  | turn => exact (h.turn (Connection.advance_turn k c.config)).of_same afterLoop_buffer afterLoop_phase
  | write | failWrite | stop | shut | peer => exact h.of_same rfl rfl

/-- Every connection is within bounds. -/
def Confined (c : Client) : Prop := ∀ (id : Nat) (k : Connection), c.connections[id]? = some k → k.Confined c.config

theorem Confined.step (h : c.Confined) (s : Step) : (c.step s).1.Confined := by
  intro id k' hk'
  rw [(step_move c s).config_eq]
  cases hk : c.connections[id]? with
  | some k =>
    obtain ⟨after, hafter, he⟩ := step_effect hk s
    cases hafter.symm.trans hk'
    exact he.confined (h id k hk)
  | none =>
    obtain ⟨-, hnone | ⟨peer, hnew⟩⟩ := step_fresh hk s
    · cases hnone.symm.trans hk'
    · cases hnew.symm.trans hk'
      exact .new c.config peer

theorem Confined.run (h : c.Confined) (steps : List Step) : (c.run steps).1.Confined := by
  induction steps generalizing c with
  | nil => exact h
  | cons s rest ih => exact ih (h.step s)

/-- **What the other end sends cannot make a buffer grow**, whatever it sends and however that is cut.
- Behind each drain a reader keeps fewer octets than an opcode and two texts at the limit take with their lengths, at both
  ends of a connection; the server's limit is 4096.
- The buffer of a receive loop keeps as few between its drains, and at no moment does it hold more than that and one read
  behind it, in every run of a client. -/
theorem buffers_confined :
    (∀ (limit : Nat) (chunks : List Bytes),
      ((Inbound.responses limit).feedAll [] chunks).2.length < 10 + 2 * limit) ∧
    (∀ chunks : List Bytes, (Inbound.requests.feedAll [] chunks).2.length < 10 + 2 * 4096) ∧
    ∀ (config : SessionConfig) (steps : List Step) (id : Nat) (k : Connection),
      (run { config } steps).1.connections[id]? = some k →
        k.buffer.length ≤ 9 + 2 * config.maxFieldLength.toNat + max config.readBufferSize.toNat 1 ∧
        (k.phase ≠ .draining → k.buffer.length < 10 + 2 * config.maxFieldLength.toNat) := by
  refine ⟨fun limit chunks => ?_, fun chunks => ?_, fun config steps id k hk => ?_⟩
  · exact (Inbound.responses_brief limit).length_feedAll_lt chunks (Nat.lt_of_lt_of_le (by decide) (Nat.le_add_right 10 _))
  · exact Inbound.requests_brief.length_feedAll_lt chunks (by decide)
  · have hnew : Confined { config } := fun _ _ hk => nomatch hk
    have hrun := hnew.run steps id k hk
    rw [run_config] at hrun
    exact ⟨hrun.held, hrun.kept⟩

/-- A delivery of two empty texts, read one octet at a time, reaches both bounds: the narrower one with its last octet but
one, and the other with its last. -/
theorem buffers_confined_at_the_bounds :
    let config : SessionConfig := { readBufferSize := 0, maxFieldLength := 0 }
    let steps : List Step :=
      [.connect ⟨"localhost", 47007⟩, .answer 0 .accepted, .finish 0, .peer 0 (.send [1, 43, 0, 0, 0, 0, 0, 0, 0, 0])] ++
        (List.replicate 9 [.receive 0, .receive 0]).flatten
    (∃ k, (run { config } steps).1.connections[0]? = some k ∧ k.phase ≠ .draining ∧ k.buffer.length = 9 ∧
      k.buffer.length < 10 + 2 * config.maxFieldLength.toNat) ∧
    ∃ k, (run { config } (steps ++ [.receive 0])).1.connections[0]? = some k ∧ k.buffer.length = 10 ∧
      k.buffer.length ≤ 9 + 2 * config.maxFieldLength.toNat + max config.readBufferSize.toNat 1 := by
  intro config steps
  have hkept : (run { config } steps).1.connections[0]? = some
      { peer := ⟨"localhost", 47007⟩, socket := { waiting := [0] }, buffer := [1, 43, 0, 0, 0, 0, 0, 0, 0] } := by
    decide +kernel
  have hheld : (run { config } (steps ++ [.receive 0])).1.connections[0]? = some
      { peer := ⟨"localhost", 47007⟩, buffer := [1, 43, 0, 0, 0, 0, 0, 0, 0, 0], phase := .draining } := by
    decide +kernel
  have hphase : Phase.reading ≠ .draining := by decide
  exact ⟨⟨_, hkept, hphase, rfl, (buffers_confined.2.2 config steps 0 _ hkept).2 hphase⟩,
    _, hheld, rfl, (buffers_confined.2.2 config _ 0 _ hheld).1⟩

end Client
end ChatClient
