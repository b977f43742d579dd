import ChatClient.Client.Caller
import ChatClient.Proofs.Client.Move
/-!
# Loop — what the receive loop of a connection does by itself

`Turn` lists what one step of a loop can do, by what it finds: a read takes any chunk off the front of what waits, so what
holds of every turn holds for every size of the reads.  `advance_turn` says that there are no others.

A loop that is left alone makes a few steps and no others (`receiveAll_eq_run`), after which it waits for the peer or has
ended (`receiveAll_idle`).
-/
namespace ChatClient
namespace Connection

open Network (Socket)

variable {k k' : Connection} {config : SessionConfig} {report : Option Report}

inductive Turn (config : SessionConfig) (k : Connection) : Connection → Option Report → Prop
  | halt : k.phase = .reading → k.stopped = true → Turn config k { k with phase := .ended } none
  | breakDown : k.phase = .reading → k.stopped = false → k.roomy config = false →
      Turn config k { k with phase := .ended } none
  | read (chunk left : Bytes) : k.phase = .reading → k.stopped = false → k.socket.peer ≠ .reset →
      k.socket.waiting = chunk ++ left → chunk ≠ [] → chunk.length ≤ max config.readBufferSize.toNat 1 →
      Turn config k
        { k with socket := { k.socket with waiting := left }, buffer := k.buffer ++ chunk, phase := .draining } none
  | wait : k.phase = .reading → k.stopped = false → k.socket.quiet = true → Turn config k k none
  | sense : k.phase = .reading → k.stopped = false → k.socket.waiting = [] → k.socket.peer ≠ .opened →
      k.socket.peer ≠ .reset → Turn config k { k with phase := .leaving .closed } none
  | fault : k.phase = .reading → k.stopped = false → k.socket.peer = .reset →
      Turn config k
        { k with socket := { k.socket with peer := .gone, waiting := [] }, phase := .leaving (.broken .reset) } none
  | output (out : Except FrameError Response) (rest : Bytes) : k.phase = .draining →
      (Inbound.responses config.maxFieldLength.toNat).next k.buffer = some (out, rest) →
      Turn config k { k with buffer := rest } (some (.output out))
  | pause : k.phase = .draining → (Inbound.responses config.maxFieldLength.toNat).next k.buffer = none →
      Turn config k { k with phase := .reading } none
  | leave (loss : Loss) : k.phase = .leaving loss → Turn config k { k with phase := .ended } (some (.lost loss))
  | rest : k.phase = .ended → Turn config k k none

/-- **A step of the loop is one of the turns.** -/
theorem advance_turn (k : Connection) (config : SessionConfig) :
    Turn config k (k.advance config).1 (k.advance config).2 := by
  unfold advance
  split
  · rename_i hp
    by_cases hs : k.stopped = true
    · rw [if_pos (by rw [hs]; rfl)]
      exact .halt hp hs
    have hs : k.stopped = false := (Bool.not_eq_true _).mp hs
    by_cases hroom : k.roomy config = false
    · rw [if_pos (by rw [hroom, Bool.not_false, Bool.or_true])]
      exact .breakDown hp hs hroom
    rw [if_neg (by rw [hs, (Bool.not_eq_false _).mp hroom]; nofun)]
    unfold Socket.read
    by_cases hr : k.socket.peer = .reset
    · rw [if_pos hr]
      exact .fault hp hs hr
    rw [if_neg hr]
    by_cases hw : k.socket.waiting = []
    · rw [if_neg (not_not_intro hw)]
      by_cases ho : k.socket.peer = .opened
      · rw [if_pos ho]
        exact .wait hp hs (by simp [Socket.quiet, hw, ho])
      · rw [if_neg ho]
        exact .sense hp hs hw ho hr
    · rw [if_pos hw]
      have hpos := List.length_pos_iff.2 hw
      refine .read _ _ hp hs hr (List.take_append_drop _ _).symm ?_ (List.length_take_le _ _)
      rw [← List.length_pos_iff, List.length_take]
      omega
  · rename_i hp
    split
    · rename_i hn
      exact .pause hp hn
    · rename_i out rest hn
      exact .output out rest hp hn
  · rename_i loss hp
    exact .leave loss hp
  · rename_i hp
    exact .rest hp

theorem advance_of_ended (hp : k.phase = .ended) : k.advance config = (k, none) := by
  unfold advance
  rw [hp]

/-- A loop that would read but has no room for it has come to its end. -/
theorem advance_of_cramped (hp : k.phase = .reading) (hroom : k.roomy config = false) :
    k.advance config = ({ k with phase := .ended }, none) := by
  unfold advance
  rw [hp]
  dsimp only
  rw [if_pos (by rw [hroom, Bool.not_false, Bool.or_true])]

theorem idle_of_work_eq_zero (h : k.work = 0) (config : SessionConfig) : k.idle config = true := by
  unfold work at h
  split at h
  · rename_i hp
    simp [idle, hp]
  all_goals omega

end Connection

namespace Client

variable {c : Client} {id : Nat} {k : Connection}

@[simp] theorem afterLoop_phase : (c.afterLoop k).phase = k.phase := by
  unfold afterLoop
  split <;> rfl

@[simp] theorem afterLoop_buffer : (c.afterLoop k).buffer = k.buffer := by
  unfold afterLoop
  split <;> rfl

@[simp] theorem afterLoop_stopped : (c.afterLoop k).stopped = k.stopped := by
  unfold afterLoop
  split <;> rfl

/-- What becomes of the octets that we have written is not the loop's affair. -/
theorem afterLoop_written : (c.afterLoop k).socket.received = k.socket.received ∧
    (c.afterLoop k).socket.taken = k.socket.taken ∧ (c.afterLoop k).socket.choke = k.socket.choke ∧
    (c.afterLoop k).socket.discarded = k.socket.discarded := by
  unfold afterLoop
  split <;> exact ⟨rfl, rfl, rfl, rfl⟩

theorem afterLoop_work : (c.afterLoop k).work = k.work := by
  unfold afterLoop
  split <;> rfl

theorem afterLoop_eq (h : k.phase ≠ .ended) : c.afterLoop k = k := by
  unfold afterLoop
  rw [if_neg]
  simp [h]

theorem Move.config_eq {s : Step} {c' : Client} {told : List Occurrence} (hm : Move c s c' told) :
    c'.config = c.config := by
  cases hm <;> rfl

theorem getElem?_set {k' : Connection} (hk : c.connections[id]? = some k) : (c.connections.set id k')[id]? = some k' :=
  List.getElem?_set_self (List.getElem?_eq_some_iff.1 hk).1

theorem receive_silent {k' : Connection} (hk : c.connections[id]? = some k) (hadv : k.advance c.config = (k', none)) :
    c.receive id = (c.setConnection id (c.afterLoop k'), []) := by
  unfold receive
  rw [hk]
  dsimp only
  rw [hadv]
  rfl

theorem receive_report {k' : Connection} {report : Report} (hk : c.connections[id]? = some k)
    (hadv : k.advance c.config = (k', some report)) :
    c.receive id = (c.setConnection id (c.afterLoop k')).take id report := by
  unfold receive
  rw [hk]
  dsimp only
  rw [hadv]
  rfl

theorem take_connections (report : Report) : (c.take id report).1.connections = c.connections := by
  unfold take
  split
  · rfl
  all_goals split <;> rfl

theorem receive_connections (hk : c.connections[id]? = some k) :
    (c.receive id).1.connections = c.connections.set id (c.afterLoop (k.advance c.config).1) := by
  cases hadv : k.advance c.config with
  | mk k' report =>
    cases report with
    | none => rw [receive_silent hk hadv, setConnection]
    | some report => rw [receive_report hk hadv, take_connections, setConnection]

theorem receive_getElem? (hk : c.connections[id]? = some k) :
    (c.receive id).1.connections[id]? = some (c.afterLoop (k.advance c.config).1) := by
  rw [receive_connections hk]
  exact getElem?_set hk

/-! ## A loop left alone -/

theorem run_cons (c : Client) (s : Step) (rest : List Step) :
    c.run (s :: rest) = (((c.step s).1.run rest).1, (c.step s).2 ++ ((c.step s).1.run rest).2) := rfl

theorem receiveWithin_of_idle (hk : c.connections[id]? = some k) (hi : k.idle c.config = true) (steps : Nat) :
    c.receiveWithin id steps = (c, []) := by
  cases steps with
  | zero => rfl
  | succ steps =>
    rw [receiveWithin, hk]
    exact if_pos hi

theorem receiveWithin_of_not_idle (hk : c.connections[id]? = some k) (hi : ¬ k.idle c.config = true) (steps : Nat) :
    c.receiveWithin id (steps + 1) =
      (((c.receive id).1.receiveWithin id steps).1,
        (c.receive id).2 ++ ((c.receive id).1.receiveWithin id steps).2) := by
  rw [receiveWithin, hk]
  exact if_neg hi

/-- **A loop that is left alone makes some steps of its own**, and nothing else happens. -/
theorem receiveWithin_eq_run : ∀ (c : Client) (steps : Nat),
    ∃ n, c.receiveWithin id steps = c.run (List.replicate n (.receive id))
  | c, 0 => ⟨0, rfl⟩
  | c, steps + 1 => by
    cases hk : c.connections[id]? with
    | none => exact ⟨0, by rw [receiveWithin, hk]; rfl⟩
    | some k =>
      by_cases hi : k.idle c.config = true
      · exact ⟨0, receiveWithin_of_idle hk hi _⟩
      · obtain ⟨n, hn⟩ := receiveWithin_eq_run (c.receive id).1 steps
        refine ⟨n + 1, ?_⟩
        rw [receiveWithin_of_not_idle hk hi, hn, List.replicate_succ, run_cons]
        rfl

theorem receiveAll_eq_run (c : Client) (id : Nat) : ∃ n, c.receiveAll id = c.run (List.replicate n (.receive id)) := by
  unfold receiveAll
  split
  · exact ⟨0, rfl⟩
  · exact receiveWithin_eq_run _ _

theorem receiveWithin_idle : ∀ {c : Client} {k : Connection} {steps : Nat}, c.connections[id]? = some k →
    k.work ≤ steps → ∃ k', (c.receiveWithin id steps).1.connections[id]? = some k' ∧ k'.idle c.config = true
  | c, k, 0, hk, hw => ⟨k, hk, Connection.idle_of_work_eq_zero (Nat.le_zero.1 hw) _⟩
  | c, k, steps + 1, hk, hw => by
    by_cases hi : k.idle c.config = true
    · rw [receiveWithin_of_idle hk hi]
      exact ⟨k, hk, hi⟩
    · rw [receiveWithin_of_not_idle hk hi]
      -- The bound is on the work that is left, and the step takes some of it off.
      have hlt := Connection.work_advance_lt ((Bool.not_eq_true _).mp hi)
      have hle : (c.afterLoop (k.advance c.config).1).work ≤ steps := by
        rw [afterLoop_work]
        omega
      rw [← (receive_move id).config_eq]
      exact receiveWithin_idle (receive_getElem? hk) hle

/-- **A loop that is left alone comes to rest**: it waits for the peer or has ended. -/
theorem receiveAll_idle (hk : c.connections[id]? = some k) :
    ∃ k', (c.receiveAll id).1.connections[id]? = some k' ∧ k'.idle c.config = true := by
  unfold receiveAll
  rw [hk]
  exact receiveWithin_idle hk (Nat.le_refl _)

end Client
end ChatClient
