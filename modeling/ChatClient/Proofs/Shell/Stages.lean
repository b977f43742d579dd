import ChatClient.Proofs.Client.Delivery
import ChatClient.Proofs.Client.Holding
import ChatClient.Proofs.Shell.Course
/-!
# Stages — what the shell has in hand at each of its stages

The shell waits for the end of what a line makes it do, so its stage says what the client has in hand (`Staged`): a handshake
while it dials, a request while it sends, a half-close or nothing while a disconnect runs, and nothing at all where it reads
the next line.  Every tick keeps this (`Staged.step`).  Hence the shell is a patient caller (`course_patient`).
-/
namespace ChatClient

open Network (Endpoint)

namespace Shell

open Client (Holds)

/-- What the client is like at a stage of the shell. -/
def Staged (c : Client) : Stage → Prop
  | .starting | .prompting | .ready | .inquiring _ => c.Holds [] [] [] false
  | .dialling call _ => c.Holds [call] [] [] false
  | .sending call => c.Holds [] [(call, false)] [] false
  | .retracting call => c.Holds [] [(call, true)] [] false
  | .leaving id _ => (c.Holds [] [] [id] false ∨ c.Holds [] [] [] false) ∧ c.session.link = none ∧
      c.Halting id
  | .parting => c.Holds [] [] [] false ∧ c.session.link = none
  | .ending | .done => c.Holds [] [] [] true ∧ c.session.link = none ∧ ∀ id < c.connections.length, c.Halting id

namespace Staged

variable {c : Client} {s : Step} {stage : Stage} {told : List Occurrence}

/-- **What the other ends, the network and the loops do keeps to the stage.** -/
theorem background (h : Staged c stage) (hs : s.background = true) : Staged (c.step s).1 stage := by
  cases stage with
  | starting | prompting | ready | inquiring | dialling | sending | retracting => exact Holds.background h hs
  | leaving id last =>
    obtain ⟨holds, free, halting⟩ := h
    exact ⟨holds.imp (·.background hs) (·.background hs), Client.free_background free hs, halting.step s⟩
  | parting => exact ⟨h.1.background hs, Client.free_background h.2 hs⟩
  | ending | done =>
    obtain ⟨holds, free, halting⟩ := h
    refine ⟨holds.background hs, Client.free_background free hs, fun id hid => ?_⟩
    rw [Client.length_background hs] at hid
    exact (halting id hid).step s

theorem dialled (h : c.Holds [] [] [] false) (target : Network.Endpoint) :
    Staged (c.step (.connect target)).1 (Program.dialled target (c.step (.connect target)).2).1 := by
  rcases Client.holds_connect h target with ⟨call, told, holds⟩ | refused
  · rw [told]
    exact holds
  · rw [refused]
    exact h

theorem requested (h : c.Holds [] [] [] false) (ht : c.Tally told) (r : Request) :
    Staged (c.step (.send r)).1 (Program.requested (c.step (.send r)).2).1 := by
  rcases Client.holds_send h ht r with ⟨id, told, holds⟩ | ⟨e, refused⟩
  · rw [told]
    exact holds
  · rw [refused]
    exact h

theorem departed (h : c.Holds [] [] [] false) (free : c.session.link = none) (last : Bool) :
    Staged c (Program.departed last).1 := by
  cases last with
  | false => exact h
  | true => exact ⟨h, free⟩

theorem detached (h : c.Holds [] [] [] false) (hc : c.Coupled) (ht : c.Tally told) (last : Bool) :
    Staged (c.step .disconnect).1 (Program.detached last (c.step .disconnect).2).1 := by
  obtain ⟨free, ⟨id, told, holds, halting⟩ | ⟨told, holds⟩⟩ := Client.holds_disconnect h hc ht
  · rw [told]
    exact ⟨.inl holds, free, halting⟩
  · rw [told]
    exact departed holds free last

end Staged

variable {p : Program} {told : List Occurrence}

theorem Staged.obeyed (h : p.client.Holds [] [] [] false) (hc : p.client.Coupled) (ht : p.client.Tally told)
    (i : Instruction) {next : Client × List Occurrence}
    (hnext : next = match i.call? p.config with | some s => p.client.step s | none => (p.client, [])) :
    Staged next.1 (p.obeyed next.2 i).1 := by
  subst hnext
  cases i with
  | connect host port => exact dialled h _
  | disconnect | quit => exact detached h hc ht _
  | status | help | empty => exact h
  | login | whisper | join | shout =>
    simp only [Instruction.call?, Instruction.request?, Option.map_some, Program.obeyed]
    exact requested h ht _

/-- **The shell goes on, and its stage still says what the client has in hand.** -/
theorem Staged.task (h : Staged p.client p.stage) (hc : p.client.Coupled) (ht : p.client.Tally told) :
    Staged (p.act .task).1 (p.resume (p.act .task).2).1 := by
  obtain ⟨config, c, stage, input, queue⟩ := p
  cases stage with
  | starting => exact dialled h _
  | dialling call target =>
    simp only [Program.act, Program.clientStep?, Program.taskStep?, Program.resume]
    rcases Client.holds_finish h with hstep | ⟨hne, holds⟩
    · rw [hstep]
      exact h
    · split
      · exact absurd ‹_› hne
      · exact holds
  | prompting => exact h
  | ready =>
    cases input with
    | nil => exact detached h hc ht true
    | cons line rest =>
      simp only [Program.act, Program.clientStep?, Program.taskStep?, Program.resume]
      cases Instruction.parse line with
      | error refusal => exact h
      | ok i => exact obeyed h hc ht i rfl
  | sending call =>
    simp only [Program.act, Program.clientStep?, Program.taskStep?, Program.resume]
    rcases Client.holds_write h with ⟨hnil, holds⟩ | ⟨id, r, hsent, holds⟩
    · rw [hnil]
      exact holds
    · rw [hsent]
      exact holds
  | retracting call => exact (Client.holds_retract h).2
  | leaving id last =>
    obtain ⟨holds, free, halting⟩ := h
    simp only [Program.act, Program.clientStep?, Program.taskStep?, Program.resume]
    rcases holds with holds | holds
    · have hmem : id ∈ c.closing := by rw [holds.closing]; exact List.mem_singleton_self id
      rw [if_pos hmem, if_pos hmem]
      exact ⟨.inr (Client.holds_close holds), (Client.close_link _ _).trans free, halting.step _⟩
    · have hmem : id ∉ c.closing := by rw [holds.closing]; exact List.not_mem_nil
      rw [if_neg hmem, if_neg hmem]
      dsimp only
      split
      · exact departed holds free last
      · exact ⟨.inr holds, free, halting⟩
  | inquiring peer => exact h
  | parting => exact ⟨(Client.holds_drop h.1).1, h.2, (Client.holds_drop h.1).2⟩
  | ending =>
    simp only [Program.act, Program.clientStep?, Program.taskStep?, Program.resume]
    split <;> exact h
  | done => exact h

/-! ## Every tick -/

/-- The shell goes on by the steps of a caller. -/
theorem Program.taskStep_called {s : Step} (h : p.taskStep? = some s) : s.background = false := by
  unfold taskStep? at h
  split at h
  all_goals try cases h <;> rfl
  · split at h
    · cases h
      rfl
    · split at h
      · cases h
      · rename_i i hp
        cases i <;> cases h <;> rfl
  · split at h <;> cases h
    rfl

/-- A tick other than a step of the shell or of the printer makes a step that no caller makes. -/
theorem Program.act_background {t : Tick} (ht : t ≠ .task) :
    p.act t = (p.client, []) ∨
      ∃ s : Step, s.background = true ∧ p.clientStep? t = some s ∧ p.act t = p.client.step s := by
  cases t with
  | task => exact absurd rfl ht
  | printer => exact .inl rfl
  | answer | wait | receive | peer => exact .inr ⟨_, rfl, rfl, rfl⟩

theorem Staged.step (h : Staged p.client p.stage) (hc : p.client.Coupled) (ht : p.client.Tally told) (t : Tick) :
    Staged (p.step t).1.client (p.step t).1.stage := by
  by_cases htask : t = .task
  · subst htask
    rw [Program.step_task]
    exact h.task hc ht
  · rw [Program.step_stage htask, show (p.step t).1.client = (p.act t).1 from congrArg Prod.fst (Program.step_client p t)]
    rcases Program.act_background htask with hact | ⟨s, hs, -, hact⟩
    · rw [hact]
      exact h
    · rw [hact]
      exact h.background hs

/-! ## Every run -/

section Run

variable (config : ClientConfig) (lines : List String) (ticks : List Tick)

/-- **A run of the program is a run of a new client.** -/
theorem client_run : ((Program.ofConfig config lines).run ticks).1.client =
      (Client.run { config := config.session } ((Program.ofConfig config lines).course ticks)).1 ∧
    ((Program.ofConfig config lines).run ticks).2.1 =
      (Client.run { config := config.session } ((Program.ofConfig config lines).course ticks)).2 := by
  have h := Program.run_course (Program.ofConfig config lines) ticks
  have hnew : (Program.ofConfig config lines).client = { config := config.session } := rfl
  rw [hnew] at h
  exact ⟨congrArg Prod.fst h, congrArg Prod.snd h⟩

theorem coupled_run : ((Program.ofConfig config lines).run ticks).1.client.Coupled := by
  rw [(client_run config lines ticks).1]
  exact (Client.coupled_new config.session).run _

theorem tally_run :
    ((Program.ofConfig config lines).run ticks).1.client.Tally ((Program.ofConfig config lines).run ticks).2.1 := by
  rw [(client_run config lines ticks).1, (client_run config lines ticks).2]
  exact Client.tally_run config.session _

theorem staged_run : Staged ((Program.ofConfig config lines).run ticks).1.client
    ((Program.ofConfig config lines).run ticks).1.stage := by
  induction ticks using List.reverseRecOn with
  | nil => exact .nothing rfl rfl rfl rfl
  | append_singleton ticks t ih =>
    rw [Program.run_concat]
    exact ih.step (coupled_run config lines ticks) (tally_run config lines ticks) t

end Run

theorem Staged.writes_nil {c : Client} {stage : Stage} (h : Staged c stage) (hsending : ∀ call, stage ≠ .sending call)
    (hretracting : ∀ call, stage ≠ .retracting call) : c.writes = [] := by
  cases stage with
  | starting | prompting | ready | inquiring => exact Holds.writes_nil h
  | dialling => exact Holds.writes_nil h
  | sending call => exact absurd rfl (hsending call)
  | retracting call => exact absurd rfl (hretracting call)
  | leaving => exact h.1.elim Holds.writes_nil Holds.writes_nil
  | parting | ending | done => exact h.1.writes_nil

end Shell
end ChatClient
