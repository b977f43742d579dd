import ChatClient.Proofs.Shell.Leads
/-!
# Progress — the program can always come to its end

Wherever a run has got to, some more ticks bring the program to its end: nothing that it waits for is out of reach.  A
handshake that nobody answers runs out of time, a loop that was told to stop ends, and the printer shows what is left in the
queue.  What is still to do is counted (`Program.ahead`): the lines that are left, and for each stage how far it is from
reading the next one or from the end.
-/
namespace ChatClient
namespace Shell

variable {p q : Program} {s : String}

/-- How far a stage is from reading the next line, or from the end. -/
def Stage.distance : Stage → Nat
  | starting | sending _ => 7
  | dialling .. | retracting _ | inquiring _ | leaving _ false => 6
  | prompting => 5
  | ready => 4
  | leaving _ true => 3
  | parting => 2
  | ending => 1
  | done => 0

/-- How much there is still to do. -/
def Program.ahead (p : Program) : Nat := 8 * p.input.length + p.stage.distance

theorem Stage.distance_le (stage : Stage) : stage.distance ≤ 7 := by
  cases stage with
  | leaving id last => cases last <;> simp [Stage.distance]
  | _ => simp [Stage.distance]

theorem distance_dialled (target : Network.Endpoint) (told : List Occurrence) :
    (Program.dialled target told).1.distance ≤ 6 := by
  unfold Program.dialled
  split <;> simp [Stage.distance]

theorem distance_detached (told : List Occurrence) : (Program.detached true told).1.distance ≤ 3 := by
  unfold Program.detached
  split <;> simp [Stage.distance, Program.departed]

theorem distance_departed (id : Nat) (last : Bool) :
    (Program.departed last).1.distance < (Stage.leaving id last).distance := by
  cases last <;> simp [Stage.distance, Program.departed]

/-! ## Every stage can be left -/

/-- Some ticks make less what is still to do. -/
def Program.Advances (p : Program) : Prop := ∃ text q, Leads p text q ∧ q.ahead < p.ahead

namespace Program

theorem Advances.after (h : Leads p s q) (hahead : q.ahead = p.ahead) (hq : q.Advances) : p.Advances := by
  obtain ⟨text, r, hlater, hless⟩ := hq
  exact ⟨_, r, h.trans hlater, hahead ▸ hless⟩

/-- The shell goes on at once. -/
theorem advances_task (hq : p.queue = []) (hready : p.stage ≠ .ready)
    (h : (p.resume (p.act .task).2).1.distance < p.stage.distance) : p.Advances := by
  refine ⟨_, _, Leads.task p hq, ?_⟩
  rw [if_neg hready]
  exact Nat.add_lt_add_left h _

end Program

variable {config : ClientConfig} {c : Client} {stage : Stage} {input : List String} {id call : Nat} {last : Bool}

theorem dialling_advances {target : Network.Endpoint} (h : c.Holds [call] [] [] false) :
    Program.Advances ⟨config, c, .dialling call target, input, []⟩ := by
  obtain ⟨span, htold⟩ := Client.finish_in_time h
  have hwait := Leads.background (p := ⟨config, c, .dialling call target, input, []⟩) (.wait span) rfl rfl
  refine .after hwait rfl ?_
  dsimp only
  generalize (c.step (.wait span)).1 = c₁ at htold
  refine Program.advances_task rfl nofun ?_
  have hact : Program.act ⟨config, c₁, .dialling call target, input, []⟩ .task = c₁.step (.finish call) := rfl
  have hresume : (Program.resume ⟨config, c₁, .dialling call target, input, []⟩ (c₁.step (.finish call)).2).1 =
      .prompting := by simp only [Program.resume]
  rw [hact, hresume]
  simp [Stage.distance]

theorem ready_advances : Program.Advances ⟨config, c, .ready, input, []⟩ := by
  refine ⟨_, _, Leads.task ⟨config, c, .ready, input, []⟩ rfl, ?_⟩
  cases input with
  | nil =>
    have := distance_detached (Program.act ⟨config, c, .ready, [], []⟩ .task).2
    exact Nat.lt_succ_of_le (Nat.add_le_add_left this _)
  | cons line rest =>
    have := Stage.distance_le (Program.resume ⟨config, c, .ready, line :: rest, []⟩
      (Program.act ⟨config, c, .ready, line :: rest, []⟩ .task).2).1
    simp only [Program.ahead, if_pos, List.tail_cons, List.length_cons]
    omega

theorem leaving_advances (holds : c.Holds [] [] [] false) (halting : c.Halting id) :
    Program.Advances ⟨config, c, .leaving id last, input, []⟩ := by
  have hended := halting.ended
  obtain ⟨ids, hids⟩ := Client.receiveAll_receives c id
  rw [hids] at hended
  exact ⟨_, _, departed_leads config input ids holds hended last, Nat.add_lt_add_left (distance_departed id last) _⟩

theorem ending_advances (halting : ∀ id < c.connections.length, c.Halting id) :
    Program.Advances ⟨config, c, .ending, input, []⟩ := by
  have hended := Client.loops_end halting
  obtain ⟨ids, hids⟩ := Client.receiveEach_receives (List.range c.connections.length) c
  rw [hids] at hended
  exact ⟨_, _, ending_leads config input ids hended, Nat.lt_succ_self _⟩

/-- **What is still to do can be made less.** -/
theorem Staged.advances (h : Staged c stage) (hdone : stage ≠ .done) :
    Program.Advances ⟨config, c, stage, input, []⟩ := by
  cases stage with
  | starting => exact Program.advances_task rfl (by simp) (Nat.lt_succ_of_le (distance_dialled _ _))
  | dialling call target => exact dialling_advances h
  | ready => exact ready_advances
  | sending call =>
    refine Program.advances_task rfl (by simp) ?_
    simp only [Program.resume]
    split <;> simp [Stage.distance]
  | leaving id last =>
    obtain ⟨holds | holds, -, halting⟩ := h
    · -- The half-close comes first.
      exact .after (closing_leads config input holds last) rfl
        (leaving_advances (Client.holds_close holds) (halting.step _))
    · exact leaving_advances holds halting
  | prompting | retracting | inquiring | parting =>
    refine Program.advances_task rfl (by simp) ?_
    simp [Program.resume, Stage.distance]
  | ending => exact ending_advances h.2.2
  | done => exact absurd rfl hdone

end Shell
end ChatClient
