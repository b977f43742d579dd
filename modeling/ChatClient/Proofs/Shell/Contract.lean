import ChatClient.Proofs.Shell.Answers
import ChatClient.Proofs.Shell.Outgoing
import ChatClient.Proofs.Shell.Progress
import ChatClient.Proofs.Shell.Schedule
/-!
# Contract — the shell as a whole

Whatever lines are typed, whatever the other ends and the network do, and in whatever order the shell, its printer and the
receive loops take their turns: the lines are acted on up to the first that asks for the end, the requests among them arrive
for as long as somebody is there to receive them, every event is printed, and nothing is left open at the end.
-/
namespace ChatClient

open Occurrence (event?)

namespace Client

variable {c : Client} {s : Step}

/-! ## The loops that have ended -/

/-- When every loop has ended, nothing that no caller does tells an event any more. -/
theorem ended_background (h : ∀ k ∈ c.connections, k.phase = .ended) (hs : s.background = true) :
    (∀ k ∈ (c.step s).1.connections, k.phase = .ended) ∧ (c.step s).2.filterMap event? = [] := by
  constructor
  · rw [all_ended_iff, length_background hs]
    exact fun i hi => (all_ended_iff.1 h i hi).step s
  · by_cases hreceive : ∃ i, s = .receive i
    · obtain ⟨i, rfl⟩ := hreceive
      cases hk : c.connections[i]? with
      | none => simp [step, receive, hk]
      | some k =>
        have hphase := h k (List.mem_of_getElem? hk)
        rw [step, receive_silent hk (Connection.advance_of_ended hphase)]
        rfl
    · exact events_of_step fun i hi => hreceive ⟨i, hi⟩

end Client

namespace Shell

variable {p : Program} {t : Tick}

/-! ## The end -/

theorem Program.detached_ne_done (last : Bool) (told : List Occurrence) : (detached last told).1 ≠ .done := by
  unfold detached departed
  split
  · nofun
  · cases last <;> nofun

/-- The program is done only once no loop is left that could report, and nothing waits to be printed. -/
theorem Program.done_of_resume {told : List Occurrence} (h : (p.resume told).1 = .done) :
    p.stage = .done ∨ p.stage = .ending ∧ p.quiet = true ∧ p.queue = [] := by
  -- Only a shell that turns to its end, or has done so, can be done.
  have hquits := p.resume_quits told
  rw [h] at hquits
  cases hs : p.stage with
  | done => exact .inl rfl
  | ending =>
    simp only [resume, hs] at h
    split at h
    · rename_i hsevered
      rw [Bool.and_eq_true, List.isEmpty_iff] at hsevered
      exact .inr ⟨rfl, hsevered⟩
    · cases h
  | ready =>
    simp only [resume, hs] at h
    split at h
    · exact absurd h (detached_ne_done _ _)
    · rename_i line rest hi
      have hline : Instruction.parse line = .ok .quit := by
        rw [hs, hi] at hquits
        simpa [Stage.quits, quits] using hquits
      rw [hline] at h
      exact absurd h (detached_ne_done _ _)
  | leaving id last =>
    simp only [resume, hs, departed] at h
    split at h
    · cases h
    · split at h
      · cases last <;> cases h
      · cases h
  | parting =>
    simp only [resume, hs] at h
    cases h
  | _ =>
    rw [hs] at hquits
    cases hquits

/-- When the program is done, every loop has ended and every event is printed. -/
def Program.Finished (p : Program) : Prop :=
  p.stage = .done → (∀ k ∈ p.client.connections, k.phase = .ended) ∧ p.queue = []

theorem Program.Finished.step (h : p.Finished) (t : Tick) : (p.step t).1.Finished := by
  intro hdone
  by_cases ht : t = .task
  · subst ht
    rw [step_task] at hdone ⊢
    -- The shell makes no step of its client any more.
    have hact : p.stage = .done ∨ p.stage = .ending → p.act .task = (p.client, []) := by
      rintro (hs | hs) <;> simp [act, clientStep?, taskStep?, hs]
    rcases done_of_resume hdone with hs | ⟨hs, hquiet, hqueue⟩
    · rw [hact (.inl hs)]
      obtain ⟨hended, hqueue⟩ := h hs
      exact ⟨hended, by rw [hqueue]; rfl⟩
    · rw [hact (.inr hs)]
      refine ⟨fun k hk => ?_, by rw [hqueue]; rfl⟩
      exact of_decide_eq_true (List.all_eq_true.1 hquiet k hk)
  · rw [step_stage ht] at hdone
    obtain ⟨hended, hqueue⟩ := h hdone
    have hclient : (p.step t).1.client = (p.act t).1 := congrArg Prod.fst (step_client p t)
    have htold : (p.step t).2.1 = (p.act t).2 := congrArg Prod.snd (step_client p t)
    have hsilent : (∀ k ∈ (p.act t).1.connections, k.phase = .ended) ∧ (p.act t).2.filterMap event? = [] := by
      rcases act_background (p := p) ht with hact | ⟨s, hs, -, hact⟩
      · rw [hact]
        exact ⟨hended, rfl⟩
      · rw [hact]
        exact Client.ended_background hended hs
    have hevents := step_events p t
    rw [hqueue, htold, hsilent.2] at hevents
    exact ⟨hclient ▸ hsilent.1, (List.append_eq_nil_iff.1 hevents).2⟩

end Shell
end ChatClient
