import ChatClient.Proofs.Client.Reception
import ChatClient.Proofs.Shell.Stages
/-!
# Leads — from one state of the program to another

Some ticks lead from a program to another, and print a text on the way (`Leads`).  Such ways are put together one behind the
other, from the ticks they are made of: the shell goes on, the printer shows all that waits, loops go on.
-/
namespace ChatClient
namespace Client

open Occurrence (event?)

variable {c : Client} {s : Step}

/-- Only a step of a loop tells an event. -/
theorem events_of_step (h : ∀ id, s ≠ .receive id) : (c.step s).2.filterMap event? = [] := by
  refine List.filterMap_eq_nil_iff.2 fun o ho => ?_
  cases o with
  | emitted i event => exact absurd ((step_move c s).emitted ho) (h i)
  | _ => rfl

theorem events_of_run {steps : List Step} (h : ∀ id, .receive id ∉ steps) : (c.run steps).2.filterMap event? = [] := by
  refine List.filterMap_eq_nil_iff.2 fun o ho => ?_
  cases o with
  | emitted i event => exact absurd (receive_of_emitted ho) (h i)
  | _ => rfl

end Client

namespace Shell

open Occurrence (event?)

variable {p q r : Program} {s t u : String} {told more : List Occurrence}

/-! ## Texts -/

theorem printed_append : printed (told ++ more) = printed told ++ printed more := by
  rw [printed, List.filterMap_append, List.map_append, String.join_append]
  rfl

/-- Some ticks lead from a program to another and print this. -/
def Leads (p : Program) (text : String) (q : Program) : Prop :=
  ∃ ticks, (p.run ticks).1 = q ∧ String.join ((p.run ticks).2.2.map Printed.text) = text

namespace Leads

theorem refl (p : Program) : Leads p "" p := ⟨[], rfl, rfl⟩

theorem trans (h : Leads p s q) (h' : Leads q t r) : Leads p (s ++ t) r := by
  obtain ⟨ticks, rfl, rfl⟩ := h
  obtain ⟨more, rfl, rfl⟩ := h'
  refine ⟨ticks ++ more, ?_, ?_⟩
  · rw [Program.run_append]
  · rw [Program.run_append, List.map_append, String.join_append]

theorem trans_silent (h : Leads p t q) (h' : Leads q "" r) : Leads p t r := by
  have := h.trans h'
  rwa [String.append_empty] at this

theorem tick (p : Program) (t : Tick) : Leads p (String.join ((p.step t).2.2.map Printed.text)) (p.step t).1 := by
  refine ⟨[t], rfl, ?_⟩
  simp only [Program.run, List.append_nil]

/-- The printer shows all that waits. -/
theorem printers (p : Program) : Leads p (String.join (p.queue.map fun e => shown e.line)) { p with queue := [] } := by
  obtain ⟨config, client, stage, input, queue⟩ := p
  induction queue with
  | nil => exact refl _
  | cons e rest ih =>
    have hstep := tick { config, client, stage, input, queue := e :: rest } .printer
    have htext : String.join [shown e.line] = shown e.line := by rw [String.join_cons, String.join_nil, String.append_empty]
    rw [List.map_cons, String.join_cons]
    exact (htext ▸ hstep).trans ih

/-- The shell goes on.  No step of its own tells an event. -/
theorem task (p : Program) (hq : p.queue = []) :
    Leads p (String.join ((p.resume (p.act .task).2).2.map Printed.text))
      ⟨p.config, (p.act .task).1, (p.resume (p.act .task).2).1,
        if p.stage = .ready then p.input.tail else p.input, []⟩ := by
  have hsilent : (p.act .task).2.filterMap event? = [] := by
    rw [Program.act_eq_run]
    refine Client.events_of_run fun id hm => ?_
    cases Program.taskStep_called (Option.mem_toList.1 hm)
  have hstep := tick p .task
  rw [Program.step_task, hq, hsilent] at hstep
  exact hstep

/-- A step that nobody calls for, with what is printed of it. -/
theorem background (step : Step) (hq : p.queue = []) (hb : step.background = true) :
    Leads p (printed (p.client.step step).2) { p with client := (p.client.step step).1 } := by
  obtain ⟨config, client, stage, input, queue⟩ := p
  cases hq
  obtain ⟨t, ht⟩ : ∃ t : Tick, Program.step { config, client, stage, input, queue := [] } t =
      ({ config, client := (client.step step).1, stage, input, queue := (client.step step).2.filterMap event? },
        (client.step step).2, []) := by
    cases step with
    | answer call reply => exact ⟨.answer call reply, rfl⟩
    | wait span => exact ⟨.wait span, rfl⟩
    | receive id => exact ⟨.receive id, rfl⟩
    | peer id act => exact ⟨.peer id act, rfl⟩
    | _ => cases hb
  have hstep := (tick { config, client, stage, input, queue := [] } t).trans (printers _)
  rw [ht, List.map_nil, String.join_nil, String.empty_append] at hstep
  exact hstep

/-- Loops go on, with what is printed of it. -/
theorem receives (ids : List Nat) : ∀ {p : Program}, p.queue = [] →
    Leads p (printed (p.client.run (ids.map .receive)).2) { p with client := (p.client.run (ids.map .receive)).1 } := by
  induction ids with
  | nil => exact fun _ => refl _
  | cons id ids ih =>
    intro p hq
    have hnow := background (.receive id) hq rfl
    rw [List.map_cons, Client.run_cons, printed_append]
    exact hnow.trans (ih (p := { p with client := (p.client.step (.receive id)).1 }) hq)

end Leads

/-! ## The end of a disconnect, and of the program -/

section Ends

variable (config : ClientConfig) (input : List String) {c : Client} {id : Nat}

/-- The half-close of a disconnect. -/
theorem closing_leads (holds : c.Holds [] [] [id] false) (last : Bool) :
    Leads ⟨config, c, .leaving id last, input, []⟩ ""
      ⟨config, (c.step (.close id)).1, .leaving id last, input, []⟩ := by
  have hmem : id ∈ c.closing := by rw [holds.closing]; exact List.mem_singleton_self id
  have hclose := Leads.task ⟨config, c, .leaving id last, input, []⟩ rfl
  have hact : Program.act ⟨config, c, .leaving id last, input, []⟩ .task = c.step (.close id) := by
    simp [Program.act, Program.clientStep?, Program.taskStep?, hmem]
  have hresume : ∀ told, Program.resume ⟨config, c, .leaving id last, input, []⟩ told = (.leaving id last, []) := by
    simp [Program.resume, hmem]
  rw [hact, hresume] at hclose
  exact hclose

/-- A disconnect is over once its loop has ended. -/
theorem departed_leads (ids : List Nat) (holds : c.Holds [] [] [] false)
    (hended : Client.Ended id (c.run (ids.map .receive)).1) (last : Bool) :
    Leads ⟨config, c, .leaving id last, input, []⟩
      (printed (c.run (ids.map .receive)).2 ++ String.join ((Program.departed last).2.map Printed.text))
      ⟨config, (c.run (ids.map .receive)).1, (Program.departed last).1, input, []⟩ := by
  have hloop := Leads.receives ids (p := ⟨config, c, .leaving id last, input, []⟩) rfl
  obtain ⟨k, hk, hphase⟩ := Option.map_eq_some_iff.1 hended
  have hclosing : id ∉ (c.run (ids.map .receive)).1.closing := by
    rw [(holds.receives ids).closing]
    exact List.not_mem_nil
  generalize c.run (ids.map .receive) = next at hloop hk hclosing ⊢
  have hend := Leads.task ⟨config, next.1, .leaving id last, input, []⟩ rfl
  have hresume : ∀ told, Program.resume ⟨config, next.1, .leaving id last, input, []⟩ told = Program.departed last := by
    simp [Program.resume, hclosing, hk, hphase]
  have hact : Program.act ⟨config, next.1, .leaving id last, input, []⟩ .task = (next.1, []) := by
    simp [Program.act, Program.clientStep?, Program.taskStep?, hclosing]
  rw [hact, hresume] at hend
  exact hloop.trans hend

/-- The program is done once every loop has ended. -/
theorem ending_leads (ids : List Nat) (hended : ∀ k ∈ (c.run (ids.map .receive)).1.connections, k.phase = .ended) :
    Leads ⟨config, c, .ending, input, []⟩ (printed (c.run (ids.map .receive)).2)
      ⟨config, (c.run (ids.map .receive)).1, .done, input, []⟩ := by
  have hloops := Leads.receives ids (p := ⟨config, c, .ending, input, []⟩) rfl
  generalize c.run (ids.map .receive) = next at hloops hended ⊢
  have hquiet : Program.quiet ⟨config, next.1, .ending, input, []⟩ = true :=
    List.all_eq_true.2 fun k hk => decide_eq_true (hended k hk)
  have hend := Leads.task ⟨config, next.1, .ending, input, []⟩ rfl
  have hact : Program.act ⟨config, next.1, .ending, input, []⟩ .task = (next.1, []) := rfl
  have hresume : ∀ told, Program.resume ⟨config, next.1, .ending, input, []⟩ told = (.done, []) := by
    simp [Program.resume, hquiet]
  rw [hact, hresume] at hend
  exact hloops.trans_silent hend

end Ends

end Shell
end ChatClient
