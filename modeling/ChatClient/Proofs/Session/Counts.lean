import ChatClient.Proofs.Client.History
import ChatClient.Proofs.Session.Coupling
/-!
# Counts — what a step does to the counts of unanswered requests

A step leaves the counts of the session alone, or they take note of one thing, which is told under the number of the
connection that is in use after the step (`step_counting`).  A new connection starts with a note of its own, so the counts
are always those of the connection in use; a count is taken back only for a request of that connection
(`retracted_of_noted`).
-/
namespace ChatClient

/-- What the counts took note of, with the connection and the answer. -/
def Occurrence.noted? : Occurrence → Option (Nat × Outstanding.Note × Option Match)
  | noted id note answer => some (id, note, answer)
  | _ => none

namespace Client

variable {c c' : Client} {s : Step} {told : List Occurrence} {id : Nat}

inductive Counting (c c' : Client) (told : List Occurrence) : Prop
  | keep (outstanding : c'.session.outstanding = c.session.outstanding)
      (quiet : told.filterMap Occurrence.noted? = [])
  | take (id : Nat) (note : Outstanding.Note) (answer : Option Match) (used : c'.session.uses id = true)
      (outstanding : c.session.outstanding.take note = (c'.session.outstanding, answer))
      (tells : told.filterMap Occurrence.noted? = [(id, note, answer)])

theorem counting_of_accept {r : Response} (hs : c'.session = (c.session.accept r).1) (hu : c.session.uses id = true) :
    Counting c c' (.handled id r :: (r.command?.map fun command =>
      Occurrence.noted id (.received command) (c.session.accept r).2).toList ++ [.emitted id r.event]) := by
  cases r with
  | delivery sender message =>
    refine .keep ?_ rfl
    rw [hs]
    rfl
  | ack command code =>
    refine .take id (.received command) _ ?_ ?_ rfl
    · rw [hs]
      exact hu
    · rw [hs]
      rfl

/-- **The counts take note of at most one thing in a step**, on the connection that is in use after it. -/
theorem step_counting (c : Client) (s : Step) : Counting c (c.step s).1 (c.step s).2 := by
  have hm := step_move c s
  generalize c.step s = next at hm
  rcases next with ⟨c', told⟩
  cases hm with
  | establish a ha hc ho =>
    exact .take c.connections.length .reset none (by simp [Session.uses, Session.connected]) rfl rfl
  | dispatch r link octets hd ho hr hl =>
    exact .take link.id (.sent r.command) none (Session.uses_iff.2 ⟨link, hl, rfl⟩) rfl rfl
  | retract w f hw hf hu => exact .take w.id (.failed w.request.command) none hu rfl rfl
  | handle id k k' r hk hadv hu => exact counting_of_accept rfl hu
  | _ => exact .keep rfl rfl

/-- **A count is taken back only for a request of the connection in use**, whose write has failed. -/
theorem retracted_of_noted {command : Command} {answer : Option Match}
    (hm : .noted id (.failed command) answer ∈ (c.step s).2) :
    ∃ w ∈ c.writes, s = .retract w.call ∧ w.id = id ∧ w.request.command = command ∧ w.fault.isSome = true ∧
      c.session.uses id = true := by
  have hmove := step_move c s
  generalize c.step s = next at hmove hm
  rcases next with ⟨c', told⟩
  cases hmove with
  | retract w f hw hf hu =>
    simp only [List.mem_cons, Occurrence.noted.injEq, Outstanding.Note.failed.injEq, List.not_mem_nil, or_false,
      reduceCtorEq] at hm
    obtain ⟨rfl, rfl, -⟩ := hm
    exact ⟨w, List.mem_of_find?_eq_some hw, rfl, rfl, rfl, by rw [hf]; rfl, hu⟩
  | handle i k k' r hk hadv hu => cases hr : r.command? <;> simp [hr] at hm
  | _ => simp at hm

end Client
end ChatClient
