import ChatClient.Proofs.Client.Loop
import Mathlib.Data.List.Induction
import Mathlib.Data.List.Nodup
/-!
# History — a run and what has happened in it

A run is looked at from its end: what held before the last step, and what this step adds.  `run_concat` takes the last
step off a run; `gather` collects what each step yields at the client that it finds, and `gather_concat` takes the last
yield off.

Of what is told in a run, some occurrences are turns in the life of a connection (`Occurrence.turning`): it is opened, a
response on it is taken, it ends.
-/
namespace ChatClient

namespace Occurrence

/-- The connection that was opened: a call of `connect` ended well. -/
def opened? : Occurrence → Option Nat
  | connected _ id => some id
  | _ => none

/-- The connection whose loss the observer is told of. -/
def lost? : Occurrence → Option Nat
  | emitted id (.connectionLost _) => some id
  | _ => none

/-- The connection that a disconnect took away. -/
def taken? : Occurrence → Option Nat
  | disconnected id => id
  | _ => none

theorem mem_taken {id : Nat} {told : List Occurrence} : id ∈ told.filterMap taken? ↔ .disconnected (some id) ∈ told := by
  refine ⟨fun h => ?_, fun h => List.mem_filterMap.2 ⟨_, h, rfl⟩⟩
  obtain ⟨o, ho, hid⟩ := List.mem_filterMap.1 h
  cases o with
  | disconnected =>
    cases hid
    exact ho
  | _ => cases hid

/-- The connection that ended, by a loss or by a disconnect. -/
def ended? (o : Occurrence) : Option Nat := o.lost?.or o.taken?

def turning : Occurrence → Bool
  | connected .. | handled .. | emitted _ (.connectionLost _) | disconnected (some _) => true
  | _ => false

theorem quiet {o : Occurrence} (h : o.turning = false) :
    o.opened? = none ∧ o.ended? = none ∧ ∀ id r, o ≠ handled id r := by
  cases o with
  | connected | handled => cases h
  | disconnected id => cases id <;> first | exact ⟨rfl, rfl, nofun⟩ | cases h
  | emitted id event => cases event <;> first | exact ⟨rfl, rfl, nofun⟩ | cases h
  | _ => exact ⟨rfl, rfl, nofun⟩

theorem event_turning (r : Response) (id : Nat) : (emitted id r.event).turning = false := by
  cases r with
  | ack command code => cases command <;> first | rfl | (simp only [Response.event]; split <;> rfl)
  | delivery => rfl

end Occurrence

namespace Client

/-- What is looked for by a number of its own is found. -/
theorem find?_of_nodup {α : Type} {f : α → Nat} {l : List α} (h : (l.map f).Nodup) {a : α} (ha : a ∈ l) :
    l.find? (fun b => f b = f a) = some a := by
  cases hb : l.find? (fun b => f b = f a) with
  | none => simpa using List.find?_eq_none.1 hb a ha
  | some b =>
    have heq : f b = f a := by simpa using List.find?_some hb
    rw [List.inj_on_of_nodup_map h (List.mem_of_find?_eq_some hb) ha heq]

/-- The other end of a connection is open. -/
def opened (c : Client) (id : Nat) : Bool := c.connections[id]?.any (·.socket.peer = .opened)

/-- What the steps of a run yield, one after the other, each at the client that it finds. -/
def gather {β : Type} (f : Client → Step → List β) : Client → List Step → List β
  | _, [] => []
  | c, s :: rest => f c s ++ gather f (c.step s).1 rest

theorem gather_append {β : Type} (f : Client → Step → List β) (c : Client) (l m : List Step) :
    c.gather f (l ++ m) = c.gather f l ++ (c.run l).1.gather f m := by
  induction l generalizing c with
  | nil => rfl
  | cons s l ih => rw [List.cons_append, gather, gather, ih, List.append_assoc, run_cons]

theorem gather_concat {β : Type} (f : Client → Step → List β) (c : Client) (steps : List Step) (s : Step) :
    c.gather f (steps ++ [s]) = c.gather f steps ++ f (c.run steps).1 s := by
  rw [gather_append, gather, gather, List.append_nil]

theorem run_concat (c : Client) (steps : List Step) (s : Step) : c.run (steps ++ [s]) =
    (((c.run steps).1.step s).1, (c.run steps).2 ++ ((c.run steps).1.step s).2) := by
  rw [run_append, run_cons]
  simp only [run, List.append_nil]

theorem run_config (c : Client) (steps : List Step) : (c.run steps).1.config = c.config := by
  induction steps generalizing c with
  | nil => rfl
  | cons s rest ih =>
    rw [run_cons, ih]
    exact (step_move c s).config_eq

end Client
end ChatClient
