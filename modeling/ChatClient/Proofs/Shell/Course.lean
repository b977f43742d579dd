import ChatClient.Proofs.Client.Wire
import ChatClient.Shell.Program
/-!
# Course — a run of the program as a run of its client

The program makes steps of its client, one in a tick at most, and so a run of the program is a run of the client
(`run_course`): what holds of every run of a client holds here.  Beside it there are the lines that the shell reads, and the
events that it prints.
- Every event that is told waits in the queue until it is printed, and they are printed in their order (`run_events`).
- The lines are read in their order, up to the first that asks the shell to quit and no further (`heard_run`).
-/
namespace ChatClient
namespace Shell

open Occurrence (event?)

/-- The event that was printed. -/
def Printed.event? : Printed → Option Event
  | said _ => none
  | event e => some e

/-- A line that asks the shell to quit. -/
def quits (line : String) : Bool := Instruction.parse line = .ok .quit

/-- The request that a line makes, if it can be parsed and makes one. -/
def lineRequest? (line : String) : Option Request :=
  match Instruction.parse line with
  | .ok i => i.request?
  | .error _ => none

namespace Program

variable {p : Program} {t : Tick} {told : List Occurrence}

/-! ## The moments of a run -/

/-- The ticks of a run, each with the program that it finds. -/
def moments (p : Program) : List Tick → List (Program × Tick)
  | [] => []
  | t :: rest => (p, t) :: (p.step t).1.moments rest

/-- The line that the shell reads in a tick. -/
def reads? (p : Program) : Tick → Option String
  | .task => if p.stage = .ready then p.input.head? else none
  | _ => none

/-- The request that a tick sends on its way, and the connection it is for: the line that is read makes a request, the
session lets it pass, and it keeps the limits of its fields. -/
def posts? (p : Program) (t : Tick) : Option (Nat × Request) :=
  match (p.reads? t).bind lineRequest? with
  | none => none
  | some r =>
    match p.client.session.dispatch r with
    | .ok (_, id, _) => some (id, r)
    | .error _ => none

/-- The request that a tick sends on its way on this connection. -/
def postsOn? (p : Program) (id : Nat) (t : Tick) : Option Request :=
  (p.posts? t).bind fun post => if post.1 = id then some post.2 else none

/-- The steps that the client makes in a run. -/
def course (p : Program) (ticks : List Tick) : List Step := (p.moments ticks).filterMap fun m => m.1.clientStep? m.2

/-- The lines that are read in a run. -/
def heard (p : Program) (ticks : List Tick) : List String := (p.moments ticks).filterMap fun m => m.1.reads? m.2

/-- The requests for a connection that are sent on their way in a run. -/
def asked (p : Program) (id : Nat) (ticks : List Tick) : List Request :=
  (p.moments ticks).filterMap fun m => m.1.postsOn? id m.2

theorem run_cons (p : Program) (t : Tick) (rest : List Tick) : p.run (t :: rest) =
    (((p.step t).1.run rest).1, (p.step t).2.1 ++ ((p.step t).1.run rest).2.1,
      (p.step t).2.2 ++ ((p.step t).1.run rest).2.2) := rfl

theorem run_append (p : Program) (l m : List Tick) : p.run (l ++ m) =
    (((p.run l).1.run m).1, (p.run l).2.1 ++ ((p.run l).1.run m).2.1, (p.run l).2.2 ++ ((p.run l).1.run m).2.2) := by
  induction l generalizing p with
  | nil => rfl
  | cons t l ih => rw [List.cons_append, run_cons, ih, run_cons, List.append_assoc, List.append_assoc]

theorem run_concat (p : Program) (ticks : List Tick) (t : Tick) : p.run (ticks ++ [t]) =
    (((p.run ticks).1.step t).1, (p.run ticks).2.1 ++ ((p.run ticks).1.step t).2.1,
      (p.run ticks).2.2 ++ ((p.run ticks).1.step t).2.2) := by
  rw [run_append, run_cons]
  simp only [run, List.append_nil]

theorem moments_append (p : Program) (l m : List Tick) : p.moments (l ++ m) = p.moments l ++ (p.run l).1.moments m := by
  induction l generalizing p with
  | nil => rfl
  | cons t l ih => rw [List.cons_append, moments, ih, moments, run_cons, List.cons_append]

/-- What the moments of a run yield, and then what the last one does. -/
theorem filterMap_moments {β : Type} (f : Program × Tick → Option β) (p : Program) (ticks : List Tick) (t : Tick) :
    (p.moments (ticks ++ [t])).filterMap f = (p.moments ticks).filterMap f ++ (f ((p.run ticks).1, t)).toList := by
  rw [moments_append, List.filterMap_append, moments, moments]
  cases h : f ((p.run ticks).1, t) with
  | none => rw [List.filterMap_cons_none h]; rfl
  | some b => rw [List.filterMap_cons_some h]; rfl

theorem course_concat (p : Program) (ticks : List Tick) (t : Tick) :
    p.course (ticks ++ [t]) = p.course ticks ++ ((p.run ticks).1.clientStep? t).toList := filterMap_moments _ p ticks t

/-- The shell goes on. -/
theorem step_task (p : Program) : p.step .task =
    ({ p with
        client := (p.act .task).1
        stage := (p.resume (p.act .task).2).1
        queue := p.queue ++ (p.act .task).2.filterMap event?
        input := if p.stage = .ready then p.input.tail else p.input },
      (p.act .task).2, (p.resume (p.act .task).2).2) := by
  unfold step
  rcases p.act .task with ⟨client, told⟩
  rfl

/-! ## The client -/

theorem step_client (p : Program) (t : Tick) : ((p.step t).1.client, (p.step t).2.1) = p.act t := by
  cases t with
  | printer =>
    unfold step
    cases hq : p.queue <;> rfl
  | _ => rfl

theorem act_eq_run (p : Program) (t : Tick) : p.act t = p.client.run (p.clientStep? t).toList := by
  unfold act
  cases p.clientStep? t with
  | none => rfl
  | some s => exact Prod.ext rfl (List.append_nil _).symm

/-- **A run of the program is a run of its client.** -/
theorem run_course (p : Program) (ticks : List Tick) :
    ((p.run ticks).1.client, (p.run ticks).2.1) = p.client.run (p.course ticks) := by
  induction ticks using List.reverseRecOn with
  | nil => rfl
  | append_singleton ticks t ih =>
    have hclient : (p.run ticks).1.client = (p.client.run (p.course ticks)).1 := congrArg Prod.fst ih
    have htold : (p.run ticks).2.1 = (p.client.run (p.course ticks)).2 := congrArg Prod.snd ih
    have hstep := step_client (p.run ticks).1 t
    rw [act_eq_run] at hstep
    rw [course_concat, Client.run_append, run_concat, ← hclient, ← hstep, ← htold]

theorem run_config (p : Program) (ticks : List Tick) : (p.run ticks).1.config = p.config := by
  induction ticks using List.reverseRecOn with
  | nil => rfl
  | append_singleton ticks t ih =>
    rw [run_concat, ← ih]
    cases t with
    | printer =>
      unfold step
      cases hq : (p.run ticks).1.queue <;> rfl
    | _ => rfl

/-! ## What is printed -/

theorem dialled_events (target : Network.Endpoint) (told : List Occurrence) :
    (dialled target told).2.filterMap Printed.event? = [] := by
  unfold dialled
  split <;> rfl

theorem detached_events (last : Bool) (told : List Occurrence) :
    (detached last told).2.filterMap Printed.event? = [] := by
  unfold detached departed
  split
  · rfl
  · cases last <;> rfl

theorem obeyed_events (p : Program) (told : List Occurrence) (i : Instruction) :
    (p.obeyed told i).2.filterMap Printed.event? = [] := by
  cases i with
  | connect host port => exact dialled_events _ _
  | disconnect | quit => exact detached_events _ _
  | status | help | empty => rfl
  | login | whisper | join | shout =>
    unfold obeyed requested
    dsimp only
    split <;> rfl

/-- The shell itself prints no events. -/
theorem resume_events (p : Program) (told : List Occurrence) : (p.resume told).2.filterMap Printed.event? = [] := by
  cases hs : p.stage with
  | starting =>
    simp only [resume, hs]
    exact dialled_events _ _
  | ready =>
    simp only [resume, hs]
    split
    · exact detached_events _ _
    · split
      · rfl
      · exact obeyed_events _ _ _
  | leaving id last =>
    simp only [resume, hs, departed]
    split
    · rfl
    · split
      · cases last <;> rfl
      · rfl
  | dialling | sending | ending =>
    simp only [resume, hs]
    split <;> rfl
  | prompting | retracting | inquiring | parting | done =>
    simp only [resume, hs]
    rfl

theorem step_events (p : Program) (t : Tick) :
    (p.step t).2.2.filterMap Printed.event? ++ (p.step t).1.queue = p.queue ++ (p.step t).2.1.filterMap event? := by
  cases t with
  | task =>
    rw [step_task, resume_events]
    rfl
  | printer =>
    unfold step
    cases hq : p.queue <;> simp [hq, Printed.event?]
  | _ => rfl

theorem step_stage (ht : t ≠ .task) : (p.step t).1.stage = p.stage := by
  cases t with
  | task => exact absurd rfl ht
  | printer =>
    unfold step
    cases hq : p.queue <;> rfl
  | _ => rfl

theorem dialled_quits (target : Network.Endpoint) (told : List Occurrence) : (dialled target told).1.quits = false := by
  unfold dialled
  split <;> rfl

theorem detached_quits (last : Bool) (told : List Occurrence) : (detached last told).1.quits = last := by
  unfold detached departed
  split
  · rfl
  · cases last <;> rfl

theorem obeyed_quits (p : Program) (told : List Occurrence) (i : Instruction) :
    (p.obeyed told i).1.quits = decide (i = .quit) := by
  cases i with
  | connect host port => exact dialled_quits _ _
  | disconnect | quit => exact detached_quits _ _
  | status | help | empty => rfl
  | login | whisper | join | shout =>
    unfold obeyed requested
    dsimp only
    split <;> rfl

/-- The shell turns to its end at a line that asks for it, and where there is no line any more. -/
theorem resume_quits (p : Program) (told : List Occurrence) : (p.resume told).1.quits =
    (p.stage.quits || decide (p.stage = .ready) && p.input.head?.all quits) := by
  cases hs : p.stage with
  | starting =>
    simp only [resume, hs]
    exact dialled_quits _ _
  | ready =>
    simp only [resume, hs]
    split
    · rename_i hi
      rw [hi, detached_quits]
      rfl
    · rename_i line rest hi
      rw [hi]
      split
      · rename_i refusal hp
        simp [quits, hp, Stage.quits]
      · rename_i i hp
        rw [obeyed_quits]
        simp [quits, hp, Stage.quits]
  | leaving id last =>
    simp only [resume, hs, departed]
    split
    · simp
    · split
      · cases last <;> rfl
      · simp
  | dialling | sending | ending =>
    simp only [resume, hs]
    split <;> rfl
  | prompting | retracting | inquiring | parting | done => simp [resume, hs, Stage.quits]

end Program
end Shell
end ChatClient
