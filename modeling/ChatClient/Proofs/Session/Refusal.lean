import ChatClient.Client.Caller
import ChatClient.Proofs.Client.Flight
import ChatClient.Proofs.Frame.Requests
import ChatClient.Proofs.Session.Coupling
/-!
# Refusal — requests that are turned down

A request is turned down when the session is not in the state that its command needs, and otherwise when a text of it is
over its limit (`Session.Refuses`).  The state is looked at first, so it is also the reason given for a request that has
both faults.  In every reachable state these are the only reasons (`Session.Coupled.dispatch_eq_error_iff`): a session in
the state needed has a link.

What is turned down leaves no trace.  The client is the same as before, and nothing is told but the refusal; so a run and
the same run without the requests turned down in it (`Client.heeded`) lead to the same client and tell the same otherwise
(`Client.run_heeded`).
-/
namespace ChatClient

namespace Session

/-- The state that a request of this command needs. -/
def needed : Command → State
  | .login => .connected
  | _ => .authenticated

/-- Why a request is turned down in this state. -/
inductive Refuses (st : State) (r : Request) : Error → Prop
  | notConnected : r.command = .login → st = .disconnected ∨ st = .connecting → Refuses st r .notConnected
  | alreadyAuthenticated : r.command = .login → st = .authenticated → Refuses st r .alreadyAuthenticated
  | notAuthenticated : r.command ≠ .login → st ≠ .authenticated → Refuses st r .notAuthenticated
  | tooLong {e : FrameError} : st = needed r.command → r.encode = .error e → Refuses st r (.frame e)

variable {st : State} {r : Request} {e : Error}

theorem objection_eq_none_iff {command : Command} : objection st command = none ↔ st = needed command := by
  cases command <;> cases st <;> decide

theorem objection_of_ne_login {command : Command} (h : command ≠ .login) :
    objection st command = if st = .authenticated then none else some .notAuthenticated := by
  cases command <;> cases st <;> first | rfl | exact absurd rfl h

theorem refuses_of_objection (h : objection st r.command = some e) : Refuses st r e := by
  by_cases hr : r.command = .login
  · rw [hr] at h
    cases st <;> cases h
    · exact .notConnected hr (.inl rfl)
    · exact .notConnected hr (.inr rfl)
    · exact .alreadyAuthenticated hr rfl
  · rw [objection_of_ne_login hr] at h
    split at h
    · cases h
    · rename_i hst
      cases h
      exact .notAuthenticated hr hst

theorem Refuses.objection (h : Refuses st r e) : objection st r.command = some e ∨
    objection st r.command = none ∧ ∃ cause, r.encode = .error cause ∧ e = .frame cause := by
  cases h with
  | notConnected hr hst =>
    rw [hr]
    rcases hst with rfl | rfl <;> exact .inl rfl
  | alreadyAuthenticated hr hst =>
    rw [hr, hst]
    exact .inl rfl
  | notAuthenticated hr hst => exact .inl (by rw [objection_of_ne_login hr, if_neg hst])
  | tooLong hst he => exact .inr ⟨objection_eq_none_iff.2 hst, _, he, rfl⟩

/-- **There is one reason at most** for which a request is turned down. -/
theorem Refuses.unique {e' : Error} (h : Refuses st r e) (h' : Refuses st r e') : e = e' := by
  rcases h.objection with ho | ⟨ho, cause, hc, rfl⟩ <;> rcases h'.objection with ho' | ⟨ho', cause', hc', rfl⟩
  · exact Option.some.inj (ho.symm.trans ho')
  · rw [ho] at ho'
    cases ho'
  · rw [ho] at ho'
    cases ho'
  · rw [hc] at hc'
    cases hc'
    rfl

/-- **A session turns down the requests that its state or their texts give a reason for**, and no others. -/
theorem Coupled.dispatch_eq_error_iff {s : Session} (hs : s.Coupled) : s.dispatch r = .error e ↔ Refuses s.state r e := by
  constructor
  · intro h
    unfold dispatch at h
    split at h
    · rename_i ho
      cases h
      exact refuses_of_objection ho
    rename_i ho
    split at h
    · rename_i he
      cases h
      exact .tooLong (objection_eq_none_iff.1 ho) he
    split at h
    · rename_i hl
      have hlink := hs.link
      rw [hl, isConnected_of_objection ho] at hlink
      cases hlink
    · cases h
  · intro h
    unfold dispatch
    rcases h.objection with ho | ⟨ho, cause, hc, rfl⟩
    · rw [ho]
    · rw [ho, hc]

end Session

/-- A request was turned down. -/
def Occurrence.rebuffs : Occurrence → Bool
  | refused .alreadyConnected => false
  | refused _ => true
  | _ => false

namespace Client

variable {c : Client} {r : Request} {e : Session.Error}

/-! ## One request -/

/-- **A request is turned down for a reason, or goes out** on the connection in use. -/
theorem Coupled.send_cases (hc : c.Coupled) (hd : c.dropped = false) (r : Request) :
    (∃ e, Session.Refuses c.session.state r e ∧ c.step (.send r) = (c, [.refused e])) ∨
      (∀ e, ¬ Session.Refuses c.session.state r e) ∧ ∃ link, c.session.link = some link ∧
        (c.step (.send r)).2 = [.noted link.id (.sent r.command) none, .started c.calls] := by
  have hrefuses := @Session.Coupled.dispatch_eq_error_iff r
  have hstep : c.step (.send r) = c.beginSend r := if_neg (by rw [hd]; nofun)
  rw [hstep, beginSend]
  cases hdispatch : c.session.dispatch r with
  | error e => exact .inl ⟨e, (hrefuses hc.session).1 hdispatch, rfl⟩
  | ok sent =>
    obtain ⟨session, id, octets⟩ := sent
    refine .inr ⟨fun e he => ?_, ?_⟩
    · rw [(hrefuses hc.session).2 he] at hdispatch
      cases hdispatch
    · unfold Session.dispatch at hdispatch
      split at hdispatch
      · cases hdispatch
      split at hdispatch
      · cases hdispatch
      split at hdispatch
      · cases hdispatch
      · rename_i link hlink
        cases hdispatch
        exact ⟨link, hlink, rfl⟩

theorem step_write_unknown {call : Nat} (h : ∀ w ∈ c.writes, w.call ≠ call) : c.step (.write call) = (c, []) := by
  have hnone : c.writes.find? (·.call = call) = none := List.find?_eq_none.2 fun w hw => by simpa using h w hw
  rw [step, write, hnone]

theorem step_retract_unknown {call : Nat} (h : ∀ w ∈ c.writes, w.call ≠ call) : c.step (.retract call) = (c, []) := by
  have hnone : c.writes.find? (·.call = call) = none := List.find?_eq_none.2 fun w hw => by simpa using h w hw
  rw [step, retract, hnone]

/-- **A call that is turned down ends there**: no write is made and nothing is taken back. -/
theorem request_of_refused {told : List Occurrence} (hl : Ledger c told) (h : c.step (.send r) = (c, [.refused e])) :
    c.request r = (c, [.refused e]) := by
  have hunknown : ∀ w ∈ c.writes, w.call ≠ c.calls := fun w hw => Nat.ne_of_lt (hl.numbered w hw)
  rw [request, run_cons, h, run_cons, step_write_unknown hunknown, run_cons, step_retract_unknown hunknown]
  rfl

/-! ## All requests of a run -/

/-- The steps of a run without the requests that are turned down in it. -/
def heeded (c : Client) : List Step → List Step
  | [] => []
  | s :: rest =>
    let (next, told) := c.step s
    if told.any Occurrence.rebuffs then next.heeded rest else s :: next.heeded rest

theorem dispatch_ne_alreadyConnected {s : Session} (h : s.dispatch r = .error e) : e ≠ .alreadyConnected := by
  rintro rfl
  unfold Session.dispatch at h
  split at h
  · rename_i ho
    cases h
    cases Session.refuses_of_objection ho
  split at h
  · cases h
  split at h <;> cases h

/-- **A step in which a request is turned down changes nothing**, and tells nothing else. -/
theorem step_rebuffs (c : Client) (s : Step) :
    (∃ e, c.step s = (c, [.refused e]) ∧ (Occurrence.refused e).rebuffs = true) ∨
      ∀ o ∈ (c.step s).2, o.rebuffs = false := by
  have hm := step_move c s
  generalize c.step s = next at hm
  rcases next with ⟨c', told⟩
  cases hm with
  | refuseSend r e hd he =>
    refine .inl ⟨e, rfl, ?_⟩
    have := dispatch_ne_alreadyConnected he
    cases e <;> first | rfl | exact absurd rfl this
  | handle id k k' r hk hadv hu =>
    right
    cases r.command? <;> simp [Occurrence.rebuffs]
  | _ => exact .inr (by simp [Occurrence.rebuffs])

/-- **A run does not depend on the requests that are turned down in it**: without them it leads to the same client and
tells the same, but for the refusals. -/
theorem run_heeded (c : Client) (steps : List Step) :
    c.run (c.heeded steps) = ((c.run steps).1, (c.run steps).2.filter (!·.rebuffs)) := by
  induction steps generalizing c with
  | nil => rfl
  | cons s rest ih =>
    rw [heeded, run_cons]
    rcases step_rebuffs c s with ⟨e, hs, he⟩ | hs
    · rw [hs]
      simp only [List.any_cons, he, Bool.true_or, if_true, ih, List.cons_append, List.nil_append]
      rw [List.filter_cons_of_neg (by simp [he])]
    · have hany : (c.step s).2.any Occurrence.rebuffs = false := by simpa using hs
      have hkept : (c.step s).2.filter (!·.rebuffs) = (c.step s).2 := List.filter_eq_self.2 fun o ho => by simp [hs o ho]
      simp only [hany, Bool.false_eq_true, if_false, run_cons, ih, List.filter_append, hkept]

/-- **Requests that are turned down leave no trace**, in whatever state the client is.
- A call is turned down exactly for the reasons listed, the state before the texts; an encoding is only ever refused for
  the length of a text.  A call with no such reason goes out on the connection in use.
- After a call that is turned down the client is the same as before, with its session, its counts, its connections and
  what they have received, and nothing is told but the refusal, no event among it.
- Whatever steps follow, they do what they would have done without the call.
- All of this holds of any number of calls: the run without those that are turned down in it leads to the same client. -/
theorem refusals_leave_no_trace (config : SessionConfig) (steps : List Step) (kept : .drop ∉ steps) (r : Request) :
    let c := (run { config } steps).1
    (∀ e, (c.request r).2 = [.refused e] ↔ Session.Refuses c.session.state r e) ∧
    (∀ cause, r.encode = .error cause → ∃ field length limit, cause = .fieldTooLong field length limit) ∧
    ((∀ e, ¬ Session.Refuses c.session.state r e) → ∃ link, c.session.link = some link ∧
      (c.step (.send r)).2 = [.noted link.id (.sent r.command) none, .started c.calls]) ∧
    (∀ e, Session.Refuses c.session.state r e → c.request r = (c, [.refused e]) ∧
      ∀ later, c.run (.send r :: later) = ((c.run later).1, .refused e :: (c.run later).2)) ∧
    run { config } (heeded { config } steps) = (c, (run { config } steps).2.filter (!·.rebuffs)) := by
  intro c
  have hc : c.Coupled := (coupled_new config).run steps
  have hd : c.dropped = false := dropped_run kept
  have hledger := ledger_run config steps
  have hrefused : ∀ e, Session.Refuses c.session.state r e → c.step (.send r) = (c, [.refused e]) := by
    intro e he
    rcases hc.send_cases hd r with ⟨e', he', hstep⟩ | ⟨hnone, -⟩
    · rwa [he.unique he']
    · exact absurd he (hnone e)
  refine ⟨fun e => ⟨fun h => ?_, fun h => ?_⟩, fun cause h => ?_, fun hnone => ?_, fun e he => ⟨?_, fun later => ?_⟩,
    run_heeded _ steps⟩
  · rcases hc.send_cases hd r with ⟨e', he', hstep⟩ | ⟨-, link, -, hstep⟩
    · rw [request_of_refused hledger hstep] at h
      cases h
      exact he'
    · rw [request, run_cons, hstep] at h
      cases h
  · rw [request_of_refused hledger (hrefused e h)]
  · obtain ⟨-, f, -, -, -, -, rfl⟩ := Request.encode_eq_error_iff.1 h
    exact ⟨_, _, _, rfl⟩
  · rcases hc.send_cases hd r with ⟨e, he, -⟩ | ⟨-, hsent⟩
    · exact absurd he (hnone e)
    · exact hsent
  · exact request_of_refused hledger (hrefused e he)
  · rw [run_cons, hrefused e he]
    rfl

/-- A connection is opened, a shout is turned down on it, and the server welcomes its user. -/
def hastyShout : List Step :=
  [.connect ⟨"localhost", 47007⟩, .answer 0 .accepted, .finish 0, .send (.shout "hi"), .peer 0 (.send [0, 200, 0, 0]),
    .receive 0, .receive 0]

/-- A name of 33 octets: before the welcome it is the state that is objected to, and after it the length. -/
theorem refusals_leave_no_trace_of_hastyShout :
    let early := (run {} (hastyShout.take 4)).1
    let late := (run {} hastyShout).1
    let long : Request := .whisper (String.ofList (List.replicate 33 'b')) "hi"
    .drop ∉ hastyShout ∧ early.request long = (early, [.refused .notAuthenticated]) ∧
    late.request long = (late, [.refused (.frame (.fieldTooLong "target" 33 32))]) ∧
    (run {} (heeded {} hastyShout)).1 = late ∧ (heeded {} hastyShout).length = 6 := by
  intro early late long
  have hkept : .drop ∉ hastyShout := by decide
  have hearly : early.session.state = .connected := by decide +kernel
  have hlate : late.session.state = .authenticated := by decide +kernel
  have hlong : long.encode = .error (.fieldTooLong "target" 33 32) := by decide +kernel
  obtain ⟨-, -, -, htrace, -⟩ := refusals_leave_no_trace {} (hastyShout.take 4) (by decide) long
  obtain ⟨-, -, -, htrace', hheeded⟩ := refusals_leave_no_trace {} hastyShout hkept long
  have hgate : early.session.state ≠ .authenticated := by
    rw [hearly]
    nofun
  refine ⟨hkept, (htrace _ (.notAuthenticated (by decide) hgate)).1, (htrace' _ (.tooLong hlate hlong)).1, ?_,
    by decide +kernel⟩
  rw [hheeded]

end Client
end ChatClient
