import ChatClient.Proofs.Client.History
import ChatClient.Proofs.Session.Coupling
/-!
# Handshake — what comes of a call of `connect`

A handshake comes to something by the first answer to it or by the end of its time (`verdict`), and it may have been called
off before its call ends.  While the call is in flight the client knows just this of it, in every order of steps
(`attempt_run`); so the call ends once, at its first `finish` that finds a verdict or finds the handshake called off, and
what its caller is told is read off the steps since it started (`handshakes_conclude`).
-/
namespace ChatClient

open Network (Endpoint Answer)

/-- What an answer makes of a handshake. -/
def Network.Answer.outcome (target : Endpoint) : Answer → Except Network.Error Unit
  | .accepted => .ok ()
  | .failed fault => .error (.connectFailed target fault)

/-- How the call of `connect` with this number ended, if this tells it. -/
def Occurrence.concluded? (call : Nat) : Occurrence → Option (Except Network.Error Unit)
  | connected i _ => if i = call then some (.ok ()) else none
  | unconnected i e => if i = call then some (.error e) else none
  | _ => none

namespace Step

/-- The time that a step takes. -/
def span : Step → Nat
  | wait span => span
  | _ => 0

/-- The time that these steps take. -/
def elapsed : List Step → Nat
  | [] => 0
  | s :: rest => s.span + elapsed rest

/-- The handshake in flight is called off. -/
def callsOff : Step → Bool
  | disconnect | drop => true
  | _ => false

/-- What a step makes of a handshake with so much time left. -/
def news (call : Nat) (target : Endpoint) (left : Nat) : Step → Option (Except Network.Error Unit)
  | answer i reply => if i = call then some (reply.outcome target) else none
  | wait span => if left ≤ span then some (.error (.connectTimedOut target)) else none
  | _ => none

end Step

/-- What a handshake with so much time left comes to: the first answer to it, unless its time ends before. -/
def verdict (call : Nat) (target : Endpoint) : Nat → List Step → Option (Except Network.Error Unit)
  | _, [] => none
  | left, s :: rest => (s.news call target left).or (verdict call target (left - s.span) rest)

/-- No answer to a handshake comes. -/
def Unanswered (call : Nat) (steps : List Step) : Prop := ∀ reply, .answer call reply ∉ steps

/-- The time of a handshake passes before it is answered. -/
def RunsOut (call time : Nat) (steps : List Step) : Prop :=
  ∃ before span after, steps = before ++ .wait span :: after ∧ Unanswered call before ∧
    time ≤ Step.elapsed before + span

/-- The first answer to a handshake accepts it, before its time has passed. -/
def Succeeds (call time : Nat) (steps : List Step) : Prop :=
  ∃ before after, steps = before ++ .answer call .accepted :: after ∧ Unanswered call before ∧
    ¬ RunsOut call time before

section Verdict

variable {call time : Nat} {s : Step} {rest : List Step}

theorem unanswered_nil : Unanswered call [] := fun _ h => by cases h

theorem unanswered_cons : Unanswered call (s :: rest) ↔ (∀ reply, s ≠ .answer call reply) ∧ Unanswered call rest := by
  simp only [Unanswered, List.mem_cons, not_or, ne_eq, eq_comm (a := s), forall_and]

theorem not_runsOut_nil : ¬ RunsOut call time [] := by
  rintro ⟨before, span, after, h, -⟩
  cases before <;> cases h

theorem news_cases (call : Nat) (target : Endpoint) (left : Nat) (s : Step) :
    (∃ reply, s = .answer call reply ∧ s.news call target left = some (reply.outcome target)) ∨
    (∃ span, s = .wait span ∧ left ≤ span ∧ s.news call target left = some (.error (.connectTimedOut target))) ∨
    (s.news call target left = none ∧ (∀ reply, s ≠ .answer call reply) ∧
      ∀ span, s = .wait span → span < left) := by
  cases s with
  | answer i reply =>
    by_cases h : i = call
    · exact .inl ⟨reply, by rw [h], if_pos h⟩
    · exact .inr (.inr ⟨if_neg h, fun _ heq => h (Step.answer.inj heq).1, nofun⟩)
  | wait span =>
    by_cases h : left ≤ span
    · exact .inr (.inl ⟨span, rfl, h, if_pos h⟩)
    · refine .inr (.inr ⟨if_neg h, nofun, fun _ heq => ?_⟩)
      cases heq
      exact Nat.lt_of_not_le h
  | _ => exact .inr (.inr ⟨rfl, nofun, nofun⟩)

theorem runsOut_cons (hs : ∀ reply, s ≠ .answer call reply) (hw : ∀ span, s = .wait span → span < time) :
    RunsOut call time (s :: rest) ↔ RunsOut call (time - s.span) rest := by
  constructor
  · rintro ⟨before, span, after, heq, hnone, htime⟩
    cases before with
    | nil =>
      cases heq
      have := hw span rfl
      rw [Step.elapsed] at htime
      omega
    | cons t before =>
      cases heq
      rw [Step.elapsed] at htime
      exact ⟨before, span, after, rfl, (unanswered_cons.1 hnone).2, by omega⟩
  · rintro ⟨before, span, after, rfl, hnone, htime⟩
    refine ⟨s :: before, span, after, rfl, unanswered_cons.2 ⟨hs, hnone⟩, ?_⟩
    rw [Step.elapsed]
    omega

theorem succeeds_cons (hs : ∀ reply, s ≠ .answer call reply) (hw : ∀ span, s = .wait span → span < time) :
    Succeeds call time (s :: rest) ↔ Succeeds call (time - s.span) rest := by
  constructor
  · rintro ⟨before, after, heq, hnone, htime⟩
    cases before with
    | nil =>
      cases heq
      exact absurd rfl (hs .accepted)
    | cons t before =>
      cases heq
      exact ⟨before, after, rfl, (unanswered_cons.1 hnone).2, fun h => htime ((runsOut_cons hs hw).2 h)⟩
  · rintro ⟨before, after, rfl, hnone, htime⟩
    exact ⟨s :: before, after, rfl, unanswered_cons.2 ⟨hs, hnone⟩, fun h => htime ((runsOut_cons hs hw).1 h)⟩

/-- **The verdict is that the time ran out exactly if the time passed before an answer came.** -/
theorem verdict_timedOut_iff (target : Endpoint) : ∀ (time : Nat) (steps : List Step),
    verdict call target time steps = some (.error (.connectTimedOut target)) ↔ RunsOut call time steps
  | time, [] => iff_of_false nofun not_runsOut_nil
  | time, s :: rest => by
    rw [verdict]
    rcases news_cases call target time s with ⟨reply, rfl, hn⟩ | ⟨span, rfl, hle, hn⟩ | ⟨hn, hs, hw⟩
    · rw [hn, Option.some_or]
      refine iff_of_false (by cases reply <;> nofun) ?_
      rintro ⟨_ | ⟨t, before⟩, span, after, heq, hnone, -⟩ <;> cases heq
      exact (unanswered_cons.1 hnone).1 reply rfl
    · rw [hn, Option.some_or]
      exact iff_of_true rfl ⟨[], span, rest, rfl, unanswered_nil, Nat.le_trans hle (Nat.le_add_left _ _)⟩
    · rw [hn, Option.none_or, runsOut_cons hs hw]
      exact verdict_timedOut_iff target _ rest

/-- **The verdict is success exactly if the first answer accepts in time.** -/
theorem verdict_ok_iff (target : Endpoint) : ∀ (time : Nat) (steps : List Step),
    verdict call target time steps = some (.ok ()) ↔ Succeeds call time steps
  | time, [] => iff_of_false nofun fun ⟨before, _, h, _⟩ => by cases before <;> cases h
  | time, s :: rest => by
    rw [verdict]
    rcases news_cases call target time s with ⟨reply, rfl, hn⟩ | ⟨span, rfl, hle, hn⟩ | ⟨hn, hs, hw⟩
    · rw [hn, Option.some_or]
      constructor
      · intro h
        cases reply with
        | accepted => exact ⟨[], rest, rfl, unanswered_nil, not_runsOut_nil⟩
        | failed fault => cases h
      · rintro ⟨_ | ⟨t, before⟩, after, heq, hnone, -⟩ <;> cases heq
        · rfl
        · exact absurd rfl ((unanswered_cons.1 hnone).1 reply)
    · rw [hn, Option.some_or]
      refine iff_of_false nofun ?_
      rintro ⟨_ | ⟨t, before⟩, after, heq, -, htime⟩ <;> cases heq
      exact htime ⟨[], span, before, rfl, unanswered_nil, Nat.le_trans hle (Nat.le_add_left _ _)⟩
    · rw [hn, Option.none_or, succeeds_cons hs hw]
      exact verdict_ok_iff target _ rest

end Verdict

theorem verdict_ne_abandoned (call : Nat) (target : Endpoint) : ∀ (left : Nat) (steps : List Step),
    verdict call target left steps ≠ some (.error .abandoned)
  | _, [] => nofun
  | left, s :: rest => by
    rw [verdict]
    cases hn : s.news call target left with
    | none => exact verdict_ne_abandoned call target _ rest
    | some outcome =>
      rintro h
      cases h
      unfold Step.news at hn
      split at hn
      · rename_i reply
        cases reply <;> simp [Answer.outcome] at hn
      · simp at hn
      · cases hn

namespace Attempt

variable {a : Attempt} {now : Nat} {s : Step}

/-- A handshake in flight after a step. -/
def hear (now : Nat) (s : Step) (a : Attempt) : Attempt :=
  { a with
    outcome := a.outcome.or (s.news a.call a.target (a.deadline - now))
    cancelled := a.cancelled || s.callsOff }

theorem meet_eq_hear {call : Nat} {answer : Answer} :
    (if a.call = call then meet answer a else a) = a.hear now (.answer call answer) := by
  rcases a with ⟨i, target, deadline, outcome, cancelled⟩
  by_cases h : i = call
  · cases outcome <;> cases answer <;> simp [meet, hear, Step.news, Step.callsOff, Answer.outcome, h]
  · simp [hear, Step.news, Step.callsOff, h, Ne.symm h]

theorem expire_eq_hear {span : Nat} : expire (now + span) a = a.hear now (.wait span) := by
  rcases a with ⟨i, target, deadline, outcome, cancelled⟩
  have hle : deadline - now ≤ span ↔ deadline ≤ now + span := by omega
  cases outcome with
  | some o => simp [expire, hear, Step.callsOff]
  | none => by_cases h : deadline ≤ now + span <;> simp [expire, hear, Step.news, Step.callsOff, hle, h]

/-- A step that brings no news and calls nothing off leaves the handshakes as they are. -/
theorem hear_of_quiet (hn : ∀ call target left, s.news call target left = none) (ho : s.callsOff = false) :
    a.hear now s = a := by
  rw [hear, hn, ho, Option.or_none, Bool.or_false]

end Attempt

namespace Client

variable {c : Client} {a : Attempt} {s : Step} {call : Nat}

theorem Move.now_eq {c' : Client} {told : List Occurrence} (hm : Move c s c' told) (hs : ∀ span, s ≠ .wait span) :
    c'.now = c.now := by
  cases hm <;> first | rfl | exact absurd rfl (hs _)

theorem step_now (c : Client) (s : Step) : (c.step s).1.now = c.now + s.span := by
  cases s with
  | wait span => rfl
  | _ => exact (step_move c _).now_eq nofun

/-- The handshakes in flight go with the session, and those that a session given up left behind are called off. -/
structure Orderly (c : Client) : Prop where
  coupled : c.Coupled
  off : c.dropped = true → ∀ a ∈ c.attempts, a.cancelled = true

/-- What a step does to the handshakes in flight. -/
inductive Dialing (c : Client) (s : Step) (c' : Client) (told : List Occurrence) : Prop
  | hear (calls : c.calls ≤ c'.calls) (attempts : c'.attempts = c.attempts.map (·.hear c.now s))
      (quiet : ∀ call, ∀ o ∈ told, o.concluded? call = none)
  | start (target : Endpoint) (alive : c.dropped = false) (step : s = .connect target) (calls : c'.calls = c.calls + 1)
      (attempts : c'.attempts = c.attempts ++
        [{ call := c.calls, target, deadline := c.now + c.config.connectTimeout.nanoseconds }])
      (tells : told = [.started c.calls])
  | conclude (a : Attempt) (result : Except Network.Error Unit) (step : s = .finish a.call) (flying : a ∈ c.attempts)
      (calls : c'.calls = c.calls) (attempts : c'.attempts = c.attempts.filter (·.call ≠ a.call))
      (tells : ∀ call, told.filterMap (·.concluded? call) = if a.call = call then [result] else [])

theorem map_hear_of_quiet {l : List Attempt} {now : Nat} (hn : ∀ call target left, s.news call target left = none)
    (ho : s.callsOff = false) : l.map (·.hear now s) = l := by
  rw [show (fun a : Attempt => a.hear now s) = id from funext fun _ => Attempt.hear_of_quiet hn ho, List.map_id]

theorem hear_off (ho : s.callsOff = true) {now : Nat} : a.hear now s = { a with cancelled := true } := by
  cases s with
  | disconnect | drop => simp [Attempt.hear, Step.news, Step.callsOff]
  | _ => cases ho

/-- A disconnect calls off the handshake that the session waits for; every other one was called off before. -/
theorem map_release (h : c.Coupled) : (c.attempts.map fun a =>
    if c.session.pending = some a.call then { a with cancelled := true } else a) =
      c.attempts.map (·.hear c.now .disconnect) := by
  refine List.map_congr_left fun a ha => ?_
  rw [hear_off rfl]
  split
  · rfl
  · rename_i hne
    cases hoff : a.cancelled with
    | true => rw [← hoff]
    | false => exact absurd (h.awaited a ha hoff) hne

theorem map_disconnect_of_off (hoff : ∀ a ∈ c.attempts, a.cancelled = true) :
    c.attempts = c.attempts.map (·.hear c.now .disconnect) := by
  refine (List.map_id _).symm.trans (List.map_congr_left fun a ha => ?_)
  rw [hear_off rfl, ← hoff a ha]
  rfl

theorem disconnect_dialing (h : Orderly c) : Dialing c .disconnect (c.step .disconnect).1 (c.step .disconnect).2 := by
  rw [step]
  split
  · rename_i hd
    exact .hear (Nat.le_refl _) (map_disconnect_of_off (h.off hd)) (by simp)
  unfold disconnect
  split
  · rename_i hs
    refine .hear (Nat.le_refl _) (map_disconnect_of_off fun a ha => ?_) (by simp [Occurrence.concluded?])
    cases hoff : a.cancelled with
    | true => rfl
    | false =>
      have hs' := h.coupled.session.pending.1 (by rw [h.coupled.awaited a ha hoff]; rfl)
      rw [hs] at hs'
      cases hs'
  · dsimp only
    split <;> exact .hear (Nat.le_refl _) (map_release h.coupled) (by simp [Occurrence.concluded?])

/-- A step without news starts or ends a call of `connect`, or leaves the handshakes as they are. -/
theorem quiet_dialing (hn : ∀ call target left, s.news call target left = none) (ho : s.callsOff = false) :
    Dialing c s (c.step s).1 (c.step s).2 := by
  have hsame : c.attempts = c.attempts.map (·.hear c.now s) := (map_hear_of_quiet hn ho).symm
  have hm := step_move c s
  generalize c.step s = next at hm
  rcases next with ⟨c', told⟩
  cases hm with
  | answer call reply => simpa [Step.news] using hn call ⟨"", 0⟩ 0
  | wait span => simpa [Step.news] using hn 0 ⟨"", 0⟩ 0
  | callOff | detach | disconnectNone | drop => cases ho
  | start target hd hs => exact .start target hd rfl rfl rfl rfl
  | abandon a ha hc =>
    refine .conclude a (.error .abandoned) rfl (List.mem_of_find?_eq_some ha) rfl rfl fun call => ?_
    by_cases h : a.call = call <;> simp [Occurrence.concluded?, h]
  | fail a e ha hc hr =>
    refine .conclude a (.error e) rfl (List.mem_of_find?_eq_some ha) rfl rfl fun call => ?_
    by_cases h : a.call = call <;> simp [Occurrence.concluded?, h]
  | establish a ha hc hr =>
    refine .conclude a (.ok ()) rfl (List.mem_of_find?_eq_some ha) rfl rfl fun call => ?_
    by_cases h : a.call = call <;> simp [Occurrence.concluded?, h]
  | dispatch => exact .hear (Nat.le_succ _) hsame (by simp [Occurrence.concluded?])
  | handle id k k' r =>
    refine .hear (Nat.le_refl _) hsame ?_
    cases r.command? <;> simp [Occurrence.concluded?]
  | _ => exact .hear (Nat.le_refl _) hsame (by simp [Occurrence.concluded?])

/-- **A step does one of these things to the handshakes in flight.** -/
theorem step_dialing (h : Orderly c) (s : Step) : Dialing c s (c.step s).1 (c.step s).2 := by
  cases s with
  | disconnect => exact disconnect_dialing h
  | wait span => exact .hear (Nat.le_refl _) (List.map_congr_left fun a _ => Attempt.expire_eq_hear) (by simp [step])
  | answer call reply =>
    exact .hear (Nat.le_refl _) (List.map_congr_left fun a _ => Attempt.meet_eq_hear) (by simp [step])
  | drop => exact .hear (Nat.le_refl _) (List.map_congr_left fun a _ => (hear_off rfl).symm) (by simp [step])
  | _ => exact quiet_dialing (fun _ _ _ => rfl) rfl

theorem Orderly.step (h : Orderly c) (s : Step) : Orderly (c.step s).1 where
  coupled := h.coupled.move (step_move c s)
  off hd := by
    have hd' : s ≠ .drop → c.dropped = true := fun hs => ((step_move c s).dropped_eq hs).symm.trans hd
    cases step_dialing h s with
    | hear calls attempts quiet =>
      rw [attempts]
      intro b hb
      obtain ⟨a, ha, rfl⟩ := List.mem_map.1 hb
      by_cases hs : s = .drop
      · rw [hs, hear_off rfl]
      · rw [Attempt.hear, h.off (hd' hs) a ha, Bool.true_or]
    | start target alive step =>
      rw [hd' (by simp [step])] at alive
      cases alive
    | conclude a result step flying calls attempts =>
      rw [attempts]
      exact fun b hb => h.off (hd' (by simp [step])) b (List.mem_of_mem_filter hb)

theorem orderly_new (config : SessionConfig) : Orderly { config } where
  coupled := coupled_new config
  off := nofun

theorem Orderly.run : ∀ (steps : List Step) {c : Client}, Orderly c → Orderly (c.run steps).1
  | [], _, h => h
  | s :: rest, c, h => by
    rw [run_cons]
    exact Orderly.run rest (h.step s)

/-! ## One call -/

/-- A call of `connect` that started and is not in flight any more. -/
structure Over (call : Nat) (c : Client) : Prop where
  numbered : call < c.calls
  landed : ∀ a ∈ c.attempts, a.call ≠ call

/-- **A call that is over tells nothing more.** -/
theorem Over.step (h : Over call c) (hc : Orderly c) (s : Step) :
    Over call (c.step s).1 ∧ (c.step s).2.filterMap (·.concluded? call) = [] := by
  cases step_dialing hc s with
  | hear calls attempts quiet =>
    refine ⟨⟨Nat.lt_of_lt_of_le h.numbered calls, ?_⟩, List.filterMap_eq_nil_iff.2 (quiet call)⟩
    rw [attempts]
    exact List.forall_mem_map.2 h.landed
  | start target alive step calls attempts tells =>
    refine ⟨⟨calls ▸ Nat.lt_succ_of_lt h.numbered, ?_⟩, by rw [tells]; rfl⟩
    rw [attempts]
    exact List.forall_mem_append.2 ⟨h.landed, List.forall_mem_singleton.2 (Nat.ne_of_gt h.numbered)⟩
  | conclude a result step flying calls attempts tells =>
    refine ⟨⟨calls ▸ h.numbered, ?_⟩, by rw [tells, if_neg (h.landed a flying)]⟩
    rw [attempts]
    exact fun b hb => h.landed b (List.mem_of_mem_filter hb)

theorem Over.run : ∀ (steps : List Step) {c : Client}, Over call c → Orderly c →
    (c.run steps).2.filterMap (·.concluded? call) = []
  | [], _, _, _ => rfl
  | s :: rest, c, h, hc => by
    obtain ⟨hover, htold⟩ := h.step hc s
    rw [run_cons, List.filterMap_append, htold, List.nil_append]
    exact Over.run rest hover (hc.step s)

/-- A step brings its news to a handshake in flight, or ends its call. -/
theorem hear_or_conclude (hc : Orderly c) (ha : a ∈ c.attempts) (s : Step) :
    (a.hear c.now s ∈ (c.step s).1.attempts ∧ (c.step s).2.filterMap (·.concluded? a.call) = []) ∨
      Over a.call (c.step s).1 ∧ ∃ result, (c.step s).2.filterMap (·.concluded? a.call) = [result] := by
  cases step_dialing hc s with
  | hear calls attempts quiet =>
    left
    rw [attempts]
    exact ⟨List.mem_map_of_mem ha, List.filterMap_eq_nil_iff.2 (quiet a.call)⟩
  | start target alive step calls attempts tells =>
    left
    rw [attempts, tells, step, Attempt.hear_of_quiet (fun _ _ _ => rfl) rfl]
    exact ⟨List.mem_append_left _ ha, rfl⟩
  | conclude b result step flying calls attempts tells =>
    by_cases hb : b.call = a.call
    · right
      refine ⟨⟨calls ▸ hc.coupled.numbered a ha, ?_⟩, result, by rw [tells, if_pos hb]⟩
      rw [attempts, hb]
      exact fun d hd => by simpa using (List.mem_filter.1 hd).2
    · left
      rw [attempts, tells, if_neg hb, step, Attempt.hear_of_quiet (fun _ _ _ => rfl) rfl]
      exact ⟨List.mem_filter.2 ⟨ha, by simpa using Ne.symm hb⟩, rfl⟩

/-- **A handshake in flight**, after some steps: its call has not ended, and all that is known of it is what these steps
brought; or its call has ended, once. -/
theorem attempt_run : ∀ (steps : List Step) {c : Client} {a : Attempt}, Orderly c → a ∈ c.attempts →
    ({ a with
        outcome := a.outcome.or (verdict a.call a.target (a.deadline - c.now) steps)
        cancelled := a.cancelled || steps.any Step.callsOff } ∈ (c.run steps).1.attempts ∧
      (c.run steps).2.filterMap (·.concluded? a.call) = []) ∨
    ∃ result, (c.run steps).2.filterMap (·.concluded? a.call) = [result]
  | [], c, a, hc, ha => by
    left
    rw [verdict, Option.or_none, List.any_nil, Bool.or_false]
    exact ⟨ha, rfl⟩
  | s :: rest, c, a, hc, ha => by
    rw [run_cons, List.filterMap_append]
    rcases hear_or_conclude hc ha s with ⟨hheard, htold⟩ | ⟨hover, result, htold⟩
    · have ih := attempt_run rest (hc.step s) hheard
      rw [htold, verdict, List.any_cons, ← Option.or_assoc, ← Bool.or_assoc, Nat.sub_sub, ← step_now]
      exact ih
    · exact .inr ⟨result, by rw [htold, hover.run rest (hc.step s)]; rfl⟩

/-- At the latest a wait that is long enough brings a verdict. -/
theorem verdict_wait (call : Nat) (target : Endpoint) {time : Nat} : ∀ {left : Nat} (steps : List Step), left ≤ time →
    verdict call target left (steps ++ [.wait time]) ≠ none
  | left, [], h => by simp [verdict, Step.news, h]
  | left, s :: rest, h => by
    rw [List.cons_append, verdict]
    cases s.news call target left with
    | some outcome => nofun
    | none => exact verdict_wait call target rest (Nat.le_trans (Nat.sub_le _ _) h)

theorem connect_refused (hd : c.dropped = false) (hs : c.session.state ≠ .disconnected) (target : Endpoint) :
    c.step (.connect target) = (c, [.refused .alreadyConnected]) := by
  rw [step, if_neg (by rw [hd]; exact Bool.false_ne_true), beginConnect, Session.beginConnect, if_neg hs]

theorem connect_started (hd : c.dropped = false) (hs : c.session.state = .disconnected) (target : Endpoint) :
    c.step (.connect target) =
      ({ c with
        session := { c.session with state := .connecting, pending := some c.calls }
        calls := c.calls + 1
        attempts := c.attempts ++
          [{ call := c.calls, target, deadline := c.now + c.config.connectTimeout.nanoseconds }] },
        [.started c.calls]) := by
  rw [step, if_neg (by rw [hd]; exact Bool.false_ne_true), beginConnect, Session.beginConnect, if_pos hs]

/-! ### The end of a call -/

section Finish

variable (hc : Orderly c) (ha : a ∈ c.attempts)
include hc ha

/-- **A call whose handshake was called off changes nothing**, whatever the session does by now. -/
theorem finish_off (hoff : a.cancelled = true) : c.step (.finish a.call) =
    ({ c with attempts := c.attempts.filter (·.call ≠ a.call) }, [.unconnected a.call .abandoned]) := by
  rw [step, finishConnect, find?_of_nodup hc.coupled.distinct ha]
  dsimp only
  rw [if_pos hoff]

theorem finish_failed (hoff : a.cancelled = false) {e : Network.Error} (ho : a.outcome = some (.error e)) :
    c.step (.finish a.call) =
      ({ c with session := c.session.unconnected, attempts := c.attempts.filter (·.call ≠ a.call) },
        [.unconnected a.call e]) := by
  rw [step, finishConnect, find?_of_nodup hc.coupled.distinct ha]
  dsimp only
  rw [if_neg (by rw [hoff]; exact Bool.false_ne_true), ho]

/-- **The end of a call tells its caller** that the handshake was called off, or else what it came to, if it did. -/
theorem finish_told : (c.step (.finish a.call)).2.filterMap (·.concluded? a.call) =
    (if a.cancelled then some (.error .abandoned) else a.outcome).toList := by
  rw [step, finishConnect, find?_of_nodup hc.coupled.distinct ha]
  dsimp only
  split
  · simp [Occurrence.concluded?]
  · split <;> rename_i ho <;> simp [Occurrence.concluded?, ho]

/-- **After a handshake that failed the session is disconnected**, and the next call of `connect` starts. -/
theorem finish_again (hoff : a.cancelled = false) {e : Network.Error} (ho : a.outcome = some (.error e)) :
    let next := (c.step (.finish a.call)).1
    next.session.state = .disconnected ∧ next.session.link = none ∧ next.session.pending = none ∧
      ∀ target, (next.step (.connect target)).2 = [.started c.calls] := by
  intro next
  have hnext : next =
      { c with session := c.session.unconnected, attempts := c.attempts.filter (·.call ≠ a.call) } := by
    rw [show next = (c.step (.finish a.call)).1 from rfl, finish_failed hc ha hoff ho]
  have hs : c.session.state = .connecting :=
    hc.coupled.session.pending.1 (by rw [hc.coupled.awaited a ha hoff]; rfl)
  have hd : c.dropped = false := by
    cases hd : c.dropped with
    | false => rfl
    | true =>
      rw [hc.off hd a ha] at hoff
      cases hoff
  rw [hnext]
  refine ⟨rfl, hc.coupled.session.link_eq_none (by rw [hs]; rfl), rfl, fun target => ?_⟩
  exact congrArg Prod.snd (connect_started (by exact hd) rfl target)

end Finish

/-- A call of `connect` that has started, after some more steps: what is known of its handshake is what they brought, or it
has ended, once. -/
theorem started_run (hc : Orderly c) (hd : c.dropped = false) (hs : c.session.state = .disconnected) (target : Endpoint)
    (after : List Step) :
    (∃ a ∈ (c.run (.connect target :: after)).1.attempts, a.call = c.calls ∧
      a.outcome = verdict c.calls target c.config.connectTimeout.nanoseconds after ∧
      a.cancelled = after.any Step.callsOff ∧
      (c.run (.connect target :: after)).2.filterMap (·.concluded? c.calls) = []) ∨
    ∃ result, (c.run (.connect target :: after)).2.filterMap (·.concluded? c.calls) = [result] := by
  have hstart := connect_started hd hs target
  have hflying : { call := c.calls, target, deadline := c.now + c.config.connectTimeout.nanoseconds } ∈
      (c.step (.connect target)).1.attempts := by
    rw [hstart]
    exact List.mem_append_right _ (List.mem_singleton_self _)
  have htold : (c.run (.connect target :: after)).2.filterMap (·.concluded? c.calls) =
      ((c.step (.connect target)).1.run after).2.filterMap (·.concluded? c.calls) := by
    rw [run_cons, List.filterMap_append, hstart]
    rfl
  rw [htold, run_cons]
  refine (attempt_run after (hc.step (.connect target)) hflying).imp
    (fun ⟨hm, htold⟩ => ⟨_, hm, rfl, ?_, Bool.false_or _, htold⟩) id
  rw [Option.none_or, step_now]
  exact congrArg (verdict _ target · after) (Nat.add_sub_cancel_left _ _)

/-- **A call whose time has passed ends**, if it has not ended before. -/
theorem finish_due (hc : Orderly c) (hd : c.dropped = false) (hs : c.session.state = .disconnected) (target : Endpoint)
    (after : List Step) (hended : (c.run (.connect target :: after)).2.filterMap (·.concluded? c.calls) = []) :
    (((c.run (.connect target :: after)).1.run
      [.wait c.config.connectTimeout.nanoseconds, .finish c.calls]).2.filterMap (·.concluded? c.calls)).length = 1 := by
  have hwait := run_concat c (.connect target :: after) (.wait c.config.connectTimeout.nanoseconds)
  have htold : (c.run (.connect target :: (after ++ [.wait c.config.connectTimeout.nanoseconds]))).2.filterMap
      (·.concluded? c.calls) = [] := by
    rw [← List.cons_append, hwait, List.filterMap_append, hended]
    rfl
  rcases started_run hc hd hs target (after ++ [.wait c.config.connectTimeout.nanoseconds]) with
    ⟨a, ha, hcall, hcame, -, -⟩ | ⟨result, h⟩
  swap
  · rw [htold] at h
    cases h
  have hne := verdict_wait c.calls target after (Nat.le_refl c.config.connectTimeout.nanoseconds)
  rw [← hcame] at hne
  have hend := finish_told (hc.run _) ha
  rw [hcall, ← List.cons_append, hwait] at hend
  rw [run_cons _ (.wait _), run_cons _ (.finish _), run, List.append_nil]
  refine (congrArg List.length hend).trans ?_
  cases ho : a.outcome with
  | none => exact absurd ho hne
  | some outcome => cases a.cancelled <;> rfl

section Told

variable {off : Bool} {came : Option (Except Network.Error Unit)} {told : List (Except Network.Error Unit)}
  (htold : told = (if off then some (.error .abandoned) else came).toList)
include htold

theorem told_result_iff {result : Except Network.Error Unit} (hr : result ≠ .error .abandoned) :
    told = [result] ↔ came = some result ∧ off = false := by
  rw [htold]
  cases off with
  | true => simp [Ne.symm hr]
  | false => cases came <;> simp

theorem told_abandoned_iff (hne : came ≠ some (.error .abandoned)) : told = [.error .abandoned] ↔ off = true := by
  rw [htold]
  cases off with
  | true => simp
  | false =>
    cases came with
    | none => simp
    | some result => simpa using hne

end Told

/-- Of the handshakes in flight only one is not called off: the one that the session waits for. -/
theorem Coupled.awaited_unique (h : c.Coupled) {b : Attempt} (ha : a ∈ c.attempts) (hb : b ∈ c.attempts)
    (hoffa : a.cancelled = false) (hoffb : b.cancelled = false) : a = b := by
  have hcall : a.call = b.call := Option.some.inj ((h.awaited a ha hoffa).symm.trans (h.awaited b hb hoffb))
  exact List.inj_on_of_nodup_map h.distinct ha hb hcall

/-- **Every call of `connect` has one end**, in every order of steps.
- No two handshakes in flight wait for their ends at the same time: all but one were called off.
- A call in any state but disconnected is turned down and changes nothing; one in the state disconnected starts.
- A call that has started ends at most once, and whenever it has not ended yet, it ends once its time has passed.
- When it ends, its caller is told that a disconnect called it off, if one did since it started; else what the handshake
  came to, which is that it succeeded, that it failed, or that its time ran out first.  (A session given up calls it off as
  a disconnect does.)
- The end of a call that was called off changes nothing, whatever a later call does by then; after the end of one that
  failed the session is disconnected, and the next call starts. -/
theorem handshakes_conclude (config : SessionConfig) (before after : List Step) (target : Endpoint) :
    let c₀ := (run { config } before).1
    let call := c₀.calls
    let time := config.connectTimeout.nanoseconds
    let c := (c₀.run (.connect target :: after)).1
    let ended := (c₀.run (.connect target :: after)).2.filterMap (·.concluded? call)
    let off := after.any Step.callsOff
    let came := verdict call target time after
    let last := c.step (.finish call)
    let told := last.2.filterMap (·.concluded? call)
    (∀ a ∈ c₀.attempts, ∀ b ∈ c₀.attempts, a.cancelled = false → b.cancelled = false → a = b) ∧
    (c₀.dropped = false → c₀.session.state ≠ .disconnected →
      c₀.step (.connect target) = (c₀, [.refused .alreadyConnected])) ∧
    (c₀.dropped = false → c₀.session.state = .disconnected →
      (c₀.step (.connect target)).2 = [.started call] ∧
      ended.length ≤ 1 ∧
      (ended = [] →
        told = (if off then some (.error .abandoned) else came).toList ∧
        (told = [.ok ()] ↔ Succeeds call time after ∧ off = false) ∧
        (told = [.error (.connectTimedOut target)] ↔ RunsOut call time after ∧ off = false) ∧
        (told = [.error .abandoned] ↔ off = true) ∧
        ((c.run [.wait time, .finish call]).2.filterMap (·.concluded? call)).length = 1 ∧
        (off = true →
          last = ({ c with attempts := c.attempts.filter (·.call ≠ call) }, [.unconnected call .abandoned])) ∧
        (∀ e, came = some (.error e) → off = false →
          last.1.session.state = .disconnected ∧ last.1.session.link = none ∧ last.1.session.pending = none ∧
            ∀ next, (last.1.step (.connect next)).2 = [.started c.calls]))) := by
  intro c₀ call time c ended off came last told
  have hc₀ : Orderly c₀ := (orderly_new config).run before
  have hc : Orderly c := hc₀.run _
  refine ⟨fun a ha b hb => hc₀.coupled.awaited_unique ha hb, fun hd hs => connect_refused hd hs target, fun hd hs => ?_⟩
  have hconfig : c₀.config = config := run_config _ _
  have hstarted := started_run hc₀ hd hs target
  rw [hconfig] at hstarted
  refine ⟨congrArg Prod.snd (connect_started hd hs target), ?_, fun hended => ?_⟩
  · rcases hstarted after with ⟨-, -, -, -, -, h⟩ | ⟨result, h⟩
    · exact Nat.le_succ_of_le (Nat.le_of_eq (congrArg List.length h))
    · exact Nat.le_of_eq (congrArg List.length h)
  rcases hstarted after with ⟨a, ha, hcall, hcame, hoff, -⟩ | ⟨result, h⟩
  swap
  · rw [show ended = [result] from h] at hended
    cases hended
  replace hcame : a.outcome = came := hcame
  replace hoff : a.cancelled = off := hoff
  have htold : told = (if off then some (.error .abandoned) else came).toList := by
    rw [← hoff, ← hcame, ← finish_told hc ha, hcall]
  have hne : came ≠ some (.error .abandoned) := verdict_ne_abandoned _ _ _ _
  refine ⟨htold, ?_, ?_, told_abandoned_iff htold hne, ?_, fun h => ?_, fun e h h' => ?_⟩
  · rw [← verdict_ok_iff target]
    exact told_result_iff htold nofun
  · rw [← verdict_timedOut_iff target]
    exact told_result_iff htold nofun
  · have hdue := finish_due hc₀ hd hs target after hended
    rw [hconfig] at hdue
    exact hdue
  · have := finish_off hc ha (hoff.trans h)
    rw [hcall] at this
    exact this
  · have := finish_again hc ha (hoff.trans h') (hcame.trans h)
    rw [hcall] at this
    exact this

/-- The first handshake is called off, and its late success does not disturb the second, which is connected by then. -/
example : (run {} [.connect ⟨"localhost", 47007⟩, .disconnect, .connect ⟨"localhost", 47007⟩, .answer 1 .accepted,
    .finish 1, .answer 0 .accepted, .finish 0]).2 =
      [.started 0, .disconnected none, .started 1, .noted 0 .reset none, .connected 1 0, .unconnected 0 .abandoned] := by
  decide +kernel

end Client
end ChatClient
