import ChatClient.Proofs.Client.Effect
import ChatClient.Proofs.Session.Shift
/-!
# Endings — every connection ends once

Of the connections that a run has opened, all but the one in use have ended, each once, in the order in which they were
opened (`Tally`): by a disconnect that took them away, or by a loss that the observer was told of.  A loss is the last
thing told of its connection (`step_lost`), and giving the session up ends the connection in use (`drop_run`).
-/
namespace ChatClient

open Occurrence (opened? lost? taken? ended? turning)

theorem Occurrence.ended_perm : ∀ told : List Occurrence,
    (told.filterMap ended?).Perm (told.filterMap lost? ++ told.filterMap taken?)
  | [] => .nil
  | o :: told => by
    have ih := ended_perm told
    cases hl : o.lost? with
    | some id =>
      have ht : o.taken? = none := by cases o <;> first | rfl | cases hl
      have he : o.ended? = some id := by rw [ended?, hl]; rfl
      rw [List.filterMap_cons_some he, List.filterMap_cons_some hl, List.filterMap_cons_none ht]
      exact ih.cons id
    | none =>
      have he : o.ended? = o.taken? := by rw [ended?, hl]; rfl
      rw [List.filterMap_cons_none hl]
      cases ht : o.taken? with
      | none =>
        rw [List.filterMap_cons_none (he.trans ht), List.filterMap_cons_none ht]
        exact ih
      | some id =>
        rw [List.filterMap_cons_some (he.trans ht), List.filterMap_cons_some ht]
        exact (ih.cons id).trans List.perm_middle.symm

namespace Client

variable {c c' : Client} {told : List Occurrence} {id : Nat} {k k' : Connection} {s : Step} {link : Link}

theorem filterMap_quiet (h : ∀ o ∈ told, o.turning = false) :
    told.filterMap opened? = [] ∧ told.filterMap ended? = [] := by
  constructor <;> rw [List.filterMap_eq_nil_iff] <;> intro o ho
  · exact (Occurrence.quiet (h o ho)).1
  · exact (Occurrence.quiet (h o ho)).2.1

/-! ## Which connections have ended -/

/-- The connections opened so far are those there are; the ones that have ended come first, and the one in use is the
last. -/
structure Tally (c : Client) (told : List Occurrence) : Prop where
  opened : told.filterMap opened? = List.range c.connections.length
  ended : told.filterMap ended? ++ (c.session.link.map (·.id)).toList = List.range c.connections.length

theorem Tally.step (h : Tally c told) (hc : c.Coupled) (s : Step) : Tally (c.step s).1 (told ++ (c.step s).2) := by
  have ho := h.opened
  have he := h.ended
  cases step_shift hc s with
  | keep state link length quiet =>
    obtain ⟨hqo, hqe⟩ := filterMap_quiet quiet
    constructor
    · rw [List.filterMap_append, hqo, List.append_nil, length, ho]
    · rw [List.filterMap_append, hqe, List.append_nil, length, link, he]
  | dial free link state length quiet =>
    obtain ⟨hqo, hqe⟩ := filterMap_quiet quiet
    constructor
    · rw [List.filterMap_append, hqo, List.append_nil, length, ho]
    · rw [List.filterMap_append, hqe, List.append_nil, length, link, ← free, he]
  | establish a free session length tells =>
    rw [free] at he
    simp only [Option.map_none, Option.toList_none, List.append_nil] at he
    constructor
    · rw [List.filterMap_append, tells, length, List.range_succ, ho]
      rfl
    · rw [List.filterMap_append, tells, session, length, List.range_succ, he]
      simp [ended?, lost?, taken?, Session.connected]
  | handle link r rest step used known session length tells quiet =>
    obtain ⟨hqo, hqe⟩ := filterMap_quiet quiet
    constructor
    · rw [List.filterMap_append, tells, List.filterMap_cons_none rfl, hqo, List.append_nil, length, ho]
    · rw [List.filterMap_append, tells, List.filterMap_cons_none rfl, hqe, List.append_nil, session,
        Session.accept_link, length, he]
  | detach link alive used session length tells =>
    rw [used] at he
    constructor
    · rw [List.filterMap_append, tells, length, ho]
      exact List.append_nil _
    · rw [List.filterMap_append, tells, session, length, ← he]
      exact List.append_nil _
  | lose link k loss step used connection leaving session length tells =>
    rw [used] at he
    constructor
    · rw [List.filterMap_append, tells, length, ho]
      exact List.append_nil _
    · rw [List.filterMap_append, tells, session, length, ← he]
      exact List.append_nil _

theorem tally_run (config : SessionConfig) (steps : List Step) :
    Tally (run { config } steps).1 (run { config } steps).2 := by
  induction steps using List.reverseRecOn with
  | nil => exact ⟨rfl, rfl⟩
  | append_singleton steps s ih =>
    rw [run_concat]
    exact ih.step ((coupled_new config).run steps) s

/-- **No connection ends twice**, and the one in use has not ended. -/
theorem Tally.nodup (h : Tally c told) :
    (told.filterMap ended? ++ (c.session.link.map (·.id)).toList).Nodup := by
  rw [h.ended]
  exact List.nodup_range

theorem Tally.used_lt (h : Tally c told) (hl : c.session.link = some link) : link.id < c.connections.length := by
  have he := h.ended
  rw [hl] at he
  rw [← List.mem_range, ← he]
  exact List.mem_append_right _ (List.mem_singleton_self _)

theorem Tally.not_lost (h : Tally c told) (hl : c.session.link = some link) (reason : String) :
    .emitted link.id (.connectionLost reason) ∉ told := by
  intro hm
  have hmem : link.id ∈ told.filterMap ended? := List.mem_filterMap.2 ⟨_, hm, rfl⟩
  have hn := h.nodup
  rw [hl] at hn
  exact (List.disjoint_of_nodup_append hn) hmem (List.mem_singleton_self _)

theorem not_lost_of_quiet (h : ∀ o ∈ told, o.turning = false) (reason : String) :
    .emitted id (.connectionLost reason) ∉ told := fun hm => by cases h _ hm

/-! ## After a loss -/

theorem Effect.ended (he : Effect c id k s k' told) (hp : k.phase = .ended) :
    k'.phase = .ended ∧ ∀ event, .emitted id event ∉ told := by
  cases he with
  | bystand s told hs htold => exact ⟨hp, fun event hm => htold _ hm rfl⟩
  | stop s told hs htold => exact ⟨hp, fun event hm => htold _ hm rfl⟩
  | write => exact ⟨hp, fun event hm => by simp at hm⟩
  | failWrite | shut | peer => exact ⟨hp, fun event hm => by simp at hm⟩
  | turn =>
    rw [Connection.advance_of_ended hp]
    exact ⟨afterLoop_phase.trans hp, fun event hm => by simp [telling] at hm⟩

/-- **A connection whose loop has ended is silent.** -/
theorem silent_run : ∀ {steps : List Step} {c : Client} {k : Connection}, c.connections[id]? = some k →
    k.phase = .ended → ∀ event, .emitted id event ∉ (c.run steps).2
  | [], c, k, _, _ => fun event hm => by simp [run] at hm
  | s :: rest, c, k, hk, hp => by
    obtain ⟨k', hk', he⟩ := step_effect hk s
    obtain ⟨hp', hsilent⟩ := he.ended hp
    intro event hm
    rw [run_cons] at hm
    rcases List.mem_append.1 hm with hm | hm
    · exact hsilent event hm
    · exact silent_run hk' hp' event hm

/-- **A loss is told by the loop of the connection in use**, which has found the end. -/
theorem lost_cases (hc : c.Coupled) {reason : String} (hm : .emitted id (.connectionLost reason) ∈ (c.step s).2) :
    s = .receive id ∧ (c.step s).1.session = c.session.lose ∧ (c.step s).2 = [.emitted id (.connectionLost reason)] ∧
      ∃ k loss, c.connections[id]? = some k ∧ k.phase = .leaving loss := by
  cases step_shift hc s with
  | keep state link length quiet => exact absurd hm (not_lost_of_quiet quiet reason)
  | dial free link state length quiet => exact absurd hm (not_lost_of_quiet quiet reason)
  | establish a free session length tells => simp [tells] at hm
  | handle link r rest step used known session length tells quiet =>
    rw [tells] at hm
    rcases List.mem_cons.1 hm with h | h
    · cases h
    · exact absurd h (not_lost_of_quiet quiet reason)
  | detach link alive used session length tells => simp [tells] at hm
  | lose link k loss step used connection leaving session length tells =>
    rw [tells, List.mem_singleton] at hm
    cases hm
    exact ⟨step, session, tells, k, loss, connection, leaving⟩

/-- **A loss leaves the session without a connection**, and is the last thing told of the lost one. -/
theorem step_lost (hc : c.Coupled) {reason : String} (hm : .emitted id (.connectionLost reason) ∈ (c.step s).2) :
    (c.step s).2 = [.emitted id (.connectionLost reason)] ∧
    (c.step s).1.session.state = .disconnected ∧ (c.step s).1.session.link = none ∧
    ∀ more event, .emitted id event ∉ ((c.step s).1.run more).2 := by
  obtain ⟨hs, session, tells, k, loss, hk, leaving⟩ := lost_cases hc hm
  have hk' : (c.step s).1.connections[id]? = some (c.afterLoop (k.advance c.config).1) := by
    rw [hs, step]
    exact receive_getElem? hk
  have hp' : (c.afterLoop (k.advance c.config).1).phase = .ended := by
    rw [afterLoop_phase, Connection.advance, leaving]
  refine ⟨tells, ?_, ?_, fun more => silent_run hk' hp'⟩
  · rw [session]
    rfl
  · rw [session]
    rfl

/-! ## Giving the session up -/

/-- The loop of this connection was told to stop and had not found the end by then. -/
def Halted (id : Nat) (c : Client) : Prop :=
  ∃ k, c.connections[id]? = some k ∧ k.stopped = true ∧ ∀ loss, k.phase ≠ .leaving loss

theorem Effect.stopped (he : Effect c id k s k' told) (hs : k.stopped = true) (hp : ∀ loss, k.phase ≠ .leaving loss) :
    k'.stopped = true ∧ ∀ loss, k'.phase ≠ .leaving loss := by
  cases he with
  | stop => exact ⟨rfl, hp⟩
  | turn =>
    rw [afterLoop_stopped, afterLoop_phase]
    -- A loop that was told to stop does not read any more, so it cannot find the end.
    have ht := Connection.advance_turn k c.config
    generalize k.advance c.config = next at ht
    rcases next with ⟨j, report⟩
    cases ht with
    | halt => exact ⟨hs, nofun⟩
    | breakDown _ h | read _ _ _ h | wait _ h | sense _ h | fault _ h =>
      rw [hs] at h
      cases h
    | output out rest hd => exact ⟨hs, hp⟩
    | pause => exact ⟨hs, nofun⟩
    | leave loss h => exact absurd h (hp loss)
    | rest => exact ⟨hs, hp⟩
  | _ => exact ⟨hs, hp⟩

theorem Halted.step (h : Halted id c) (s : Step) : Halted id (c.step s).1 := by
  obtain ⟨k, hk, hs, hp⟩ := h
  obtain ⟨k', hk', he⟩ := step_effect hk s
  exact ⟨k', hk', he.stopped hs hp⟩

/-- **A connection whose loop was stopped in time is never lost.** -/
theorem Halted.not_lost : ∀ (steps : List Step) {c : Client}, Halted id c → c.Coupled → ∀ reason,
    .emitted id (.connectionLost reason) ∉ (c.run steps).2
  | [], _, _, _ => fun reason hm => by simp [run] at hm
  | s :: rest, c, h, hc => by
    intro reason hm
    rw [run_cons] at hm
    rcases List.mem_append.1 hm with hm | hm
    · obtain ⟨-, -, -, k, loss, hk, leaving⟩ := lost_cases hc hm
      obtain ⟨k', hk', -, hp⟩ := h
      rw [hk] at hk'
      cases hk'
      exact hp loss leaving
    · exact Halted.not_lost rest (h.step s) (hc.move (step_move c s)) reason hm

theorem dropped_step (hd : c.dropped = true) (s : Step) : (c.step s).1.dropped = true := by
  by_cases hs : s = .drop
  · subst hs
    rfl
  · exact ((step_move c s).dropped_eq hs).trans hd

/-- A session that was given up takes no disconnect, so it keeps its connection until this is lost. -/
theorem step_dropped (hc : c.Coupled) (hd : c.dropped = true) (hl : c.session.link = some link) (s : Step) :
    (c.step s).1.session.link = some link ∨ link.id ∈ (c.step s).2.filterMap lost? := by
  cases step_shift hc s with
  | keep state link => exact .inl (link.trans hl)
  | dial free | establish _ free =>
    rw [hl] at free
    cases free
  | handle _ r rest step used known session => exact .inl (by rw [session, Session.accept_link, hl])
  | detach _ alive =>
    rw [hd] at alive
    cases alive
  | lose link' k loss step used connection leaving session length tells =>
    rw [hl] at used
    cases used
    exact .inr (by simp [tells, lost?])

theorem kept_or_lost : ∀ (steps : List Step) {c : Client}, c.Coupled → c.dropped = true →
    c.session.link = some link →
    (c.run steps).1.session.link = some link ∨ link.id ∈ (c.run steps).2.filterMap lost?
  | [], _, _, _, hl => .inl hl
  | s :: rest, c, hc, hd, hl => by
    rw [run_cons, List.filterMap_append]
    rcases step_dropped hc hd hl s with hl | hlost
    · rcases kept_or_lost rest (hc.move (step_move c s)) (dropped_step hd s) hl with hl | hlost
      · exact .inl hl
      · exact .inr (List.mem_append_right _ hlost)
    · exact .inr (List.mem_append_left _ hlost)

theorem lost_iff : id ∈ told.filterMap lost? ↔ ∃ reason, .emitted id (.connectionLost reason) ∈ told := by
  rw [List.mem_filterMap]
  constructor
  · rintro ⟨o, ho, hl⟩
    cases o with
    | emitted i event =>
      cases event with
      | connectionLost reason =>
        cases hl
        exact ⟨reason, ho⟩
      | _ => cases hl
    | _ => cases hl
  · rintro ⟨reason, ho⟩
    exact ⟨_, ho, rfl⟩

/-- **Giving the session up ends the connection in use**: it stays the one in use and is never lost, unless its loop has
found the end by then and is still to say so. -/
theorem drop_run (hc : c.Coupled) (hlt : link.id < c.connections.length) (hl : c.session.link = some link)
    (steps : List Step) :
    ((c.step .drop).1.run steps).1.session.link = some link ∧ link.id ∉ ((c.step .drop).1.run steps).2.filterMap lost? ∨
    link.id ∈ ((c.step .drop).1.run steps).2.filterMap lost? ∧
      ∃ k loss, c.connections[link.id]? = some k ∧ k.phase = .leaving loss := by
  have hcoupled : (c.step .drop).1.Coupled := hc.move (step_move c .drop)
  have hk : c.connections[link.id]? = some c.connections[link.id] := List.getElem?_eq_getElem hlt
  by_cases hp : ∃ loss, c.connections[link.id].phase = .leaving loss
  · by_cases hlost : link.id ∈ ((c.step .drop).1.run steps).2.filterMap lost?
    · obtain ⟨loss, hp⟩ := hp
      exact .inr ⟨hlost, _, loss, hk, hp⟩
    · exact .inl ⟨(kept_or_lost steps hcoupled rfl hl).resolve_right hlost, hlost⟩
  · have hhalted : Halted link.id (c.step .drop).1 := by
      refine ⟨{ c.connections[link.id] with stopped := true }, ?_, rfl, fun loss h => hp ⟨loss, h⟩⟩
      change (c.connections.map _)[link.id]? = _
      rw [List.getElem?_map, hk]
      rfl
    have hlost : link.id ∉ ((c.step .drop).1.run steps).2.filterMap lost? := by
      intro hm
      obtain ⟨reason, hm⟩ := lost_iff.1 hm
      exact hhalted.not_lost steps hcoupled reason hm
    exact .inl ⟨(kept_or_lost steps hcoupled rfl hl).resolve_right hlost, hlost⟩

/-- **Every connection ends once, and every loss is told once.**
- As many calls of `connect` have ended well as connections were lost and were taken away by a disconnect, and one more if
  a connection is in use.  A session that was given up keeps the one that it used then.
- In fact the connections that have ended, and the one in use, are those that were opened, each once and in this order.
- No connection is lost that a disconnect takes away, whatever its other end did.
- The connection in use when the session is given up stays the one in use and is never lost, or its loop had found the end
  by then and was still to say so; then it is lost.
- When a loss is told, nothing else is, the session is disconnected and has no link, and nothing more is told of this
  connection. -/
theorem connections_end_once (config : SessionConfig) (steps : List Step) :
    let ran := run { config } steps
    let c := ran.1
    let told := ran.2
    (told.filterMap opened?).length =
      (told.filterMap lost?).length + (told.filterMap taken?).length + c.session.link.toList.length ∧
    (told.filterMap ended? ++ (c.session.link.map (·.id)).toList = told.filterMap opened? ∧
      (told.filterMap opened?).Nodup) ∧
    (∀ id reason, .disconnected (some id) ∈ told → .emitted id (.connectionLost reason) ∉ told) ∧
    (∀ before after link, steps = before ++ .drop :: after → (run { config } before).1.session.link = some link →
      (c.session.link = some link ∧ link.id ∉ told.filterMap lost?) ∨
      (link.id ∈ told.filterMap lost? ∧
        ∃ k loss, (run { config } before).1.connections[link.id]? = some k ∧ k.phase = .leaving loss)) ∧
    (∀ s id reason, .emitted id (.connectionLost reason) ∈ (c.step s).2 →
      (c.step s).2 = [.emitted id (.connectionLost reason)] ∧
      (c.step s).1.session.state = .disconnected ∧ (c.step s).1.session.link = none ∧
      ∀ more event, .emitted id event ∉ ((c.step s).1.run more).2) := by
  intro ran c told
  have hc : c.Coupled := (coupled_new config).run steps
  have htally : Tally c told := tally_run config steps
  have hperm := Occurrence.ended_perm told
  refine ⟨?_, ⟨?_, ?_⟩, fun id reason htaken hlost => ?_, fun before after link hsteps hl => ?_,
    fun s id reason hm => step_lost hc hm⟩
  · have hlength := congrArg List.length (htally.ended.trans htally.opened.symm)
    rw [List.length_append, hperm.length_eq, List.length_append] at hlength
    cases hl : c.session.link <;> rw [hl] at hlength <;> simpa using hlength.symm
  · rw [htally.ended, htally.opened]
  · rw [htally.opened]
    exact List.nodup_range
  · have hn := hperm.nodup_iff.1 (List.Nodup.of_append_left htally.nodup)
    have hmem : id ∈ told.filterMap lost? := lost_iff.2 ⟨reason, hlost⟩
    have hmem' : id ∈ told.filterMap taken? := List.mem_filterMap.2 ⟨_, htaken, rfl⟩
    exact List.disjoint_of_nodup_append hn hmem hmem'
  · have hbefore : Tally (run { config } before).1 (run { config } before).2 := tally_run config before
    have hran : run { config } steps = ((((run { config } before).1.step .drop).1.run after).1,
        (run { config } before).2 ++ (((run { config } before).1.step .drop).1.run after).2) := by
      rw [hsteps, run_append, run_cons]
      rfl
    have hnot : link.id ∉ (run { config } before).2.filterMap lost? := by
      intro hm
      obtain ⟨reason, hm⟩ := lost_iff.1 hm
      exact hbefore.not_lost hl reason hm
    have htold : link.id ∈ told.filterMap lost? ↔
        link.id ∈ (((run { config } before).1.step .drop).1.run after).2.filterMap lost? := by
      change link.id ∈ (run { config } steps).2.filterMap lost? ↔ _
      rw [hran, List.filterMap_append, List.mem_append, or_iff_right hnot]
    have hlink : c.session.link = (((run { config } before).1.step .drop).1.run after).1.session.link := by
      change (run { config } steps).1.session.link = _
      rw [hran]
    rw [htold, hlink]
    exact drop_run ((coupled_new config).run before) (hbefore.used_lt hl) hl after

end Client
end ChatClient
