import ChatClient.Proofs.Client.History
import ChatClient.Proofs.Client.Intake
import ChatClient.Proofs.Session.Coupling
import Mathlib.Data.List.Basic
/-!
# Reception — what the observer hears of a stream

The other end of a new connection sends a stream of whole frames, and the front of one more behind them, and may close.
Between the calls of the client its sends and its close, the turns of the loop and everything that goes on around them come
in any order (`Step.passive`).  The observer then hears of each frame, in order, and of the close, and of nothing else
(`reception`).

The proof follows the events still to come (`Course`): every step emits the first few of them and keeps the others.
-/
namespace ChatClient

open Network (Act)

/-- The event that the observer is told of this connection. -/
def Occurrence.eventOn? (id : Nat) : Occurrence → Option Event
  | emitted i event => if i = id then some event else none
  | _ => none

namespace Occurrence

variable {id i : Nat}

@[simp] theorem eventOn?_emitted (event : Event) : (emitted i event).eventOn? id = if i = id then some event else none :=
  rfl

@[simp] theorem eventOn?_handled (r : Response) : (handled i r).eventOn? id = none := rfl

@[simp] theorem eventOn?_noted (note : Outstanding.Note) (answer : Option Match) :
    (noted i note answer).eventOn? id = none := rfl

theorem events_on {told : List Occurrence} (h : ∀ i event, .emitted i event ∈ told → i = id) :
    told.filterMap event? = told.filterMap (eventOn? id) := by
  refine List.filterMap_congr fun o ho => ?_
  cases o with
  | emitted i event => rw [eventOn?_emitted, if_pos (h i event ho), event?]
  | _ => rfl

end Occurrence

namespace Step

/-- A step that is no part of a call: a loop goes on, a handshake is answered, time goes by, or another end acts.  That of
this connection does not reset it, and has nothing to refuse. -/
def passive (id : Nat) : Step → Bool
  | .answer .. | .wait _ | .receive _ => true
  | .peer i act => i ≠ id || act ≠ .reset && act ≠ .refuse
  | _ => false

/-- What the other end of a connection sends before it closes. -/
def inflow (id : Nat) : List Step → Bytes
  | [] => []
  | .peer i (.send octets) :: rest => if i = id then octets ++ inflow id rest else inflow id rest
  | .peer i .close :: rest => if i = id then [] else inflow id rest
  | _ :: rest => inflow id rest

theorem inflow_receives (id : Nat) : ∀ n, inflow id (List.replicate n (.receive id)) = []
  | 0 => rfl
  | n + 1 => inflow_receives id n

end Step

/-! ## One frame -/

namespace Response

/-- The acknowledgement of a login with success. -/
def welcome : Bytes := (ack .login ⟨0⟩).frame

/-- What the observer is to hear of a frame. -/
def heard (f : Bytes) : Event :=
  match decode f with
  | .ok (.ack .login code) => if code.value = 0 then .authenticated code.text else .loginFailed code code.text
  | .ok (.ack command code) => .commandResult command code code.text
  | .ok (.delivery sender message) => .incomingWhisper sender message
  | .error e => .frameDiscarded e.message

variable {f : Bytes} {r : Response}

theorem heard_of_ok (h : decode f = .ok r) : heard f = r.event := by
  unfold heard
  rw [h]
  cases r with
  | ack command code => cases command <;> simp [event, ReturnCode.isSuccess]
  | delivery sender message => rfl

theorem heard_of_error {e : FrameError} (h : decode f = .error e) : heard f = .frameDiscarded e.message := by
  unfold heard
  rw [h]

theorem heard_ne_connectionLost (f : Bytes) (reason : String) : heard f ≠ .connectionLost reason := by
  unfold heard
  split
  · split <;> nofun
  all_goals nofun

theorem decode_welcome : decode welcome = .ok (.ack .login ⟨0⟩) :=
  decode_eq_ok_iff.2 (encode_eq_ok_iff.2 ⟨nofun, rfl⟩)

theorem eq_welcome_iff (h : decode f = .ok r) : f = welcome ↔ r = .ack .login ⟨0⟩ := by
  constructor
  · rintro rfl
    rw [decode_welcome] at h
    exact (Except.ok.inj h).symm
  · rintro rfl
    exact (encode_eq_ok_iff.1 (decode_eq_ok_iff.1 h)).2.symm

end Response

open Response (welcome heard)

/-- **A session is authenticated by a welcome** and by no other frame. -/
theorem Session.accept_state {s : Session} {f : Bytes} {r : Response} (hs : s.state.isConnected = true)
    (hr : Response.decode f = .ok r) :
    (s.accept r).1.state = if f = welcome then .authenticated else s.state := by
  rw [accept_state_eq hs]
  simp only [Response.eq_welcome_iff hr]

namespace Client

variable {c c' : Client} {id : Nat} {steps : List Step} {frames : List Bytes} {tail : Bytes} {closes : Bool}
  {last : Session.State} {events : List Event}

/-! ## The events still to come -/

/-- A connection in use that has these frames still to hand on, and then the close, if it comes.  After the frames the
session is in the state `last`. -/
structure Receiving (id : Nat) (frames : List Bytes) (tail : Bytes) (closes : Bool) (last : Session.State)
    (steps : List Step) (c : Client) (k : Connection) : Prop where
  connection : c.connections[id]? = some k
  intake : k.Intake c.config.maxFieldLength.toNat (Step.inflow id steps) frames tail
  spacious : c.config.Spacious
  uses : c.session.uses id = true
  connected : c.session.state.isConnected = true
  last : last = if welcome ∈ frames then .authenticated else c.session.state
  closes : closes = true ↔ k.socket.peer = .closed ∨ .peer id .close ∈ steps

/-- A connection whose end was reported. -/
structure Lost (id : Nat) (tail : Bytes) (c : Client) (k : Connection) : Prop where
  connection : c.connections[id]? = some k
  phase : k.phase = .ended
  buffer : k.buffer = tail
  link : c.session.link = none
  state : c.session.state = .disconnected

def parting : Event := .connectionLost Loss.closed.message

inductive Course (id : Nat) (tail : Bytes) (closes : Bool) (last : Session.State) (steps : List Step) (c : Client) :
    List Event → Prop
  | going {frames : List Bytes} {k : Connection} : Receiving id frames tail closes last steps c k →
      Course id tail closes last steps c (frames.map heard ++ if closes then [parting] else [])
  | done {k : Connection} : closes = true → Lost id tail c k → Course id tail closes last steps c []

namespace Course

theorem not_uses {i : Nat} (h : Course id tail closes last steps c events) (hi : i ≠ id) : c.session.uses i = false := by
  cases h with
  | going h =>
    have hu := h.uses
    unfold Session.uses at hu ⊢
    cases hl : c.session.link with
    | none => rfl
    | some link =>
      rw [hl] at hu
      have hid : link.id = id := by simpa using hu
      simp [hid, Ne.symm hi]
  | done _ h =>
    unfold Session.uses
    rw [h.link]
    rfl

/-- What goes on around the connection and its session makes no difference. -/
theorem frame {steps' : List Step} (h : Course id tail closes last steps c events)
    (hk : c'.connections[id]? = c.connections[id]?) (hs : c'.session = c.session) (hg : c'.config = c.config)
    (hin : Step.inflow id steps' = Step.inflow id steps) (hclose : .peer id .close ∈ steps' ↔ .peer id .close ∈ steps) :
    Course id tail closes last steps' c' events := by
  cases h with
  | going h =>
    refine .going ⟨hk.trans h.connection, ?_, hg ▸ h.spacious, hs ▸ h.uses, hs ▸ h.connected, hs ▸ h.last, ?_⟩
    · rw [hg, hin]
      exact h.intake
    · rw [hclose]
      exact h.closes
  | done hc h => exact .done hc ⟨hk.trans h.connection, h.phase, h.buffer, hs ▸ h.link, hs ▸ h.state⟩

end Course

theorem receive_other {i : Nat} (hi : i ≠ id) (hu : c.session.uses i = false) :
    (c.receive i).1.connections[id]? = c.connections[id]? ∧ (c.receive i).1.session = c.session ∧
      (c.receive i).2.filterMap (Occurrence.eventOn? id) = [] := by
  have hm := receive_move (c := c) i
  have hset : ∀ k : Connection, (c.connections.set i k)[id]? = c.connections[id]? := fun k => List.getElem?_set_ne hi
  generalize c.receive i = r at hm
  cases r with
  | mk c' told =>
    cases hm with
    | idle => exact ⟨rfl, rfl, rfl⟩
    | loop | passOver => exact ⟨hset _, rfl, rfl⟩
    | discard => exact ⟨hset _, rfl, by simp [hi]⟩
    | handle | lose =>
      rename_i h
      rw [hu] at h
      cases h

/-! ## A step of the loop -/

/-- The frames that remain lead to the same state as before one of them was handed on. -/
theorem last_of_handed_on {f : Bytes} {st st' : Session.State} (hst : st' = if f = welcome then .authenticated else st) :
    (if welcome ∈ f :: frames then Session.State.authenticated else st) =
      if welcome ∈ frames then .authenticated else st' := by
  rw [hst]
  by_cases hw : welcome ∈ frames
  · rw [if_pos hw, if_pos (List.mem_cons_of_mem f hw)]
  · rw [if_neg hw]
    by_cases hf : f = welcome
    · rw [if_pos hf, if_pos (hf ▸ List.mem_cons_self)]
    · rw [if_neg hf, if_neg (fun h => (List.mem_cons.1 h).elim (fun he => hf he.symm) hw)]

namespace Receiving

variable {k k' : Connection}

theorem silent (h : Receiving id frames tail closes last steps c k) (hadv : k.advance c.config = (k', none)) :
    Receiving id frames tail closes last steps (c.setConnection id (c.afterLoop k')) k' := by
  have ht := Connection.advance_turn k c.config
  rw [hadv] at ht
  obtain ⟨hintake, hpeer⟩ := h.intake.silent h.spacious ht
  refine ⟨?_, hintake, h.spacious, h.uses, h.connected, h.last, ?_⟩
  · rw [afterLoop_eq hintake.alive]
    exact getElem?_set h.connection
  · rw [hpeer]
    exact h.closes

/-- **A frame is handed on**: the observer hears of it, and the session knows it if it is a welcome. -/
theorem output {out : Except FrameError Response} (h : Receiving id frames tail closes last steps c k)
    (hadv : k.advance c.config = (k', some (.output out))) :
    ∃ f left, frames = f :: left ∧ (c.receive id).2.filterMap (Occurrence.eventOn? id) = [heard f] ∧
      Receiving id left tail closes last steps (c.receive id).1 k' := by
  have ht := Connection.advance_turn k c.config
  rw [hadv] at ht
  obtain ⟨f, left, rfl, hout, hintake, hpeer⟩ := h.intake.output ht
  have hk : (c.connections.set id (c.afterLoop k'))[id]? = some k' := by
    rw [afterLoop_eq hintake.alive]
    exact getElem?_set h.connection
  have hcloses := h.closes
  rw [← hpeer] at hcloses
  rw [receive_report h.connection hadv]
  refine ⟨f, left, rfl, ?_⟩
  cases hd : Response.decode f with
  | error e =>
    rw [hd] at hout
    subst hout
    have hf : f ≠ welcome := by
      rintro rfl
      rw [Response.decode_welcome] at hd
      cases hd
    refine ⟨?_, hk, hintake, h.spacious, h.uses, h.connected, ?_, hcloses⟩
    · rw [Response.heard_of_error hd]
      simp [take]
    · rw [h.last]
      exact last_of_handed_on (if_neg hf).symm
  | ok r =>
    rw [hd] at hout
    subst hout
    have hstate := Session.accept_state h.connected hd
    have huses : (c.setConnection id (c.afterLoop k')).session.uses id = true := h.uses
    rw [take, if_pos huses]
    refine ⟨?_, hk, hintake, h.spacious, ?_, ?_, ?_, hcloses⟩
    · rw [Response.heard_of_ok hd]
      cases r.command? <;> simp [List.filterMap_cons]
    · change (c.session.accept r).1.uses id = true
      cases r <;> exact h.uses
    · change (c.session.accept r).1.state.isConnected = true
      rw [hstate]
      split
      · rfl
      · exact h.connected
    · rw [h.last]
      exact last_of_handed_on hstate

/-- **The end is reported**: every frame was handed on, and the other end has closed. -/
theorem lost {loss : Loss} (h : Receiving id frames tail closes last steps c k)
    (hadv : k.advance c.config = (k', some (.lost loss))) :
    frames = [] ∧ closes = true ∧ (c.receive id).2.filterMap (Occurrence.eventOn? id) = [parting] ∧
      Lost id tail (c.receive id).1 (c.afterLoop k') := by
  have ht := Connection.advance_turn k c.config
  rw [hadv] at ht
  obtain ⟨rfl, hnil, hpeer, hphase, hbuffer⟩ := h.intake.lost ht
  have huses : (c.setConnection id (c.afterLoop k')).session.uses id = true := h.uses
  rw [receive_report h.connection hadv, take, if_pos huses]
  refine ⟨hnil, h.closes.2 (.inl hpeer), ?_, ⟨getElem?_set h.connection, ?_, ?_, rfl, rfl⟩⟩
  · simp [parting]
  · rw [afterLoop_phase]
    exact hphase
  · rw [afterLoop_buffer]
    exact hbuffer

end Receiving

theorem Lost.rest {k : Connection} (h : Lost id tail c k) :
    Lost id tail (c.setConnection id (c.afterLoop k)) (c.afterLoop k) where
  connection := getElem?_set h.connection
  phase := afterLoop_phase.trans h.phase
  buffer := afterLoop_buffer.trans h.buffer
  link := h.link
  state := h.state

namespace Course

/-- **A loop goes on**, this one or another: the first few of the events are emitted, and the others are still to come. -/
theorem receive (h : Course id tail closes last steps c events) (i : Nat) :
    ∃ later, events = (c.receive i).2.filterMap (Occurrence.eventOn? id) ++ later ∧
      Course id tail closes last steps (c.receive i).1 later := by
  by_cases hi : i = id
  · subst hi
    cases h with
    | going h =>
      rename_i k
      cases hadv : k.advance c.config with
      | mk k' report =>
        rcases report with _ | out | loss
        · rw [receive_silent h.connection hadv]
          exact ⟨_, rfl, .going (h.silent hadv)⟩
        · obtain ⟨f, left, rfl, htold, h'⟩ := h.output hadv
          rw [htold]
          exact ⟨_, rfl, .going h'⟩
        · obtain ⟨rfl, hc, htold, h'⟩ := h.lost hadv
          rw [htold, hc]
          exact ⟨_, rfl, .done rfl h'⟩
    | done hc h =>
      rename_i k
      rw [receive_silent h.connection (Connection.advance_of_ended h.phase)]
      exact ⟨_, rfl, .done hc h.rest⟩
  · -- Another loop: the session does not use its connection, so it can tell of unreadable frames only, and under its name.
    obtain ⟨hk, hs, htold⟩ := receive_other hi (h.not_uses hi)
    rw [htold]
    exact ⟨_, rfl, h.frame hk hs (receive_move i).config_eq rfl Iff.rfl⟩

/-- The other end of a connection sends or closes. -/
theorem peer {i : Nat} {act : Act} (h : Course id tail closes last (.peer i act :: steps) c events)
    (hp : (Step.peer i act).passive id = true) : Course id tail closes last steps (c.step (.peer i act)).1 events := by
  by_cases hi : i = id
  · subst hi
    have hmeet : ∀ {k : Connection}, c.connections[i]? = some k →
        (c.step (.peer i act)).1.connections[i]? = some { k with socket := k.socket.meet act } := by
      intro k hk
      change (c.connections.modify i _)[i]? = _
      rw [List.getElem?_modify_eq, hk]
      rfl
    cases h with
    | going h =>
      cases act with
      | send octets =>
        refine .going ⟨hmeet h.connection, ?_, h.spacious, h.uses, h.connected, h.last, ?_⟩
        · apply Connection.Intake.send
          have hin := h.intake
          rwa [Step.inflow, if_pos rfl] at hin
        · rw [h.closes, Network.Socket.meet_send_peer]
          simp
      | close =>
        refine .going ⟨hmeet h.connection, ?_, h.spacious, h.uses, h.connected, h.last, ?_⟩
        · apply Connection.Intake.close
          have hin := h.intake
          rwa [Step.inflow, if_pos rfl] at hin
        · rw [h.closes, Network.Socket.meet_close_peer h.intake.peer]
          simp
      | reset | refuse => simp [Step.passive] at hp
      | arrive | choke | discard =>
        refine .going ⟨hmeet h.connection, h.intake.outward rfl, h.spacious, h.uses, h.connected, h.last, ?_⟩
        rw [h.closes, (Network.Socket.meet_outward rfl).2]
        simp
    | done hc h => exact .done hc ⟨hmeet h.connection, h.phase, h.buffer, h.link, h.state⟩
  · refine h.frame (List.getElem?_modify_ne _ _ hi) rfl rfl ?_ ?_
    · cases act <;> simp [Step.inflow, hi]
    · simp [Ne.symm hi]

theorem step {s : Step} (h : Course id tail closes last (s :: steps) c events) (hs : s.passive id = true) :
    ∃ later, events = (c.step s).2.filterMap (Occurrence.eventOn? id) ++ later ∧
      Course id tail closes last steps (c.step s).1 later := by
  cases s with
  | receive i =>
    have h' : Course id tail closes last steps c events := h.frame rfl rfl rfl rfl (by simp)
    exact h'.receive i
  | peer i act => exact ⟨_, rfl, h.peer hs⟩
  | answer | wait => exact ⟨_, rfl, h.frame rfl rfl rfl rfl (by simp)⟩
  | _ => cases hs

/-- **Between two calls the events come in their order**, whatever the order of the steps. -/
theorem run : ∀ {steps : List Step} {c : Client} {events : List Event}, Course id tail closes last steps c events →
    (∀ s ∈ steps, s.passive id = true) →
    ∃ later, events = (c.run steps).2.filterMap (Occurrence.eventOn? id) ++ later ∧
      Course id tail closes last [] (c.run steps).1 later
  | [], c, events, h, _ => ⟨events, rfl, h⟩
  | s :: steps, c, events, h, hp => by
    obtain ⟨hs, hsteps⟩ := List.forall_mem_cons.1 hp
    obtain ⟨events', rfl, h'⟩ := h.step hs
    obtain ⟨later, rfl, h''⟩ := run h' hsteps
    refine ⟨later, ?_, h''⟩
    rw [run_cons, List.filterMap_append, List.append_assoc]

theorem receiveAll (h : Course id tail closes last [] c events) :
    ∃ later, events = (c.receiveAll id).2.filterMap (Occurrence.eventOn? id) ++ later ∧
      Course id tail closes last [] (c.receiveAll id).1 later := by
  obtain ⟨n, hn⟩ := receiveAll_eq_run c id
  rw [hn]
  have hsteps : Course id tail closes last (List.replicate n (.receive id)) c events := by
    refine h.frame rfl rfl rfl (Step.inflow_receives id n) ⟨fun hm => ?_, nofun⟩
    cases List.eq_of_mem_replicate hm
  refine hsteps.run fun s hs => ?_
  rw [List.eq_of_mem_replicate hs]
  rfl

/-- **A loop that has come to rest has no event left**; it keeps the front of the next frame, and the state is the last. -/
theorem of_idle {k : Connection} (h : Course id tail closes last [] c events) (hk : c.connections[id]? = some k)
    (hi : k.idle c.config = true) :
    events = [] ∧ c.session.state = (if closes then .disconnected else last) ∧ k.buffer = tail := by
  cases h with
  | going h =>
    cases hk.symm.trans h.connection
    -- It waits for an open end from which nothing will come, so its buffer is all that is left of the stream.
    have hp : k.phase = .reading := by
      have halive := h.intake.alive
      cases hp : k.phase <;> simp_all [Connection.idle]
    have hq : k.socket.waiting = [] ∧ k.socket.peer = .opened := by
      have hroomy := h.intake.roomy h.spacious (by simp [hp])
      simpa [Connection.idle, hp, h.intake.running, hroomy, Network.Socket.quiet] using hi
    have hd : k.phase ≠ .draining := by
      rw [hp]
      intro hd
      cases hd
    obtain ⟨rfl, hbuffer⟩ := h.intake.all_handed_on hd hq.1 fun _ => rfl
    have hc : closes = false := by
      rw [← Bool.not_eq_true, h.closes, hq.2]
      simp
    refine ⟨by rw [hc]; rfl, ?_, hbuffer⟩
    rw [hc, h.last]
    rfl
  | done hc h =>
    cases hk.symm.trans h.connection
    exact ⟨rfl, by rw [hc]; exact h.state, h.buffer⟩

theorem connection (h : Course id tail closes last steps c events) : ∃ k, c.connections[id]? = some k := by
  cases h with
  | going h => exact ⟨_, h.connection⟩
  | done _ h => exact ⟨_, h.connection⟩

/-- **Right before the loss is told**, every other event has been, and the state is the last. -/
theorem before_loss {reason : String} (h : Course id tail closes last steps c events)
    (hm : .emitted id (.connectionLost reason) ∈ (c.receive id).2) :
    c.session.state = last ∧ closes = true ∧ events = [parting] := by
  have hmem : Event.connectionLost reason ∈ (c.receive id).2.filterMap (Occurrence.eventOn? id) :=
    List.mem_filterMap.2 ⟨_, hm, by simp⟩
  cases h with
  | going h =>
    rename_i k
    cases hadv : k.advance c.config with
    | mk k' report =>
      rcases report with _ | out | loss
      · rw [receive_silent h.connection hadv] at hmem
        cases hmem
      · obtain ⟨f, left, rfl, htold, -⟩ := h.output hadv
        rw [htold, List.mem_singleton] at hmem
        exact absurd hmem.symm (Response.heard_ne_connectionLost f reason)
      · obtain ⟨rfl, hc, -⟩ := h.lost hadv
        exact ⟨h.last.symm, hc, by rw [hc]; rfl⟩
  | done hc h =>
    rename_i k
    rw [receive_silent h.connection (Connection.advance_of_ended h.phase)] at hmem
    cases hmem

end Course

/-! ## From the end of a connect -/

/-- A new connection has the whole stream still to hand on. -/
theorem receiving_new {call : Nat} (hnew : .connected call id ∈ (c.step (.finish call)).2) (hconfig : c.config.Spacious)
    (hframed : (Inbound.responses c.config.maxFieldLength.toNat).Framed frames tail)
    (hsent : Step.inflow id steps = frames.flatten ++ tail) :
    ∃ k, Receiving id frames tail (.peer id .close ∈ steps)
      (if welcome ∈ frames then .authenticated else .connected) steps (c.step (.finish call)).1 k := by
  have hm := step_move c (.finish call)
  generalize c.step (.finish call) = r at hm hnew
  cases r with
  | mk c' told =>
    cases hm with
    | idle => cases hnew
    | abandon | fail => simp at hnew
    | establish a ha hc ho =>
      have hid : id = c.connections.length := by simpa using hnew
      subst hid
      refine ⟨{ peer := a.target }, List.getElem?_concat_length, ?_, hconfig, by simp [Session.uses, Session.connected], rfl,
        rfl, ?_⟩
      · refine ⟨hframed, ?_, rfl, .inl rfl, fun _ => ?_, by simp, by simp⟩
        · rw [← hsent]
          rfl
        · exact Inbound.next_eq_none_iff.2 (.inl Nat.zero_lt_two)
      · simp

theorem receiveAll_config (c : Client) (id : Nat) : (c.receiveAll id).1.config = c.config := by
  obtain ⟨n, hn⟩ := receiveAll_eq_run c id
  rw [hn, run_config]

theorem Move.emitted {s : Step} {told : List Occurrence} {i : Nat} {event : Event} (hm : Move c s c' told)
    (h : .emitted i event ∈ told) : s = .receive i := by
  cases hm <;> simp_all

theorem receive_of_emitted {i : Nat} {event : Event} : ∀ {c : Client} {steps : List Step},
    .emitted i event ∈ (c.run steps).2 → .receive i ∈ steps
  | c, s :: steps, h => by
    rw [run_cons] at h
    rcases List.mem_append.1 h with h | h
    · rw [(step_move c s).emitted h]
      exact List.mem_cons_self
    · exact List.mem_cons_of_mem s (receive_of_emitted h)

/-- **The observer hears of each frame that the other end sends, in order, and of its close, and of nothing else.**  A call
of `connect` has just ended with a new connection; no other call begins.
- However the stream is cut by the sends and by the reads, each whole frame is one event, one that is unreadable included,
  and the front of one more is none; the end is one event if the other end closes.
- The session is authenticated by a welcome in the stream, and by that only, until it is told of the end.
- The loop comes to rest, with the front of the next frame in its buffer.
- Whenever the loop is about to tell the end, every frame has been told, and the session is in its last state.
- If no other loop goes on, these are all the events there are. -/
theorem reception {call : Nat} (hnew : .connected call id ∈ (c.step (.finish call)).2) (hconfig : c.config.Spacious)
    (hsteps : ∀ s ∈ steps, s.passive id = true)
    (hframed : (Inbound.responses c.config.maxFieldLength.toNat).Framed frames tail)
    (hsent : Step.inflow id steps = frames.flatten ++ tail) :
    let ran := (c.step (.finish call)).1.run steps
    let settled := ran.1.receiveAll id
    let told := ran.2 ++ settled.2
    let last : Session.State := if welcome ∈ frames then .authenticated else .connected
    told.filterMap (Occurrence.eventOn? id) =
      frames.map heard ++ (if .peer id .close ∈ steps then [.connectionLost "server closed the connection"] else []) ∧
    settled.1.session.state = (if .peer id .close ∈ steps then .disconnected else last) ∧
    (∃ k, settled.1.connections[id]? = some k ∧ k.idle c.config = true ∧ k.buffer = tail) ∧
    (∀ reason, .emitted id (.connectionLost reason) ∈ (ran.1.step (.receive id)).2 →
      ran.2.filterMap (Occurrence.eventOn? id) = frames.map heard ∧ ran.1.session.state = last) ∧
    ((∀ i, .receive i ∈ steps → i = id) →
      told.filterMap Occurrence.event? = told.filterMap (Occurrence.eventOn? id)) := by
  intro ran settled told last
  obtain ⟨k, hk⟩ := receiving_new hnew hconfig hframed hsent
  obtain ⟨later, hran, hcourse⟩ := (Course.going hk).run hsteps
  obtain ⟨rest, hsettled, hcourse'⟩ := hcourse.receiveAll
  obtain ⟨k', hk'⟩ := hcourse.connection
  obtain ⟨k'', hk'', hidle⟩ := receiveAll_idle hk'
  have hran' : ran.1.config = c.config := (run_config _ _).trans (step_move c _).config_eq
  have hsettled' : settled.1.config = ran.1.config := receiveAll_config _ _
  obtain ⟨hrest, hstate, hbuffer⟩ := hcourse'.of_idle hk'' (hsettled' ▸ hidle)
  rw [hran'] at hidle
  refine ⟨?_, ?_, ⟨k'', hk'', hidle, hbuffer⟩, fun reason hm => ?_, fun honly => ?_⟩
  · rw [hrest, List.append_nil] at hsettled
    rw [List.filterMap_append, ← hsettled, ← hran]
    simp only [decide_eq_true_eq]
    rfl
  · rw [hstate]
    simp only [decide_eq_true_eq]
    rfl
  · obtain ⟨hlast, hcloses, rfl⟩ := hcourse.before_loss hm
    rw [if_pos hcloses] at hran
    exact ⟨(List.append_cancel_right hran).symm, hlast⟩
  · refine Occurrence.events_on fun i event hm => ?_
    obtain ⟨n, hn⟩ := receiveAll_eq_run ran.1 id
    rcases List.mem_append.1 hm with hm | hm
    · exact honly i (receive_of_emitted hm)
    · rw [show settled = _ from hn] at hm
      exact Step.receive.inj (List.eq_of_mem_replicate (receive_of_emitted hm))

/-- A welcome and a delivery whose sender is no text, cut in the middle, with the front of an acknowledgement behind them. -/
theorem reception_of_cut_stream :
    let c := (run {} [.connect ⟨"localhost", 47007⟩, .answer 0 .accepted]).1
    let steps : List Step :=
      [.peer 0 (.send [0]), .receive 0, .receive 0, .peer 0 (.send [200, 0, 0, 1, 43, 0, 0, 0, 1, 255, 0, 0]),
        .wait 7, .receive 0, .peer 0 (.send [0, 0, 0, 202]), .peer 0 .close]
    let frames : List Bytes := [[0, 200, 0, 0], [1, 43, 0, 0, 0, 1, 255, 0, 0, 0, 0]]
    let tail : Bytes := [0, 202]
    let ran := (c.step (.finish 0)).1.run steps
    let settled := ran.1.receiveAll 0
    (.connected 0 0 ∈ (c.step (.finish 0)).2 ∧ c.config.Spacious ∧ (∀ s ∈ steps, s.passive 0 = true) ∧
      (Inbound.responses c.config.maxFieldLength.toNat).Framed frames tail ∧
      Step.inflow 0 steps = frames.flatten ++ tail) ∧
    (ran.2 ++ settled.2).filterMap Occurrence.event? =
      [.authenticated "Action successful",
        .frameDiscarded "malformed frame: sender is not UTF-8: invalid utf-8 sequence of 1 bytes from index 0",
        .connectionLost "server closed the connection"] ∧
    settled.1.session.state = .disconnected := by
  intro c steps frames tail ran settled
  have hnew : .connected 0 0 ∈ (c.step (.finish 0)).2 := List.mem_cons_of_mem _ List.mem_cons_self
  have hconfig : c.config.Spacious := by decide +kernel
  have hsteps : ∀ s ∈ steps, s.passive 0 = true := by decide
  have hsent : Step.inflow 0 steps = frames.flatten ++ tail := by decide
  have hframed : (Inbound.responses c.config.maxFieldLength.toNat).Framed frames tail := by
    refine ⟨List.forall_mem_cons.2 ⟨?_, List.forall_mem_singleton.2 ?_⟩, ?_⟩
    · exact ⟨.command .login, .code, [0, 0], rfl, rfl, rfl⟩
    · refine ⟨.delivery, .texts 2, [0, 0, 0, 1, 255, 0, 0, 0, 0], rfl, rfl, ?_⟩
      exact .cons (s := [255]) rfl (by decide) (.cons (s := []) rfl (by decide) .nil)
    · exact .inr ⟨.command .join, .code, [], rfl, rfl, Nat.zero_lt_two⟩
  obtain ⟨hevents, hstate, -, -, hall⟩ := reception hnew hconfig hsteps hframed hsent
  have honly : ∀ i, .receive i ∈ steps → i = 0 := by simp [steps]
  refine ⟨⟨hnew, hconfig, hsteps, hframed, hsent⟩, (hall honly).trans (hevents.trans ?_), ?_⟩
  · have hclose : Step.peer 0 .close ∈ steps := by decide
    have hwelcome : heard [0, 200, 0, 0] = .authenticated "Action successful" := by decide +kernel
    have hbad : heard [1, 43, 0, 0, 0, 1, 255, 0, 0, 0, 0] =
        .frameDiscarded "malformed frame: sender is not UTF-8: invalid utf-8 sequence of 1 bytes from index 0" := by
      decide +kernel
    rw [if_pos hclose, List.map_cons, List.map_singleton, hwelcome, hbad]
    rfl
  · have hclose : Step.peer 0 .close ∈ steps := by decide
    rw [hstate, if_pos hclose]

end Client
end ChatClient
