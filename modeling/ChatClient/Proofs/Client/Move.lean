import ChatClient.Client
/-!
# Move — everything a step can do

A step of a client either finds that its moment has not come, or is turned down, or makes one of a few moves, each under a
guard: `Move` lists them, with what becomes of the client and what is told, and `step_move` says that there are no others.
What every step keeps is then shown move by move.
-/
namespace ChatClient
namespace Client

open Network (Endpoint Answer Act Fault)

/-- A connection whose loop has just made a step: the last loop that holds a connection of a session given up closes it. -/
def afterLoop (c : Client) (k : Connection) : Connection :=
  if c.dropped && k.phase = .ended then { k with socket := k.socket.shutdown } else k

inductive Move (c : Client) : Step → Client → List Occurrence → Prop
  | idle (s : Step) : Move c s c []
  | refuseConnect (target : Endpoint) : c.dropped = false → c.session.state ≠ .disconnected →
      Move c (.connect target) c [.refused .alreadyConnected]
  | start (target : Endpoint) : c.dropped = false → c.session.state = .disconnected →
      Move c (.connect target)
        { c with
          session := { c.session with state := .connecting, pending := some c.calls }
          calls := c.calls + 1
          attempts := c.attempts ++
            [{ call := c.calls, target, deadline := c.now + c.config.connectTimeout.nanoseconds }] }
        [.started c.calls]
  | answer (call : Nat) (answer : Answer) :
      Move c (.answer call answer)
        { c with attempts := c.attempts.map fun a => if a.call = call then Attempt.meet answer a else a } []
  | wait (span : Nat) :
      Move c (.wait span)
        { c with now := c.now + span, attempts := c.attempts.map (Attempt.expire (c.now + span)) } []
  | abandon (a : Attempt) : c.attempts.find? (·.call = a.call) = some a → a.cancelled = true →
      Move c (.finish a.call) { c with attempts := c.attempts.filter (·.call ≠ a.call) } [.unconnected a.call .abandoned]
  | fail (a : Attempt) (e : Network.Error) : c.attempts.find? (·.call = a.call) = some a → a.cancelled = false →
      a.outcome = some (.error e) →
      Move c (.finish a.call)
        { c with session := c.session.unconnected, attempts := c.attempts.filter (·.call ≠ a.call) }
        [.unconnected a.call e]
  | establish (a : Attempt) : c.attempts.find? (·.call = a.call) = some a → a.cancelled = false →
      a.outcome = some (.ok ()) →
      Move c (.finish a.call)
        { c with
          session := c.session.connected ⟨c.connections.length, a.target⟩
          attempts := c.attempts.filter (·.call ≠ a.call)
          connections := c.connections ++ [{ peer := a.target }] }
        [.noted c.connections.length .reset none, .connected a.call c.connections.length]
  | refuseSend (r : Request) (e : Session.Error) : c.dropped = false → c.session.dispatch r = .error e →
      Move c (.send r) c [.refused e]
  | dispatch (r : Request) (link : Link) (octets : Bytes) : c.dropped = false →
      Session.objection c.session.state r.command = none → r.encode = .ok octets → c.session.link = some link →
      Move c (.send r)
        { c with
          session := { c.session with outstanding := c.session.outstanding.sent r.command }
          calls := c.calls + 1
          writes := c.writes ++ [{ call := c.calls, id := link.id, request := r, octets }] }
        [.noted link.id (.sent r.command) none, .started c.calls]
  | write (w : Write) (k : Connection) (socket : Network.Socket) : c.writes.find? (·.call = w.call) = some w →
      w.fault = none → c.connections[w.id]? = some k → k.socket.write w.octets = (socket, none) →
      Move c (.write w.call)
        { c.setConnection w.id { k with socket } with writes := c.writes.filter (·.call ≠ w.call) }
        [.sent w.call w.id w.request]
  | failWrite (w : Write) (k : Connection) (socket : Network.Socket) (f : Fault) :
      c.writes.find? (·.call = w.call) = some w → w.fault = none → c.connections[w.id]? = some k →
      k.socket.write w.octets = (socket, some f) →
      Move c (.write w.call)
        { c.setConnection w.id { k with socket } with
          writes := c.writes.map fun v => if v.call = w.call then { v with fault := some f } else v } []
  | retract (w : Write) (f : Fault) : c.writes.find? (·.call = w.call) = some w → w.fault = some f →
      c.session.uses w.id = true →
      Move c (.retract w.call)
        { c with session := c.session.retract w.request.command, writes := c.writes.filter (·.call ≠ w.call) }
        [.noted w.id (.failed w.request.command) none, .unsent w.call w.id w.request f]
  | forgo (w : Write) (f : Fault) : c.writes.find? (·.call = w.call) = some w → w.fault = some f →
      c.session.uses w.id = false →
      Move c (.retract w.call) { c with writes := c.writes.filter (·.call ≠ w.call) }
        [.unsent w.call w.id w.request f]
  | disconnectNone : c.dropped = false → c.session.state = .disconnected → Move c .disconnect c [.disconnected none]
  | callOff : c.dropped = false → c.session.state ≠ .disconnected → c.session.link = none →
      Move c .disconnect
        { c with
          session := c.session.release
          attempts := c.attempts.map fun a => if c.session.pending = some a.call then { a with cancelled := true } else a }
        [.disconnected none]
  | detach (link : Link) : c.dropped = false → c.session.state ≠ .disconnected → c.session.link = some link →
      Move c .disconnect
        { c with
          session := c.session.release
          attempts := c.attempts.map fun a => if c.session.pending = some a.call then { a with cancelled := true } else a
          closing := c.closing ++ [link.id]
          connections := c.connections.modify link.id fun k => { k with stopped := true } }
        [.disconnected (some link.id)]
  | close (id : Nat) : id ∈ c.closing →
      Move c (.close id)
        { c with
          closing := c.closing.filter (· ≠ id)
          connections := c.connections.modify id fun k => { k with socket := k.socket.shutdown } } []
  | loop (id : Nat) (k k' : Connection) : c.connections[id]? = some k → k.advance c.config = (k', none) →
      Move c (.receive id) (c.setConnection id (c.afterLoop k')) []
  | discard (id : Nat) (k k' : Connection) (e : FrameError) : c.connections[id]? = some k →
      k.advance c.config = (k', some (.output (.error e))) →
      Move c (.receive id) (c.setConnection id (c.afterLoop k')) [.emitted id (.frameDiscarded e.message)]
  | handle (id : Nat) (k k' : Connection) (r : Response) : c.connections[id]? = some k →
      k.advance c.config = (k', some (.output (.ok r))) → c.session.uses id = true →
      Move c (.receive id) { c.setConnection id (c.afterLoop k') with session := (c.session.accept r).1 }
        (.handled id r :: (r.command?.map fun command => .noted id (.received command) (c.session.accept r).2).toList ++
          [.emitted id r.event])
  | passOver (id : Nat) (k k' : Connection) (report : Report) : c.connections[id]? = some k →
      k.advance c.config = (k', some report) → c.session.uses id = false → (∀ e, report ≠ .output (.error e)) →
      Move c (.receive id) (c.setConnection id (c.afterLoop k')) []
  | lose (id : Nat) (k k' : Connection) (loss : Loss) : c.connections[id]? = some k →
      k.advance c.config = (k', some (.lost loss)) → c.session.uses id = true →
      Move c (.receive id) { c.setConnection id (c.afterLoop k') with session := c.session.lose }
        [.emitted id (.connectionLost loss.message)]
  | peer (id : Nat) (act : Act) :
      Move c (.peer id act) { c with connections := c.connections.modify id fun k => { k with socket := k.socket.meet act } }
        []
  | ignore : Move c .ignore { c with observed := false } []
  | drop : Move c .drop c.drop []

/-! ## Every step is a move -/

variable {c : Client}

theorem beginConnect_move (hd : c.dropped = false) (target : Endpoint) :
    Move c (.connect target) (c.beginConnect target).1 (c.beginConnect target).2 := by
  unfold beginConnect Session.beginConnect
  split
  · rename_i e h
    split at h
    · cases h
    · rename_i hs
      cases h
      exact .refuseConnect target hd hs
  · rename_i session h
    split at h
    · rename_i hs
      cases h
      exact .start target hd hs
    · cases h

theorem finishConnect_move (call : Nat) :
    Move c (.finish call) (c.finishConnect call).1 (c.finishConnect call).2 := by
  unfold finishConnect
  split
  · exact .idle _
  · rename_i a ha
    have hcall : a.call = call := by simpa using List.find?_some ha
    subst hcall
    dsimp only
    split
    · rename_i hc
      exact .abandon a ha hc
    · rename_i hc
      have hc : a.cancelled = false := by simpa using hc
      split
      · exact .idle _
      · rename_i e ho
        exact .fail a e ha hc ho
      · rename_i ho
        exact .establish a ha hc ho

theorem beginSend_move (hd : c.dropped = false) (r : Request) :
    Move c (.send r) (c.beginSend r).1 (c.beginSend r).2 := by
  unfold beginSend
  split
  · rename_i e he
    exact .refuseSend r e hd he
  · rename_i session id octets h
    unfold Session.dispatch at h
    split at h
    · cases h
    rename_i ho
    split at h
    · cases h
    rename_i octets' hr
    split at h
    · cases h
    rename_i link hl
    cases h
    exact .dispatch r link octets hd ho hr hl

theorem write_move (call : Nat) : Move c (.write call) (c.write call).1 (c.write call).2 := by
  unfold write
  split
  · exact .idle _
  · rename_i w hw
    have hcall : w.call = call := by simpa using List.find?_some hw
    subst hcall
    split
    · rename_i k hf hk
      cases hwrite : k.socket.write w.octets with
      | mk socket fault =>
        cases fault with
        | none => exact .write w k socket hw hf hk hwrite
        | some f => exact .failWrite w k socket f hw hf hk hwrite
    · exact .idle _

theorem retract_move (call : Nat) : Move c (.retract call) (c.retract call).1 (c.retract call).2 := by
  unfold retract
  split
  · exact .idle _
  · rename_i w hw
    have hcall : w.call = call := by simpa using List.find?_some hw
    subst hcall
    split
    · exact .idle _
    · rename_i f hf
      dsimp only
      split
      · rename_i hu
        exact .retract w f hw hf hu
      · rename_i hu
        exact .forgo w f hw hf (by simpa using hu)

theorem disconnect_move (hd : c.dropped = false) : Move c .disconnect c.disconnect.1 c.disconnect.2 := by
  unfold disconnect
  split
  · rename_i hs
    exact .disconnectNone hd hs
  · rename_i hs
    dsimp only
    split
    · rename_i hl
      exact .callOff hd hs hl
    · rename_i link hl
      exact .detach link hd hs hl

theorem close_move (id : Nat) : Move c (.close id) (c.close id).1 (c.close id).2 := by
  unfold close
  split
  · rename_i h
    exact .close id h
  · exact .idle _

theorem take_move {id : Nat} {k k' : Connection} {report : Report} (hk : c.connections[id]? = some k)
    (hadv : k.advance c.config = (k', some report)) :
    Move c (.receive id) ((c.setConnection id (c.afterLoop k')).take id report).1
      ((c.setConnection id (c.afterLoop k')).take id report).2 := by
  cases hu : c.session.uses id with
  | true =>
    have hu' : (c.setConnection id (c.afterLoop k')).session.uses id = true := hu
    cases report with
    | output out =>
      cases out with
      | error e => exact .discard id k k' e hk hadv
      | ok r =>
        rw [take, if_pos hu']
        exact .handle id k k' r hk hadv hu
    | lost loss =>
      rw [take, if_pos hu']
      exact .lose id k k' loss hk hadv hu
  | false =>
    have hu' : ¬ (c.setConnection id (c.afterLoop k')).session.uses id = true := by
      rw [show (c.setConnection id (c.afterLoop k')).session.uses id = false from hu]
      exact Bool.false_ne_true
    cases report with
    | output out =>
      cases out with
      | error e => exact .discard id k k' e hk hadv
      | ok r =>
        rw [take, if_neg hu']
        exact .passOver id k k' _ hk hadv hu nofun
    | lost loss =>
      rw [take, if_neg hu']
      exact .passOver id k k' _ hk hadv hu nofun

theorem receive_move (id : Nat) : Move c (.receive id) (c.receive id).1 (c.receive id).2 := by
  unfold receive
  split
  · exact .idle _
  · rename_i k hk
    cases hadv : k.advance c.config with
    | mk k' report =>
      cases report with
      | none => exact .loop id k k' hk hadv
      | some report => exact take_move hk hadv

/-- **A step is one of the moves.** -/
theorem step_move (c : Client) (s : Step) : Move c s (c.step s).1 (c.step s).2 := by
  cases s with
  | connect target =>
    rw [step]
    split
    · exact .idle _
    · rename_i hd
      exact beginConnect_move (by simpa using hd) target
  | answer call answer => exact .answer call answer
  | wait span => exact .wait span
  | finish call => exact finishConnect_move call
  | send r =>
    rw [step]
    split
    · exact .idle _
    · rename_i hd
      exact beginSend_move (by simpa using hd) r
  | write call => exact write_move call
  | retract call => exact retract_move call
  | disconnect =>
    rw [step]
    split
    · exact .idle _
    · rename_i hd
      exact disconnect_move (by simpa using hd)
  | close id => exact close_move id
  | receive id => exact receive_move id
  | peer id act => exact .peer id act
  | ignore => exact .ignore
  | drop => exact .drop

end Client
end ChatClient
