import ChatClient.Proofs.Client.Effect
import ChatClient.Proofs.Frame.Chunking
import ChatClient.Proofs.Network.Underway
/-!
# Decoding — what a loop reports comes from its own connection

The outputs that the loop of a connection has reported, and those that its buffer still holds, are what the reader gives of
the octets that the other end of this connection has sent, cut into the chunks that the loop has read (`Connection.Fed`).
So the responses that a session takes on a connection were decoded from that connection's own octets, in their order
(`handled_decoded`), whatever goes on around it.
-/
namespace ChatClient

open Network (Act Socket)

theorem Inbound.feedAll_concat {α : Type} (g : Inbound α) (b : Bytes) (chunks : List Bytes) (chunk : Bytes) :
    g.feedAll b (chunks ++ [chunk]) = ((g.feedAll b chunks).1 ++ (g.drain ((g.feedAll b chunks).2 ++ chunk)).1,
      (g.drain ((g.feedAll b chunks).2 ++ chunk)).2) := by
  induction chunks generalizing b with
  | nil => simp [feedAll, feed]
  | cons first chunks ih => rw [List.cons_append, feedAll_cons, ih, feedAll_cons, List.append_assoc]

/-- The response on this connection that the session took. -/
def Occurrence.handledOn? (id : Nat) : Occurrence → Option Response
  | handled i r => if i = id then some r else none
  | _ => none

/-- The output that was reported. -/
def Report.output? : Report → Option (Except FrameError Response)
  | output out => some out
  | lost _ => none

namespace Connection

variable {config : SessionConfig} {limit : Nat} {k k' : Connection} {sent : Bytes}
  {outs : List (Except FrameError Response)} {report : Option Report}

/-- After these outputs a connection has handed on what it could of the octets that its other end has sent. -/
structure Fed (limit : Nat) (k : Connection) (sent : Bytes) (outs : List (Except FrameError Response)) : Prop where
  read : ∃ chunks : List Bytes,
    (Inbound.responses limit).feedAll [] chunks =
      (outs ++ ((Inbound.responses limit).drain k.buffer).1, ((Inbound.responses limit).drain k.buffer).2) ∧
    chunks.flatten ++ k.socket.waiting <+: sent ∧
    (k.socket.peer = .opened → chunks.flatten ++ k.socket.waiting = sent)
  drained : k.phase ≠ .draining → (Inbound.responses limit).next k.buffer = none

namespace Fed

theorem new (limit : Nat) (peer : Network.Endpoint) : Fed limit { peer := peer } [] [] := by
  have hn : (Inbound.responses limit).next [] = none := Inbound.next_eq_none_iff.2 (.inl Nat.zero_lt_two)
  refine ⟨⟨[], ?_, List.nil_prefix, fun _ => rfl⟩, fun _ => hn⟩
  rw [Inbound.drain_of_next_none hn]
  rfl

/-- Octets that wait can be lost once the other end is no longer open. -/
theorem of_socket (h : k.Fed limit sent outs) (hbuffer : k'.buffer = k.buffer) (hphase : k'.phase = k.phase)
    (hwaiting : k'.socket.waiting = k.socket.waiting ∨ k'.socket.waiting = [])
    (hpeer : k'.socket.peer = .opened → k.socket.peer = .opened ∧ k'.socket.waiting = k.socket.waiting) :
    k'.Fed limit sent outs := by
  obtain ⟨⟨chunks, hfeed, hprefix, hopen⟩, hdrained⟩ := h
  refine ⟨⟨chunks, by rw [hbuffer]; exact hfeed, ?_, fun ho => ?_⟩, by rw [hbuffer, hphase]; exact hdrained⟩
  · rcases hwaiting with hw | hw
    · rw [hw]
      exact hprefix
    · rw [hw, List.append_nil]
      exact (List.prefix_append _ _).trans hprefix
  · obtain ⟨hp, hw⟩ := hpeer ho
    rw [hw]
    exact hopen hp

theorem write (h : k.Fed limit sent outs) (octets : Bytes) :
    Fed limit { k with socket := (k.socket.write octets).1 } sent outs := by
  have hw := k.socket.write_written octets
  generalize (k.socket.write octets).1 = t, (k.socket.write octets).2 = fault at hw
  cases hw with
  | nothing | broken => exact h
  | reset => exact h.of_socket rfl rfl (.inr rfl) nofun
  | whole | choked => exact h.of_socket rfl rfl (.inl rfl) fun ho => ⟨ho, rfl⟩

theorem meet (h : k.Fed limit sent outs) (act : Act) :
    Fed limit { k with socket := k.socket.meet act }
      (sent ++ if k.socket.peer = .opened then (match act with | .send octets => octets | _ => []) else []) outs := by
  by_cases hp : k.socket.peer = .opened
  · rw [if_pos hp]
    have hm := k.socket.meet_met act
    generalize k.socket.meet act = t at hm
    cases hm with
    | send octets =>
      obtain ⟨⟨chunks, hfeed, -, hopen⟩, hdrained⟩ := h
      have heq : chunks.flatten ++ (k.socket.waiting ++ octets) = sent ++ octets := by
        rw [← List.append_assoc, hopen hp]
      exact ⟨⟨chunks, hfeed, heq ▸ List.prefix_rfl, fun _ => heq⟩, hdrained⟩
    | close | reset | refuse =>
      dsimp only
      rw [List.append_nil]
      exact h.of_socket rfl rfl (.inl rfl) nofun
    | arrive | choke | discard =>
      dsimp only
      rw [List.append_nil]
      exact h.of_socket rfl rfl (.inl rfl) fun ho => ⟨ho, rfl⟩
    | still _ hstill =>
      rw [hstill.resolve_left (not_not_intro hp), List.append_nil]
      exact h
  · rw [if_neg hp, List.append_nil]
    have hm := k.socket.meet_met act
    generalize k.socket.meet act = t at hm
    cases hm with
    | send _ ho | close ho | reset ho | arrive _ _ ho | choke _ _ ho | discard _ ho => exact absurd ho hp
    | refuse => exact h.of_socket rfl rfl (.inl rfl) nofun
    | still => exact h

/-- **A turn of the loop** reports the first output of the buffer, if it reports one, and keeps the others. -/
theorem turn (h : k.Fed config.maxFieldLength.toNat sent outs) (ht : Turn config k k' report) :
    k'.Fed config.maxFieldLength.toNat sent (outs ++ (report.bind Report.output?).toList) := by
  obtain ⟨⟨chunks, hfeed, hprefix, hopen⟩, hdrained⟩ := h
  cases ht with
  | read chunk left hp hs hr hw =>
    -- The loop reads only when the buffer holds no finished frame, so the chunk goes behind what the reader has left over.
    have hn := hdrained (by rw [hp]; nofun)
    rw [Inbound.drain_of_next_none hn] at hfeed
    have heq : (chunks ++ [chunk]).flatten ++ left = chunks.flatten ++ k.socket.waiting := by
      rw [hw, List.flatten_append, List.flatten_singleton, List.append_assoc]
    refine ⟨⟨chunks ++ [chunk], ?_, heq ▸ hprefix, fun ho => heq.trans (hopen ho)⟩, fun hd => absurd rfl hd⟩
    rw [Inbound.feedAll_concat, hfeed]
    rfl
  | fault hp =>
    refine ⟨⟨chunks, by rw [hfeed]; simp, ?_, nofun⟩, fun _ => hdrained (by rw [hp]; nofun)⟩
    rw [List.append_nil]
    exact (List.prefix_append _ _).trans hprefix
  | output out rest hp hn =>
    refine ⟨⟨chunks, ?_, hprefix, hopen⟩, fun hd => absurd hp hd⟩
    rw [hfeed, Inbound.drain_of_next hn, List.append_assoc]
    rfl
  | pause hp hn => exact ⟨⟨chunks, by rw [hfeed]; simp, hprefix, hopen⟩, fun _ => hn⟩
  | leave loss hp =>
    exact ⟨⟨chunks, by rw [hfeed]; simp [Report.output?], hprefix, hopen⟩, fun _ => hdrained (by rw [hp]; nofun)⟩
  | halt hp | breakDown hp | sense hp =>
    exact ⟨⟨chunks, by rw [hfeed]; simp, hprefix, hopen⟩, fun _ => hdrained (by rw [hp]; nofun)⟩
  | wait | rest => exact ⟨⟨chunks, by rw [hfeed]; simp, hprefix, hopen⟩, hdrained⟩

end Fed
end Connection

namespace Client

variable {c : Client} {id : Nat} {k k' : Connection} {s : Step} {told : List Occurrence}

/-- What the other end of a connection sends with a step, if it is open. -/
def sentBy (id : Nat) (c : Client) : Step → Bytes
  | .peer i (.send octets) => if i = id ∧ c.opened id = true then octets else []
  | _ => []

theorem filterMap_handledOn (h : ∀ o ∈ told, o.traffic? ≠ some id) :
    told.filterMap (Occurrence.handledOn? id) = [] := by
  rw [List.filterMap_eq_nil_iff]
  intro o ho
  cases o with
  | handled i r => exact if_neg fun hi => h _ ho (congrArg some hi)
  | _ => rfl

/-- The response that the session takes is the one that was reported. -/
theorem handled_of_telling (report : Option Report) :
    (((c.telling id report).filterMap (Occurrence.handledOn? id)).map Except.ok).Sublist
      (report.bind Report.output?).toList := by
  rcases report with _ | (e | r) | loss
  · exact List.Sublist.slnil
  · exact List.nil_sublist _
  · simp only [telling, take]
    split
    · cases r.command? <;> simp [Occurrence.handledOn?, Report.output?, List.filterMap_cons]
    · exact List.nil_sublist _
  · simp only [telling, take]
    split <;> exact List.nil_sublist _

theorem opened_eq (hk : c.connections[id]? = some k) : c.opened id = decide (k.socket.peer = .opened) := by
  rw [opened, hk]
  rfl

/-- After some steps the other end has sent these octets and the session has taken these responses. -/
def Decoded (id : Nat) (c : Client) (sent : Bytes) (handled : List Response) : Prop :=
  (c.connections[id]? = none ∧ sent = [] ∧ handled = []) ∨
  ∃ k outs, c.connections[id]? = some k ∧ k.Fed c.config.maxFieldLength.toNat sent outs ∧
    (handled.map Except.ok).Sublist outs

theorem Effect.decoded {sent : Bytes} {handled : List Response} {outs : List (Except FrameError Response)}
    (he : Effect c id k s k' told) (hk : c.connections[id]? = some k)
    (hfed : k.Fed c.config.maxFieldLength.toNat sent outs) (hsub : (handled.map Except.ok).Sublist outs) :
    ∃ outs', k'.Fed c.config.maxFieldLength.toNat (sent ++ sentBy id c s) outs' ∧
      ((handled ++ told.filterMap (Occurrence.handledOn? id)).map Except.ok).Sublist outs' := by
  have hquiet : (∀ act, s ≠ .peer id act) → sentBy id c s = [] := by
    intro hs
    unfold sentBy
    split
    · rename_i i octets
      exact if_neg fun h => hs (.send octets) (by rw [h.1])
    · rfl
  cases he with
  | bystand s told hs htold =>
    rw [hquiet hs, filterMap_handledOn htold, List.append_nil, List.append_nil]
    exact ⟨outs, hfed, hsub⟩
  | stop s told hs htold =>
    rw [hquiet hs, filterMap_handledOn htold, List.append_nil, List.append_nil]
    exact ⟨outs, hfed.of_socket rfl rfl (.inl rfl) fun ho => ⟨ho, rfl⟩, hsub⟩
  | write w socket hw hid hwrite | failWrite w socket f hw hid hwrite =>
    have hfed' := hfed.write w.octets
    rw [hwrite] at hfed'
    refine ⟨outs, ?_, ?_⟩
    · rw [hquiet nofun, List.append_nil]
      exact hfed'
    · rw [show List.filterMap (Occurrence.handledOn? id) _ = [] from rfl, List.append_nil]
      exact hsub
  | shut =>
    rw [hquiet nofun, List.filterMap_nil, List.append_nil, List.append_nil]
    exact ⟨outs, hfed.of_socket rfl rfl (.inl rfl) fun ho => ⟨ho, rfl⟩, hsub⟩
  | turn =>
    refine ⟨outs ++ ((k.advance c.config).2.bind Report.output?).toList, ?_, ?_⟩
    · rw [hquiet nofun, List.append_nil]
      have hturn := hfed.turn (Connection.advance_turn k c.config)
      unfold afterLoop
      split
      · exact hturn.of_socket rfl rfl (.inl rfl) fun ho => ⟨ho, rfl⟩
      · exact hturn
    · rw [List.map_append]
      exact hsub.append (handled_of_telling _)
  | peer act =>
    have hmeet := hfed.meet act
    have hsent : sentBy id c (.peer id act) =
        if k.socket.peer = .opened then (match act with | .send octets => octets | _ => []) else [] := by
      cases act <;> simp [sentBy, opened_eq hk]
    rw [hsent, List.filterMap_nil, List.append_nil]
    exact ⟨outs, hmeet, hsub⟩

theorem Decoded.step {sent : Bytes} {handled : List Response} (h : Decoded id c sent handled) (s : Step) :
    Decoded id (c.step s).1 (sent ++ sentBy id c s)
      (handled ++ (c.step s).2.filterMap (Occurrence.handledOn? id)) := by
  rcases h with ⟨hk, rfl, rfl⟩ | ⟨k, outs, hk, hfed, hsub⟩
  · have hsent : sentBy id c s = [] := by
      unfold sentBy
      split
      · exact if_neg fun h => by simp [opened, hk] at h
      · rfl
    obtain ⟨htold, hnone | ⟨peer, hnew⟩⟩ := step_fresh hk s
    · exact .inl ⟨hnone, by rw [hsent]; rfl, by rw [filterMap_handledOn htold]; rfl⟩
    · refine .inr ⟨_, [], hnew, ?_, ?_⟩
      · rw [hsent]
        exact .new _ peer
      · rw [filterMap_handledOn htold]
        exact List.Sublist.slnil
  · obtain ⟨k', hk', he⟩ := step_effect hk s
    obtain ⟨outs', hfed', hsub'⟩ := he.decoded hk hfed hsub
    refine .inr ⟨k', outs', hk', ?_, hsub'⟩
    rw [(step_move c s).config_eq]
    exact hfed'

theorem decoded_run (config : SessionConfig) (id : Nat) (steps : List Step) :
    Decoded id (run { config } steps).1 (gather (sentBy id) { config } steps)
      ((run { config } steps).2.filterMap (Occurrence.handledOn? id)) := by
  induction steps using List.reverseRecOn with
  | nil => exact .inl ⟨rfl, rfl, rfl⟩
  | append_singleton steps s ih =>
    rw [run_concat, gather_concat, List.filterMap_append]
    exact ih.step s

/-- **The responses that a session takes on a connection are decoded from the octets of that connection**: they are, in
this order, among the outputs of the reader for the octets that its other end has sent, as the loop has read them. -/
theorem handled_decoded (config : SessionConfig) (id : Nat) (steps : List Step) : ∃ chunks : List Bytes,
    chunks.flatten <+: gather (sentBy id) { config } steps ∧
    (((run { config } steps).2.filterMap (Occurrence.handledOn? id)).map Except.ok).Sublist
      ((Inbound.responses config.maxFieldLength.toNat).feedAll [] chunks).1 := by
  rcases decoded_run config id steps with ⟨-, -, hhandled⟩ | ⟨k, outs, -, hfed, hsub⟩
  · rw [hhandled]
    exact ⟨[], List.nil_prefix, List.Sublist.slnil⟩
  · rw [run_config] at hfed
    obtain ⟨chunks, hfeed, hprefix, -⟩ := hfed.read
    refine ⟨chunks, (List.prefix_append _ _).trans hprefix, ?_⟩
    rw [hfeed]
    exact hsub.trans (List.sublist_append_left _ _)

end Client
end ChatClient
