import ChatClient.Proofs.Client.Past
/-!
# Renewal — a disconnected session is as good as new

What a session has behind it when it is disconnected may still go on: handshakes that were called off end, requests are
written to connections that are gone or taken back, and the loops of those connections come to their ends.  All of this
concerns the past alone (`step_before`).  So from then on the session does what a new one does (`disconnected_as_new`).
-/
namespace ChatClient

open Network (Answer Act Fault)

namespace Client

variable {c : Client} {p q : Past}

/-- A step that concerns the past alone: what is told is told of the past, and a loop that has ended reports nothing. -/
structure Bygone (p : Past) (c : Client) (next : Client × List Occurrence) : Prop where
  client : ∃ q, p.Fades q ∧ next.1 = c.behind q
  told : ∀ o ∈ next.2, o.since p.origin = none
  events : ∀ o ∈ next.2, ∀ event, o.event? = some event →
    (∃ reason, event = .frameDiscarded reason) ∧ ¬ ∀ k ∈ p.connections, k.phase = .ended

theorem Bygone.silent {next : Client} (h : p.Fades q) (hq : next = c.behind q) : Bygone p c (next, []) where
  client := ⟨q, h, hq⟩
  told := nofun
  events := nofun

theorem Bygone.single {next : Client} {o : Occurrence} (h : p.Fades q) (hq : next = c.behind q)
    (ho : o.since p.origin = none) (he : o.event? = none) : Bygone p c (next, [o]) where
  client := ⟨q, h, hq⟩
  told := List.forall_mem_singleton.2 ho
  events := List.forall_mem_singleton.2 fun event h' => by rw [he] at h'; cases h'

theorem answer_before (hp : p.Spent) {call : Nat} (hcall : call < p.calls) (reply : Answer) :
    Bygone p c ((c.behind p).step (.answer call reply)) := by
  have hmap : ((c.behind p).attempts.map fun a => if a.call = call then Attempt.meet reply a else a) =
      (p.attempts.map fun a => if a.call = call then Attempt.meet reply a else a) ++
        c.attempts.map (·.behind p.origin p.now) := by
    refine map_before fun a => if_neg ?_
    change p.calls + a.call ≠ call
    omega
  refine .silent (.attempts hp (p.attempts.map fun a => if a.call = call then Attempt.meet reply a else a) ?_)
    (congrArg (fun attempts => { c.behind p with attempts }) hmap)
  refine List.forall_mem_map.2 fun a ha => ?_
  split
  · rw [Attempt.meet_cancelled, Attempt.meet_call]
    exact ⟨hp.off a ha, hp.attempts a ha⟩
  · exact ⟨hp.off a ha, hp.attempts a ha⟩

theorem finish_before (hp : p.Spent) {call : Nat} (hcall : call < p.calls) :
    Bygone p c ((c.behind p).finishConnect call) := by
  have hfind : (c.behind p).attempts.find? (·.call = call) = p.attempts.find? (·.call = call) :=
    find?_before Attempt.call (n := p.calls) (fun _ => rfl) hcall
  have hfilter : (c.behind p).attempts.filter (·.call ≠ call) =
      p.attempts.filter (·.call ≠ call) ++ c.attempts.map (·.behind p.origin p.now) :=
    filter_before Attempt.call (n := p.calls) (fun _ => rfl) hcall
  unfold finishConnect
  rw [hfind, hfilter]
  cases ha : p.attempts.find? (·.call = call) with
  | none => exact .silent (.refl hp) rfl
  | some a =>
    -- Every handshake of the past was called off, so its end changes nothing but the list of handshakes.
    dsimp only
    rw [if_pos (hp.off a (List.mem_of_find?_eq_some ha))]
    refine .single (.attempts hp (p.attempts.filter (·.call ≠ call)) fun b hb => ?_) rfl ?_ rfl
    · have hb := List.mem_of_mem_filter hb
      exact ⟨hp.off b hb, hp.attempts b hb⟩
    · exact Option.map_eq_none_iff.2 (since?_eq_none.2 hcall)

theorem connection_before {id : Nat} (hid : id < p.connections.length) :
    (c.behind p).connections[id]? = p.connections[id]? := List.getElem?_append_left hid

/-- What has faded is all that differs. -/
theorem behind_fades (h : p.Fades q) : c.behind q =
    { c.behind p with
      attempts := q.attempts ++ c.attempts.map (·.behind p.origin p.now)
      writes := q.writes ++ c.writes.map (·.behind p.origin)
      closing := q.closing ++ c.closing.map (p.connections.length + ·)
      connections := q.connections ++ c.connections } := by
  unfold behind
  rw [h.origin, h.now, h.calls, h.opened, h.outstanding]

theorem writes_find?_before {call : Nat} (hcall : call < p.calls) :
    (c.behind p).writes.find? (·.call = call) = p.writes.find? (·.call = call) :=
  find?_before Write.call (n := p.calls) (fun _ => rfl) hcall

theorem writes_filter_before {call : Nat} (hcall : call < p.calls) : (c.behind p).writes.filter (·.call ≠ call) =
    p.writes.filter (·.call ≠ call) ++ c.writes.map (·.behind p.origin) :=
  filter_before Write.call (n := p.calls) (fun _ => rfl) hcall

theorem writes_map_before {call : Nat} (hcall : call < p.calls) (f : Fault) :
    ((c.behind p).writes.map fun v => if v.call = call then { v with fault := some f } else v) =
      (p.writes.map fun v => if v.call = call then { v with fault := some f } else v) ++
        c.writes.map (·.behind p.origin) := by
  refine map_before fun v => if_neg ?_
  change p.calls + v.call ≠ call
  omega

theorem write_before (hp : p.Spent) {call : Nat} (hcall : call < p.calls) : Bygone p c ((c.behind p).write call) := by
  unfold write
  rw [writes_find?_before hcall]
  cases hw : p.writes.find? (·.call = call) with
  | none => exact .silent (.refl hp) rfl
  | some w =>
    have hmem := List.mem_of_find?_eq_some hw
    have hid := hp.targets w hmem
    dsimp only
    rw [connection_before hid]
    cases hf : w.fault with
    | some f => exact .silent (.refl hp) rfl
    | none =>
      cases hk : p.connections[w.id]? with
      | none => exact .silent (.refl hp) rfl
      | some k =>
        dsimp only
        rcases k.socket.write w.octets with ⟨socket, fault⟩
        have hset : p.Fades { p with connections := p.connections.set w.id { k with socket } } :=
          Past.Fades.set hp hk fun h => h
        have hconnections : (p.connections ++ c.connections).set w.id { k with socket } =
            p.connections.set w.id { k with socket } ++ c.connections := List.set_append_left _ _ hid
        cases fault with
        | none =>
          have hfades := hset.trans (.landed hset.spent (·.call ≠ call))
          refine .single hfades ?_ ?_ rfl
          · rw [behind_fades hfades, ← writes_filter_before hcall, ← hconnections]
            rfl
          · rw [Occurrence.since, since?_eq_none.2 (show call < p.origin.calls from hcall)]
            rfl
        | some f =>
          have hfades := hset.trans (.writes hset.spent
            (p.writes.map fun v => if v.call = call then { v with fault := some f } else v) <|
              List.forall_mem_map.2 fun v hv => by
                split <;> exact ⟨hset.spent.writes v hv, hset.spent.targets v hv⟩)
          refine .silent hfades ?_
          rw [behind_fades hfades, ← writes_map_before hcall, ← hconnections]
          rfl

theorem retract_before (hp : p.Spent) {call : Nat} (hcall : call < p.calls) :
    Bygone p c ((c.behind p).retract call) := by
  unfold retract
  rw [writes_find?_before hcall, writes_filter_before hcall]
  cases hw : p.writes.find? (·.call = call) with
  | none => exact .silent (.refl hp) rfl
  | some w =>
    have hmem := List.mem_of_find?_eq_some hw
    dsimp only
    cases hf : w.fault with
    | none => exact .silent (.refl hp) rfl
    | some f =>
      dsimp only
      rw [if_neg (by rw [uses_before (hp.targets w hmem)]; exact Bool.false_ne_true)]
      refine .single (.landed hp (·.call ≠ call)) rfl ?_ rfl
      rw [Occurrence.since, since?_eq_none.2 (show call < p.origin.calls from hcall)]
      rfl

theorem close_before (hp : p.Spent) {id : Nat} (hid : id < p.connections.length) :
    Bygone p c ((c.behind p).close id) := by
  have hfilter : (c.behind p).closing.filter (· ≠ id) =
      p.closing.filter (· ≠ id) ++ c.closing.map (p.connections.length + ·) :=
    filter_before (fun id => id) (n := p.connections.length) (fun _ => rfl) hid
  have hmodify : (c.behind p).connections.modify id (fun k => { k with socket := k.socket.shutdown }) =
      p.connections.modify id (fun k => { k with socket := k.socket.shutdown }) ++ c.connections := modify_before _ hid
  unfold close
  rw [hfilter, hmodify]
  split
  · have hclosing : p.Fades { p with closing := p.closing.filter (· ≠ id) } :=
      .closing hp fun i hi => List.mem_of_mem_filter hi
    have hfades := hclosing.trans (.modify hclosing.spent id (f := fun k => { k with socket := k.socket.shutdown })
      fun _ => rfl)
    refine .silent hfades ?_
    rw [behind_fades hfades]
    rfl
  · exact .silent (.refl hp) rfl

theorem peer_before (hp : p.Spent) {id : Nat} (hid : id < p.connections.length) (act : Act) :
    Bygone p c ((c.behind p).step (.peer id act)) := by
  have hmodify : (c.behind p).connections.modify id (fun k => { k with socket := k.socket.meet act }) =
      p.connections.modify id (fun k => { k with socket := k.socket.meet act }) ++ c.connections := modify_before _ hid
  have hfades : p.Fades { p with connections := p.connections.modify id fun k => { k with socket := k.socket.meet act } } :=
    .modify hp id fun _ => rfl
  refine .silent hfades ?_
  rw [hmodify, behind_fades hfades]
  rfl

theorem receive_before (hp : p.Spent) {id : Nat} (hid : id < p.connections.length) :
    Bygone p c ((c.behind p).receive id) := by
  have hk : (c.behind p).connections[id]? = some (p.connections.get ⟨id, hid⟩) :=
    (connection_before hid).trans (List.getElem?_eq_getElem hid)
  generalize hj : p.connections.get ⟨id, hid⟩ = k at hk
  have hended : k.phase = .ended → ((c.behind p).afterLoop (k.advance c.config).1).phase = .ended := by
    intro h
    rw [afterLoop_phase, Connection.advance_of_ended h]
    exact h
  have hfades := Past.Fades.set hp ((connection_before hid).symm.trans hk) hended
  have hset : ((c.behind p).setConnection id ((c.behind p).afterLoop (k.advance c.config).1)) =
      c.behind { p with connections := p.connections.set id ((c.behind p).afterLoop (k.advance c.config).1) } := by
    rw [behind_fades hfades, setConnection]
    exact congrArg (fun connections => { c.behind p with connections }) (List.set_append_left _ _ hid)
  have hlive : k.phase ≠ .ended → ¬ ∀ k ∈ p.connections, k.phase = .ended := fun h hall =>
    h (hall k (List.mem_of_getElem? ((connection_before hid).symm.trans hk)))
  rcases hadv : k.advance c.config with ⟨k', _ | report⟩
  · rw [receive_silent hk hadv]
    rw [hadv] at hset hfades
    exact .silent hfades hset
  · have hphase : k.phase ≠ .ended := fun h => by
      rw [Connection.advance_of_ended h] at hadv
      cases hadv
    rw [hadv] at hset hfades
    have hid' := Nat.lt_of_lt_of_eq hid hfades.opened.symm
    rw [receive_report hk hadv, hset]
    rcases report with (e | r) | loss
    · refine ⟨⟨_, hfades, rfl⟩, List.forall_mem_singleton.2 ?_, List.forall_mem_singleton.2 ?_⟩
      · exact Option.map_eq_none_iff.2 (since?_eq_none.2 hid)
      · rintro event ⟨⟩
        exact ⟨⟨e.message, rfl⟩, hlive hphase⟩
    · rw [take, if_neg (by rw [uses_before hid']; exact Bool.false_ne_true)]
      exact .silent hfades rfl
    · rw [take, if_neg (by rw [uses_before hid']; exact Bool.false_ne_true)]
      exact .silent hfades rfl

/-- **A step that is not since the start concerns the past alone.** -/
theorem step_before (hp : p.Spent) {s : Step} (hs : s.since p.origin = none) : Bygone p c ((c.behind p).step s) := by
  cases s with
  | answer call reply => exact answer_before hp (since?_eq_none.1 (Option.map_eq_none_iff.1 hs)) reply
  | finish call => exact finish_before hp (since?_eq_none.1 (Option.map_eq_none_iff.1 hs))
  | write call => exact write_before hp (since?_eq_none.1 (Option.map_eq_none_iff.1 hs))
  | retract call => exact retract_before hp (since?_eq_none.1 (Option.map_eq_none_iff.1 hs))
  | close id => exact close_before hp (since?_eq_none.1 (Option.map_eq_none_iff.1 hs))
  | receive id => exact receive_before hp (since?_eq_none.1 (Option.map_eq_none_iff.1 hs))
  | peer id act => exact peer_before hp (since?_eq_none.1 (Option.map_eq_none_iff.1 hs)) act
  | _ => cases hs

/-! ## A disconnected session -/

/-- What the client has behind it. -/
def past (c : Client) : Past where
  now := c.now
  calls := c.calls
  outstanding := c.session.outstanding
  attempts := c.attempts
  writes := c.writes
  closing := c.closing
  connections := c.connections

theorem closing_lt (config : SessionConfig) (steps : List Step) :
    ∀ id ∈ (run { config } steps).1.closing, id < (run { config } steps).1.connections.length := by
  induction steps using List.reverseRecOn with
  | nil => exact nofun
  | append_singleton steps s ih =>
    have hlt : ∀ link, (run { config } steps).1.session.link = some link →
        link.id < (run { config } steps).1.connections.length := fun link => (tally_run config steps).used_lt
    rw [run_concat]
    generalize (run { config } steps).1 = c at ih hlt
    have hle := connections_le c s
    have hm := step_move c s
    dsimp only
    generalize c.step s = next at hm hle
    rcases next with ⟨c', told⟩
    cases hm with
    | detach link hd hs hl =>
      refine fun id hid => Nat.lt_of_lt_of_le ?_ hle
      rcases List.mem_append.1 hid with hid | hid
      · exact ih id hid
      · rw [List.mem_singleton.1 hid]
        exact hlt link hl
    | close id hid => exact fun i hi => Nat.lt_of_lt_of_le (ih i (List.mem_of_mem_filter hi)) hle
    | _ => exact fun id hid => Nat.lt_of_lt_of_le (ih id hid) hle

/-- **What a disconnected session has behind it cannot concern a later connection.** -/
theorem past_spent {config : SessionConfig} {steps : List Step}
    (free : (run { config } steps).1.session.state = .disconnected) : (run { config } steps).1.past.Spent where
  off a ha := by
    have hc : (run { config } steps).1.Coupled := (coupled_new config).run steps
    cases hoff : a.cancelled with
    | true => rfl
    | false =>
      have hs := hc.session.pending.1 (by rw [hc.awaited a ha hoff]; rfl)
      rw [free] at hs
      cases hs
  attempts := ((coupled_new config).run steps).numbered
  writes := (ledger_run config steps).numbered
  targets w hw := by
    obtain ⟨k, hk⟩ := (cleared_run config steps w hw).connection
    exact (List.getElem?_eq_some_iff.1 hk).1
  closing := closing_lt config steps

/-- **A disconnected session is a new one behind its past.** -/
theorem disconnected_eq_behind {config : SessionConfig} {steps : List Step} (alive : .drop ∉ steps)
    (free : (run { config } steps).1.session.state = .disconnected) (heard : (run { config } steps).1.observed = true) :
    (run { config } steps).1 = ({ config } : Client).behind (run { config } steps).1.past := by
  have hc := ((coupled_new config).run steps).session
  have hl := hc.link_eq_none (by rw [free]; rfl)
  have hp := hc.pending_eq_none (by rw [free]; nofun)
  have hd : (run { config } steps).1.dropped = false := dropped_run alive
  have hconfig : (run { config } steps).1.config = config := run_config _ _
  generalize (run { config } steps).1 = c at *
  rcases c with ⟨_, ⟨_, _, _, _⟩, _, _, _, _, _, _, _, _⟩
  simp_all [behind, past]

theorem event?_behind (o : Origin) (told : Occurrence) : (told.behind o).event? = told.event? := by
  cases told with
  | disconnected id => cases id <;> rfl
  | _ => rfl

/-- A run with a past, next to the run of a new client. -/
structure Renewed (p : Past) (new old : Client × List Occurrence) : Prop where
  client : ∃ q, p.Fades q ∧ old.1 = new.1.behind q
  told : old.2.filterMap (·.since p.origin) = new.2
  bygone : ∀ o ∈ old.2, o.since p.origin = none → ∀ event, o.event? = some event →
    ∃ reason, event = .frameDiscarded reason
  events : (∀ k ∈ p.connections, k.phase = .ended) → old.2.filterMap (·.event?) = new.2.filterMap (·.event?)

namespace Renewed

variable {new old : Client × List Occurrence} {s t : Step}

/-- A step that is not since the start has no counterpart in the new client. -/
theorem before (h : Renewed p new old) (hs : s.since p.origin = none) :
    Renewed p new ((old.1.step s).1, old.2 ++ (old.1.step s).2) := by
  obtain ⟨⟨q, hq, hclient⟩, htold, hbygone, hevents⟩ := h
  obtain ⟨⟨r, hr, hnext⟩, hnone, hpast⟩ := step_before (c := new.1) hq.spent (hq.origin ▸ hs)
  rw [hq.origin] at hnone
  rw [hclient]
  refine ⟨⟨r, hq.trans hr, hnext⟩, ?_, fun o ho hsince event he => ?_, fun hended => ?_⟩
  · rw [List.filterMap_append, htold, List.filterMap_eq_nil_iff.2 hnone, List.append_nil]
  · rcases List.mem_append.1 ho with ho | ho
    · exact hbygone o ho hsince event he
    · exact (hpast o ho event he).1
  · have hsilent : ((new.1.behind q).step s).2.filterMap (·.event?) = [] := by
      refine List.filterMap_eq_nil_iff.2 fun o ho => ?_
      cases he : o.event? with
      | none => rfl
      | some event => exact absurd (hq.ended hended) (hpast o ho event he).2
    rw [List.filterMap_append, hevents hended, hsilent, List.append_nil]

/-- Every other step is made by the new client too. -/
theorem since (h : Renewed p new old) (hl : ∀ link, new.1.session.link = some link → new.1.connections ≠ [])
    (hs : s.since p.origin = some t) :
    Renewed p ((new.1.step t).1, new.2 ++ (new.1.step t).2) ((old.1.step s).1, old.2 ++ (old.1.step s).2) := by
  obtain ⟨⟨q, hq, hclient⟩, htold, hbygone, hevents⟩ := h
  obtain ⟨r, hr, hnext⟩ := step_behind hq.spent hl t
  have horigin := hq.origin
  rw [horigin, ← Step.eq_behind hs] at hnext
  rw [hclient, hnext]
  refine ⟨⟨r, hq.trans hr, rfl⟩, ?_, fun o ho hsince event he => ?_, fun hended => ?_⟩
  · rw [List.filterMap_append, htold, Occurrence.filterMap_since]
  · rcases List.mem_append.1 ho with ho | ho
    · exact hbygone o ho hsince event he
    · obtain ⟨o, -, rfl⟩ := List.mem_map.1 ho
      rw [Occurrence.since_behind] at hsince
      cases hsince
  · rw [List.filterMap_append, List.filterMap_append, hevents hended, List.filterMap_map]
    exact congrArg _ (List.filterMap_congr fun o _ => event?_behind _ o)

/-- **Whatever the past still does, a client with a past goes on as a new one.** -/
theorem run (config : SessionConfig) (hp : p.Spent) (steps : List Step) :
    Renewed p (Client.run { config } (steps.filterMap (·.since p.origin)))
      ((({ config } : Client).behind p).run steps) := by
  induction steps using List.reverseRecOn with
  | nil => exact ⟨⟨p, .refl hp, rfl⟩, rfl, nofun, fun _ => rfl⟩
  | append_singleton steps s ih =>
    rw [run_concat, List.filterMap_append]
    cases hs : s.since p.origin with
    | none =>
      rw [List.filterMap_cons_none hs, List.filterMap_nil, List.append_nil]
      exact ih.before hs
    | some t =>
      rw [List.filterMap_cons_some hs, List.filterMap_nil, run_concat]
      refine ih.since (fun link hlink => List.ne_nil_of_length_pos ?_) hs
      exact Nat.zero_lt_of_lt ((tally_run config _).used_lt hlink)

end Renewed

/-! ## The loops of the past -/

/-- The loop of this connection has ended. -/
def Ended (id : Nat) (c : Client) : Prop := c.connections[id]?.map (·.phase) = some .ended

instance (id : Nat) (c : Client) : Decidable (Ended id c) := inferInstanceAs (Decidable (_ = _))

theorem Ended.step {id : Nat} (h : Ended id c) (s : Step) : Ended id (c.step s).1 := by
  obtain ⟨k, hk, hp⟩ := Option.map_eq_some_iff.1 h
  obtain ⟨k', hk', he⟩ := step_effect hk s
  exact Option.map_eq_some_iff.2 ⟨k', hk', (he.ended hp).1⟩

/-- The loop of a connection that was lost has ended with its report. -/
theorem ended_of_lost (config : SessionConfig) (steps : List Step) :
    ∀ id ∈ (run { config } steps).2.filterMap Occurrence.lost?, Ended id (run { config } steps).1 := by
  induction steps using List.reverseRecOn with
  | nil => exact nofun
  | append_singleton steps s ih =>
    rw [run_concat, List.filterMap_append]
    refine List.forall_mem_append.2 ⟨fun id hid => (ih id hid).step s, fun id hid => ?_⟩
    obtain ⟨o, ho, hlost⟩ := List.mem_filterMap.1 hid
    cases o with
    | emitted i event =>
      cases event with
      | connectionLost reason =>
        cases hlost
        obtain ⟨rfl, -, -, k, loss, hk, leaving⟩ := lost_cases ((coupled_new config).run steps) ho
        refine Option.map_eq_some_iff.2 ⟨_, receive_getElem? hk, ?_⟩
        rw [afterLoop_phase, Connection.advance, leaving]
      | _ => cases hlost
    | _ => cases hlost

/-- Every disconnect is over: the loop that it stopped has ended. -/
def DisconnectsOver (result : Client × List Occurrence) : Prop :=
  ∀ id ∈ result.2.filterMap Occurrence.taken?, Ended id result.1

instance (result : Client × List Occurrence) : Decidable (DisconnectsOver result) :=
  inferInstanceAs (Decidable (∀ id ∈ result.2.filterMap Occurrence.taken?, Ended id result.1))

/-- **Once its disconnects are over, a session without a connection has no loop left.** -/
theorem ended_of_over {config : SessionConfig} {steps : List Step} (free : (run { config } steps).1.session.link = none)
    (hover : DisconnectsOver (run { config } steps)) :
    ∀ k ∈ (run { config } steps).1.connections, k.phase = .ended := by
  intro k hk
  obtain ⟨id, hid⟩ := List.mem_iff_getElem?.1 hk
  have hlt : id < (run { config } steps).1.connections.length := (List.getElem?_eq_some_iff.1 hid).1
  have htally := (tally_run config steps).ended
  rw [free, Option.map_none, Option.toList_none, List.append_nil] at htally
  rw [← List.mem_range, ← htally, (Occurrence.ended_perm _).mem_iff, List.mem_append] at hlt
  obtain ⟨j, hj, hphase⟩ := Option.map_eq_some_iff.1 (hlt.elim (ended_of_lost config steps id) (hover id))
  rw [hid] at hj
  cases hj
  exact hphase

theorem advance_stopped (k : Connection) (config : SessionConfig) : (k.advance config).1.stopped = k.stopped := by
  have ht := k.advance_turn config
  generalize k.advance config = next at ht
  rcases next with ⟨k', report⟩
  cases ht <;> rfl

theorem Effect.stays_stopped {id : Nat} {k k' : Connection} {s : Step} {told : List Occurrence}
    (he : Effect c id k s k' told) (hs : k.stopped = true) : k'.stopped = true := by
  cases he with
  | stop => rfl
  | turn =>
    rw [afterLoop_stopped, advance_stopped]
    exact hs
  | _ => exact hs

theorem stopped_run {id : Nat} : ∀ (steps : List Step) {c : Client} {k : Connection}, c.connections[id]? = some k →
    k.stopped = true → ∃ k', (c.run steps).1.connections[id]? = some k' ∧ k'.stopped = true
  | [], _, k, hk, hs => ⟨k, hk, hs⟩
  | s :: rest, c, k, hk, hs => by
    obtain ⟨k', hk', he⟩ := step_effect hk s
    exact stopped_run rest hk' (he.stays_stopped hs)

/-- **A loop that was told to stop ends**, if it is let go on. -/
theorem receiveAll_ended {id : Nat} {k : Connection} (hk : c.connections[id]? = some k) (hs : k.stopped = true) :
    Ended id (c.receiveAll id).1 := by
  obtain ⟨n, hn⟩ := receiveAll_eq_run c id
  obtain ⟨k', hk', hidle⟩ := receiveAll_idle hk
  obtain ⟨k'', hk'', hs'⟩ := stopped_run (List.replicate n (.receive id)) hk hs
  rw [← hn, hk'] at hk''
  cases hk''
  refine Option.map_eq_some_iff.2 ⟨k', hk', ?_⟩
  -- A loop at rest waits for the peer or has ended, and one that was stopped does not wait.
  unfold Connection.idle at hidle
  split at hidle
  · rw [hs'] at hidle
    cases hidle
  · assumption
  · cases hidle

/-- **A whole call of `disconnect` is over when it returns.** -/
theorem leave_ended {next : Client} {id : Nat} (h : c.step .disconnect = (next, [.disconnected (some id)]))
    (hid : id < c.connections.length) : Ended id c.leave.1 := by
  have hstopped : ∃ k, next.connections[id]? = some k ∧ k.stopped = true := by
    have hm := step_move c .disconnect
    rw [h] at hm
    cases hm with
    | detach link hd hs hl =>
      exact ⟨_, (modify_cases (List.getElem?_eq_getElem hid)).trans (congrArg some (if_pos rfl)), rfl⟩
  obtain ⟨k, hk, hs⟩ := hstopped
  obtain ⟨k₁, hk₁, he⟩ := step_effect hk (.close id)
  rw [leave, h]
  exact receiveAll_ended hk₁ (he.stays_stopped hs)

/-- **A disconnected session is as good as new.**  Take any run that leaves a session disconnected, with its observer still
listening and not given up, and whatever comes after it, in any order.  Of what comes after, some steps concern the calls
and connections from before: handshakes that were called off, requests in flight, loops not yet at their end.  The others
are made by a new session as well, where calls and connections are counted from its start.
- What is told of them is the same: the results of the calls, the events, the notes on the counts with their answers.
- The state, the address of the other end and the observer are the same.
- The connections are the same, with all that their other ends have received.
- So are the counts, from the first connection on.
- The events are the same if the disconnects from before are over.  Until then the loop of a connection from before can
  still tell of frames that it cannot read, and of nothing else. -/
theorem disconnected_as_new (config : SessionConfig) (history more : List Step) (alive : .drop ∉ history)
    (free : (run { config } history).1.session.state = .disconnected)
    (heard : (run { config } history).1.observed = true) :
    let c := (run { config } history).1
    let origin := c.past.origin
    let old := c.run more
    let new := run { config } (more.filterMap (·.since origin))
    old.2.filterMap (·.since origin) = new.2 ∧
    old.1.session.state = new.1.session.state ∧
    old.1.session.link.map (·.peer) = new.1.session.link.map (·.peer) ∧
    old.1.observed = new.1.observed ∧
    old.1.connections.drop origin.connections = new.1.connections ∧
    (∀ call id, .connected call id ∈ new.2 → old.1.session.outstanding = new.1.session.outstanding) ∧
    (∀ id < origin.connections, ∀ event, .emitted id event ∈ old.2 → ∃ reason, event = .frameDiscarded reason) ∧
    (DisconnectsOver (run { config } history) → old.2.filterMap (·.event?) = new.2.filterMap (·.event?)) := by
  intro c origin old new
  have hlink := ((coupled_new config).run history).session.link_eq_none (by rw [free]; rfl)
  have hrenewed := Renewed.run config (past_spent free) more
  rw [← disconnected_eq_behind alive free heard] at hrenewed
  obtain ⟨⟨q, hq, hclient⟩, htold, hbygone, hevents⟩ := hrenewed
  replace hclient : old.1 = new.1.behind q := hclient
  refine ⟨htold, by rw [hclient]; rfl, ?_, by rw [hclient]; rfl, ?_, fun call id hm => ?_, fun id hid event hm => ?_,
    fun hover => hevents (ended_of_over hlink hover)⟩
  · rw [hclient, behind, Option.map_map]
    rfl
  · rw [hclient, show origin.connections = q.connections.length from hq.opened.symm]
    exact List.drop_left
  · have hid : id ∈ new.2.filterMap Occurrence.opened? := List.mem_filterMap.2 ⟨_, hm, rfl⟩
    rw [(tally_run config _).opened, List.mem_range] at hid
    rw [hclient]
    exact outstanding_behind (List.ne_nil_of_length_pos (Nat.zero_lt_of_lt hid))
  · exact hbygone _ hm (Option.map_eq_none_iff.2 (since?_eq_none.2 hid)) event rfl

/-- A disconnect leaves half a frame and a shout behind; the shout fails while the next connection is opened and welcomed. -/
theorem disconnected_as_new_of_half_frame :
    let history : List Step := [.connect ⟨"localhost", 47007⟩, .answer 0 .accepted, .finish 0,
      .peer 0 (.send [0, 200, 0, 0, 0, 203, 0]), .receive 0, .receive 0, .receive 0, .send (.shout "hi"), .disconnect,
      .close 0, .receive 0]
    let more : List Step := [.connect ⟨"localhost", 47007⟩, .answer 2 .accepted, .write 1, .finish 2,
      .send (.login "ada" "pw"), .write 3, .retract 1, .peer 1 (.send [0, 200, 0, 0]), .receive 1, .receive 1]
    let fresh : List Step := [.connect ⟨"localhost", 47007⟩, .answer 0 .accepted, .finish 0, .send (.login "ada" "pw"),
      .write 1, .peer 0 (.send [0, 200, 0, 0]), .receive 0, .receive 0]
    let old := (run {} history).1.run more
    let new := run {} fresh
    (.drop ∉ history ∧ (run {} history).1.session.state = .disconnected ∧ (run {} history).1.observed = true) ∧
    old.2.filterMap (·.since { calls := 2, connections := 1 }) = new.2 ∧
    old.1.session.state = .authenticated ∧ old.1.connections.drop 1 = new.1.connections ∧
    old.1.session.outstanding = {} ∧ old.2.filterMap (·.event?) = new.2.filterMap (·.event?) := by
  intro history more fresh
  dsimp only
  have halive : .drop ∉ history := by decide
  have hfree : (run {} history).1.session.state = .disconnected := by decide +kernel
  have hheard : (run {} history).1.observed = true := by decide +kernel
  have hover : DisconnectsOver (run {} history) := by decide +kernel
  have horigin : (run {} history).1.past.origin = { calls := 2, connections := 1 } := by decide +kernel
  have hfresh : more.filterMap (·.since { calls := 2, connections := 1 }) = fresh := by decide +kernel
  have hnew : (run {} fresh).1.session.state = .authenticated ∧ (run {} fresh).1.session.outstanding = {} ∧
      .connected 0 0 ∈ (run {} fresh).2 := by decide +kernel
  have h := disconnected_as_new {} history more halive hfree hheard
  dsimp only at h
  rw [horigin, hfresh] at h
  obtain ⟨htold, hstate, -, -, hconnections, houtstanding, -, hevents⟩ := h
  exact ⟨⟨halive, hfree, hheard⟩, htold, hstate.trans hnew.1, hconnections,
    (houtstanding 0 0 hnew.2.2).trans hnew.2.1, hevents hover⟩

end Client
end ChatClient
