import ChatClient.Proofs.Client.Wire
import ChatClient.Proofs.Frame.Transfer
/-!
# Arrival — what the other end of a connection receives

With one caller, who makes no call while a request is in flight (`oneCaller`), the requests that pass the gate for a
connection are written to it in the order of their calls (`lined_run`), logins first (`shaped_run`).  What the other end
receives is a front of what was taken of them.  While that end is open all of it can still arrive, unless our end was shut
and discarded it (`discarded_run`); from then on nothing arrives (`received_stays`).  `received_in_call_order` puts this
together, and says which requests a server reads off what it receives.
-/
namespace ChatClient

open Network (Fault Socket)

namespace Client

variable {c : Client} {id : Nat} {k k' : Connection} {s : Step} {told : List Occurrence} {passed : List (Nat × Request)}
  {pieces : List Piece}

/-! ## What passes the gate -/

theorem passing_cases (id : Nat) (c : Client) (s : Step) : passing id c s = [] ∨ ∃ r link, s = .send r ∧
    c.session.link = some link ∧ link.id = id ∧ Session.objection c.session.state r.command = none ∧
    passing id c s = [(c.calls, r)] ∧ (c.step s).1.calls = c.calls + 1 := by
  cases step_flight c s with
  | keep writes calls quiet refused => exact .inl (passing_eq_nil refused)
  | pass r link octets step gate encoded used writes calls tells =>
    subst step
    have hpassing : passing id c (.send r) = if link.id = id then [(c.calls, r)] else [] := by
      simp [passing, tells, Session.uses, used]
    by_cases hid : link.id = id
    · exact .inr ⟨r, link, rfl, used, hid, gate, hpassing.trans (if_pos hid), calls⟩
    · exact .inl (hpassing.trans (if_neg hid))
  | fault w f step | depart w step | withdraw w f notes step => exact .inl (passing_eq_nil (by simp [step]))

/-- The calls that pass the gate are numbered in the order in which they do. -/
theorem passed_run (config : SessionConfig) (id : Nat) (steps : List Step) :
    (∀ p ∈ gather (passing id) { config } steps, p.1 < (run { config } steps).1.calls) ∧
      (gather (passing id) { config } steps).Pairwise fun p q => p.1 < q.1 := by
  induction steps using List.reverseRecOn with
  | nil => exact ⟨nofun, .nil⟩
  | append_singleton steps s ih =>
    obtain ⟨hcalls, hpassed⟩ := ih
    rw [run_concat, gather_concat]
    generalize (run { config } steps).1 = c at hcalls
    have hold : ∀ p ∈ gather (passing id) { config } steps, p.1 < (c.step s).1.calls :=
      fun p hp => Nat.lt_of_lt_of_le (hcalls p hp) (step_flight c s).calls_le
    rcases passing_cases id c s with hnone | ⟨r, link, -, -, -, -, hone, hnext⟩
    · rw [hnone, List.append_nil]
      exact ⟨hold, hpassed⟩
    · rw [hone]
      refine ⟨List.forall_mem_append.2 ⟨hold, List.forall_mem_singleton.2 ?_⟩, List.pairwise_append.2
        ⟨hpassed, List.pairwise_singleton _ _, fun p hp q hq => ?_⟩⟩
      · rw [hnext]
        exact Nat.lt_succ_self _
      · rw [List.mem_singleton.1 hq]
        exact hcalls p hp

/-- **Logins pass the gate first, and then other requests**, once the login of this connection has succeeded. -/
theorem shaped_run (config : SessionConfig) (id : Nat) (steps : List Step) : ∃ logins others : List Request,
    (gather (passing id) { config } steps).map Prod.snd = logins ++ others ∧ (∀ r ∈ logins, r.command = .login) ∧
      (∀ r ∈ others, r.command ≠ .login) ∧ (others ≠ [] → Welcomed id (run { config } steps).2) := by
  induction steps using List.reverseRecOn with
  | nil => exact ⟨[], [], rfl, nofun, nofun, fun h => absurd rfl h⟩
  | append_singleton steps s ih =>
    obtain ⟨logins, others, heq, hlogins, hothers, hwelcomed⟩ := ih
    have ha := admitted_run config steps
    rw [run_concat, gather_concat, List.map_append, heq]
    generalize (run { config } steps).1 = c, (run { config } steps).2 = told at ha hwelcomed
    rcases passing_cases id c s with hnone | ⟨r, link, -, used, rfl, gate, hone, -⟩
    · refine ⟨logins, others, by rw [hnone]; exact List.append_nil _, hlogins, hothers, fun hne => ?_⟩
      exact List.mem_append_left _ (hwelcomed hne)
    rw [hone, List.map_singleton]
    by_cases hr : r.command = .login
    · -- Had another request passed on this connection, the session would be authenticated and the gate closed to a login.
      have hnil : others = [] := by
        by_contra hne
        have hstate := (ha.authenticated_iff used).2 (hwelcomed hne)
        rw [hr] at gate
        rw [Session.connected_of_objection gate] at hstate
        cases hstate
      rw [hnil, List.append_nil]
      refine ⟨logins ++ [r], [], (List.append_nil _).symm, ?_, nofun, fun h => absurd rfl h⟩
      exact List.forall_mem_append.2 ⟨hlogins, List.forall_mem_singleton.2 hr⟩
    · refine ⟨logins, others ++ [r], List.append_assoc _ _ _, hlogins, ?_, fun _ => ?_⟩
      · exact List.forall_mem_append.2 ⟨hothers, List.forall_mem_singleton.2 hr⟩
      · exact List.mem_append_left _ ((ha.authenticated_iff used).1 (Session.authenticated_of_objection gate hr))

/-! ## One caller -/

/-- A request is made only when none is in flight.  A caller that awaits the end of each call before the next keeps to
this, whatever else happens in between. -/
def oneCaller (c : Client) : List Step → Bool
  | [] => true
  | s :: rest => (!s.sends || c.writes.isEmpty) && (c.step s).1.oneCaller rest

theorem oneCaller_append (c : Client) (l m : List Step) :
    c.oneCaller (l ++ m) = (c.oneCaller l && (c.run l).1.oneCaller m) := by
  induction l generalizing c with
  | nil => rfl
  | cons s l ih => rw [List.cons_append, oneCaller, oneCaller, ih, Bool.and_assoc, run_cons]

theorem retract_write {w : Write} (hw : c.writes = [w]) (hf : w.fault = none) (hk : c.connections[w.id]? = some k) :
    ((c.write w.call).1.retract w.call).1.writes = [] := by
  rcases hwrite : k.socket.write w.octets with ⟨socket, _ | f⟩
  · have hsent : (c.write w.call).1.writes = [] := by
      simp [write, hw, hf, hk, hwrite, setConnection]
    simp [retract, hsent]
  · have hfailed : (c.write w.call).1.writes = [{ w with fault := some f }] := by
      simp [write, hw, hf, hk, hwrite, setConnection]
    simp only [retract, hfailed, List.find?_cons_of_pos, decide_true]
    split <;> simp

/-- **A whole call is one of a single caller, and leaves nothing in flight.** -/
theorem request_alone (h : Tally c told) (hnone : c.writes = []) (r : Request) (rest : List Step) :
    c.oneCaller ([.send r, .write c.calls, .retract c.calls] ++ rest) = (c.request r).1.oneCaller rest ∧
      (c.request r).1.writes = [] := by
  refine ⟨?_, ?_⟩
  · rw [oneCaller_append]
    simp [oneCaller, Step.sends, hnone, request]
  · change (((c.step (.send r)).1.write c.calls).1.retract c.calls).1.writes = []
    cases step_flight c (.send r) with
    | keep writes =>
      have hsame : (c.step (.send r)).1.write c.calls = ((c.step (.send r)).1, []) := by
        simp [write, writes, hnone]
      rw [hsame]
      simp [retract, writes, hnone]
    | pass r' link octets step gate encoded used writes =>
      obtain ⟨k, hk⟩ : ∃ k, c.connections[link.id]? = some k := ⟨_, List.getElem?_eq_getElem (h.used_lt used)⟩
      obtain ⟨k', hk', -⟩ := step_effect hk (.send r)
      rw [hnone] at writes
      exact retract_write writes rfl hk'
    | fault w f step | depart w step | withdraw w f notes step => cases step

/-- The requests in flight on this connection that are still to be written. -/
def unwritten (id : Nat) (c : Client) : List (Nat × Request) :=
  (c.writes.filter fun w => w.id = id ∧ w.fault = none).map fun w => (w.call, w.request)

theorem unwritten_eq_nil (h : ∀ w ∈ c.writes, w.id = id → w.fault ≠ none) : unwritten id c = [] := by
  rw [unwritten, List.map_eq_nil_iff, List.filter_eq_nil_iff]
  intro w hw
  simpa using h w hw

theorem unwritten_singleton {w : Write} (hw : c.writes = [w]) (hf : w.fault = none) :
    unwritten id c = if w.id = id then [(w.call, w.request)] else [] := by
  rw [unwritten, hw]
  by_cases hid : w.id = id <;> simp [hid, hf]

theorem eq_singleton {l : List Write} {w : Write} (h : l.length ≤ 1) (hw : w ∈ l) : l = [w] := by
  match l, h, hw with
  | [v], _, hw => rw [List.mem_singleton.1 hw]

/-- One request in flight at a time, as long as none is made while one is. -/
theorem alone_step (h : c.writes.length ≤ 1) (hs : s.sends = true → c.writes = []) : (c.step s).1.writes.length ≤ 1 := by
  cases step_flight c s with
  | keep writes => rwa [writes]
  | pass r link octets step gate encoded used writes => simp [writes, hs (by rw [step]; rfl)]
  | fault w f step writes => rwa [writes, List.length_map]
  | depart w step flying writes | withdraw w f notes step flying writes =>
    rw [writes]
    exact Nat.le_trans (List.length_filter_le _ _) h

/-- The requests that passed the gate for a connection were written there in their order, except for the one that is still to
be written. -/
structure Lined (id : Nat) (c : Client) (passed : List (Nat × Request)) (pieces : List Piece) : Prop where
  alone : c.writes.length ≤ 1
  passed : passed = pieces.map Piece.asked ++ unwritten id c

theorem Lined.step (h : Lined id c passed pieces) (s : Step) (hs : s.sends = true → c.writes = []) :
    Lined id (c.step s).1 (passed ++ passing id c s) (pieces ++ putting id c s) := by
  refine ⟨alone_step h.alone hs, ?_⟩
  -- With a step that neither passes the gate nor writes, what is still to be written stays so.
  have hquiet : passing id c s = [] → putting id c s = [] → unwritten id (c.step s).1 = unwritten id c →
      passed ++ passing id c s = (pieces ++ putting id c s).map Piece.asked ++ unwritten id (c.step s).1 := by
    intro hpassing hputting hsame
    rw [hpassing, hputting, hsame, List.append_nil, List.append_nil]
    exact h.passed
  by_cases hwrite : ∃ call, s = .write call
  · obtain ⟨call, rfl⟩ := hwrite
    have hpassing : passing id c (.write call) = [] := rfl
    rcases step_puts c call with ⟨hstep, hnone⟩ | ⟨w, k, socket, fault, front, rfl, hput⟩
    · exact hquiet hpassing (hnone id) (by rw [hstep])
    have hone := eq_singleton h.alone hput.flying
    have hnil : unwritten id (c.step (.write w.call)).1 = [] := by
      refine unwritten_eq_nil fun v hv _ => ?_
      by_cases hcall : v.call = w.call
      · exact hput.tried v hv hcall
      · have hv := hput.others v hv hcall
        rw [hone, List.mem_singleton] at hv
        exact absurd (congrArg Write.call hv) hcall
    rw [hpassing, hnil, h.passed, unwritten_singleton hone hput.fresh, hput.puts]
    by_cases hid : w.id = id <;> simp [hid, Piece.asked]
  have hputting : putting id c s = [] := putting_eq_nil fun call heq => hwrite ⟨call, heq⟩
  cases step_flight c s with
  | keep writes calls quiet refused => exact hquiet (passing_eq_nil refused) hputting (by rw [unwritten, writes, unwritten])
  | pass r link octets step gate encoded used writes calls tells =>
    have hnone : c.writes = [] := hs (by rw [step]; rfl)
    have hpassing : passing id c s = if link.id = id then [(c.calls, r)] else [] := by
      subst step
      simp [passing, tells, Session.uses, used]
    rw [hnone, List.nil_append] at writes
    rw [hpassing, hputting, unwritten_singleton writes rfl, h.passed, unwritten_eq_nil (by simp [hnone]), List.append_nil,
      List.append_nil]
  | withdraw w f notes step flying writes calls quiet tells failed =>
    -- A request that is taken back was written before.
    have hone := eq_singleton h.alone flying
    refine hquiet (passing_eq_nil (by simp [step])) hputting ?_
    rw [unwritten_eq_nil (by simp [writes, hone]), unwritten_eq_nil]
    rw [hone]
    simp [failed]
  | fault w f step | depart w step => exact absurd ⟨_, step⟩ hwrite

theorem lined_run (config : SessionConfig) (id : Nat) (steps : List Step) (hone : oneCaller { config } steps = true) :
    Lined id (run { config } steps).1 (gather (passing id) { config } steps) (gather (putting id) { config } steps) := by
  induction steps using List.reverseRecOn with
  | nil => exact ⟨by simp [run], rfl⟩
  | append_singleton steps s ih =>
    rw [oneCaller_append, Bool.and_eq_true] at hone
    obtain ⟨hsteps, hlast⟩ := hone
    rw [run_concat, gather_concat, gather_concat]
    refine (ih hsteps).step s fun hsends => ?_
    simpa [oneCaller, hsends] using hlast

/-! ## What arrives -/

/-- Where nothing more can arrive, it stays so and nothing does. -/
theorem Effect.severed (he : Effect c id k s k' told) (h : k.socket.severed = true) :
    k'.socket.severed = true ∧ k'.socket.received = k.socket.received := by
  have hsevered : (k'.socket.peer = .opened → k.socket.peer = .opened) → k'.socket.discarded = k.socket.discarded →
      k'.socket.severed = true := fun hpeer hdiscarded => Socket.severed_of hpeer hdiscarded h
  cases he with
  | bystand | stop | shut => exact ⟨h, rfl⟩
  | write w socket hw hid hwrite =>
    exact ⟨hsevered (Socket.write_open hwrite).2 (Socket.write_discarded hwrite), Socket.write_received hwrite⟩
  | failWrite w socket f hw hid hwrite =>
    exact ⟨hsevered (Socket.write_open hwrite).2 (Socket.write_discarded hwrite), Socket.write_received hwrite⟩
  | turn =>
    obtain ⟨hreceived, -, -, hdiscarded⟩ := k.advance_written c.config
    rw [afterLoop_peer, afterLoop_written.2.2.2] at hsevered
    rw [afterLoop_written.1]
    exact ⟨hsevered (k.advance_open c.config).2 hdiscarded, hreceived⟩
  | peer act => exact ⟨Socket.meet_severed h act, Socket.meet_received_of_severed h act⟩

/-- **What has arrived where nothing more can is all that ever arrives there.** -/
theorem received_stays (config : SessionConfig) (steps more : List Step)
    (hk : (run { config } steps).1.connections[id]? = some k) (h : k.socket.severed = true) :
    ∃ k', (run { config } (steps ++ more)).1.connections[id]? = some k' ∧ k'.socket.severed = true ∧
      k'.socket.received = k.socket.received := by
  induction more using List.reverseRecOn with
  | nil => exact ⟨k, by rw [List.append_nil]; exact hk, h, rfl⟩
  | append_singleton more s ih =>
    obtain ⟨j, hj, hsevered, hreceived⟩ := ih
    obtain ⟨k', hk', he⟩ := step_effect hj s
    obtain ⟨hsevered', hsame⟩ := he.severed hsevered
    rw [← List.append_assoc, run_concat]
    exact ⟨k', hk', hsevered', hsame.trans hreceived⟩

theorem Effect.discarded (he : Effect c id k s k' told) (h : k'.socket.discarded = true) :
    k.socket.discarded = true ∨ k.socket.shut = true := by
  cases he with
  | bystand | stop | shut => exact .inl h
  | write w socket hw hid hwrite => exact .inl ((Socket.write_discarded hwrite).symm.trans h)
  | failWrite w socket f hw hid hwrite => exact .inl ((Socket.write_discarded hwrite).symm.trans h)
  | turn =>
    rw [afterLoop_written.2.2.2, (k.advance_written c.config).2.2.2] at h
    exact .inl h
  | peer act => exact (Socket.discarded_of_meet h).imp_right And.left

/-- **An end discards what has not arrived only after our side was shut**: its connection was taken away, or the session was
given up. -/
theorem discarded_run (config : SessionConfig) (steps : List Step)
    (hk : (run { config } steps).1.connections[id]? = some k) (h : k.socket.discarded = true) :
    k.socket.shut = true ∧
      ((run { config } steps).1.dropped = true ∨ .disconnected (some id) ∈ (run { config } steps).2) := by
  have hshut : ∀ steps : List Step, ∀ k, (run { config } steps).1.connections[id]? = some k →
      k.socket.discarded = true → k.socket.shut = true := by
    intro steps
    induction steps using List.reverseRecOn with
    | nil => simp [run]
    | append_singleton steps s ih =>
      rw [run_concat]
      intro k' hk'
      refine Released.of_step (P := fun k => k.socket.discarded = true → k.socket.shut = true) hk' (fun k hk he hd => ?_)
        fun peer => by simp
      refine (he.discarded hd).elim (fun hd => he.stays_shut (ih k hk hd)) he.stays_shut
  refine ⟨hshut steps k hk h, ((released_run config steps).shut id k hk (hshut steps k hk h)).imp_right fun hm => ?_⟩
  exact Occurrence.mem_taken.1 hm

/-! ## What is read off the wire -/

namespace Wired

theorem takes (h : Wired id c told pieces) : Inbound.Takes Inbound.requests Request.frame (pieces.map Piece.request) := by
  refine Request.takes_of_fits fun r hr => ?_
  obtain ⟨p, hp, rfl⟩ := List.mem_map.1 hr
  exact (h.fits p hp).1

/-- As long as the calls end well the wire carries their frames, and of the first that does not, a front. -/
theorem octets_prefix (h : Wired id c told pieces) {n : Nat}
    (hn : ∀ p ∈ pieces.take n, .sent p.call id p.request ∈ told) :
    (pieces.take (n + 1)).flatMap Piece.octets <+: (pieces.map Piece.request).flatMap Request.frame := by
  have hwhole : (pieces.take n).flatMap Piece.octets = ((pieces.take n).map Piece.request).flatMap Request.frame := by
    rw [List.flatMap_map]
    exact List.flatMap_congr fun p hp => (h.whole p (List.mem_of_mem_take hp)).2 (hn p hp)
  have hsplit : (pieces.map Piece.request).flatMap Request.frame =
      ((pieces.take n).map Piece.request).flatMap Request.frame ++
        ((pieces.drop n).map Piece.request).flatMap Request.frame := by
    rw [← List.flatMap_append, ← List.map_append, List.take_append_drop]
  rw [List.take_add_one, List.flatMap_append, hwhole, hsplit, List.prefix_append_right_inj]
  cases hp : pieces[n]? with
  | none => exact List.nil_prefix
  | some p =>
    have hdrop : pieces.drop n = p :: pieces.drop (n + 1) := by
      obtain ⟨hlt, rfl⟩ := List.getElem?_eq_some_iff.1 hp
      exact List.drop_eq_getElem_cons hlt
    rw [hdrop, Option.toList_some, List.flatMap_singleton, List.map_cons, List.flatMap_cons]
    exact (h.fits p (List.mem_of_getElem? hp)).2.trans (List.prefix_append _ _)

/-- **A server reads the requests off the wire in their order**, up to the first whose call does not end well. -/
theorem drained (h : Wired id c told pieces) {n : Nat} (hn : ∀ p ∈ pieces.take n, .sent p.call id p.request ∈ told)
    {b : Bytes} (hb : b <+: (pieces.take (n + 1)).flatMap Piece.octets) : ∃ rs rest,
      rs <+: pieces.map Piece.request ∧ Inbound.requests.drain b = (rs.map Except.ok, rest) ∧
        rs.flatMap Request.frame ++ rest = b := by
  have hfront := hb.trans (h.octets_prefix hn)
  obtain ⟨j, hj, hcount, hdrain⟩ := Inbound.drain_front h.takes hfront
  refine ⟨_, _, List.take_prefix j _, hdrain, ?_⟩
  have hle : (((pieces.map Piece.request).take j).flatMap Request.frame).length ≤ b.length := by
    cases j with
    | zero => simp
    | succ j => exact (hcount j hj).1 (Nat.lt_succ_self j)
  have hprefix := List.prefix_of_prefix_length_le (List.IsPrefix.flatMap (List.take_prefix j _) Request.frame) hfront hle
  obtain ⟨rest, rfl⟩ := hprefix
  rw [List.drop_left]

end Wired

/-- **What reaches the other end of a connection, with one caller.**
- The requests that pass the gate for this connection are written to it in the order of their calls; of each a piece is
  taken, which is the whole frame exactly if its call ends well, and a proper front of it otherwise.  A call that was turned
  down did not pass the gate, and none of its octets is taken.
- Where no write is made to fail on its way, a call that does not end well leaves nothing on the wire.
- What the other end has received is a front of these pieces, one after the other.  All of them can still arrive, unless that
  end is open no more or what was underway has been discarded: from then on nothing arrives.
- What is underway to an open end is discarded only after our side was shut, because a disconnect took the connection away
  or the session was given up.
- Read as frames, what has been received is a front of these requests, up to the first call that did not end well.
- Logins pass the gate first, and then other requests.
- A request other than a login is sent only after the acknowledgement of a login with success was taken on this
  connection. -/
theorem received_in_call_order (config : SessionConfig) (steps : List Step) (id : Nat) (k : Connection)
    (hone : oneCaller { config } steps = true) (hk : (run { config } steps).1.connections[id]? = some k) :
    let c := (run { config } steps).1
    let told := (run { config } steps).2
    let passed := gather (passing id) { config } steps
    (∃ pieces : List Piece,
      ((pieces.map Piece.asked <+: passed ∧ (c.writes = [] → pieces.map Piece.asked = passed)) ∧
        passed.Pairwise fun p q => p.1 < q.1) ∧
      (∀ p ∈ pieces, ∃ frame, p.request.encode = .ok frame ∧ p.octets <+: frame ∧
        (p.octets = frame ↔ .sent p.call id p.request ∈ told)) ∧
      (∀ call i r fault, .unsent call i r fault ∈ told → ∀ p ∈ pieces, p.call = call →
        .sent p.call id p.request ∉ told) ∧
      (Smooth id steps → ∀ p ∈ pieces, .sent p.call id p.request ∉ told → p.octets = []) ∧
      (k.socket.taken = pieces.flatMap Piece.octets ∧ k.socket.received <+: k.socket.taken) ∧
      ∀ n, (∀ p ∈ pieces.take n, .sent p.call id p.request ∈ told) →
        let b := k.socket.received.take ((pieces.take (n + 1)).flatMap Piece.octets).length
        ∃ rs rest, rs <+: pieces.map Piece.request ∧ Inbound.requests.drain b = (rs.map Except.ok, rest) ∧
          rs.flatMap Request.frame ++ rest = b) ∧
    (k.socket.severed = false → k.socket.deliver.received = k.socket.taken) ∧
    (k.socket.severed = true → ∀ more, ∃ k', (run { config } (steps ++ more)).1.connections[id]? = some k' ∧
      k'.socket.received = k.socket.received) ∧
    (k.socket.peer = .opened → k.socket.severed = true →
      k.socket.shut = true ∧ (c.dropped = true ∨ .disconnected (some id) ∈ told)) ∧
    (∃ logins others, passed.map Prod.snd = logins ++ others ∧ (∀ r ∈ logins, r.command = .login) ∧
      ∀ r ∈ others, r.command ≠ .login) ∧
    (∀ before after call r, told = before ++ .sent call id r :: after → r.command ≠ .login →
      .handled id (.ack .login ⟨0⟩) ∈ before) := by
  intro c told passed
  have hwired := wired_run config id steps
  have hlined := lined_run config id steps hone
  refine ⟨⟨gather (putting id) { config } steps, ⟨⟨?_, fun hnone => ?_⟩, (passed_run config id steps).2⟩,
    fun p hp => ?_, fun call i r fault hm p hp hcall hsent => ?_, fun hs => (smooth_run config hs).2,
    ⟨hwired.octets hk, ?_⟩, fun n hn => ?_⟩, fun hsevered => Socket.deliver_received hsevered,
    fun hsevered more => ?_, fun ho hsevered => ?_, ?_,
    fun before after call r => (warranted_run config steps).sent before after call id r⟩
  · rw [show passed = _ from hlined.passed]
    exact List.prefix_append _ _
  · have hnil : unwritten id c = [] := unwritten_eq_nil (by simp [hnone])
    rw [show passed = _ from hlined.passed, hnil, List.append_nil]
  · obtain ⟨hfits, hfront⟩ := hwired.fits p hp
    exact ⟨_, Request.encode_eq_ok_iff.2 ⟨hfits, rfl⟩, hfront, hwired.whole p hp⟩
  · cases (ledger_run config steps).once _ hsent _ hm call (congrArg some hcall) rfl
  · exact k.socket.received_prefix_taken
  · refine hwired.drained hn ?_
    have hreceived := k.socket.received_prefix_taken
    rw [hwired.octets hk] at hreceived
    have hfront := List.IsPrefix.flatMap (List.take_prefix (n + 1) (gather (putting id) { config } steps)) Piece.octets
    have htake := hreceived.take ((List.take (n + 1) (gather (putting id) { config } steps)).flatMap Piece.octets).length
    rwa [← List.prefix_iff_eq_take.1 hfront] at htake
  · obtain ⟨k', hk', -, hreceived⟩ := received_stays config steps more hk hsevered
    exact ⟨k', hk', hreceived⟩
  · have hd : k.socket.discarded = true := by simpa [Socket.severed, ho] using hsevered
    exact discarded_run config steps hk hd
  · obtain ⟨logins, others, heq, hlogins, hothers, -⟩ := shaped_run config id steps
    exact ⟨logins, others, heq, hlogins, hothers⟩

/-- A join that is turned down, a login and a shout that end well, and a shout whose write fails after five octets, which
arrive all the same. -/
theorem received_of_login_and_shouts :
    let late : Fault := .other "Connection timed out (os error 110)"
    let steps : List Step :=
      [.connect ⟨"localhost", 47007⟩, .answer 0 .accepted, .finish 0, .send (.join "lobby"), .send (.login "ada" "pw"),
        .write 1, .peer 0 (.send [0, 200, 0, 0]), .receive 0, .receive 0, .receive 0, .send (.shout "hi"), .write 2,
        .peer 0 (.choke 5 late), .send (.shout "late"), .write 3, .retract 3, .peer 0 (.arrive 100)]
    oneCaller {} steps = true ∧ ∃ (k : Connection) (pieces : List Piece), (run {} steps).1.connections[0]? = some k ∧
      pieces.map Piece.asked = [(1, .login "ada" "pw"), (2, .shout "hi"), (3, .shout "late")] ∧
      k.socket.taken = pieces.flatMap Piece.octets ∧
      (∀ p ∈ pieces, p.octets <+: p.request.frame ∧ (p.octets = p.request.frame ↔ p.call ≠ 3)) ∧
      k.socket.received = [0, 200, 0, 0, 0, 3, 97, 100, 97, 0, 0, 0, 2, 112, 119, 0, 203, 0, 0, 0, 2, 104, 105,
        0, 203, 0, 0, 0] := by
  intro late steps
  have hone : oneCaller {} steps = true := by decide +kernel
  have hpassed : gather (passing 0) {} steps = [(1, .login "ada" "pw"), (2, .shout "hi"), (3, .shout "late")] := by
    decide +kernel
  have hnone : (run {} steps).1.writes = [] := by decide +kernel
  have hsent : ∀ p ∈ gather (passing 0) {} steps, .sent p.1 0 p.2 ∈ (run {} steps).2 ↔ p.1 ≠ 3 := by decide +kernel
  have hoctets : (run {} steps).1.connections[0]?.map (·.socket.received) =
      some [0, 200, 0, 0, 0, 3, 97, 100, 97, 0, 0, 0, 2, 112, 119, 0, 203, 0, 0, 0, 2, 104, 105, 0, 203, 0, 0, 0] := by
    decide +kernel
  obtain ⟨k, hk, hreceived⟩ := Option.map_eq_some_iff.1 hoctets
  obtain ⟨⟨pieces, ⟨⟨-, hall⟩, -⟩, hframes, -, -, ⟨htaken, -⟩, -⟩, -⟩ :=
    received_in_call_order {} steps 0 k hone hk
  have hasked := hall hnone
  refine ⟨hone, k, pieces, hk, hasked.trans hpassed, htaken, fun p hp => ?_, hreceived⟩
  obtain ⟨frame, hencode, hfront, hwhole⟩ := hframes p hp
  obtain ⟨-, rfl⟩ := Request.encode_eq_ok_iff.1 hencode
  have hmem : p.asked ∈ gather (passing 0) {} steps := hasked ▸ List.mem_map_of_mem hp
  exact ⟨hfront, hwhole.trans (hsent _ hmem)⟩

/-- **What is received need not be what was sent.**  A call that fails can leave octets on the wire, and a request whose call
ended well never arrives if a disconnect finds octets of the server unread, although the server keeps its end open. -/
theorem received_other_than_sent :
    let dialled : List Step := [.connect ⟨"localhost", 47007⟩, .answer 0 .accepted, .finish 0]
    let failing := dialled ++ [.peer 0 (.choke 5 .unreachable), .send (.login "ada" "pw"), .write 1, .retract 1,
      .peer 0 (.arrive 100)]
    let leaving := dialled ++ [.send (.login "ada" "pw"), .write 1, .peer 0 (.send [0, 200, 0, 0]), .disconnect, .close 0,
      .receive 0, .peer 0 .discard]
    (oneCaller {} failing = true ∧ .unsent 1 0 (.login "ada" "pw") .unreachable ∈ (run {} failing).2 ∧
      (run {} failing).1.connections.map (·.socket.received) = [[0, 200, 0, 0, 0]]) ∧
    oneCaller {} leaving = true ∧ .sent 1 0 (.login "ada" "pw") ∈ (run {} leaving).2 ∧
      ∀ more, ∃ k, (run {} (leaving ++ .peer 0 (.arrive 100) :: more)).1.connections[0]? = some k ∧
        k.socket.received = [] := by
  intro dialled failing leaving
  refine ⟨by decide +kernel, by decide +kernel, by decide +kernel, fun more => ?_⟩
  have hsevered : (run {} leaving).1.connections[0]?.map (fun k => (k.socket.severed, k.socket.received)) =
      some (true, []) := by
    decide +kernel
  obtain ⟨k, hk, hsocket⟩ := Option.map_eq_some_iff.1 hsevered
  obtain ⟨k', hk', -, hreceived⟩ :=
    received_stays {} leaving (.peer 0 (.arrive 100) :: more) hk (congrArg Prod.fst hsocket)
  exact ⟨k', hk', hreceived.trans (congrArg Prod.snd hsocket)⟩

end Client
end ChatClient
