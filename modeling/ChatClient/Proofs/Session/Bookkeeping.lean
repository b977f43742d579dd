import ChatClient.Proofs.Client.Arrival
import ChatClient.Proofs.Session.Backlog
import ChatClient.Proofs.Session.Posting
/-!
# Bookkeeping — the counts of unanswered requests over a whole run

While a connection is in use, a count and the acknowledgements that were matched are together as many as the requests whose
calls ended well and those in flight (`Balanced`).  This holds in every order of steps of any number of calls in which no
acknowledgement is taken while a request is in flight (`inTurn`).  A caller who awaits the end of each call, the loops going
on in between, keeps to that (`inTurn_request`).  A request whose write fails is then taken back before an acknowledgement
can be matched with it.

Counts are 32-bit numbers, so this needs fewer than `2 ^ 32` requests on a connection.
-/
namespace ChatClient

namespace Occurrence

/-- A request passed the gate on this connection. -/
def requests (id : Nat) : Occurrence → Bool
  | noted i (.sent _) _ => i = id
  | _ => false

/-- A call with a request of this command ended well on this connection. -/
def grants (id : Nat) (command : Command) : Occurrence → Bool
  | sent _ i r => i = id && r.command = command
  | _ => false

/-- An acknowledgement of this command was matched on this connection. -/
def answers (id : Nat) (command : Command) : Occurrence → Bool
  | noted i (.received d) (some .matched) => i = id && d = command
  | _ => false

/-- The session took an acknowledgement. -/
def acknowledges : Occurrence → Bool
  | handled _ (.ack ..) => true
  | _ => false

end Occurrence

namespace Client

open Occurrence (noted? noteOn? requests grants answers acknowledges charged?)

variable {config : SessionConfig} {c c' : Client} {s : Step} {told more : List Occurrence} {id : Nat} {command : Command}
  {link : Link} {steps : List Step}

/-- How many requests passed the gate on a connection. -/
def requestCount (id : Nat) (told : List Occurrence) : Nat := told.countP (requests id)

/-- How many calls with a request of a command ended well on a connection. -/
def grantCount (id : Nat) (command : Command) (told : List Occurrence) : Nat := told.countP (grants id command)

/-- How many acknowledgements of a command were matched on a connection. -/
def answerCount (id : Nat) (command : Command) (told : List Occurrence) : Nat := told.countP (answers id command)

/-- No acknowledgement is taken while a request is in flight.  The calls of one caller who awaits the end of each keep to
this if the loops go on between them (`inTurn_request`). -/
def inTurn (c : Client) : List Step → Bool
  | [] => true
  | s :: rest => (c.writes.isEmpty || !(c.step s).2.any acknowledges) && (c.step s).1.inTurn rest

theorem inTurn_append (c : Client) (l m : List Step) : c.inTurn (l ++ m) = (c.inTurn l && (c.run l).1.inTurn m) := by
  induction l generalizing c with
  | nil => rfl
  | cons s l ih => rw [List.cons_append, inTurn, inTurn, ih, Bool.and_assoc, run_cons]

/-- Only the loops take acknowledgements. -/
theorem receive_of_acknowledges (h : (c.step s).2.any acknowledges = true) : ∃ id, s = .receive id := by
  have hmove := step_move c s
  generalize c.step s = next at hmove h
  rcases next with ⟨c', told⟩
  cases hmove with
  | handle id => exact ⟨id, rfl⟩
  | _ => simp [acknowledges] at h

theorem inTurn_of_steps (h : ∀ s ∈ steps, ∀ id, s ≠ .receive id) : c.inTurn steps = true := by
  induction steps generalizing c with
  | nil => rfl
  | cons s rest ih =>
    have hquiet : (c.step s).2.any acknowledges = false := by
      by_contra hack
      obtain ⟨id, rfl⟩ := receive_of_acknowledges (Bool.not_eq_false _ ▸ hack)
      exact h _ List.mem_cons_self id rfl
    rw [inTurn, hquiet, ih fun s hs => h s (List.mem_cons_of_mem _ hs)]
    simp

/-- **A whole call takes its turn, and leaves nothing in flight**, so the loops may go on behind it. -/
theorem inTurn_request (ht : Tally c told) (hnone : c.writes = []) (r : Request) (rest : List Step) :
    c.inTurn ([.send r, .write c.calls, .retract c.calls] ++ rest) = (c.request r).1.inTurn rest ∧
      (c.request r).1.writes = [] := by
  refine ⟨?_, (request_alone ht hnone r rest).2⟩
  rw [inTurn_append, inTurn_of_steps (by simp), Bool.true_and, request]

/-! ## The balance of a connection -/

theorem requestCount_append : requestCount id (told ++ more) = requestCount id told + requestCount id more :=
  List.countP_append

theorem grantCount_append :
    grantCount id command (told ++ more) = grantCount id command told + grantCount id command more := List.countP_append

theorem answerCount_append :
    answerCount id command (told ++ more) = answerCount id command told + answerCount id command more :=
  List.countP_append

/-- Where nothing is told of a connection, nothing of it is counted. -/
theorem counts_eq_zero (h : ∀ o ∈ told, o.charged? ≠ some id) (command : Command) :
    requestCount id told = 0 ∧ grantCount id command told = 0 ∧ answerCount id command told = 0 := by
  refine ⟨?_, ?_, ?_⟩ <;> refine List.countP_eq_zero.2 fun o ho => ?_
  · cases o with
    | noted i note answer =>
      have hne : i ≠ id := fun heq => h _ ho (congrArg some heq)
      cases note <;> simp [requests, hne]
    | _ => nofun
  · cases o with
    | sent call i r =>
      have hne : i ≠ id := fun heq => h _ ho (congrArg some heq)
      simp [grants, hne]
    | _ => nofun
  · cases o with
    | noted i note answer =>
      have hne : i ≠ id := fun heq => h _ ho (congrArg some heq)
      cases note with
      | received d =>
        rcases answer with _ | _ | _ <;> simp [answers, hne]
      | _ => nofun
    | _ => nofun

/-- A count and the acknowledgements that were matched are together the requests whose calls ended well and those in
flight, which are counted. -/
structure Balance (id : Nat) (command : Command) (c : Client) (told : List Occurrence) : Prop where
  bounded : (c.session.outstanding.count command).toNat ≤ requestCount id told
  balance : (c.session.outstanding.count command).toNat + answerCount id command told =
    grantCount id command told + flightCount id command c.writes
  covered : flightCount id command c.writes ≤ (c.session.outstanding.count command).toNat

/-- The counts of the connection in use balance. -/
def Balanced (c : Client) (told : List Occurrence) : Prop :=
  ∀ link, c.session.link = some link → ∀ command, Balance link.id command c told

namespace Balance

/-- A step that is not about this connection keeps its balance. -/
theorem quiet (h : Balance id command c told) (outstanding : c'.session.outstanding = c.session.outstanding)
    (flying : flightCount id command c'.writes = flightCount id command c.writes)
    (quiet : ∀ o ∈ more, o.charged? ≠ some id) : Balance id command c' (told ++ more) := by
  obtain ⟨hr, hg, ha⟩ := counts_eq_zero quiet command
  constructor
  · rw [outstanding, requestCount_append, hr]
    exact h.bounded
  · rw [outstanding, answerCount_append, grantCount_append, hg, ha, flying]
    exact h.balance
  · rw [outstanding, flying]
    exact h.covered

/-- A new connection has nothing counted, sent or matched. -/
theorem establish (hfresh : ∀ o ∈ told, o.charged? ≠ some id) (hnew : ∀ w ∈ c.writes, w.id ≠ id)
    (outstanding : c.session.outstanding = {}) (call : Nat) :
    Balance id command c (told ++ [.noted id .reset none, .connected call id]) := by
  obtain ⟨-, hg, ha⟩ := counts_eq_zero hfresh command
  have hflying : flightCount id command c.writes = 0 :=
    List.countP_eq_zero.2 fun w hw => by simp [hnew w hw]
  have hcount : (c.session.outstanding.count command).toNat = 0 := by
    rw [outstanding]
    cases command <;> rfl
  constructor
  · rw [hcount]
    exact Nat.zero_le _
  · rw [hcount, hflying, answerCount_append, grantCount_append, hg, ha]
    rfl
  · rw [hflying]
    exact Nat.zero_le _

/-- A request that passes the gate is counted and in flight. -/
theorem pass (h : Balance id command c told) {w : Write} (place : w.id = id)
    (hfits : (c.session.outstanding.count w.request.command).toNat + 1 < 4294967296)
    (outstanding : c'.session.outstanding = c.session.outstanding.sent w.request.command)
    (writes : c'.writes = c.writes ++ [w]) (call : Nat) :
    Balance id command c' (told ++ [.noted id (.sent w.request.command) none, .started call]) := by
  have hcount := Outstanding.toNat_count_sent hfits command
  rw [← outstanding] at hcount
  have hflying := flightCount_append id command c.writes w
  rw [← writes] at hflying
  simp only [place, true_and, eq_comm (a := w.request.command)] at hflying
  have hr : requestCount id [.noted id (.sent w.request.command) none, .started call] = 1 := by
    simp [requestCount, requests]
  constructor
  · have hbounded := h.bounded
    rw [hcount, requestCount_append, hr]
    split <;> omega
  · have hbalance := h.balance
    rw [hcount, hflying, answerCount_append, grantCount_append]
    change _ + (_ + 0) = _ + 0 + _
    omega
  · rw [hcount, hflying]
    exact Nat.add_le_add_right h.covered _

/-- A request that was in flight is sent. -/
theorem depart (h : Balance id command c told) {w : Write} (hdistinct : (c.writes.map (·.call)).Nodup)
    (flying : w ∈ c.writes) (outstanding : c'.session.outstanding = c.session.outstanding)
    (writes : c'.writes = c.writes.filter (·.call ≠ w.call)) :
    Balance id command c' (told ++ [.sent w.call w.id w.request]) := by
  have hbalance := h.balance
  have hcovered := h.covered
  have hflying := flightCount_filter id command hdistinct flying
  rw [← writes] at hflying
  have hg : grantCount id command [.sent w.call w.id w.request] =
      if w.id = id ∧ w.request.command = command then 1 else 0 := by
    rw [grantCount, List.countP_singleton]
    simp [grants]
  constructor
  · rw [outstanding, requestCount_append]
    exact Nat.le_add_right_of_le h.bounded
  · rw [outstanding, answerCount_append, grantCount_append, hg]
    change _ + (_ + 0) = _
    omega
  · rw [outstanding]
    omega

/-- A request that was in flight is taken back: it was counted, so the count has one to give. -/
theorem withdraw (h : Balance id command c told) {w : Write} (hdistinct : (c.writes.map (·.call)).Nodup)
    (flying : w ∈ c.writes) (place : w.id = id)
    (outstanding : c'.session.outstanding = c.session.outstanding.failed w.request.command)
    (writes : c'.writes = c.writes.filter (·.call ≠ w.call)) (fault : Network.Fault) :
    Balance id command c'
      (told ++ [.noted id (.failed w.request.command) none, .unsent w.call w.id w.request fault]) := by
  have hbounded := h.bounded
  have hbalance := h.balance
  have hcovered := h.covered
  have hcount := Outstanding.toNat_count_failed c.session.outstanding w.request.command command
  rw [← outstanding] at hcount
  have hflying := flightCount_filter id command hdistinct flying
  rw [← writes] at hflying
  simp only [place, true_and, eq_comm (a := w.request.command)] at hflying
  constructor
  · rw [hcount, requestCount_append]
    omega
  · rw [hcount, answerCount_append, grantCount_append]
    change _ + (_ + 0) = _ + 0 + _
    omega
  · rw [hcount]
    omega

/-- An acknowledgement is taken while no request is in flight: it is matched exactly if its count has one to give. -/
theorem receive (h : Balance id command c told) (hnone : c.writes = []) {d : Command}
    (outstanding : c'.session.outstanding = (c.session.outstanding.received d).1) (writes : c'.writes = c.writes)
    (code : ReturnCode) (event : Event) :
    Balance id command c' (told ++ [.handled id (.ack d code),
      .noted id (.received d) (some (c.session.outstanding.received d).2), .emitted id event]) := by
  have hbounded := h.bounded
  have hbalance := h.balance
  have hflying : flightCount id command c'.writes = 0 := by
    rw [writes, hnone]
    rfl
  have hcount := Outstanding.toNat_count_failed c.session.outstanding d command
  rw [← Outstanding.received_fst, ← outstanding] at hcount
  have ha : answerCount id command [.handled id (.ack d code),
      .noted id (.received d) (some (c.session.outstanding.received d).2), .emitted id event] =
        if command = d ∧ (c.session.outstanding.count command).toNat ≠ 0 then 1 else 0 := by
    rw [Outstanding.received_snd]
    by_cases hd : command = d
    · subst hd
      split <;> simp_all [answerCount, answers]
    · split <;> simp [answerCount, answers, hd, Ne.symm hd]
  rw [hnone] at hbalance
  change _ = _ + 0 at hbalance
  constructor
  · rw [hcount, requestCount_append]
    omega
  · rw [hcount, hflying, answerCount_append, grantCount_append, ha]
    change _ = _ + 0 + 0
    by_cases hd : command = d
    · subst hd
      simp only [if_true, true_and]
      split <;> omega
    · simp only [hd, false_and, if_false]
      omega
  · rw [hflying]
    exact Nat.zero_le _

end Balance

theorem Balanced.step (h : Balanced c told) (hf : Filed c told) (hknown : ∀ w ∈ c.writes, w.id < c.connections.length)
    (hdistinct : (c.writes.map (·.call)).Nodup) (hp : Posting c c' more)
    (hturn : c.writes = [] ∨ ∀ o ∈ more, o.acknowledges = false)
    (hfew : ∀ id, requestCount id (told ++ more) < 4294967296) : Balanced c' (told ++ more) := by
  intro link hlink command
  cases hp with
  | quiet kept outstanding length flying quiet =>
    have hl : c.session.link = some link := by
      rcases kept with kept | kept
      · exact kept.symm.trans hlink
      · rw [kept] at hlink
        cases hlink
    exact (h link hl command).quiet outstanding (flying link command hl) fun o ho => by rw [quiet o ho]; nofun
  | establish call peer used outstanding length writes tells =>
    rw [used] at hlink
    cases hlink
    rw [tells]
    refine .establish (fun o ho hid => Nat.lt_irrefl _ (hf.charged o ho _ hid)) (fun w hw => ?_) outstanding call
    exact Nat.ne_of_lt (hknown w (writes ▸ hw))
  | pass w _ used kept outstanding length writes place tells =>
    rw [kept] at hlink
    cases hlink
    have hfits : (c.session.outstanding.count w.request.command).toNat + 1 < 4294967296 := by
      have hlt := hfew link.id
      rw [requestCount_append, tells] at hlt
      simp only [requestCount, List.countP_cons, requests, decide_true, if_true] at hlt
      have hbounded := (h link used w.request.command).bounded
      rw [requestCount] at hbounded
      omega
    rw [tells]
    exact (h link used command).pass place hfits outstanding writes _
  | depart w kept outstanding length flying known writes tells =>
    rw [tells]
    exact (h link (kept.symm.trans hlink) command).depart hdistinct flying outstanding writes
  | withdraw w fault _ used kept place outstanding length flying writes tells =>
    rw [kept] at hlink
    cases hlink
    rw [tells]
    exact (h link used command).withdraw hdistinct flying place.symm outstanding writes fault
  | receive _ d code event used kept outstanding length writes tells =>
    rw [kept] at hlink
    cases hlink
    have hnone : c.writes = [] := by
      rcases hturn with hnone | hquiet
      · exact hnone
      · have hack := hquiet (.handled link.id (.ack d code)) (by simp [tells])
        cases hack
    rw [tells]
    exact (h link used command).receive hnone outstanding writes code event

theorem balanced_run (config : SessionConfig) (steps : List Step) (hturn : inTurn { config } steps = true)
    (hfew : ∀ id, requestCount id (run { config } steps).2 < 4294967296) :
    Balanced (run { config } steps).1 (run { config } steps).2 := by
  induction steps using List.reverseRecOn with
  | nil => exact nofun
  | append_singleton steps s ih =>
    rw [inTurn_append, Bool.and_eq_true, inTurn, inTurn, Bool.and_true] at hturn
    obtain ⟨hbefore, hlast⟩ := hturn
    rw [run_concat] at hfew ⊢
    have hfew' : ∀ id, requestCount id (run { config } steps).2 < 4294967296 := by
      intro id
      have hlt := hfew id
      rw [requestCount_append] at hlt
      exact Nat.lt_of_le_of_lt (Nat.le_add_right ..) hlt
    have hdistinct := flying_distinct config steps
    refine (ih hbefore hfew').step (filed_run config steps) (fun w hw => ?_) hdistinct (step_posting hdistinct s) ?_ hfew
    · obtain ⟨k, hk⟩ := (cleared_run config steps w hw).connection
      exact (List.getElem?_eq_some_iff.1 hk).1
    · rw [Bool.or_eq_true, List.isEmpty_iff, Bool.not_eq_true', List.any_eq_false] at hlast
      exact hlast.imp_right fun hquiet o ho => by simpa using hquiet o ho

/-! ## What the counts are told, and what they are not -/

/-- An acknowledgement that is taken is told to the counts once, and they change as it says. -/
theorem note_of_handled {code : ReturnCode} (hm : .handled id (.ack command code) ∈ (c.step s).2) :
    ∃ link, c.session.link = some link ∧ link.id = id ∧
      (c.step s).1.session.outstanding = (c.session.outstanding.received command).1 ∧
      (c.step s).2.filterMap noted? = [(id, .received command, some (c.session.outstanding.received command).2)] := by
  have hmove := step_move c s
  generalize c.step s = next at hmove hm
  rcases next with ⟨c', told⟩
  cases hmove with
  | handle i k k' r hk hadv hu =>
    have hr : i = id ∧ r = .ack command code := by
      cases r.command? <;> simp at hm <;> exact ⟨hm.1.symm, hm.2.symm⟩
    obtain ⟨rfl, rfl⟩ := hr
    obtain ⟨link, hl, hid⟩ := Session.uses_iff.1 hu
    exact ⟨link, hl, hid, rfl, rfl⟩
  | _ => simp at hm

/-- **A request that is turned down is not counted.** -/
theorem refusal_unheard {r : Request}
    (h : Session.objection c.session.state r.command ≠ none ∨ ∃ e, r.encode = .error e) :
    (c.step (.send r)).1 = c ∧ (c.step (.send r)).2.filterMap noted? = [] := by
  have hmove := step_move c (.send r)
  generalize c.step (.send r) = next at hmove
  rcases next with ⟨c', told⟩
  cases hmove with
  | idle | refuseSend => exact ⟨rfl, rfl⟩
  | dispatch r link octets hd ho hr hl =>
    rcases h with h | ⟨e, he⟩
    · exact absurd ho h
    · rw [hr] at he
      cases he

/-- **The counts hear nothing of a loop** but the acknowledgements on the connection in use. -/
theorem loop_unheard (h : ∀ k command code, c.connections[id]? = some k →
    (k.advance c.config).2 = some (.output (.ok (.ack command code))) → c.session.uses id = false) :
    (c.step (.receive id)).1.session.outstanding = c.session.outstanding ∧
      (c.step (.receive id)).2.filterMap noted? = [] := by
  have hmove := step_move c (.receive id)
  generalize c.step (.receive id) = next at hmove
  rcases next with ⟨c', told⟩
  cases hmove with
  | handle id k k' r hk hadv hu =>
    cases r with
    | delivery => exact ⟨rfl, rfl⟩
    | ack command code =>
      rw [h k command code hk (by rw [hadv])] at hu
      cases hu
  | _ => exact ⟨rfl, rfl⟩

/-- A write that fails on the connection in use takes its count back. -/
theorem session_of_unsent {w : Write} {k : Connection} {r : Request} {call : Nat} {fault : Network.Fault}
    (hw : c.writes = [w]) (hf : w.fault = none) (hk : c.connections[w.id]? = some k) (hu : c.session.uses w.id = true)
    (hm : .unsent call id r fault ∈ (c.write w.call).2 ++ ((c.write w.call).1.retract w.call).2) :
    ((c.write w.call).1.retract w.call).1.session = c.session.retract w.request.command := by
  rcases hwrite : k.socket.write w.octets with ⟨socket, _ | f⟩
  · simp [write, retract, hw, hf, hk, hwrite, setConnection] at hm
  · have hfailed : (c.write w.call).1.writes = [{ w with fault := some f }] := by
      simp [write, hw, hf, hk, hwrite, setConnection]
    have hsession : (c.write w.call).1.session = c.session := by
      simp [write, hw, hf, hk, hwrite, setConnection]
    simp only [retract, hfailed, hsession, List.find?_cons_of_pos, decide_true]
    rw [if_pos hu]

/-- **A request whose write fails leaves the session as it was.** -/
theorem request_unsent (ht : Tally c told) (hnone : c.writes = []) {r : Request} {call : Nat} {fault : Network.Fault}
    (hm : .unsent call id r fault ∈ (c.request r).2)
    (hfits : ∀ command, (c.session.outstanding.count command).toNat + 1 < 4294967296) :
    (c.request r).1.session = c.session := by
  have hrequest : c.request r = ((((c.step (.send r)).1.write c.calls).1.retract c.calls).1, (c.step (.send r)).2 ++
      (((c.step (.send r)).1.write c.calls).2 ++ (((c.step (.send r)).1.write c.calls).1.retract c.calls).2)) := by
    simp [request, run, step]
  rw [hrequest] at hm ⊢
  clear hrequest
  have hmove := step_move c (.send r)
  generalize c.step (.send r) = next at hmove hm ⊢
  rcases next with ⟨c', now⟩
  dsimp only at hmove hm ⊢
  cases hmove with
  | idle | refuseSend => simp [write, retract, hnone] at hm
  | dispatch r link octets hd ho hr hl =>
    obtain ⟨k, hk⟩ : ∃ k, c.connections[link.id]? = some k := ⟨_, List.getElem?_eq_getElem (ht.used_lt hl)⟩
    have hlater := (List.mem_append.1 hm).resolve_left (by simp)
    rw [hnone, List.nil_append] at hlater ⊢
    refine (session_of_unsent (w := ⟨c.calls, link.id, r, octets, none⟩) (k := k) rfl rfl ?_ ?_ hlater).trans ?_
    · exact hk
    · exact Session.uses_iff.2 ⟨link, hl, rfl⟩
    · simp only [Session.retract, Outstanding.failed_sent (hfits _)]

/-- **The counts of unanswered requests over a whole run**, in which fewer than `2 ^ 32` requests passed the gate on each
connection and no acknowledgement is taken while a request is in flight.
- What the counts take note of comes connection by connection, and on each that was opened it starts with its only reset.
- On the connection in use, a count and the acknowledgements matched are together the requests whose calls ended well and
  those in flight.
- Between the calls, the count is what the acknowledgements matched leave of the requests whose calls ended well; the next
  acknowledgement is matched exactly if there is something left, and otherwise leaves the counts as they are.
- A whole call whose write fails leaves the session as it was.
- A request that is turned down, by the gate or for its length, is no note, nor is anything that a loop does but to take an
  acknowledgement on the connection in use. -/
theorem outstanding_balance (config : SessionConfig) (steps : List Step) (hturn : inTurn { config } steps = true)
    (hfew : ∀ id, requestCount id (run { config } steps).2 < 4294967296) :
    let c := (run { config } steps).1
    let told := (run { config } steps).2
    (told.filterMap Occurrence.opened? = List.range c.connections.length ∧
      ((told.filterMap noted?).map Prod.fst).Pairwise (· ≤ ·) ∧
      (∀ id < c.connections.length, ∃ rest, told.filterMap (noteOn? id) = (.reset, none) :: rest ∧
        ∀ n ∈ rest, n.1 ≠ .reset) ∧
      ∀ id, c.connections.length ≤ id → told.filterMap (noteOn? id) = []) ∧
    (∀ link, c.session.link = some link → ∀ command,
      (c.session.outstanding.count command).toNat + answerCount link.id command told =
        grantCount link.id command told + flightCount link.id command c.writes) ∧
    (c.writes = [] → ∀ link, c.session.link = some link → ∀ command,
      answerCount link.id command told ≤ grantCount link.id command told ∧
      (c.session.outstanding.count command).toNat =
        grantCount link.id command told - answerCount link.id command told) ∧
    (c.writes = [] → ∀ s id command code, .handled id (.ack command code) ∈ (c.step s).2 →
      if answerCount id command told < grantCount id command told then
        (c.step s).2.filterMap noted? = [(id, .received command, some .matched)]
      else (c.step s).2.filterMap noted? = [(id, .received command, some .unsolicited)] ∧
        (c.step s).1.session.outstanding = c.session.outstanding) ∧
    (c.writes = [] → ∀ link, c.session.link = some link → requestCount link.id told + 1 < 4294967296 →
      ∀ r call id fault, .unsent call id r fault ∈ (c.request r).2 → (c.request r).1.session = c.session) ∧
    (∀ r, Session.objection c.session.state r.command ≠ none ∨ (∃ e, r.encode = .error e) →
      (c.step (.send r)).1 = c ∧ (c.step (.send r)).2.filterMap noted? = []) ∧
    (∀ id, (∀ k command code, c.connections[id]? = some k →
        (k.advance c.config).2 = some (.output (.ok (.ack command code))) → c.session.uses id = false) →
      (c.step (.receive id)).1.session.outstanding = c.session.outstanding ∧
        (c.step (.receive id)).2.filterMap noted? = []) := by
  intro c told
  have hfiled := filed_run config steps
  have htally := tally_run config steps
  have hbalanced := balanced_run config steps hturn hfew
  have hquiet : c.writes = [] → ∀ link, c.session.link = some link → ∀ command,
      (c.session.outstanding.count command).toNat + answerCount link.id command told =
        grantCount link.id command told := by
    intro hnone link hl command
    have hbalance := (hbalanced link hl command).balance
    change (c.session.outstanding.count command).toNat + _ = _ + flightCount _ _ c.writes at hbalance
    rwa [hnone] at hbalance
  refine ⟨⟨htally.opened, hfiled.ordered, hfiled.opening, fun id hid => hfiled.fresh hid⟩,
    fun link hl command => (hbalanced link hl command).balance, fun hnone link hl command => ?_,
    fun hnone s id command code hm => ?_, fun hnone link hl hfits r call id fault hm => ?_,
    fun r h => refusal_unheard h, fun id h => loop_unheard h⟩
  · have hbalance := hquiet hnone link hl command
    omega
  · obtain ⟨link, hl, rfl, houtstanding, hnoted⟩ := note_of_handled hm
    have hbalance := hquiet hnone link hl command
    rw [Outstanding.received_snd] at hnoted
    split
    · rw [hnoted, if_neg (by omega)]
    · have hzero : (c.session.outstanding.count command).toNat = 0 := by omega
      refine ⟨by rw [hnoted, if_pos hzero], ?_⟩
      rw [houtstanding, Outstanding.received, if_pos (UInt32.toNat_inj.1 hzero)]
  · refine request_unsent htally hnone hm fun command => ?_
    exact Nat.lt_of_le_of_lt (Nat.succ_le_succ (hbalanced link hl command).bounded) hfits

/-- A login whose acknowledgement comes twice, and in between a shout whose write fails: the second acknowledgement finds
nothing left to match. -/
theorem outstanding_balance_of_surplus :
    let steps : List Step :=
      [.connect ⟨"localhost", 47007⟩, .answer 0 .accepted, .finish 0, .send (.login "ada" "pw"), .write 1,
        .peer 0 (.send [0, 200, 0, 0, 0, 200, 0, 0]), .receive 0, .receive 0, .peer 0 .reset, .send (.shout "late"),
        .write 2, .retract 2]
    let c := (run {} steps).1
    let told := (run {} steps).2
    inTurn {} steps = true ∧ (∀ id, requestCount id told < 4294967296) ∧ c.writes = [] ∧
      .unsent 2 0 (.shout "late") .reset ∈ told ∧ grantCount 0 .login told = 1 ∧ answerCount 0 .login told = 1 ∧
      c.session.outstanding = {} ∧
      (c.step (.receive 0)).2.filterMap noted? = [(0, .received .login, some .unsolicited)] := by
  intro steps c told
  have hturn : inTurn {} steps = true := by decide +kernel
  have hlength : told.length < 4294967296 := by decide +kernel
  have hfew : ∀ id, requestCount id told < 4294967296 := fun id => Nat.lt_of_le_of_lt List.countP_le_length hlength
  have hnone : c.writes = [] := by decide +kernel
  have hunsent : .unsent 2 0 (.shout "late") .reset ∈ told := by decide +kernel
  have hgrants : grantCount 0 .login told = 1 := by decide +kernel
  have hanswers : answerCount 0 .login told = 1 := by decide +kernel
  have houtstanding : c.session.outstanding = {} := by decide +kernel
  have hhandled : .handled 0 (.ack .login ⟨0⟩) ∈ (c.step (.receive 0)).2 := by decide +kernel
  obtain ⟨-, -, -, hanswer, -⟩ := outstanding_balance {} steps hturn hfew
  have hnote := hanswer hnone (.receive 0) 0 .login ⟨0⟩ hhandled
  change if answerCount 0 .login told < grantCount 0 .login told then _ else _ at hnote
  rw [hgrants, hanswers, if_neg (Nat.lt_irrefl 1)] at hnote
  exact ⟨hturn, hfew, hnone, hunsent, hgrants, hanswers, houtstanding, hnote.1⟩

end Client
end ChatClient
