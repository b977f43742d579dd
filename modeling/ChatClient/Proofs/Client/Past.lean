import ChatClient.Proofs.Client.Target
/-!
# Past — a client with something behind it

A client that has made calls and opened connections before, and has given all of them up, goes on with numbers counted from
a later start.  `Client.behind` puts such a past before a client, and `step_behind` says that the past makes no difference:
a step whose numbers are counted from the later start does and tells what it does without the past.

The past goes on changing meanwhile (`Past.Fades`): the time of its handshakes runs out, and its requests and loops come to
their ends.
-/
namespace ChatClient

open Network (Endpoint Answer Act Fault)

/-! ## Numbers counted from a later start -/

/-- How many calls were made and how many connections opened before a moment. -/
structure Origin where
  calls : Nat
  connections : Nat
  deriving DecidableEq, Repr

/-- A number counted from a start, if it is not from before. -/
def since? (start number : Nat) : Option Nat := if start ≤ number then some (number - start) else none

theorem since?_add (start number : Nat) : since? start (start + number) = some number := by
  rw [since?, if_pos (Nat.le_add_right _ _), Nat.add_sub_cancel_left]

theorem since?_eq_none {start number : Nat} : since? start number = none ↔ number < start := by
  rw [since?]
  split <;> simp <;> omega

theorem eq_add_of_since? {start number n : Nat} (h : since? start number = some n) : number = start + n := by
  rw [since?] at h
  split at h
  · cases h
    omega
  · cases h

/-! Of numbered things in a list, those from before a start stand first; `f` shifts the numbers of the others by it. -/
section Numbered

variable {α : Type} (num : α → Nat) {f g h : α → α} {n i : Nat} {p l : List α}

theorem find?_behind (hp : ∀ b ∈ p, num b < n) (hf : ∀ b, num (f b) = n + num b) :
    (p ++ l.map f).find? (num · = n + i) = (l.find? (num · = i)).map f := by
  have hnone : p.find? (num · = n + i) = none :=
    List.find?_eq_none.2 fun b hb => by have := hp b hb; simp; omega
  have hcomp : (fun b => decide (num b = n + i)) ∘ f = fun b => decide (num b = i) := by
    funext b
    simp [hf]
  rw [List.find?_append, hnone, Option.none_or, List.find?_map, hcomp]

theorem filter_behind (hp : ∀ b ∈ p, num b < n) (hf : ∀ b, num (f b) = n + num b) :
    (p ++ l.map f).filter (num · ≠ n + i) = p ++ (l.filter (num · ≠ i)).map f := by
  have hall : p.filter (num · ≠ n + i) = p :=
    List.filter_eq_self.2 fun b hb => by have := hp b hb; simp; omega
  have hcomp : (fun b => decide (num b ≠ n + i)) ∘ f = fun b => decide (num b ≠ i) := by
    funext b
    simp [hf]
  rw [List.filter_append, hall, List.filter_map, hcomp]

theorem find?_before (hf : ∀ b, num (f b) = n + num b) (hi : i < n) :
    (p ++ l.map f).find? (num · = i) = p.find? (num · = i) := by
  have hnone : (l.map f).find? (num · = i) = none :=
    List.find?_eq_none.2 <| List.forall_mem_map.2 fun b _ => by simp [hf]; omega
  rw [List.find?_append, hnone, Option.or_none]

theorem filter_before (hf : ∀ b, num (f b) = n + num b) (hi : i < n) :
    (p ++ l.map f).filter (num · ≠ i) = p.filter (num · ≠ i) ++ l.map f := by
  have hall : (l.map f).filter (num · ≠ i) = l.map f :=
    List.filter_eq_self.2 <| List.forall_mem_map.2 fun b _ => by simp [hf]; omega
  rw [List.filter_append, hall]

theorem map_behind (hp : ∀ b ∈ p, g b = b) (hf : ∀ b, g (f b) = f (h b)) :
    (p ++ l.map f).map g = p ++ (l.map h).map f := by
  rw [List.map_append, List.map_congr_left hp, List.map_id', List.map_map, List.map_map]
  exact congrArg (p ++ ·) (List.map_congr_left fun b _ => hf b)

theorem map_before (hf : ∀ b, g (f b) = f b) : (p ++ l.map f).map g = p.map g ++ l.map f := by
  rw [List.map_append, List.map_map]
  exact congrArg (p.map g ++ ·) (List.map_congr_left fun b _ => hf b)

theorem modify_behind (f : α → α) (i : Nat) : ∀ p : List α, (p ++ l).modify (p.length + i) f = p ++ l.modify i f
  | [] => by simp
  | b :: p => by
    rw [List.length_cons, Nat.add_right_comm, List.cons_append, List.modify_succ_cons, modify_behind f i p]
    rfl

theorem modify_before (f : α → α) : ∀ {i : Nat} {p : List α}, i < p.length → (p ++ l).modify i f = p.modify i f ++ l
  | 0, b :: p, _ => rfl
  | i + 1, b :: p, hi => by
    rw [List.cons_append, List.modify_succ_cons, modify_before f (Nat.lt_of_succ_lt_succ hi), List.modify_succ_cons]
    rfl

end Numbered

/-! ## What is told, and what is done, since then -/

namespace Step

/-- The step as a client that began at this origin makes it, unless it concerns a call or a connection from before. -/
def since (o : Origin) : Step → Option Step
  | answer call reply => (since? o.calls call).map (answer · reply)
  | finish call => (since? o.calls call).map finish
  | write call => (since? o.calls call).map write
  | retract call => (since? o.calls call).map retract
  | close id => (since? o.connections id).map close
  | receive id => (since? o.connections id).map receive
  | peer id act => (since? o.connections id).map (peer · act)
  | s => some s

def behind (o : Origin) : Step → Step
  | answer call reply => answer (o.calls + call) reply
  | finish call => finish (o.calls + call)
  | write call => write (o.calls + call)
  | retract call => retract (o.calls + call)
  | close id => close (o.connections + id)
  | receive id => receive (o.connections + id)
  | peer id act => peer (o.connections + id) act
  | s => s

theorem eq_behind {o : Origin} {s t : Step} (h : s.since o = some t) : s = t.behind o := by
  cases s with
  | answer call | finish call | write call | retract call | close id | receive id | peer id =>
    obtain ⟨n, hn, rfl⟩ := Option.map_eq_some_iff.1 h
    rw [eq_add_of_since? hn]
    rfl
  | _ =>
    cases h
    rfl

end Step

namespace Occurrence

/-- What is told as a client that began at this origin tells it, unless it is told of a call or a connection from before. -/
def since (o : Origin) : Occurrence → Option Occurrence
  | started call => (since? o.calls call).map started
  | connected call id => (since? o.calls call).bind fun call => (since? o.connections id).map (connected call)
  | unconnected call e => (since? o.calls call).map (unconnected · e)
  | sent call id r => (since? o.calls call).bind fun call => (since? o.connections id).map (sent call · r)
  | unsent call id r f => (since? o.calls call).bind fun call => (since? o.connections id).map (unsent call · r f)
  | disconnected (some id) => (since? o.connections id).map fun id => disconnected (some id)
  | noted id note answer => (since? o.connections id).map (noted · note answer)
  | handled id r => (since? o.connections id).map (handled · r)
  | emitted id event => (since? o.connections id).map (emitted · event)
  | told => some told

def behind (o : Origin) : Occurrence → Occurrence
  | started call => started (o.calls + call)
  | connected call id => connected (o.calls + call) (o.connections + id)
  | unconnected call e => unconnected (o.calls + call) e
  | sent call id r => sent (o.calls + call) (o.connections + id) r
  | unsent call id r f => unsent (o.calls + call) (o.connections + id) r f
  | disconnected (some id) => disconnected (some (o.connections + id))
  | noted id note answer => noted (o.connections + id) note answer
  | handled id r => handled (o.connections + id) r
  | emitted id event => emitted (o.connections + id) event
  | told => told

@[simp] theorem since_behind (o : Origin) (told : Occurrence) : (told.behind o).since o = some told := by
  cases told with
  | disconnected id => cases id <;> simp [behind, since, since?_add]
  | _ => simp [behind, since, since?_add]

theorem filterMap_since (o : Origin) (told : List Occurrence) : (told.map (behind o)).filterMap (since o) = told := by
  rw [List.filterMap_map, show since o ∘ behind o = some from funext (since_behind o), List.filterMap_some]

end Occurrence

/-! ## A client behind a past -/

/-- What happened before a moment and is not over. -/
structure Past where
  now : Nat
  calls : Nat
  outstanding : Outstanding
  attempts : List Attempt
  writes : List Write
  closing : List Nat
  connections : List Connection

namespace Past

def origin (p : Past) : Origin where
  calls := p.calls
  connections := p.connections.length

/-- A past that a disconnected session leaves behind: nothing in it can concern a later connection. -/
structure Spent (p : Past) : Prop where
  off : ∀ a ∈ p.attempts, a.cancelled = true
  attempts : ∀ a ∈ p.attempts, a.call < p.calls
  writes : ∀ w ∈ p.writes, w.call < p.calls
  targets : ∀ w ∈ p.writes, w.id < p.connections.length
  closing : ∀ id ∈ p.closing, id < p.connections.length

/-- What becomes of a past: no call is made and no connection opened in it any more, and a loop that has ended stays so. -/
structure Fades (p q : Past) : Prop where
  now : q.now = p.now
  calls : q.calls = p.calls
  opened : q.connections.length = p.connections.length
  outstanding : q.outstanding = p.outstanding
  spent : q.Spent
  ended : (∀ k ∈ p.connections, k.phase = .ended) → ∀ k ∈ q.connections, k.phase = .ended

section Fades

variable {p q r : Past}

theorem Fades.origin (h : p.Fades q) : q.origin = p.origin := by
  rw [Past.origin, h.calls, h.opened]
  rfl

theorem Fades.refl (hp : p.Spent) : p.Fades p where
  now := rfl
  calls := rfl
  opened := rfl
  outstanding := rfl
  spent := hp
  ended := id

theorem Fades.trans (h : p.Fades q) (h' : q.Fades r) : p.Fades r where
  now := h'.now.trans h.now
  calls := h'.calls.trans h.calls
  opened := h'.opened.trans h.opened
  outstanding := h'.outstanding.trans h.outstanding
  spent := h'.spent
  ended hk := h'.ended (h.ended hk)

theorem Fades.attempts (hp : p.Spent) (attempts : List Attempt)
    (h : ∀ a ∈ attempts, a.cancelled = true ∧ a.call < p.calls) : p.Fades { p with attempts } where
  now := rfl
  calls := rfl
  opened := rfl
  outstanding := rfl
  spent := { hp with off := fun a ha => (h a ha).1, attempts := fun a ha => (h a ha).2 }
  ended := id

theorem Fades.writes (hp : p.Spent) (writes : List Write)
    (h : ∀ w ∈ writes, w.call < p.calls ∧ w.id < p.connections.length) : p.Fades { p with writes } where
  now := rfl
  calls := rfl
  opened := rfl
  outstanding := rfl
  spent := { hp with writes := fun w hw => (h w hw).1, targets := fun w hw => (h w hw).2 }
  ended := id

theorem Fades.landed (hp : p.Spent) (f : Write → Bool) : p.Fades { p with writes := p.writes.filter f } :=
  .writes hp _ fun w hw => ⟨hp.writes w (List.mem_of_mem_filter hw), hp.targets w (List.mem_of_mem_filter hw)⟩

theorem Fades.closing (hp : p.Spent) {closing : List Nat} (h : ∀ id ∈ closing, id ∈ p.closing) :
    p.Fades { p with closing } where
  now := rfl
  calls := rfl
  opened := rfl
  outstanding := rfl
  spent := { hp with closing := fun id hid => hp.closing id (h id hid) }
  ended := id

theorem Fades.connections (hp : p.Spent) {connections : List Connection}
    (hlength : connections.length = p.connections.length)
    (h : ∀ k ∈ connections, ∃ j ∈ p.connections, j.phase = .ended → k.phase = .ended) :
    p.Fades { p with connections } where
  now := rfl
  calls := rfl
  opened := hlength
  outstanding := rfl
  spent :=
    { hp with
      targets := fun w hw => Nat.lt_of_lt_of_eq (hp.targets w hw) hlength.symm
      closing := fun id hid => Nat.lt_of_lt_of_eq (hp.closing id hid) hlength.symm }
  ended hended k hk := by
    obtain ⟨j, hj, hphase⟩ := h k hk
    exact hphase (hended j hj)

/-- A connection of the past takes a step; if it has ended, it stays so. -/
theorem Fades.set (hp : p.Spent) {id : Nat} {k k' : Connection} (hk : p.connections[id]? = some k)
    (h : k.phase = .ended → k'.phase = .ended) : p.Fades { p with connections := p.connections.set id k' } := by
  refine .connections hp List.length_set fun j hj => ?_
  rcases List.mem_or_eq_of_mem_set hj with hj | rfl
  · exact ⟨j, hj, fun h => h⟩
  · exact ⟨k, List.mem_of_getElem? hk, h⟩

theorem Fades.modify (hp : p.Spent) (id : Nat) {f : Connection → Connection} (h : ∀ k, (f k).phase = k.phase) :
    p.Fades { p with connections := p.connections.modify id f } := by
  refine .connections hp (List.length_modify ..) fun k hk => ?_
  obtain ⟨i, hi⟩ := List.mem_iff_getElem?.1 hk
  rw [List.getElem?_modify] at hi
  obtain ⟨j, hj, rfl⟩ := Option.map_eq_some_iff.1 hi
  refine ⟨j, List.mem_of_getElem? hj, fun hended => ?_⟩
  split
  · rw [h, hended]
  · exact hended

end Fades

end Past

def Link.behind (o : Origin) (link : Link) : Link := { link with id := o.connections + link.id }

def Attempt.behind (o : Origin) (now : Nat) (a : Attempt) : Attempt :=
  { a with call := o.calls + a.call, deadline := now + a.deadline }

def Write.behind (o : Origin) (w : Write) : Write := { w with call := o.calls + w.call, id := o.connections + w.id }

namespace Client

/-- The client that has this past and then did what the other one did from its start. -/
def behind (p : Past) (c : Client) : Client where
  config := c.config
  session :=
    { state := c.session.state
      link := c.session.link.map (·.behind p.origin)
      pending := c.session.pending.map (p.calls + ·)
      outstanding := if c.connections = [] then p.outstanding else c.session.outstanding }
  now := p.now + c.now
  calls := p.calls + c.calls
  attempts := p.attempts ++ c.attempts.map (·.behind p.origin p.now)
  writes := p.writes ++ c.writes.map (·.behind p.origin)
  closing := p.closing ++ c.closing.map (p.connections.length + ·)
  connections := p.connections ++ c.connections
  observed := c.observed
  dropped := c.dropped

section Behind

variable {c : Client} {p : Past}

theorem beginConnect_behind (target : Endpoint) : (c.behind p).beginConnect target =
    ((c.beginConnect target).1.behind p, (c.beginConnect target).2.map (·.behind p.origin)) := by
  unfold beginConnect Session.beginConnect
  by_cases hs : c.session.state = .disconnected
  · simp [behind, hs, Attempt.behind, Past.origin, Occurrence.behind, Nat.add_assoc]
  · simp [behind, hs, Occurrence.behind]

theorem attempts_find? (hp : p.Spent) (call : Nat) : (c.behind p).attempts.find? (·.call = p.calls + call) =
    (c.attempts.find? (·.call = call)).map (·.behind p.origin p.now) :=
  find?_behind Attempt.call hp.attempts fun _ => rfl

theorem attempts_filter (hp : p.Spent) (call : Nat) : (c.behind p).attempts.filter (·.call ≠ p.calls + call) =
    p.attempts ++ (c.attempts.filter (·.call ≠ call)).map (·.behind p.origin p.now) :=
  filter_behind Attempt.call hp.attempts fun _ => rfl

theorem finishConnect_behind (hp : p.Spent) (call : Nat) : (c.behind p).finishConnect (p.calls + call) =
    ((c.finishConnect call).1.behind p, (c.finishConnect call).2.map (·.behind p.origin)) := by
  unfold finishConnect
  rw [attempts_find? hp, attempts_filter hp]
  cases c.attempts.find? (·.call = call) with
  | none => rfl
  | some a =>
    dsimp only [Option.map_some]
    cases hoff : a.cancelled with
    | true => simp [Attempt.behind, hoff, behind, Occurrence.behind, Past.origin]
    | false =>
      cases ho : a.outcome with
      | none => simp [Attempt.behind, hoff, ho]
      | some outcome =>
        cases outcome with
        | error e => simp [Attempt.behind, hoff, ho, behind, Occurrence.behind, Past.origin, Session.unconnected]
        | ok =>
          simp [Attempt.behind, hoff, ho, behind, Occurrence.behind, Past.origin, Session.connected, Link.behind]

theorem uses_behind (id : Nat) :
    (c.behind p).session.uses (p.connections.length + id) = c.session.uses id := by
  unfold behind Session.uses
  cases c.session.link <;> simp [Link.behind, Past.origin]

theorem uses_before {id : Nat} (hid : id < p.connections.length) : (c.behind p).session.uses id = false := by
  unfold behind Session.uses
  cases c.session.link with
  | none => rfl
  | some link =>
    simp [Link.behind, Past.origin]
    omega

/-- The counts are those since the start once a connection has been opened since. -/
theorem outstanding_behind (hc : c.connections ≠ []) :
    (c.behind p).session.outstanding = c.session.outstanding := if_neg hc

theorem connection_behind (id : Nat) : (c.behind p).connections[p.connections.length + id]? = c.connections[id]? := by
  rw [behind, List.getElem?_append_right (Nat.le_add_right _ _), Nat.add_sub_cancel_left]

theorem setConnection_behind (id : Nat) (k : Connection) :
    (c.behind p).setConnection (p.connections.length + id) k = (c.setConnection id k).behind p := by
  simp [setConnection, behind, List.set_append_right]

theorem beginSend_behind (hl : ∀ link, c.session.link = some link → c.connections ≠ []) (r : Request) :
    (c.behind p).beginSend r = ((c.beginSend r).1.behind p, (c.beginSend r).2.map (·.behind p.origin)) := by
  unfold beginSend Session.dispatch
  have hstate : (c.behind p).session.state = c.session.state := rfl
  rw [hstate]
  cases Session.objection c.session.state r.command with
  | some e => rfl
  | none =>
    cases r.encode with
    | error e => rfl
    | ok octets =>
      cases hlink : c.session.link with
      | none => simp [behind, hlink, Occurrence.behind]
      | some link =>
        simp [behind, hlink, hl link hlink, Occurrence.behind, Link.behind, Write.behind, Past.origin, Nat.add_assoc]

theorem writes_find? (hp : p.Spent) (call : Nat) : (c.behind p).writes.find? (·.call = p.calls + call) =
    (c.writes.find? (·.call = call)).map (·.behind p.origin) :=
  find?_behind Write.call hp.writes fun _ => rfl

theorem writes_filter (hp : p.Spent) (call : Nat) : (c.behind p).writes.filter (·.call ≠ p.calls + call) =
    p.writes ++ (c.writes.filter (·.call ≠ call)).map (·.behind p.origin) :=
  filter_behind Write.call hp.writes fun _ => rfl

theorem writes_map (hp : p.Spent) (call : Nat) (f : Fault) :
    ((c.behind p).writes.map fun v => if v.call = p.calls + call then { v with fault := some f } else v) =
      p.writes ++ (c.writes.map fun v => if v.call = call then { v with fault := some f } else v).map
        (·.behind p.origin) := by
  refine map_behind (fun w hw => if_neg ?_) fun w => ?_
  · have := hp.writes w hw
    omega
  · simp only [Write.behind, Past.origin, Nat.add_left_cancel_iff]
    split <;> rfl

theorem write_behind (hp : p.Spent) (call : Nat) : (c.behind p).write (p.calls + call) =
    ((c.write call).1.behind p, (c.write call).2.map (·.behind p.origin)) := by
  unfold write
  rw [writes_find? hp]
  cases c.writes.find? (·.call = call) with
  | none => rfl
  | some w =>
    simp only [Option.map_some]
    have hget : (c.behind p).connections[(w.behind p.origin).id]? = c.connections[w.id]? := connection_behind w.id
    rw [hget]
    cases hf : w.fault with
    | some f => simp [Write.behind, hf]
    | none =>
      cases hk : c.connections[w.id]? with
      | none => simp [Write.behind, hf]
      | some k =>
        rcases hw : k.socket.write w.octets with ⟨socket, _ | f⟩
        · simp only [Write.behind, hf, hw]
          rw [show p.origin.connections = p.connections.length from rfl, setConnection_behind, writes_filter hp]
          rfl
        · simp only [Write.behind, hf, hw]
          rw [show p.origin.connections = p.connections.length from rfl, setConnection_behind, writes_map hp]
          rfl

theorem retract_behind (hp : p.Spent) (hl : ∀ link, c.session.link = some link → c.connections ≠ []) (call : Nat) :
    (c.behind p).retract (p.calls + call) = ((c.retract call).1.behind p, (c.retract call).2.map (·.behind p.origin)) := by
  unfold retract
  rw [writes_find? hp, writes_filter hp]
  cases c.writes.find? (·.call = call) with
  | none => rfl
  | some w =>
    simp only [Option.map_some]
    have hu : (c.behind p).session.uses (w.behind p.origin).id = c.session.uses w.id := uses_behind w.id
    rw [hu]
    cases hf : w.fault with
    | none => simp [Write.behind, hf]
    | some f =>
      cases hused : c.session.uses w.id with
      | false => simp [Write.behind, hf, behind, Occurrence.behind, Past.origin]
      | true =>
        obtain ⟨link, hlink, -⟩ := Session.uses_iff.1 hused
        simp [Write.behind, hf, behind, Occurrence.behind, Past.origin, Session.retract, hl link hlink]

theorem disconnect_behind (hp : p.Spent) : (c.behind p).disconnect =
    ((c.disconnect).1.behind p, (c.disconnect).2.map (·.behind p.origin)) := by
  have hcalled : ((c.behind p).attempts.map fun a =>
      if (c.behind p).session.pending = some a.call then { a with cancelled := true } else a) =
        p.attempts ++ (c.attempts.map fun a =>
          if c.session.pending = some a.call then { a with cancelled := true } else a).map (·.behind p.origin p.now) := by
    refine map_behind (fun a ha => if_neg ?_) fun a => ?_
    · intro h
      obtain ⟨call, -, hcall⟩ := Option.map_eq_some_iff.1 h
      have := hp.attempts a ha
      omega
    · have hpending : (c.behind p).session.pending = some (a.behind p.origin p.now).call ↔
          c.session.pending = some a.call := by
        simp [behind, Attempt.behind, Past.origin]
      by_cases h : c.session.pending = some a.call
      · rw [if_pos h, if_pos (hpending.2 h)]
        rfl
      · rw [if_neg h, if_neg (fun h' => h (hpending.1 h'))]
  unfold disconnect
  rw [hcalled]
  by_cases hs : c.session.state = .disconnected
  · simp [behind, hs, Occurrence.behind]
  · cases hlink : c.session.link with
    | none => simp [behind, hs, hlink, Session.release, Occurrence.behind]
    | some link =>
      simp [behind, hs, hlink, Session.release, Occurrence.behind, Link.behind, Past.origin, modify_behind]

theorem close_behind (hp : p.Spent) (id : Nat) : (c.behind p).close (p.connections.length + id) =
    ((c.close id).1.behind p, (c.close id).2.map (·.behind p.origin)) := by
  have hmem : p.connections.length + id ∈ (c.behind p).closing ↔ id ∈ c.closing := by
    simp [behind]
    exact fun h => absurd (hp.closing _ h) (by omega)
  have hfilter : (c.behind p).closing.filter (· ≠ p.connections.length + id) =
      p.closing ++ (c.closing.filter (· ≠ id)).map (p.connections.length + ·) :=
    filter_behind (fun id => id) hp.closing fun _ => rfl
  unfold close
  rw [hfilter]
  by_cases h : id ∈ c.closing
  · rw [if_pos h, if_pos (hmem.2 h)]
    simp [behind, modify_behind]
  · rw [if_neg h, if_neg (fun h' => h (hmem.1 h'))]
    rfl

theorem take_behind (hl : ∀ link, c.session.link = some link → c.connections ≠ []) (id : Nat) (report : Report) :
    (c.behind p).take (p.connections.length + id) report =
      ((c.take id report).1.behind p, (c.take id report).2.map (·.behind p.origin)) := by
  unfold take
  rw [uses_behind]
  cases hused : c.session.uses id with
  | false =>
    rcases report with (e | r) | loss
    · rfl
    · simp
    · simp
  | true =>
    obtain ⟨link, hlink, -⟩ := Session.uses_iff.1 hused
    have hc : c.connections ≠ [] := hl link hlink
    rcases report with (e | r) | loss
    · rfl
    · cases r with
      | ack command code =>
        simp [Session.accept, behind, hc, Occurrence.behind, Past.origin, Response.command?]
      | delivery sender message =>
        simp [Session.accept, behind, hc, Occurrence.behind, Past.origin, Response.command?]
    · simp [behind, hc, Session.lose, Occurrence.behind, Past.origin]

/-- The loop of a connection makes its step, as it does without the past. -/
theorem receive_behind (hl : ∀ link, c.session.link = some link → c.connections ≠ []) (id : Nat) :
    (c.behind p).receive (p.connections.length + id) =
      ((c.receive id).1.behind p, (c.receive id).2.map (·.behind p.origin)) := by
  cases hk : c.connections[id]? with
  | none =>
    unfold receive
    rw [connection_behind, hk]
    rfl
  | some k =>
    have hk' := (connection_behind (p := p) id).trans hk
    rcases hadv : k.advance c.config with ⟨k', _ | report⟩
    · rw [receive_silent hk hadv, receive_silent hk' hadv, setConnection_behind]
      rfl
    · rw [receive_report hk hadv, receive_report hk' hadv, setConnection_behind]
      refine take_behind (c := c.setConnection id (c.afterLoop k')) (fun link hlink h => ?_) id report
      simp [setConnection] at h
      exact hl link hlink h

/-! ### Every step since -/

theorem expire_behind {o : Origin} (start now : Nat) (a : Attempt) :
    Attempt.expire (start + now) (a.behind o start) = (Attempt.expire now a).behind o start := by
  have h : start + a.deadline ≤ start + now ↔ a.deadline ≤ now := Nat.add_le_add_iff_left
  unfold Attempt.expire Attempt.behind
  simp only [h]
  split <;> rfl

theorem meet_behind {o : Origin} {start : Nat} (reply : Answer) (a : Attempt) :
    Attempt.meet reply (a.behind o start) = (Attempt.meet reply a).behind o start := by
  unfold Attempt.meet Attempt.behind
  dsimp only
  split
  · rfl
  · cases reply <;> rfl

/-- **A client with a past does what it would do without it.** -/
theorem step_behind (hp : p.Spent) (hl : ∀ link, c.session.link = some link → c.connections ≠ []) (s : Step) :
    ∃ q, p.Fades q ∧
      (c.behind p).step (s.behind p.origin) = ((c.step s).1.behind q, (c.step s).2.map (·.behind p.origin)) := by
  cases s with
  | connect target =>
    refine ⟨p, .refl hp, ?_⟩
    cases hd : c.dropped with
    | true => simp [Step.behind, step, behind, hd]
    | false => simpa [Step.behind, step, behind, hd] using beginConnect_behind (p := p) (c := c) target
  | send r =>
    refine ⟨p, .refl hp, ?_⟩
    cases hd : c.dropped with
    | true => simp [Step.behind, step, behind, hd]
    | false => simpa [Step.behind, step, behind, hd] using beginSend_behind (p := p) (c := c) hl r
  | disconnect =>
    refine ⟨p, .refl hp, ?_⟩
    cases hd : c.dropped with
    | true => simp [Step.behind, step, behind, hd]
    | false => simpa [Step.behind, step, behind, hd] using disconnect_behind (p := p) (c := c) hp
  | answer call reply =>
    refine ⟨p, .refl hp, ?_⟩
    have hmap : ((c.behind p).attempts.map fun a => if a.call = p.calls + call then Attempt.meet reply a else a) =
        p.attempts ++ (c.attempts.map fun a => if a.call = call then Attempt.meet reply a else a).map
          (·.behind p.origin p.now) := by
      refine map_behind (fun a ha => if_neg ?_) fun a => ?_
      · have := hp.attempts a ha
        omega
      · have hcall : (a.behind p.origin p.now).call = p.calls + call ↔ a.call = call := Nat.add_left_cancel_iff
        by_cases h : a.call = call
        · rw [if_pos h, if_pos (hcall.2 h), meet_behind]
        · rw [if_neg h, if_neg (fun h' => h (hcall.1 h'))]
    exact congrArg (fun attempts => ({ c.behind p with attempts }, [])) hmap
  | wait span =>
    refine ⟨{ p with attempts := p.attempts.map (Attempt.expire (p.now + c.now + span)) }, .attempts hp _ ?_, ?_⟩
    · refine List.forall_mem_map.2 fun a ha => ?_
      rw [Attempt.expire_cancelled, Attempt.expire_call]
      exact ⟨hp.off a ha, hp.attempts a ha⟩
    · have hmap : (c.behind p).attempts.map (Attempt.expire (p.now + c.now + span)) =
          p.attempts.map (Attempt.expire (p.now + c.now + span)) ++
            (c.attempts.map (Attempt.expire (c.now + span))).map (·.behind p.origin p.now) := by
        rw [behind, List.map_append, List.map_map, List.map_map]
        refine congrArg _ (List.map_congr_left fun a _ => ?_)
        rw [Function.comp, Nat.add_assoc, expire_behind]
        rfl
      exact congr (congrArg (fun attempts now => ({ c.behind p with attempts, now }, [])) hmap) (Nat.add_assoc _ _ _)
  | finish call => exact ⟨p, .refl hp, finishConnect_behind hp call⟩
  | write call => exact ⟨p, .refl hp, write_behind hp call⟩
  | retract call => exact ⟨p, .refl hp, retract_behind hp hl call⟩
  | close id => exact ⟨p, .refl hp, close_behind hp id⟩
  | receive id => exact ⟨p, .refl hp, receive_behind hl id⟩
  | peer id act =>
    refine ⟨p, .refl hp, ?_⟩
    simp [Step.behind, step, behind, Past.origin, modify_behind]
  | ignore => exact ⟨p, .refl hp, rfl⟩
  | drop =>
    refine ⟨{ p with
      attempts := p.attempts.map fun a => { a with cancelled := true }
      connections := p.connections.map fun k => { k with stopped := true } }, ?_, ?_⟩
    · have hattempts : p.Fades { p with attempts := p.attempts.map fun a => { a with cancelled := true } } :=
        .attempts hp _ (List.forall_mem_map.2 fun a ha => ⟨rfl, hp.attempts a ha⟩)
      refine hattempts.trans (.connections hattempts.spent (List.length_map _) ?_)
      exact List.forall_mem_map.2 fun k hk => ⟨k, hk, id⟩
    · simp [Step.behind, step, Client.drop, behind, Past.origin, Attempt.behind]

end Behind

end Client
end ChatClient
