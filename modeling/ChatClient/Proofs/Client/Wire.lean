import ChatClient.Proofs.Client.Flight
import ChatClient.Proofs.Client.Release
import ChatClient.Proofs.Frame.Requests
import ChatClient.Proofs.Session.Authentication
/-!
# Wire — what is taken of the requests that are written to a connection

Of every request that is written to a connection the system takes a *piece* (`Piece`): the whole frame if the call ends
well, and a proper front of it otherwise (`Wired`).  What was taken on a connection are these pieces, one after the other, in
the order of the writes (`wired_run`); where no write is made to fail on its way, a piece is a whole frame or nothing
(`smooth_run`).  A request other than a login is sent only after the session was authenticated on this connection
(`warranted_run`).  All of this holds in every order of steps.
-/
namespace ChatClient

open Network (Fault Socket)

theorem Connection.advance_written (k : Connection) (config : SessionConfig) :
    (k.advance config).1.socket.received = k.socket.received ∧ (k.advance config).1.socket.taken = k.socket.taken ∧
      (k.advance config).1.socket.choke = k.socket.choke ∧
      (k.advance config).1.socket.discarded = k.socket.discarded := by
  have ht := k.advance_turn config
  generalize k.advance config = next at ht
  rcases next with ⟨k', report⟩
  cases ht <;> exact ⟨rfl, rfl, rfl, rfl⟩

def Step.sends : Step → Bool
  | .send _ => true
  | _ => false

/-- What the system took of a request that was written. -/
structure Piece where
  call : Nat
  request : Request
  octets : Bytes
  deriving DecidableEq, Repr

/-- The call and its request. -/
def Piece.asked (p : Piece) : Nat × Request := (p.call, p.request)

namespace Client

variable {c c' : Client} {id : Nat} {k k' : Connection} {s : Step} {told : List Occurrence}
  {pieces : List Piece}

/-- The call of a step, if it passes the gate with a request for this connection. -/
def passing (id : Nat) (c : Client) : Step → List (Nat × Request)
  | .send r => if c.session.uses id ∧ .started c.calls ∈ (c.step (.send r)).2 then [(c.calls, r)] else []
  | _ => []

/-- The request that a step writes to this connection, with what is taken of it. -/
def putting (id : Nat) (c : Client) : Step → List Piece
  | .write call =>
    match c.writes.find? (·.call = call), c.connections[id]? with
    | some w, some k =>
      if w.id = id ∧ w.fault = none then
        [⟨w.call, w.request, (k.socket.write w.octets).1.taken.drop k.socket.taken.length⟩]
      else []
    | _, _ => []
  | _ => []

theorem passing_eq_nil (h : ∀ r, s = .send r → .started c.calls ∉ (c.step s).2) : passing id c s = [] := by
  unfold passing
  split
  · exact if_neg fun hp => h _ rfl hp.2
  · rfl

theorem putting_eq_nil (h : ∀ call, s ≠ .write call) : putting id c s = [] := by
  unfold putting
  split
  · exact absurd rfl (h _)
  · rfl

/-- A write of a request in flight, with the piece of it that is put on the wire of its connection. -/
structure Put (c : Client) (w : Write) (k : Connection) (socket : Socket) (fault : Option Fault) (front : Bytes) :
    Prop where
  flying : w ∈ c.writes
  fresh : w.fault = none
  connection : c.connections[w.id]? = some k
  part : front <+: w.octets
  whole : fault = none ↔ front = w.octets
  smooth : k.socket.choke = none → fault ≠ none → front = []
  writes : k.socket.write w.octets = (socket, fault)
  taken : socket.taken = k.socket.taken ++ front
  connections : (c.step (.write w.call)).1.connections = c.connections.set w.id { k with socket }
  tells : (c.step (.write w.call)).2 = if fault = none then [.sent w.call w.id w.request] else []
  calls : (c.step (.write w.call)).1.calls = c.calls
  others : ∀ v ∈ (c.step (.write w.call)).1.writes, v.call ≠ w.call → v ∈ c.writes
  tried : ∀ v ∈ (c.step (.write w.call)).1.writes, v.call = w.call → v.fault ≠ none
  puts : ∀ id, putting id c (.write w.call) = if w.id = id then [⟨w.call, w.request, front⟩] else []

theorem put_of_find {w : Write} (hw : c.writes.find? (·.call = w.call) = some w) (hf : w.fault = none)
    (hk : c.connections[w.id]? = some k) : ∃ socket fault front, Put c w k socket fault front := by
  rcases hwrite : k.socket.write w.octets with ⟨socket, fault⟩
  obtain ⟨front, hfront, htaken, hwhole, hsmooth⟩ := Socket.write_taken hwrite
  have hwrites : (c.step (.write w.call)).1.writes = match fault with
      | none => c.writes.filter (·.call ≠ w.call)
      | some f => c.writes.map fun v => if v.call = w.call then { v with fault := some f } else v := by
    cases fault <;> simp [step, write, hw, hf, hk, hwrite, setConnection]
  refine ⟨socket, fault, front, List.mem_of_find?_eq_some hw, hf, hk, hfront, hwhole, hsmooth, hwrite, htaken,
    ?_, ?_, ?_, ?_, ?_, fun id => ?_⟩
  · cases fault <;> simp [step, write, hw, hf, hk, hwrite, setConnection]
  · cases fault <;> simp [step, write, hw, hf, hk, hwrite]
  · cases fault <;> simp [step, write, hw, hf, hk, hwrite, setConnection]
  · intro v hv hcall
    rw [hwrites] at hv
    cases fault with
    | none => exact (List.mem_filter.1 hv).1
    | some f =>
      obtain ⟨u, hu, rfl⟩ := List.mem_map.1 hv
      by_cases hc : u.call = w.call
      · rw [if_pos hc] at hcall
        exact absurd hc hcall
      · rw [if_neg hc]
        exact hu
  · intro v hv hcall
    rw [hwrites] at hv
    cases fault with
    | none => exact absurd hcall (of_decide_eq_true (List.mem_filter.1 hv).2)
    | some f =>
      obtain ⟨u, hu, rfl⟩ := List.mem_map.1 hv
      by_cases hc : u.call = w.call
      · simp [hc]
      · rw [if_neg hc] at hcall
        exact absurd hcall hc
  · rw [putting, hw]
    by_cases hid : w.id = id
    · subst hid
      rw [hk]
      simp [hf, hwrite, htaken]
    · cases c.connections[id]? <;> simp [hid]

/-- **A write comes to nothing or puts a piece of its request on the wire.** -/
theorem step_puts (c : Client) (call : Nat) :
    (c.step (.write call) = (c, []) ∧ ∀ id, putting id c (.write call) = []) ∨
      ∃ w k socket fault front, w.call = call ∧ Put c w k socket fault front := by
  cases hw : c.writes.find? (·.call = call) with
  | none => exact .inl ⟨by simp [step, write, hw], fun id => by simp [putting, hw]⟩
  | some w =>
    have hcall : w.call = call := by simpa using List.find?_some hw
    subst hcall
    cases hf : w.fault with
    | some f =>
      refine .inl ⟨by simp [step, write, hw, hf], fun id => ?_⟩
      rw [putting, hw]
      cases c.connections[id]? <;> simp [hf]
    | none =>
      cases hk : c.connections[w.id]? with
      | none =>
        refine .inl ⟨by simp [step, write, hw, hf, hk], fun id => ?_⟩
        rw [putting, hw]
        cases hj : c.connections[id]? with
        | none => rfl
        | some j =>
          refine if_neg fun h => ?_
          rw [← h.1, hk] at hj
          cases hj
      | some k =>
        obtain ⟨socket, fault, front, hput⟩ := put_of_find hw hf hk
        exact .inr ⟨w, k, socket, fault, front, rfl, hput⟩

/-- The piece that a write puts on the wire of this connection. -/
theorem Put.eq_of_mem {w : Write} {socket : Socket} {fault : Option Fault} {front : Bytes} {p : Piece}
    (h : Put c w k socket fault front) (hp : p ∈ putting id c (.write w.call)) :
    w.id = id ∧ p = ⟨w.call, w.request, front⟩ := by
  rw [h.puts] at hp
  split at hp
  · rename_i hid
    exact ⟨hid, List.mem_singleton.1 hp⟩
  · cases hp

/-! ## What is taken -/

/-- The pieces that were put on the wire of a connection: what was taken on it, one after the other.  One is whole exactly if
its call has ended well, and a request that is still to be written has none. -/
structure Wired (id : Nat) (c : Client) (told : List Occurrence) (pieces : List Piece) : Prop where
  fits : ∀ p ∈ pieces, p.request.Fits ∧ p.octets <+: p.request.frame
  taken : (c.connections[id]? = none ∧ pieces = []) ∨
    ∃ k, c.connections[id]? = some k ∧ k.socket.taken = pieces.flatMap Piece.octets
  whole : ∀ p ∈ pieces, p.octets = p.request.frame ↔ .sent p.call id p.request ∈ told
  sent : ∀ call r, .sent call id r ∈ told → (call, r) ∈ pieces.map Piece.asked
  tried : ∀ p ∈ pieces, ∀ w ∈ c.writes, w.call = p.call → w.fault ≠ none
  numbered : ∀ p ∈ pieces, p.call < c.calls

/-- A step other than a write takes nothing more. -/
theorem Effect.taken (he : Effect c id k s k' told) (hs : ∀ call, s ≠ .write call) :
    k'.socket.taken = k.socket.taken := by
  cases he with
  | bystand | stop | shut => rfl
  | write w | failWrite w => exact absurd rfl (hs w.call)
  | turn => rw [afterLoop_written.2.1, (k.advance_written c.config).2.1]
  | peer act => exact Socket.meet_taken _ act

/-- A step other than a write ends no call well. -/
theorem sent_of_step {call : Nat} {r : Request} (h : .sent call id r ∈ (c.step s).2) : s = .write call := by
  have hm := step_move c s
  generalize c.step s = next at hm h
  rcases next with ⟨c', told'⟩
  cases hm with
  | write w k socket => simp at h; rw [h.1]
  | handle i k k' r => cases hr : r.command? <;> simp [hr] at h
  | _ => simp at h

namespace Wired

theorem octets (h : Wired id c told pieces) (hk : c.connections[id]? = some k) :
    k.socket.taken = pieces.flatMap Piece.octets := by
  rcases h.taken with ⟨hnone, -⟩ | ⟨j, hj, htaken⟩
  · rw [hk] at hnone
    cases hnone
  · cases hk.symm.trans hj
    exact htaken

/-- A step other than a write. -/
theorem silent (h : Wired id c told pieces) (hs : ∀ call, s ≠ .write call) :
    Wired id (c.step s).1 (told ++ (c.step s).2) pieces := by
  have hsent : ∀ call r, .sent call id r ∈ told ++ (c.step s).2 ↔ .sent call id r ∈ told := by
    intro call r
    rw [List.mem_append, or_iff_left fun hm => hs call (sent_of_step hm)]
  have hf := step_flight c s
  refine ⟨h.fits, ?_, fun p hp => by rw [hsent]; exact h.whole p hp, fun call r hm => h.sent call r ((hsent call r).1 hm),
    fun p hp => ?_, fun p hp => Nat.lt_of_lt_of_le (h.numbered p hp) hf.calls_le⟩
  · rcases h.taken with ⟨hk, rfl⟩ | ⟨k, hk, htaken⟩
    · rcases (step_fresh hk s).2 with hnone | ⟨peer, hnew⟩
      · exact .inl ⟨hnone, rfl⟩
      · exact .inr ⟨_, hnew, rfl⟩
    · obtain ⟨k', hk', he⟩ := step_effect hk s
      exact .inr ⟨k', hk', (he.taken hs).trans htaken⟩
  · refine hf.forall_writes (h.tried p hp) (fun w f _ _ => nofun) ?_
    intro r link octets gate encoded used calls hcall
    exact absurd (h.numbered p hp) (by rw [← hcall]; exact Nat.lt_irrefl _)

/-- The number of a request that is still to be written is that of no piece. -/
theorem not_put {w : Write} (h : Wired id c told pieces) (hw : w ∈ c.writes) (hf : w.fault = none) :
    ∀ p ∈ pieces, p.call ≠ w.call := fun p hp hcall => h.tried p hp w hw hcall.symm hf

/-- A write that puts a piece on the wire of its connection. -/
theorem put {w : Write} {socket : Socket} {fault : Option Fault} {front : Bytes} (h : Wired id c told pieces)
    (hl : Ledger c told) (hput : Put c w k socket fault front) :
    Wired id (c.step (.write w.call)).1 (told ++ (c.step (.write w.call)).2) (pieces ++ putting id c (.write w.call)) := by
  obtain ⟨hfits, hframe⟩ := Request.encode_eq_ok_iff.1 (hl.encoded w hput.flying)
  have hsent : ∀ call r, .sent call id r ∈ (c.step (.write w.call)).2 ↔
      fault = none ∧ call = w.call ∧ id = w.id ∧ r = w.request := by
    intro call r
    rw [hput.tells]
    split <;> simp [*]
  refine ⟨List.forall_mem_append.2 ⟨h.fits, fun p hp => ?_⟩, ?_,
    List.forall_mem_append.2 ⟨fun p hp => ?_, fun p hp => ?_⟩, fun call r hm => ?_,
    List.forall_mem_append.2 ⟨fun p hp v hv hcall => ?_, fun p hp v hv hcall => ?_⟩,
    List.forall_mem_append.2 ⟨fun p hp => ?_, fun p hp => ?_⟩⟩
  · rw [(hput.eq_of_mem hp).2]
    exact ⟨hfits, hframe.symm ▸ hput.part⟩
  · rw [hput.connections, hput.puts]
    by_cases hid : w.id = id
    · subst hid
      refine .inr ⟨_, getElem?_set hput.connection, hput.taken.trans ?_⟩
      rw [if_pos rfl, List.flatMap_append, h.octets hput.connection, List.flatMap_singleton]
    · -- A piece goes to the connection that the request carries, so on any other everything is as it was.
      rw [if_neg hid, List.append_nil, List.getElem?_set_ne hid]
      exact h.taken
  · rw [List.mem_append, h.whole p hp, hsent, or_iff_left fun hm => h.not_put hput.flying hput.fresh p hp hm.2.1]
  · obtain ⟨hid, rfl⟩ := hput.eq_of_mem hp
    rw [List.mem_append, hsent, or_iff_right fun hm => hl.pending _ hm w hput.flying rfl, hput.whole, hframe]
    simp [hid]
  · rw [List.map_append, List.mem_append]
    refine (List.mem_append.1 hm).imp (h.sent call r) fun hm => ?_
    obtain ⟨-, rfl, hid, rfl⟩ := (hsent call r).1 hm
    rw [hput.puts, if_pos hid.symm]
    exact List.mem_singleton_self _
  · exact h.tried p hp v (hput.others v hv fun hc => h.not_put hput.flying hput.fresh p hp (hcall.symm.trans hc)) hcall
  · rw [(hput.eq_of_mem hp).2] at hcall
    exact hput.tried v hv hcall
  · rw [hput.calls]
    exact h.numbered p hp
  · rw [(hput.eq_of_mem hp).2, hput.calls]
    exact hl.numbered w hput.flying

theorem step (h : Wired id c told pieces) (hl : Ledger c told) (s : Step) :
    Wired id (c.step s).1 (told ++ (c.step s).2) (pieces ++ putting id c s) := by
  by_cases hs : ∃ call, s = .write call
  · obtain ⟨call, rfl⟩ := hs
    rcases step_puts c call with ⟨hstep, hnone⟩ | ⟨w, k, socket, fault, front, rfl, hput⟩
    · rw [hstep, hnone, List.append_nil, List.append_nil]
      exact h
    · exact h.put hl hput
  · have hs : ∀ call, s ≠ .write call := fun call heq => hs ⟨call, heq⟩
    rw [putting_eq_nil hs, List.append_nil]
    exact h.silent hs

end Wired

theorem wired_run (config : SessionConfig) (id : Nat) (steps : List Step) :
    Wired id (run { config } steps).1 (run { config } steps).2 (gather (putting id) { config } steps) := by
  induction steps using List.reverseRecOn with
  | nil =>
    exact ⟨by simp [gather], .inl ⟨rfl, rfl⟩, by simp [gather], by simp [run], by simp [gather], by simp [gather]⟩
  | append_singleton steps s ih =>
    rw [run_concat, gather_concat]
    exact ih.step (ledger_run config steps) s

/-! ## A connection whose writes do not choke -/

/-- No write to this connection is made to fail on its way. -/
def Smooth (id : Nat) (steps : List Step) : Prop := ∀ room fault, .peer id (.choke room fault) ∉ steps

theorem Smooth.of_append {l m : List Step} (h : Smooth id (l ++ m)) : Smooth id l ∧ Smooth id m :=
  ⟨fun room f hm => h room f (List.mem_append_left _ hm), fun room f hm => h room f (List.mem_append_right _ hm)⟩

theorem Effect.unchoked (he : Effect c id k s k' told) (hs : ∀ room f, s ≠ .peer id (.choke room f))
    (hc : k.socket.choke = none) : k'.socket.choke = none := by
  cases he with
  | bystand | stop | shut => exact hc
  | write w socket hw hid hwrite => exact Socket.write_choke hwrite hc
  | failWrite w socket f hw hid hwrite => exact Socket.write_choke hwrite hc
  | turn => rw [afterLoop_written.2.2.1, (k.advance_written c.config).2.2.1, hc]
  | peer act => exact Socket.meet_choke (fun room f hact => hs room f (by rw [hact])) hc

/-- **Where no write is made to fail on its way**, a piece is a whole frame or nothing. -/
theorem smooth_run (config : SessionConfig) {steps : List Step} (hs : Smooth id steps) :
    (∀ k, (run { config } steps).1.connections[id]? = some k → k.socket.choke = none) ∧
      ∀ p ∈ gather (putting id) { config } steps,
        .sent p.call id p.request ∉ (run { config } steps).2 → p.octets = [] := by
  induction steps using List.reverseRecOn with
  | nil => exact ⟨by simp [run], by simp [gather]⟩
  | append_singleton steps s ih =>
    obtain ⟨hsteps, hlast⟩ := hs.of_append
    obtain ⟨hchoke, hpieces⟩ := ih hsteps
    rw [run_concat, gather_concat]
    generalize (run { config } steps).1 = c at hchoke ⊢
    refine ⟨fun k' hk' => Released.of_step (P := fun k => k.socket.choke = none) hk' (fun k hk he => ?_) fun peer => rfl,
      fun p hp hsent => ?_⟩
    · exact he.unchoked (fun room f hact => hlast room f (List.mem_singleton.2 hact.symm)) (hchoke k hk)
    rw [List.mem_append, not_or] at hsent
    rcases List.mem_append.1 hp with hp | hp
    · exact hpieces p hp hsent.1
    by_cases hwrite : ∃ call, s = .write call
    · obtain ⟨call, rfl⟩ := hwrite
      rcases step_puts c call with ⟨-, hnone⟩ | ⟨w, k, socket, fault, front, rfl, hput⟩
      · rw [hnone] at hp
        cases hp
      · obtain ⟨rfl, rfl⟩ := hput.eq_of_mem hp
        refine hput.smooth (hchoke k hput.connection) fun hfault => hsent.2 ?_
        rw [hput.tells, if_pos hfault]
        exact List.mem_singleton_self _
    · rw [putting_eq_nil fun call h => hwrite ⟨call, h⟩] at hp
      cases hp

/-! ## What is sent once the session is authenticated -/

/-- A request other than a login is in flight, and was sent, only after the session was authenticated on its connection. -/
structure Warranted (c : Client) (told : List Occurrence) : Prop where
  flying : ∀ w ∈ c.writes, w.request.command ≠ .login → Welcomed w.id told
  sent : ∀ before after call id r, told = before ++ .sent call id r :: after → r.command ≠ .login → Welcomed id before

theorem Flight.sent_mem {c' : Client} (h : Flight c s c' told) {call : Nat} {r : Request}
    (hm : .sent call id r ∈ told) : ∃ w ∈ c.writes, w.id = id ∧ w.request = r := by
  cases h with
  | keep writes calls quiet => cases quiet _ hm
  | pass r link octets step gate encoded used writes calls tells => simp [tells] at hm
  | fault w f step writes calls tells => simp [tells] at hm
  | depart w step flying writes calls tells =>
    rw [tells, List.mem_singleton] at hm
    cases hm
    exact ⟨w, flying, rfl, rfl⟩
  | withdraw w f notes step flying writes calls quiet tells =>
    rw [tells] at hm
    rcases List.mem_append.1 hm with hm | hm
    · cases quiet _ hm
    · simp at hm

theorem Warranted.step (h : Warranted c told) (ha : Admitted c told) (s : Step) :
    Warranted (c.step s).1 (told ++ (c.step s).2) := by
  have hf := step_flight c s
  constructor
  · refine hf.forall_writes (fun w hw hr => List.mem_append_left _ (h.flying w hw hr)) (fun w f hw => hw) ?_
    intro r link octets gate encoded used calls hr
    exact List.mem_append_left _ ((ha.authenticated_iff used).1 (Session.authenticated_of_objection gate hr))
  · intro before after call id r heq hr
    -- What is sent with this step was in flight before it.
    rcases List.append_eq_append_iff.1 heq with ⟨more, rfl, hmore⟩ | ⟨more, rfl, hmore⟩
    · have hm : .sent call id r ∈ (c.step s).2 := by rw [hmore]; simp
      obtain ⟨w, hw, rfl, rfl⟩ := hf.sent_mem hm
      exact List.mem_append_left _ (h.flying w hw hr)
    · cases more with
      | nil =>
        have hm : .sent call id r ∈ (c.step s).2 := by rw [← List.nil_append (c.step s).2, ← hmore]; simp
        obtain ⟨w, hw, rfl, rfl⟩ := hf.sent_mem hm
        rw [List.append_nil] at h
        exact h.flying w hw hr
      | cons o more =>
        cases hmore
        exact h.sent before more call id r rfl hr

theorem warranted_run (config : SessionConfig) (steps : List Step) :
    Warranted (run { config } steps).1 (run { config } steps).2 := by
  induction steps using List.reverseRecOn with
  | nil => exact ⟨nofun, fun before after call id r heq => by simp [run] at heq⟩
  | append_singleton steps s ih =>
    rw [run_concat]
    exact ih.step (admitted_run config steps) s

end Client
end ChatClient
