import ChatClient.Proofs.Client.Flight
import ChatClient.Proofs.Client.Wire
import ChatClient.Proofs.Session.Counts
/-!
# Target — where the octets of a request go

Any number of requests can be in flight while connections come and go: a request passes the gate, is written, and is taken
back if that failed, each in a step of its own.  A request in flight carries the number of the connection that was in use
when it passed the gate (`cleared_run`).  This is the only connection that its write touches, and its count is taken back
only while this connection is in use (`requests_keep_to_their_connection`).
-/
namespace ChatClient
namespace Client

variable {c : Client} {s : Step} {id : Nat} {k k' : Connection} {w : Write} {config : SessionConfig} {steps : List Step}

/-- After these steps the request passes the gate: its connection is in use, and the session is in the state that the
request needs. -/
structure Clears (config : SessionConfig) (steps : List Step) (w : Write) : Prop where
  used : ∃ link, (run { config } steps).1.session.link = some link ∧ link.id = w.id
  state : (run { config } steps).1.session.state = if w.request.command = .login then .connected else .authenticated
  encoded : w.request.encode = .ok w.octets
  numbered : w.call = (run { config } steps).1.calls
  known : w.id < (run { config } steps).1.connections.length

/-- The request has passed the gate in this run. -/
def Cleared (config : SessionConfig) (steps : List Step) (w : Write) : Prop :=
  ∃ before after, steps = before ++ .send w.request :: after ∧ Clears config before w

theorem Cleared.concat (h : Cleared config steps w) (s : Step) : Cleared config (steps ++ [s]) w := by
  obtain ⟨before, after, rfl, hw⟩ := h
  exact ⟨before, after ++ [s], by simp, hw⟩

theorem state_of_objection {state : Session.State} {command : Command} (h : Session.objection state command = none) :
    state = if command = .login then .connected else .authenticated := by
  split
  · rename_i hc
    exact Session.connected_of_objection (hc ▸ h)
  · rename_i hc
    exact Session.authenticated_of_objection h hc

/-- **Every request in flight passed the gate** while the connection that it carries was in use. -/
theorem cleared_run (config : SessionConfig) (steps : List Step) :
    ∀ w ∈ (run { config } steps).1.writes, Cleared config steps w := by
  induction steps using List.reverseRecOn with
  | nil => exact nofun
  | append_singleton steps s ih =>
    rw [run_concat]
    have ih : ∀ w ∈ (run { config } steps).1.writes, Cleared config (steps ++ [s]) w :=
      fun w hw => (ih w hw).concat s
    cases step_flight (run { config } steps).1 s with
    | keep writes =>
      rw [writes]
      exact ih
    | pass r link octets step gate encoded used writes =>
      rw [writes]
      refine List.forall_mem_append.2 ⟨ih, List.forall_mem_singleton.2 ⟨steps, [], by rw [step], ?_⟩⟩
      exact ⟨⟨link, used, rfl⟩, state_of_objection gate, encoded, rfl, (tally_run config steps).used_lt used⟩
    | fault w f step writes =>
      rw [writes]
      intro v hv
      obtain ⟨u, hu, rfl⟩ := List.mem_map.1 hv
      split
      · obtain ⟨before, after, heq, hclears⟩ := ih u hu
        exact ⟨before, after, heq, hclears.used, hclears.state, hclears.encoded, hclears.numbered, hclears.known⟩
      · exact ih u hu
    | depart w step flying writes | withdraw w f notes step flying writes =>
      rw [writes]
      exact fun v hv => ih v (List.mem_filter.1 hv).1

theorem connections_le (c : Client) (s : Step) : c.connections.length ≤ (c.step s).1.connections.length := by
  have hm := step_move c s
  generalize c.step s = next at hm
  rcases next with ⟨c', told⟩
  cases hm with
  | establish a ha hc ho => simp
  | drop => exact Nat.le_of_eq (List.length_map _).symm
  | _ => simp [setConnection]

theorem connections_le_run : ∀ (c : Client) (steps : List Step),
    c.connections.length ≤ (c.run steps).1.connections.length
  | _, [] => Nat.le_refl _
  | c, s :: rest => by
    rw [run_cons]
    exact Nat.le_trans (connections_le c s) (connections_le_run _ rest)

theorem Cleared.connection (h : Cleared config steps w) :
    ∃ k, (run { config } steps).1.connections[w.id]? = some k := by
  obtain ⟨before, after, rfl, hw⟩ := h
  rw [run_append]
  exact ⟨_, List.getElem?_eq_getElem (Nat.lt_of_lt_of_le hw.known (connections_le_run _ _))⟩

/-- The requests in flight have calls of their own. -/
theorem flying_distinct (config : SessionConfig) (steps : List Step) :
    ((run { config } steps).1.writes.map (·.call)).Nodup := by
  induction steps using List.reverseRecOn with
  | nil => exact List.nodup_nil
  | append_singleton steps s ih =>
    rw [run_concat]
    cases step_flight (run { config } steps).1 s with
    | keep writes =>
      rw [writes]
      exact ih
    | pass r link octets step gate encoded used writes =>
      rw [writes, List.map_append, List.map_singleton]
      refine List.nodup_append.2 ⟨ih, List.nodup_singleton _, fun call hcall call' hcall' heq => ?_⟩
      obtain ⟨v, hv, rfl⟩ := List.mem_map.1 hcall
      have hlt := (ledger_run config steps).numbered v hv
      rw [heq, List.mem_singleton.1 hcall'] at hlt
      exact Nat.lt_irrefl _ hlt
    | fault w f step writes =>
      have hcall : (fun v : Write => v.call) ∘ (fun v => if v.call = w.call then { v with fault := some f } else v) =
          (·.call) := by
        funext v
        simp only [Function.comp]
        split <;> rfl
      rw [writes, List.map_map, hcall]
      exact ih
    | depart w step flying writes | withdraw w f notes step flying writes =>
      rw [writes]
      exact ih.sublist (List.filter_sublist.map _)

/-- **A write goes to the connection that its request carries**, and leaves every other connection as it was. -/
theorem write_connections (hw : w ∈ (run { config } steps).1.writes) (hf : w.fault = none) :
    ∃ k, (run { config } steps).1.connections[w.id]? = some k ∧
      ((run { config } steps).1.step (.write w.call)).1.connections =
        (run { config } steps).1.connections.set w.id { k with socket := (k.socket.write w.octets).1 } := by
  obtain ⟨k, hk⟩ := (cleared_run config steps w hw).connection
  refine ⟨k, hk, ?_⟩
  have hfind := find?_of_nodup (flying_distinct config steps) hw
  generalize (run { config } steps).1 = c at hk hfind
  rw [step, write, hfind]
  dsimp only
  rw [hf, hk]
  dsimp only
  rcases k.socket.write w.octets with ⟨socket, _ | f⟩ <;> rfl

/-- **What is taken on a connection with a step** is nothing, or a front of one request that is written to it, which is all
of it if the call ends well. -/
theorem taken_of_step (hk : c.connections[id]? = some k) (hk' : (c.step s).1.connections[id]? = some k') :
    k'.socket.taken = k.socket.taken ∨ ∃ w ∈ c.writes, s = .write w.call ∧ w.id = id ∧
      ∃ front, front <+: w.octets ∧ k'.socket.taken = k.socket.taken ++ front ∧
        (.sent w.call id w.request ∈ (c.step s).2 → front = w.octets) := by
  by_cases hs : ∃ call, s = .write call
  · obtain ⟨call, rfl⟩ := hs
    rcases step_puts c call with ⟨hstep, -⟩ | ⟨w, j, socket, fault, front, rfl, hput⟩
    · rw [hstep, hk] at hk'
      cases hk'
      exact .inl rfl
    rw [hput.connections] at hk'
    by_cases hid : w.id = id
    · subst hid
      rw [getElem?_set hput.connection] at hk'
      cases hk'
      cases hk.symm.trans hput.connection
      refine .inr ⟨w, hput.flying, rfl, rfl, front, hput.part, hput.taken, fun hm => hput.whole.1 ?_⟩
      rw [hput.tells] at hm
      by_contra hfault
      rw [if_neg hfault] at hm
      cases hm
    · rw [List.getElem?_set_ne hid, hk] at hk'
      cases hk'
      exact .inl rfl
  · obtain ⟨k'', hk'', he⟩ := step_effect hk s
    cases hk'.symm.trans hk''
    exact .inl (he.taken fun call heq => hs ⟨call, heq⟩)

/-- **A failed request of a connection that is not in use any more leaves the session alone.** -/
theorem forgo (hw : w ∈ (run { config } steps).1.writes) {f : Network.Fault} (hf : w.fault = some f)
    (hu : (run { config } steps).1.session.uses w.id = false) :
    ((run { config } steps).1.step (.retract w.call)).1.session = (run { config } steps).1.session ∧
      ((run { config } steps).1.step (.retract w.call)).2 = [.unsent w.call w.id w.request f] := by
  have hfind := find?_of_nodup (flying_distinct config steps) hw
  generalize (run { config } steps).1 = c at hu hfind
  rw [step, retract, hfind]
  dsimp only
  rw [hf]
  dsimp only
  rw [if_neg (by rw [hu]; exact Bool.false_ne_true)]
  exact ⟨rfl, rfl⟩

/-- **Requests keep to the connection that was in use when they passed the gate**, in every order of the steps of any
number of calls.
- Every request in flight passed the gate earlier in the run: its connection was in use then, and the session in the state
  that the request needs.
- Its write goes to this connection and leaves every other one as it was, one that was opened later included.
- Nothing is taken on a connection but octets of such requests of its own, in the step that writes one: a front of them,
  and all of them if the call ends well.  What the other end has received is a front of what was taken.
- A request whose write has failed is taken off the counts only while its connection is in use; otherwise the session stays
  as it is, and the counts take note of nothing.
- The counts change only by a note on the connection that is in use. -/
theorem requests_keep_to_their_connection (config : SessionConfig) (steps : List Step) :
    let c := (run { config } steps).1
    (∀ w ∈ c.writes, Cleared config steps w) ∧
    (∀ w ∈ c.writes, w.fault = none → ∃ k, c.connections[w.id]? = some k ∧
      (c.step (.write w.call)).1.connections =
        c.connections.set w.id { k with socket := (k.socket.write w.octets).1 }) ∧
    (∀ s id k k', c.connections[id]? = some k → (c.step s).1.connections[id]? = some k' →
      k'.socket.received <+: k'.socket.taken ∧
      (k'.socket.taken = k.socket.taken ∨ ∃ w ∈ c.writes, s = .write w.call ∧ w.id = id ∧
        ∃ front, front <+: w.octets ∧ k'.socket.taken = k.socket.taken ++ front ∧
          (.sent w.call id w.request ∈ (c.step s).2 → front = w.octets))) ∧
    (∀ w ∈ c.writes, ∀ f, w.fault = some f → c.session.uses w.id = false →
      (c.step (.retract w.call)).1.session = c.session ∧
        (c.step (.retract w.call)).2 = [.unsent w.call w.id w.request f]) ∧
    (∀ s id command answer, .noted id (.failed command) answer ∈ (c.step s).2 → ∃ w ∈ c.writes,
      s = .retract w.call ∧ w.id = id ∧ w.request.command = command ∧ c.session.uses id = true) ∧
    (∀ s, (c.step s).1.session.outstanding = c.session.outstanding ∨ ∃ id note answer,
      .noted id note answer ∈ (c.step s).2 ∧ (c.step s).1.session.uses id = true ∧
        (c.step s).1.session.outstanding = (c.session.outstanding.take note).1) := by
  intro c
  refine ⟨cleared_run config steps, fun w hw hf => write_connections hw hf,
    fun s id k k' hk hk' => ⟨k'.socket.received_prefix_taken, taken_of_step hk hk'⟩,
    fun w hw f hf hu => forgo hw hf hu, fun s id command answer hm => ?_, fun s => ?_⟩
  · obtain ⟨w, hw, hs, hid, hcommand, -, hu⟩ := retracted_of_noted hm
    exact ⟨w, hw, hs, hid, hcommand, hu⟩
  · cases step_counting c s with
    | keep outstanding => exact .inl outstanding
    | take id note answer used outstanding tells =>
      refine .inr ⟨id, note, answer, ?_, used, by rw [outstanding]⟩
      have hm : (id, note, answer) ∈ (c.step s).2.filterMap Occurrence.noted? := by simp [tells]
      obtain ⟨o, ho, hnoted⟩ := List.mem_filterMap.1 hm
      cases o with
      | noted i n a =>
        cases hnoted
        exact ho
      | _ => cases hnoted

/-- A login is in flight when its connection is replaced; its write fails on the old connection, and the login of the new
one stays counted. -/
example :
    let c := run {} [.connect ⟨"localhost", 47007⟩, .answer 0 .accepted, .finish 0, .send (.login "ada" "pw"), .disconnect,
      .close 0, .connect ⟨"localhost", 47007⟩, .answer 2 .accepted, .finish 2, .send (.login "ada" "pw"), .write 1,
      .retract 1]
    c.1.session.outstanding.login = 1 ∧ .unsent 1 0 (.login "ada" "pw") .brokenPipe ∈ c.2 ∧
      c.1.connections.map (·.socket.taken) = [[], []] := by
  decide +kernel

end Client
end ChatClient
