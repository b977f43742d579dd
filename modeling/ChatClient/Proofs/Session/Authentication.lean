import ChatClient.Proofs.Client.Decoding
import ChatClient.Proofs.Session.Shift
/-!
# Authentication — when a session is authenticated

A session is authenticated exactly while a connection is in use on which, since it was opened, the acknowledgement of a
login with success was taken (`Admitted`).  The history knows each connection by its own number, and what was taken on one
was decoded from its own octets (`handled_decoded`), so nothing that an earlier connection brought counts.

Only one kind of step authenticates a session (`step_admits`), and an authenticated session stays so until its connection
ends (`On.run`).
-/
namespace ChatClient
namespace Client

open Occurrence (turning ended?)

variable {c : Client} {told : List Occurrence} {s : Step} {link : Link}

/-- The acknowledgement of a login with success was taken on this connection. -/
def Welcomed (id : Nat) (told : List Occurrence) : Prop := .handled id (.ack .login ⟨0⟩) ∈ told

/-- What the history says of the connection in use and of the state. -/
structure Admitted (c : Client) (told : List Occurrence) : Prop where
  state : c.session.state = .authenticated ↔ ∃ link, c.session.link = some link ∧ Welcomed link.id told
  since : ∀ link, c.session.link = some link → ∃ call before after,
    told = before ++ .connected call link.id :: after ∧ ∀ r, .handled link.id r ∉ before
  known : ∀ id r, .handled id r ∈ told → id < c.connections.length

theorem handled_quiet {id : Nat} {r : Response} {more : List Occurrence} (quiet : ∀ o ∈ more, o.turning = false) :
    .handled id r ∈ told ++ more ↔ .handled id r ∈ told := by
  rw [List.mem_append, or_iff_left]
  intro hm
  cases quiet _ hm

namespace Admitted

/-- Without a connection, and in a state that goes with that, nothing is claimed but that the connections are known. -/
theorem of_unlinked {c' : Client} {more : List Occurrence} (h : Admitted c told) (link : c'.session.link = none)
    (state : c'.session.state.isConnected = false) (length : c'.connections.length = c.connections.length)
    (quiet : ∀ id r, .handled id r ∉ more) : Admitted c' (told ++ more) where
  state := by
    constructor
    · intro hs
      rw [hs] at state
      cases state
    · rintro ⟨l, hl, -⟩
      rw [link] at hl
      cases hl
  since l hl := by
    rw [link] at hl
    cases hl
  known id r hm := by
    rw [length]
    rcases List.mem_append.1 hm with hm | hm
    · exact h.known id r hm
    · exact absurd hm (quiet id r)

theorem since_append {c' : Client} (h : Admitted c told) (link : c'.session.link = c.session.link)
    (more : List Occurrence) : ∀ link, c'.session.link = some link → ∃ call before after,
      told ++ more = before ++ .connected call link.id :: after ∧ ∀ r, .handled link.id r ∉ before := by
  intro l hl
  obtain ⟨call, before, after, rfl, hbefore⟩ := h.since l (link ▸ hl)
  exact ⟨call, before, after ++ more, by simp, hbefore⟩

theorem step (h : Admitted c told) (hc : c.Coupled) (s : Step) : Admitted (c.step s).1 (told ++ (c.step s).2) := by
  cases step_shift hc s with
  | keep state link length quiet =>
    refine ⟨?_, h.since_append link _, fun id r hm => ?_⟩
    · simp only [state, link, Welcomed, handled_quiet quiet]
      exact h.state
    · rw [length]
      exact h.known id r ((handled_quiet quiet).1 hm)
  | dial free link state length quiet =>
    exact h.of_unlinked link state length fun id r hm => by cases quiet _ hm
  | establish a free session length tells =>
    rw [tells]
    -- The new connection has a number that the history does not know.
    have hnew : ∀ r, .handled c.connections.length r ∉ told := fun r hm => Nat.lt_irrefl _ (h.known _ r hm)
    refine ⟨?_, fun l hl => ?_, fun id r hm => ?_⟩
    · rw [session]
      constructor
      · intro hs
        cases hs
      · rintro ⟨l, hl, hw⟩
        cases hl
        rcases List.mem_append.1 hw with hm | hm
        · exact absurd hm (hnew _)
        · simp at hm
    · rw [session] at hl
      cases hl
      refine ⟨a.call, told ++ [.noted c.connections.length .reset none], [], by simp, fun r hm => ?_⟩
      rcases List.mem_append.1 hm with hm | hm
      · exact hnew r hm
      · simp at hm
    · rw [length]
      rcases List.mem_append.1 hm with hm | hm
      · exact Nat.lt_succ_of_lt (h.known id r hm)
      · simp at hm
  | handle link r rest step used known session length tells quiet =>
    have hlink : (c.step s).1.session.link = c.session.link := by rw [session, Session.accept_link]
    have hconnected : c.session.state.isConnected = true := by rw [← hc.session.link, used]; rfl
    rw [tells]
    refine ⟨?_, h.since_append hlink _, fun id r' hm => ?_⟩
    · rw [hlink, session, Session.accept_state_eq hconnected, used]
      have hwelcomed : Welcomed link.id (told ++ .handled link.id r :: rest) ↔
          Welcomed link.id told ∨ r = .ack .login ⟨0⟩ := by
        rw [Welcomed, List.append_cons, handled_quiet quiet, List.mem_append, List.mem_singleton]
        simp [Welcomed, eq_comm]
      have hstate := h.state
      rw [used] at hstate
      simp only [Option.some.injEq, exists_eq_left'] at hstate ⊢
      rw [hwelcomed, ← hstate]
      split
      · rename_i hr
        simp [hr]
      · rename_i hr
        simp [hr]
    · rw [length]
      rw [List.append_cons, handled_quiet quiet, List.mem_append, List.mem_singleton] at hm
      rcases hm with hm | hm
      · exact h.known id r' hm
      · cases hm
        exact known
  | detach link alive used session length tells =>
    refine h.of_unlinked (by rw [session]; rfl) (by rw [session]; rfl) length fun id r hm => ?_
    simp [tells] at hm
  | lose link k loss step used connection leaving session length tells =>
    refine h.of_unlinked (by rw [session]; rfl) (by rw [session]; rfl) length fun id r hm => ?_
    simp [tells] at hm

end Admitted

theorem admitted_run (config : SessionConfig) (steps : List Step) :
    Admitted (run { config } steps).1 (run { config } steps).2 := by
  induction steps using List.reverseRecOn with
  | nil => exact ⟨⟨nofun, fun ⟨link, hl, _⟩ => nomatch hl⟩, nofun, fun id r hm => by simp [run] at hm⟩
  | append_singleton steps s ih =>
    rw [run_concat]
    exact ih.step ((coupled_new config).run steps) s

/-- The session is authenticated on the connection in use exactly if it was welcomed there. -/
theorem Admitted.authenticated_iff (h : Admitted c told) {link : Link} (hl : c.session.link = some link) :
    c.session.state = .authenticated ↔ Welcomed link.id told := by
  rw [h.state]
  constructor
  · rintro ⟨l, hl', hw⟩
    rw [hl] at hl'
    cases hl'
    exact hw
  · exact fun hw => ⟨link, hl, hw⟩

/-- What was taken on the connection in use was taken since it was opened. -/
theorem Admitted.welcomed_iff (h : Admitted c told) (hl : c.session.link = some link) :
    Welcomed link.id told ↔ ∃ call before after, told = before ++ .connected call link.id :: after ∧
      .handled link.id (.ack .login ⟨0⟩) ∈ after := by
  constructor
  · intro hw
    obtain ⟨call, before, after, heq, hbefore⟩ := h.since link hl
    refine ⟨call, before, after, heq, ?_⟩
    rw [Welcomed, heq, List.mem_append, List.mem_cons] at hw
    rcases hw with hm | hm | hm
    · exact absurd hm (hbefore _)
    · cases hm
    · exact hm
  · rintro ⟨call, before, after, rfl, hm⟩
    exact List.mem_append_right _ (List.mem_cons_of_mem _ hm)

/-- **Only the acknowledgement of a login with success, taken on the connection in use, authenticates a session.** -/
theorem step_admits (hc : c.Coupled) (hs : c.session.state ≠ .authenticated)
    (hs' : (c.step s).1.session.state = .authenticated) : ∃ link rest, c.session.link = some link ∧
      s = .receive link.id ∧ (c.step s).2 = .handled link.id (.ack .login ⟨0⟩) :: rest := by
  cases step_shift hc s with
  | keep state => exact absurd (state.symm.trans hs') hs
  | dial free link state =>
    rw [hs'] at state
    cases state
  | establish a free session | detach link alive used session | lose link k loss step used connection leaving session =>
    rw [session] at hs'
    cases hs'
  | handle link r rest step used known session length tells =>
    have hconnected : c.session.state.isConnected = true := by rw [← hc.session.link, used]; rfl
    rw [session, Session.accept_state_eq hconnected] at hs'
    split at hs'
    · rename_i hr
      exact ⟨link, rest, used, step, hr ▸ tells⟩
    · exact absurd hs' hs

/-- The session is authenticated on this connection. -/
def On (link : Link) (c : Client) : Prop := c.session.state = .authenticated ∧ c.session.link = some link

theorem On.step (h : On link c) (hc : c.Coupled) (s : Step) :
    On link (c.step s).1 ∨ ∃ o ∈ (c.step s).2, o.ended? = some link.id := by
  obtain ⟨hs, hl⟩ := h
  cases step_shift hc s with
  | keep state link => exact .inl ⟨state.trans hs, link.trans hl⟩
  | dial free | establish a free =>
    rw [hl] at free
    cases free
  | handle link' r rest step used known session =>
    left
    constructor
    · rw [session, Session.accept_state_eq (by rw [hs]; rfl), hs]
      split <;> rfl
    · rw [session, Session.accept_link, hl]
  | detach link' alive used session length tells =>
    rw [hl] at used
    cases used
    exact .inr ⟨_, tells ▸ List.mem_singleton_self _, rfl⟩
  | lose link' k loss step used connection leaving session length tells =>
    rw [hl] at used
    cases used
    exact .inr ⟨_, tells ▸ List.mem_singleton_self _, rfl⟩

/-- **An authenticated session stays so until its connection ends.** -/
theorem On.run : ∀ (steps : List Step) {c : Client}, On link c → c.Coupled →
    On link (c.run steps).1 ∨ ∃ o ∈ (c.run steps).2, o.ended? = some link.id
  | [], _, h, _ => .inl h
  | s :: rest, c, h, hc => by
    rw [run_cons]
    rcases h.step hc s with h | ⟨o, hm, ho⟩
    · rcases h.run rest (hc.move (step_move c s)) with h | ⟨o, hm, ho⟩
      · exact .inl h
      · exact .inr ⟨o, List.mem_append_right _ hm, ho⟩
    · exact .inr ⟨o, List.mem_append_left _ hm, ho⟩

/-- **When a session is authenticated.**
- It is exactly while a connection is in use on which, since it was opened, the acknowledgement of a login with success was
  taken.
- What was taken on a connection was decoded from the octets of that connection: it is, in its order, among the outputs
  of the reader for the octets that the other end of this connection has sent, as they were read.
- A step makes a session authenticated only by taking such an acknowledgement on the connection in use; so no call does,
  and no other response.
- An authenticated session stays so, on the same connection, until a disconnect takes this connection away or its loss is
  told, whatever else happens. -/
theorem authenticated_iff_welcomed (config : SessionConfig) (steps : List Step) :
    let ran := run { config } steps
    let c := ran.1
    let told := ran.2
    (c.session.state = .authenticated ↔ ∃ link call before after, c.session.link = some link ∧
      told = before ++ .connected call link.id :: after ∧ .handled link.id (.ack .login ⟨0⟩) ∈ after) ∧
    (∀ id, ∃ chunks : List Bytes, chunks.flatten <+: gather (sentBy id) { config } steps ∧
      ((told.filterMap (Occurrence.handledOn? id)).map Except.ok).Sublist
        ((Inbound.responses config.maxFieldLength.toNat).feedAll [] chunks).1) ∧
    (∀ s, c.session.state ≠ .authenticated → (c.step s).1.session.state = .authenticated →
      ∃ link rest, c.session.link = some link ∧ s = .receive link.id ∧
        (c.step s).2 = .handled link.id (.ack .login ⟨0⟩) :: rest) ∧
    (∀ link more, c.session.state = .authenticated → c.session.link = some link →
      ((c.run more).1.session.state = .authenticated ∧ (c.run more).1.session.link = some link) ∨
        ∃ o ∈ (c.run more).2, o.ended? = some link.id) := by
  intro ran c told
  have hc : c.Coupled := (coupled_new config).run steps
  have hadmitted : Admitted c told := admitted_run config steps
  refine ⟨?_, fun id => handled_decoded config id steps, fun s hs hs' => step_admits hc hs hs',
    fun link more hs hl => On.run more ⟨hs, hl⟩ hc⟩
  rw [hadmitted.state]
  constructor
  · rintro ⟨link, hl, hw⟩
    obtain ⟨call, before, after, heq, hm⟩ := (hadmitted.welcomed_iff hl).1 hw
    exact ⟨link, call, before, after, hl, heq, hm⟩
  · rintro ⟨link, call, before, after, hl, heq, hm⟩
    exact ⟨link, hl, (hadmitted.welcomed_iff hl).2 ⟨call, before, after, heq, hm⟩⟩

end Client
end ChatClient
