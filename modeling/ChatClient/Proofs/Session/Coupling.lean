import ChatClient.Proofs.Client.Move
import Mathlib.Data.List.Nodup
/-!
# Coupling — the fields of a session go together

In every order of steps, a session has a link exactly while its state is connected or authenticated, and waits for a
handshake exactly while its state is connecting (`Session.Coupled`).

The steps that change these fields can be late: a handshake may end long after a disconnect called it off and another one
was started, and the loop of an old connection may still report.  So the invariant of a run (`Client.Coupled`) also says
how the handshakes in flight go with the session: one that was not called off is the one the session waits for, and the
one it waits for was not called off unless the session was given up.
-/
namespace ChatClient

/-- The link and the awaited handshake of a session go with its state. -/
structure Session.Coupled (s : Session) : Prop where
  link : s.link.isSome = s.state.isConnected
  pending : s.pending.isSome = true ↔ s.state = .connecting

namespace Session

/-- A request passes the gate only while a connection is open. -/
theorem isConnected_of_objection {st : State} {command : Command} (h : objection st command = none) :
    st.isConnected = true := by
  cases st <;> cases command <;> first | rfl | cases h

theorem authenticated_of_objection {st : State} {command : Command}
    (h : objection st command = none) (hc : command ≠ .login) : st = .authenticated := by
  cases st <;> cases command <;> first | rfl | exact absurd rfl hc | cases h

theorem connected_of_objection {st : State} (h : objection st .login = none) : st = .connected := by
  cases st <;> first | rfl | cases h

theorem uses_iff {s : Session} {id : Nat} : s.uses id = true ↔ ∃ link, s.link = some link ∧ link.id = id := by
  rw [uses]
  cases s.link <;> simp

theorem accept_link (s : Session) (r : Response) : (s.accept r).1.link = s.link := by
  cases r <;> rfl

/-- **A session is authenticated by the acknowledgement of a login with success**, and no other response changes its
state. -/
theorem accept_state_eq {s : Session} (hs : s.state.isConnected = true) (r : Response) :
    (s.accept r).1.state = if r = .ack .login ⟨0⟩ then .authenticated else s.state := by
  cases r with
  | delivery sender message => rfl
  | ack command code =>
    by_cases hw : Response.ack command code = .ack .login ⟨0⟩
    · rw [if_pos hw]
      cases hw
      rcases State.isConnected_iff.1 hs with h | h <;> simp [accept, h, ReturnCode.isSuccess]
    · rw [if_neg hw]
      refine if_neg ?_
      rintro ⟨rfl, hcode, -⟩
      have hzero : code.value = 0 := by simpa [ReturnCode.isSuccess] using hcode
      exact hw (congrArg (fun value => Response.ack .login ⟨value⟩) hzero)

end Session

namespace Session.Coupled

open Session

variable {s : Session}

theorem pending_eq_none (h : s.Coupled) (hs : s.state ≠ .connecting) : s.pending = none := by
  cases hp : s.pending with
  | none => rfl
  | some call => exact absurd (h.pending.1 (by rw [hp]; rfl)) hs

theorem link_eq_none (h : s.Coupled) (hs : s.state.isConnected = false) : s.link = none := by
  cases hl : s.link with
  | none => rfl
  | some link =>
    have := h.link
    rw [hl, hs] at this
    cases this

theorem of_uses (h : s.Coupled) {id : Nat} (hu : s.uses id = true) : s.state.isConnected = true := by
  rw [← h.link]
  cases hl : s.link with
  | none => rw [uses, hl] at hu; cases hu
  | some link => rfl

/-- What the session makes of a response leaves its link and its handshake alone, and its state connected. -/
theorem accept (h : s.Coupled) (hs : s.state.isConnected = true) (r : Response) : (s.accept r).1.Coupled := by
  cases r with
  | delivery sender message => exact h
  | ack command code =>
    have hne : s.state ≠ .connecting := fun hc => by rw [hc] at hs; cases hs
    have hp := h.pending_eq_none hne
    have hl := h.link
    rw [hs] at hl
    constructor
    · change s.link.isSome = (if _ then State.authenticated else s.state).isConnected
      split
      · exact hl
      · exact h.link
    · change s.pending.isSome = true ↔ (if _ then State.authenticated else s.state) = .connecting
      rw [hp]
      refine ⟨nofun, fun hc => ?_⟩
      split at hc
      · cases hc
      · exact absurd hc hne

/-- **A request that passes the gate finds a link.** -/
theorem dispatch_ne_notConnected (h : s.Coupled) {r : Request} (hr : objection s.state r.command = none) :
    s.dispatch r ≠ .error .notConnected := by
  have hl := h.link
  rw [isConnected_of_objection hr] at hl
  unfold dispatch
  rw [hr]
  dsimp only
  split
  · nofun
  · split
    · rename_i hn
      rw [hn] at hl
      cases hl
    · nofun

end Session.Coupled

namespace Attempt

variable {a : Attempt} {now : Nat} {answer : Network.Answer}

theorem expire_call : (expire now a).call = a.call := by
  unfold expire
  split <;> rfl

theorem expire_cancelled : (expire now a).cancelled = a.cancelled := by
  unfold expire
  split <;> rfl

theorem meet_call : (meet answer a).call = a.call := by
  unfold meet
  split
  · rfl
  · cases answer <;> rfl

theorem meet_cancelled : (meet answer a).cancelled = a.cancelled := by
  unfold meet
  split
  · rfl
  · cases answer <;> rfl

end Attempt

namespace Client

/-- The handshakes in flight go with the session. -/
structure Coupled (c : Client) : Prop where
  session : c.session.Coupled
  numbered : ∀ a ∈ c.attempts, a.call < c.calls
  distinct : (c.attempts.map (·.call)).Nodup
  awaited : ∀ a ∈ c.attempts, a.cancelled = false → c.session.pending = some a.call
  running : c.dropped = false → ∀ call, c.session.pending = some call →
    ∃ a ∈ c.attempts, a.call = call ∧ a.cancelled = false

variable {c : Client}

theorem coupled_new (config : SessionConfig) : Coupled { config } where
  session := ⟨rfl, nofun, nofun⟩
  numbered := nofun
  distinct := List.nodup_nil
  awaited := nofun
  running := nofun

namespace Coupled

/-- A step that leaves the session's coupling and the handshakes alone keeps them coupled. -/
theorem of_same (h : c.Coupled) {c' : Client} (hs : c'.session.Coupled) (hp : c'.session.pending = c.session.pending)
    (ha : c'.attempts = c.attempts) (hn : c.calls ≤ c'.calls) (hd : c'.dropped = c.dropped) : c'.Coupled where
  session := hs
  numbered a hm := Nat.lt_of_lt_of_le (h.numbered a (ha ▸ hm)) hn
  distinct := by rw [ha]; exact h.distinct
  awaited a hm hc := by rw [hp]; exact h.awaited a (ha ▸ hm) hc
  running hd' call hcall := by
    rw [ha]
    exact h.running (hd ▸ hd') call (hp ▸ hcall)

/-- News of a handshake changes neither its call nor whether it was called off. -/
theorem news (h : c.Coupled) (f : Attempt → Attempt) (hcall : ∀ a, (f a).call = a.call)
    (hoff : ∀ a, (f a).cancelled = a.cancelled) (now : Nat) :
    Coupled { c with now, attempts := c.attempts.map f } where
  session := h.session
  numbered := by
    intro b hb
    obtain ⟨a, ha, rfl⟩ := List.mem_map.1 hb
    rw [hcall]
    exact h.numbered a ha
  distinct := by
    rw [List.map_map, show (·.call) ∘ f = (·.call) from funext hcall]
    exact h.distinct
  awaited := by
    intro b hb hc
    obtain ⟨a, ha, rfl⟩ := List.mem_map.1 hb
    rw [hcall]
    exact h.awaited a ha (hoff a ▸ hc)
  running := by
    intro hd call hp
    obtain ⟨a, ha, rfl, hc⟩ := h.running hd call hp
    exact ⟨f a, List.mem_map_of_mem ha, hcall a, (hoff a).trans hc⟩

/-- Once every handshake was called off, the session waits for none or was given up. -/
theorem of_all_off {c' : Client} (hs : c'.session.Coupled) (hp : c'.session.pending = none ∨ c'.dropped = true)
    (hn : ∀ a ∈ c'.attempts, a.call < c'.calls) (hdist : (c'.attempts.map (·.call)).Nodup)
    (hoff : ∀ a ∈ c'.attempts, a.cancelled = true) : c'.Coupled where
  session := hs
  numbered := hn
  distinct := hdist
  awaited a ha hc := by rw [hoff a ha] at hc; cases hc
  running hd call hcall := by
    rcases hp with hp | hp
    · rw [hp] at hcall
      cases hcall
    · rw [hp] at hd
      cases hd

/-- The handshakes but for one call. -/
theorem numbered_filter (h : c.Coupled) (p : Attempt → Bool) : ∀ a ∈ c.attempts.filter p, a.call < c.calls :=
  fun a ha => h.numbered a (List.mem_of_mem_filter ha)

theorem distinct_filter (h : c.Coupled) (p : Attempt → Bool) : ((c.attempts.filter p).map (·.call)).Nodup :=
  h.distinct.sublist (List.filter_sublist.map _)

/-- The awaited handshake is the only one that was not called off. -/
theorem off_of_ne (h : c.Coupled) {a : Attempt} (ha : a ∈ c.attempts) (hc : a.cancelled = false) :
    ∀ b ∈ c.attempts.filter (·.call ≠ a.call), b.cancelled = true := by
  intro b hb
  obtain ⟨hb, hne⟩ := List.mem_filter.1 hb
  cases hcb : b.cancelled with
  | true => rfl
  | false =>
    have hab : a.call = b.call := Option.some.inj ((h.awaited a ha hc).symm.trans (h.awaited b hb hcb))
    rw [decide_eq_true_eq] at hne
    exact absurd hab.symm hne

/-- A disconnect calls off the awaited handshake, so all of them are off after it. -/
theorem off_of_release (h : c.Coupled) : ∀ b ∈ c.attempts.map (fun a =>
    if c.session.pending = some a.call then { a with cancelled := true } else a), b.cancelled = true := by
  intro b hb
  obtain ⟨a, ha, rfl⟩ := List.mem_map.1 hb
  split
  · rfl
  · rename_i hne
    cases hc : a.cancelled with
    | true => rfl
    | false => exact absurd (h.awaited a ha hc) hne

/-- **A disconnect keeps the session coupled**, whatever it takes away. -/
theorem release (h : c.Coupled) (closing : List Nat) (connections : List Connection) :
    Coupled { c with
      session := c.session.release
      attempts := c.attempts.map fun a => if c.session.pending = some a.call then { a with cancelled := true } else a
      closing
      connections } := by
  have hcall : ∀ a : Attempt,
      (if c.session.pending = some a.call then { a with cancelled := true } else a : Attempt).call = a.call := by
    intro a
    split <;> rfl
  refine of_all_off ⟨rfl, nofun, nofun⟩ (.inl rfl) ?_ ?_ h.off_of_release
  · intro b hb
    obtain ⟨a, ha, rfl⟩ := List.mem_map.1 hb
    rw [hcall]
    exact h.numbered a ha
  · rw [List.map_map, show (·.call) ∘ (fun a : Attempt =>
      if c.session.pending = some a.call then { a with cancelled := true } else a) = (·.call) from funext hcall]
    exact h.distinct

/-- **Every move keeps the session coupled.** -/
theorem move (h : c.Coupled) {s : Step} {c' : Client} {told : List Occurrence} (hm : Move c s c' told) :
    c'.Coupled := by
  cases hm with
  | idle | refuseConnect | refuseSend | disconnectNone => exact h
  | start target hd hs =>
    have hp : c.session.pending = none := h.session.pending_eq_none (by rw [hs]; nofun)
    have hl : c.session.link = none := h.session.link_eq_none (by rw [hs]; rfl)
    constructor
    · exact ⟨by rw [hl]; rfl, fun _ => rfl, fun _ => rfl⟩
    · intro a ha
      rcases List.mem_append.1 ha with ha | ha
      · exact Nat.lt_succ_of_lt (h.numbered a ha)
      · rw [List.mem_singleton.1 ha]
        exact Nat.lt_succ_self _
    · rw [List.map_append, List.nodup_append]
      refine ⟨h.distinct, List.nodup_singleton _, ?_⟩
      intro x hx y hy hxy
      obtain ⟨a, ha, rfl⟩ := List.mem_map.1 hx
      rw [List.map_singleton, List.mem_singleton] at hy
      have := h.numbered a ha
      rw [hxy, hy] at this
      exact Nat.lt_irrefl _ this
    · intro a ha hc
      rcases List.mem_append.1 ha with ha | ha
      · rw [h.awaited a ha hc] at hp
        cases hp
      · rw [List.mem_singleton.1 ha]
    · intro _ call hcall
      cases hcall
      exact ⟨_, List.mem_append_right _ (List.mem_singleton_self _), rfl, rfl⟩
  | answer call answer =>
    refine h.news (fun a => if a.call = call then Attempt.meet answer a else a) (fun a => ?_) (fun a => ?_) c.now
    · split
      · exact Attempt.meet_call
      · rfl
    · split
      · exact Attempt.meet_cancelled
      · rfl
  | wait span => exact h.news _ (fun _ => Attempt.expire_call) (fun _ => Attempt.expire_cancelled) _
  | abandon a ha hc =>
    have ha := List.mem_of_find?_eq_some ha
    refine ⟨h.session, h.numbered_filter _, h.distinct_filter _,
      fun b hb => h.awaited b (List.mem_of_mem_filter hb), fun hd call hp => ?_⟩
    obtain ⟨b, hb, hcall, hcb⟩ := h.running hd call hp
    refine ⟨b, List.mem_filter.2 ⟨hb, ?_⟩, hcall, hcb⟩
    rw [decide_eq_true_eq]
    intro hab
    rw [List.inj_on_of_nodup_map h.distinct hb ha hab, hc] at hcb
    cases hcb
  | fail a e ha hc ho =>
    have ha := List.mem_of_find?_eq_some ha
    -- A handshake that was not called off is the one the session waits for, however late it ends.
    have hs : c.session.state = .connecting := h.session.pending.1 (by rw [h.awaited a ha hc]; rfl)
    have hl : c.session.link = none := h.session.link_eq_none (by rw [hs]; rfl)
    refine of_all_off ⟨?_, nofun, nofun⟩ (.inl rfl) (h.numbered_filter _) (h.distinct_filter _) (h.off_of_ne ha hc)
    change c.session.link.isSome = _
    rw [hl]
    rfl
  | establish a ha hc ho =>
    have ha := List.mem_of_find?_eq_some ha
    exact of_all_off ⟨rfl, nofun, nofun⟩ (.inl rfl) (h.numbered_filter _) (h.distinct_filter _) (h.off_of_ne ha hc)
  | dispatch r link octets hd ho hr hl =>
    exact h.of_same ⟨h.session.link, h.session.pending⟩ rfl rfl (Nat.le_succ _) rfl
  | retract => exact h.of_same ⟨h.session.link, h.session.pending⟩ rfl rfl (Nat.le_refl _) rfl
  | callOff | detach => exact h.release _ _
  | handle id k k' r hk hadv hu =>
    refine h.of_same (h.session.accept (h.session.of_uses hu) r) ?_ rfl (Nat.le_refl _) rfl
    cases r <;> rfl
  | lose id k k' loss hk hadv hu =>
    have hp : c.session.pending = none :=
      h.session.pending_eq_none fun hs => by have := h.session.of_uses hu; rw [hs] at this; cases this
    refine h.of_same ⟨rfl, ?_⟩ rfl rfl (Nat.le_refl _) rfl
    change c.session.pending.isSome = true ↔ _
    rw [hp]
    exact ⟨nofun, nofun⟩
  | drop =>
    have hall : ∀ b ∈ c.attempts.map (fun a => { a with cancelled := true }), ∃ a ∈ c.attempts,
        b.call = a.call ∧ b.cancelled = true := by
      intro b hb
      obtain ⟨a, ha, rfl⟩ := List.mem_map.1 hb
      exact ⟨a, ha, rfl, rfl⟩
    refine of_all_off h.session (.inr rfl) (fun b hb => ?_) ?_ (fun b hb => ?_)
    · obtain ⟨a, ha, hcall, -⟩ := hall b hb
      rw [hcall]
      exact h.numbered a ha
    · change ((c.attempts.map fun a => { a with cancelled := true }).map (·.call)).Nodup
      rw [List.map_map]
      exact h.distinct
    · obtain ⟨a, ha, -, hoff⟩ := hall b hb
      exact hoff
  | write | failWrite | forgo | close | loop | discard | passOver | peer | ignore =>
    exact h.of_same h.session rfl rfl (Nat.le_refl _) rfl

/-- **Every run keeps the session coupled.** -/
theorem run (h : c.Coupled) (steps : List Step) : (c.run steps).1.Coupled := by
  induction steps generalizing c with
  | nil => exact h
  | cons s rest ih => exact ih (h.move (step_move c s))

end Coupled

theorem Move.dropped_eq {s : Step} {c' : Client} {told : List Occurrence} (hm : Move c s c' told) (hs : s ≠ .drop) :
    c'.dropped = c.dropped := by
  cases hm <;> first | rfl | exact absurd rfl hs

theorem dropped_run : ∀ {c : Client} {steps : List Step}, .drop ∉ steps → (c.run steps).1.dropped = c.dropped
  | _, [], _ => rfl
  | c, s :: rest, h => by
    obtain ⟨hs, hrest⟩ := not_or.1 (fun hm => h (List.mem_cons.2 hm))
    exact (dropped_run hrest).trans ((step_move c s).dropped_eq (Ne.symm hs))

/-- **The fields of a session go together in every order of steps.**
- There is a link exactly while the state is connected or authenticated, and a handshake is awaited exactly while it is
  connecting; so never both, and neither while it is disconnected.
- The awaited handshake is in flight, and nothing but giving the session up calls it off without ending the wait.
- The other end has an address exactly while the session is connected, and who is authenticated is connected.
- A request that passes the gate finds a link: it is never refused for the lack of one. -/
theorem session_fields (config : SessionConfig) (steps : List Step) :
    let c := (run { config } steps).1
    let s := c.session
    (s.link.isSome = true ↔ s.state = .connected ∨ s.state = .authenticated) ∧
    (s.pending.isSome = true ↔ s.state = .connecting) ∧
    ¬ (s.link.isSome = true ∧ s.pending.isSome = true) ∧
    (s.state = .disconnected → s.link = none ∧ s.pending = none) ∧
    (.drop ∉ steps → ∀ call, s.pending = some call → ∃ a ∈ c.attempts, a.call = call ∧ a.cancelled = false ∧
      ∀ b ∈ c.attempts, b.call = call → b = a) ∧
    ((s.link.map (·.peer)).isSome = s.state.isConnected) ∧
    (s.state.isAuthenticated = true → s.state.isConnected = true) ∧
    (∀ r : Request, Session.objection s.state r.command = none → s.link.isSome = true ∧
      s.dispatch r ≠ .error .notConnected) := by
  intro c s
  have hc : c.Coupled := (coupled_new config).run steps
  have hs : s.Coupled := hc.session
  have hlink : s.link.isSome = true ↔ s.state = .connected ∨ s.state = .authenticated := by
    rw [hs.link, Session.State.isConnected_iff]
  refine ⟨hlink, hs.pending, ?_, fun h => ⟨?_, ?_⟩, fun hd call hcall => ?_, ?_,
    Session.State.isConnected_of_isAuthenticated,
    fun r hr => ⟨?_, ?_⟩⟩
  · rintro ⟨hl, hp⟩
    rw [hs.link, hs.pending.1 hp] at hl
    cases hl
  · exact hs.link_eq_none (by rw [h]; rfl)
  · exact hs.pending_eq_none (by rw [h]; nofun)
  · obtain ⟨a, ha, hcalla, hoff⟩ := hc.running (dropped_run hd) call hcall
    exact ⟨a, ha, hcalla, hoff, fun b hb hcallb =>
      List.inj_on_of_nodup_map hc.distinct hb ha (hcallb.trans hcalla.symm)⟩
  · rw [Option.isSome_map]
    exact hs.link
  · rw [hs.link]
    exact Session.isConnected_of_objection hr
  · exact hs.dispatch_ne_notConnected hr

end Client
end ChatClient
