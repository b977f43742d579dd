import ChatClient.Proofs.Network.Underway
import ChatClient.Proofs.Session.Endings
/-!
# Release — what comes of a connection that is not in use any more

A connection goes out of use when a disconnect takes it away or when its loop finds its end.  One that was taken away is
shut on our side, by a half-close that may still be to come; one that was lost had been ended by its other end.  So once the
session has no connection and no half-close is left to come, none is open on both sides (`Released.closed`).

Our side of a connection is shut for no other reason than a disconnect, unless the session was given up.
-/
namespace ChatClient

open Network (Fault Socket)

/-- A step of a loop leaves our side as it is, and opens the other end of no connection. -/
theorem Connection.advance_open (k : Connection) (config : SessionConfig) :
    (k.advance config).1.socket.shut = k.socket.shut ∧
      ((k.advance config).1.socket.peer = .opened → k.socket.peer = .opened) := by
  have ht := k.advance_turn config
  generalize k.advance config = next at ht
  rcases next with ⟨k', report⟩
  cases ht with
  | fault => exact ⟨rfl, nofun⟩
  | _ => exact ⟨rfl, id⟩

namespace Client

open Occurrence (taken? lost?)

variable {c : Client} {s : Step} {id : Nat} {k k' : Connection} {told told' : List Occurrence}

theorem afterLoop_peer : (c.afterLoop k).socket.peer = k.socket.peer := by
  unfold afterLoop
  split <;> rfl

theorem afterLoop_shut (h : k.socket.shut = true) : (c.afterLoop k).socket.shut = true := by
  unfold afterLoop
  split
  · rfl
  · exact h

/-! ## One connection -/

/-- An end of a connection that has ended stays so. -/
theorem Effect.opened (he : Effect c id k s k' told) (ho : k'.socket.peer = .opened) : k.socket.peer = .opened := by
  cases he with
  | write w socket hw hid hwrite => exact (Socket.write_open hwrite).2 ho
  | failWrite w socket f hw hid hwrite => exact (Socket.write_open hwrite).2 ho
  | turn =>
    rw [afterLoop_peer] at ho
    exact (k.advance_open c.config).2 ho
  | peer act => exact (k.socket.meet_open act).2 ho
  | bystand | stop | shut => exact ho

theorem Effect.stays_shut (he : Effect c id k s k' told) (h : k.socket.shut = true) : k'.socket.shut = true := by
  cases he with
  | write w socket hw hid hwrite => exact (Socket.write_open hwrite).1.trans h
  | failWrite w socket f hw hid hwrite => exact (Socket.write_open hwrite).1.trans h
  | turn => exact afterLoop_shut ((k.advance_open c.config).1.trans h)
  | peer act => exact (k.socket.meet_open act).1.trans h
  | shut => rfl
  | bystand | stop => exact h

/-- Our side is shut by a half-close, or by the last loop of a session that was given up. -/
theorem Effect.shut_cases (he : Effect c id k s k' told) (h : k'.socket.shut = true) :
    k.socket.shut = true ∨ s = .close id ∨ c.dropped = true := by
  cases he with
  | write w socket hw hid hwrite => exact .inl ((Socket.write_open hwrite).1.symm.trans h)
  | failWrite w socket f hw hid hwrite => exact .inl ((Socket.write_open hwrite).1.symm.trans h)
  | turn =>
    unfold afterLoop at h
    split at h
    · rename_i hd
      rw [Bool.and_eq_true] at hd
      exact .inr (.inr hd.1)
    · exact .inl ((k.advance_open c.config).1.symm.trans h)
  | peer act => exact .inl ((k.socket.meet_open act).1.symm.trans h)
  | shut => exact .inr (.inl rfl)
  | bystand | stop => exact .inl h

/-- A loop that is about to report the end of its connection has found it. -/
def Senses (k : Connection) : Prop := ∀ loss, k.phase = .leaving loss → k.socket.peer ≠ .opened

theorem Effect.senses (he : Effect c id k s k' told) (h : Senses k) : Senses k' := by
  intro loss hp ho
  have hopened := he.opened ho
  cases he with
  | turn =>
    rw [afterLoop_phase] at hp
    have ht := k.advance_turn c.config
    generalize k.advance c.config = next at ht hp
    rcases next with ⟨j, report⟩
    cases ht with
    | wait | output | rest => exact h loss hp hopened
    | sense _ _ _ hclosed => exact hclosed hopened
    | fault _ _ hreset =>
      rw [hreset] at hopened
      cases hopened
    | read | halt | breakDown | pause | leave => cases hp
  | bystand | stop | shut | write | failWrite | peer => exact h loss hp hopened

/-! ## The half-closes that are still to come -/

theorem close_idle (h : id ∉ c.closing) : c.step (.close id) = (c, []) := if_neg h

theorem closing_of_step (h : id ∈ (c.step s).1.closing) : id ∈ c.closing ∨ id ∈ (c.step s).2.filterMap taken? := by
  have hm := step_move c s
  generalize c.step s = next at hm h
  rcases next with ⟨c', told'⟩
  cases hm with
  | detach link hd hs hl => exact (List.mem_append.1 h).imp_right fun hid => by simpa [taken?] using hid
  | close i => exact .inl (List.mem_filter.1 h).1
  | _ => exact .inl h

theorem closing_of_taken (h : id ∈ (c.step s).2.filterMap taken?) : id ∈ (c.step s).1.closing := by
  have hm := step_move c s
  generalize c.step s = next at hm h
  rcases next with ⟨c', told'⟩
  cases hm with
  | detach link hd hs hl => exact List.mem_append_right _ (by simpa [taken?] using h)
  | handle i k k' r => cases hr : r.command? <;> simp [taken?, hr] at h
  | _ => simp [taken?] at h

theorem closing_step (hs : s ≠ .close id) (h : id ∈ c.closing) : id ∈ (c.step s).1.closing := by
  have hm := step_move c s
  generalize c.step s = next at hm
  rcases next with ⟨c', told⟩
  cases hm with
  | detach => exact List.mem_append_left _ h
  | close i =>
    refine List.mem_filter.2 ⟨h, ?_⟩
    simpa using fun heq : id = i => hs (by rw [heq])
  | _ => exact h

/-- A half-close that has come has shut our side. -/
theorem close_shut (hk : c.connections[id]? = some k) (h : id ∈ c.closing) :
    ∃ k', (c.step (.close id)).1.connections[id]? = some k' ∧ k'.socket.shut = true := by
  rw [step, close, if_pos h]
  exact ⟨_, (modify_cases hk).trans (congrArg some (if_pos rfl)), rfl⟩

/-! ## Every connection -/

theorem Tally.ended_of_taken (h : id ∈ told.filterMap taken?) : id ∈ told.filterMap Occurrence.ended? :=
  (Occurrence.ended_perm told).mem_iff.2 (List.mem_append_right _ h)

theorem Tally.taken_lt (ht : Tally c told) (h : id ∈ told.filterMap taken?) : id < c.connections.length := by
  rw [← List.mem_range, ← ht.ended]
  exact List.mem_append_left _ (ended_of_taken h)

/-- What has come of the connections that were taken away, and of those that were lost. -/
structure Released (c : Client) (told : List Occurrence) : Prop where
  closing : ∀ id ∈ c.closing, id ∈ told.filterMap taken?
  taken : ∀ id ∈ told.filterMap taken?, id ∈ c.closing ∨ ∃ k, c.connections[id]? = some k ∧ k.socket.shut = true
  lost : ∀ id ∈ told.filterMap lost?, ∃ k, c.connections[id]? = some k ∧ k.socket.peer ≠ .opened
  shut : ∀ (id : Nat) k, c.connections[id]? = some k → k.socket.shut = true →
    c.dropped = true ∨ id ∈ told.filterMap taken?
  senses : ∀ (id : Nat) k, c.connections[id]? = some k → Senses k

namespace Released

/-- A connection after a step is one from before, or a new one. -/
theorem of_step {P : Connection → Prop} (hk' : (c.step s).1.connections[id]? = some k')
    (hold : ∀ k, c.connections[id]? = some k → Effect c id k s k' (c.step s).2 → P k')
    (hnew : ∀ peer, P { peer := peer }) : P k' := by
  cases hk : c.connections[id]? with
  | some k =>
    obtain ⟨j, hj, he⟩ := step_effect hk s
    rw [hk'] at hj
    cases hj
    exact hold k hk he
  | none =>
    rcases (step_fresh hk s).2 with hnone | ⟨peer, hpeer⟩
    · rw [hk'] at hnone
      cases hnone
    · rw [hk'] at hpeer
      cases hpeer
      exact hnew peer

theorem step (h : Released c told) (ht : Tally c told) (hc : c.Coupled) (s : Step) :
    Released (c.step s).1 (told ++ (c.step s).2) := by
  have hmem : ∀ i : Nat, i ∈ told.filterMap taken? ∨ i ∈ (c.step s).2.filterMap taken? →
      i ∈ (told ++ (c.step s).2).filterMap taken? := fun i hi => by
    rw [List.filterMap_append]
    exact List.mem_append.2 hi
  refine ⟨fun i hi => hmem i ((closing_of_step hi).imp_left (h.closing i)), fun i hi => ?_, fun i hi => ?_,
    fun i j hj hshut => ?_, fun i j hj => of_step hj (fun k hk he => he.senses (h.senses i k hk)) fun peer => nofun⟩
  · rw [List.filterMap_append] at hi
    rcases List.mem_append.1 hi with htaken | htaken
    · rcases h.taken i htaken with hclosing | ⟨k, hk, hshut⟩
      · by_cases hs : s = .close i
        · subst hs
          exact .inr (close_shut (List.getElem?_eq_getElem (ht.taken_lt htaken)) hclosing)
        · exact .inl (closing_step hs hclosing)
      · obtain ⟨k', hk', he⟩ := step_effect hk s
        exact .inr ⟨k', hk', he.stays_shut hshut⟩
    · exact .inl (closing_of_taken htaken)
  · rw [List.filterMap_append] at hi
    have hended : ∃ k, c.connections[i]? = some k ∧ k.socket.peer ≠ .opened := by
      rcases List.mem_append.1 hi with hi | hi
      · exact h.lost i hi
      · obtain ⟨reason, hm⟩ := lost_iff.1 hi
        obtain ⟨-, -, -, k, loss, hk, leaving⟩ := lost_cases hc hm
        exact ⟨k, hk, h.senses i k hk loss leaving⟩
    obtain ⟨k, hk, hpeer⟩ := hended
    obtain ⟨k', hk', he⟩ := step_effect hk s
    exact ⟨k', hk', fun ho => hpeer (he.opened ho)⟩
  · refine of_step (P := fun j => j.socket.shut = true → _) hj (fun k hk he hshut => ?_) (fun peer => nofun) hshut
    rcases he.shut_cases hshut with hshut | rfl | hd
    · exact (h.shut i k hk hshut).imp (fun hd => dropped_step hd s) fun hi => hmem i (.inl hi)
    · by_cases hclosing : i ∈ c.closing
      · exact .inr (hmem i (.inl (h.closing i hclosing)))
      · rw [close_idle hclosing] at hj
        rw [hk] at hj
        cases hj
        exact (h.shut i j hk hshut).imp (fun hd => dropped_step hd _) fun hi => hmem i (.inl hi)
    · exact .inl (dropped_step hd s)

/-- **A session without a connection leaves none open**, once no half-close is left to come. -/
theorem closed (h : Released c told) (ht : Tally c told) (free : c.session.link = none) (none_closing : c.closing = []) :
    ∀ k ∈ c.connections, k.socket.shut = true ∨ k.socket.peer ≠ .opened := by
  intro k hk
  obtain ⟨id, hid⟩ := List.mem_iff_getElem?.1 hk
  have hlt := (List.getElem?_eq_some_iff.1 hid).1
  have hended := ht.ended
  rw [free, Option.map_none, Option.toList_none, List.append_nil] at hended
  rw [← List.mem_range, ← hended, (Occurrence.ended_perm _).mem_iff, List.mem_append] at hlt
  rcases hlt with hlost | htaken
  · obtain ⟨j, hj, hpeer⟩ := h.lost id hlost
    rw [hid] at hj
    cases hj
    exact .inr hpeer
  · rcases h.taken id htaken with hclosing | ⟨j, hj, hshut⟩
    · rw [none_closing] at hclosing
      cases hclosing
    · rw [hid] at hj
      cases hj
      exact .inl hshut

end Released

theorem released_run (config : SessionConfig) (steps : List Step) :
    Released (run { config } steps).1 (run { config } steps).2 := by
  induction steps using List.reverseRecOn with
  | nil => exact ⟨by simp [run], by simp [run], by simp [run], by simp [run], by simp [run]⟩
  | append_singleton steps s ih =>
    rw [run_concat]
    exact ih.step (tally_run config steps) ((coupled_new config).run steps) s

end Client
end ChatClient
