import ChatClient.Proofs.Client.Handshake
import ChatClient.Proofs.Client.Target
import ChatClient.Proofs.Session.Renewal
/-!
# Holding — what one caller has in hand

A caller that awaits the end of every call has at most one thing in hand: a handshake, a request, or a half-close that is
still to come (`Holds`).  Each step of the caller takes something in hand or puts it away, as one lemma for each of them
says; the steps that no caller makes leave it as it is (`Holds.background`).
-/
namespace ChatClient

open Network (Endpoint Fault)

/-- A step that no caller makes. -/
def Step.background : Step → Bool
  | .answer .. | .wait _ | .receive _ | .peer .. => true
  | _ => false

theorem Session.uses_of_dispatch {s s' : Session} {r : Request} {id : Nat} {octets : Bytes}
    (h : s.dispatch r = .ok (s', id, octets)) : s.uses id = true := by
  unfold Session.dispatch at h
  split at h
  · cases h
  split at h
  · cases h
  split at h
  · cases h
  · rename_i link hl
    cases h
    exact Session.uses_iff.2 ⟨link, hl, rfl⟩

namespace Attempt

theorem isSome_expire {now : Nat} {a : Attempt} (h : a.deadline ≤ now) : (a.expire now).outcome.isSome = true := by
  unfold expire
  cases ho : a.outcome with
  | none => simp [h]
  | some result => simp [ho]

end Attempt

namespace Client

variable {c : Client} {s : Step} {told : List Occurrence} {call id : Nat} {r : Request} {d : Bool}

/-- The calls whose handshake runs, those whose request is in flight, with whether its write has failed, and the half-closes
that are still to come; and whether the session was given up. -/
structure Holds (c : Client) (dialling : List Nat) (flying : List (Nat × Bool)) (closing : List Nat) (dropped : Bool) :
    Prop where
  dialling : c.attempts.map (·.call) = dialling
  flying : c.writes.map (fun w => (w.call, w.fault.isSome)) = flying
  known : ∀ w ∈ c.writes, w.id < c.connections.length
  closing : c.closing = closing
  dropped : c.dropped = dropped

namespace Holds

variable {dialling : List Nat} {flying : List (Nat × Bool)} {closing : List Nat}

theorem of_same (h : Holds c dialling flying closing d) {c' : Client}
    (length : c.connections.length ≤ c'.connections.length)
    (attempts : c'.attempts.map (·.call) = c.attempts.map (·.call)) (writes : c'.writes = c.writes)
    (half : c'.closing = c.closing) (dropped : c'.dropped = c.dropped) : Holds c' dialling flying closing d where
  dialling := attempts.trans h.dialling
  flying := by rw [writes, h.flying]
  known w hw := Nat.lt_of_lt_of_le (h.known w (writes ▸ hw)) length
  closing := half.trans h.closing
  dropped := dropped.trans h.dropped

/-- **What no caller does leaves everything in hand.** -/
theorem background (h : Holds c dialling flying closing d) (hs : s.background = true) :
    Holds (c.step s).1 dialling flying closing d := by
  have hle := connections_le c s
  have hm := step_move c s
  generalize c.step s = next at hm hle
  rcases next with ⟨c', told'⟩
  cases hm with
  | idle | loop | discard | handle | passOver | lose | peer => refine h.of_same hle ?_ ?_ ?_ ?_ <;> rfl
  | answer call answer =>
    refine h.of_same hle ?_ rfl rfl rfl
    rw [List.map_map]
    refine List.map_congr_left fun a _ => ?_
    simp only [Function.comp]
    split
    · exact Attempt.meet_call
    · rfl
  | wait span =>
    refine h.of_same hle ?_ rfl rfl rfl
    rw [List.map_map]
    exact List.map_congr_left fun a _ => Attempt.expire_call
  | _ => cases hs

theorem receives (ids : List Nat) {c : Client} (h : Holds c dialling flying closing d) :
    Holds (c.run (ids.map .receive)).1 dialling flying closing d := by
  induction ids generalizing c with
  | nil => exact h
  | cons id ids ih =>
    rw [List.map_cons, run_cons]
    exact ih (h.background rfl)

/-- The request in flight. -/
theorem write (h : Holds c dialling [(call, d)] closing false) :
    ∃ w, c.writes = [w] ∧ w.call = call ∧ w.fault.isSome = d ∧ ∃ k, c.connections[w.id]? = some k := by
  obtain ⟨w, hw, heq⟩ := List.map_eq_singleton_iff.1 h.flying
  obtain ⟨hcall, hfault⟩ := Prod.mk.inj heq
  exact ⟨w, hw, hcall, hfault, _, List.getElem?_eq_getElem (h.known w (hw ▸ List.mem_singleton_self w))⟩

theorem nothing (attempts : c.attempts = []) (writes : c.writes = []) (closing : c.closing = []) (dropped : c.dropped = d) :
    Holds c [] [] [] d where
  dialling := by rw [attempts]; rfl
  flying := by rw [writes]; rfl
  known := by rw [writes]; exact nofun
  closing := closing
  dropped := dropped

end Holds

theorem Holds.attempts_nil {flying : List (Nat × Bool)} {closing : List Nat} (h : Holds c [] flying closing d) :
    c.attempts = [] := List.map_eq_nil_iff.1 h.dialling

theorem Holds.writes_nil {dialling closing : List Nat} (h : Holds c dialling [] closing d) : c.writes = [] :=
  List.map_eq_nil_iff.1 h.flying

/-- What no caller does brings no connection into use. -/
theorem free_background (h : c.session.link = none) (hs : s.background = true) : (c.step s).1.session.link = none := by
  have hm := step_move c s
  generalize c.step s = next at hm
  rcases next with ⟨c', told⟩
  cases hm with
  | idle | answer | wait | loop | discard | passOver | peer => exact h
  | handle id k k' r hk hadv hu => exact (Session.accept_link _ _).trans h
  | lose => rfl
  | _ => cases hs

theorem length_background (hs : s.background = true) : (c.step s).1.connections.length = c.connections.length := by
  have hm := step_move c s
  generalize c.step s = next at hm
  rcases next with ⟨c', told⟩
  cases hm with
  | idle | answer | wait | loop | discard | passOver | peer | handle | lose => simp [setConnection]
  | _ => cases hs

/-- The loop of this connection has been told to stop. -/
structure Halting (c : Client) (id : Nat) : Prop where
  known : id < c.connections.length
  stopped : ∀ k, c.connections[id]? = some k → k.stopped = true

theorem Halting.step (h : Halting c id) (s : Step) : Halting (c.step s).1 id where
  known := Nat.lt_of_lt_of_le h.known (connections_le c s)
  stopped k' hk' := by
    obtain ⟨j, hj, he⟩ := step_effect (List.getElem?_eq_getElem h.known) s
    rw [hk'] at hj
    cases hj
    exact he.stays_stopped (h.stopped _ (List.getElem?_eq_getElem h.known))

theorem Halting.run : ∀ (steps : List Step) {c : Client}, Halting c id → Halting (c.run steps).1 id
  | [], _, h => h
  | s :: rest, _, h => by
    rw [run_cons]
    exact Halting.run rest (h.step s)

theorem Ended.run : ∀ (steps : List Step) {c : Client}, Ended id c → Ended id (c.run steps).1
  | [], _, h => h
  | s :: rest, _, h => by
    rw [run_cons]
    exact Ended.run rest (h.step s)

/-! ## Loops that come to their end -/

theorem all_ended_iff : (∀ k ∈ c.connections, k.phase = .ended) ↔ ∀ id < c.connections.length, Ended id c := by
  constructor
  · intro h id hid
    exact Option.map_eq_some_iff.2 ⟨_, List.getElem?_eq_getElem hid, h _ (List.getElem_mem hid)⟩
  · intro h k hk
    obtain ⟨id, hid⟩ := List.mem_iff_getElem?.1 hk
    obtain ⟨j, hj, hphase⟩ := Option.map_eq_some_iff.1 (h id (List.getElem?_eq_some_iff.1 hid).1)
    rw [hid] at hj
    cases hj
    exact hphase

theorem length_receives (ids : List Nat) (c : Client) :
    (c.run (ids.map .receive)).1.connections.length = c.connections.length := by
  induction ids generalizing c with
  | nil => rfl
  | cons id ids ih =>
    rw [List.map_cons, run_cons]
    exact (ih _).trans (length_background rfl)

theorem receiveAll_receives (c : Client) (id : Nat) : ∃ ids : List Nat, c.receiveAll id = c.run (ids.map .receive) := by
  obtain ⟨n, hn⟩ := receiveAll_eq_run c id
  exact ⟨List.replicate n id, by rw [hn, List.map_replicate]⟩

theorem receiveEach_receives : ∀ (l : List Nat) (c : Client),
    ∃ ids : List Nat, c.receiveEach l = c.run (ids.map .receive)
  | [], c => ⟨[], rfl⟩
  | id :: l, c => by
    obtain ⟨now, hnow⟩ := receiveAll_receives c id
    obtain ⟨later, hlater⟩ := receiveEach_receives l (c.receiveAll id).1
    refine ⟨now ++ later, ?_⟩
    rw [List.map_append, run_append, ← hnow, ← hlater]
    rfl

theorem Halting.ended (h : Halting c id) : Ended id (c.receiveAll id).1 := by
  have hk := List.getElem?_eq_getElem h.known
  exact receiveAll_ended hk (h.stopped _ hk)

theorem receiveEach_ended : ∀ (l : List Nat) {c : Client}, (∀ i ∈ l, Halting c i) → Ended id c ∨ id ∈ l →
    Ended id (c.receiveEach l).1
  | [], c, _, h => h.resolve_right List.not_mem_nil
  | i :: l, c, hhalting, h => by
    obtain ⟨ids, hids⟩ := receiveAll_receives c i
    have hrest : ∀ j ∈ l, Halting (c.receiveAll i).1 j := by
      rw [hids]
      exact fun j hj => Halting.run _ (hhalting j (List.mem_cons_of_mem i hj))
    suffices hfirst : Ended id (c.receiveAll i).1 ∨ id ∈ l from receiveEach_ended l hrest hfirst
    rcases h with hended | hmem
    · rw [hids]
      exact .inl (hended.run _)
    · rcases List.mem_cons.1 hmem with rfl | hmem
      · exact .inl (hhalting id List.mem_cons_self).ended
      · exact .inr hmem

/-- **Loops that have been told to stop end**, if they are let go on. -/
theorem loops_end (h : ∀ id < c.connections.length, Halting c id) :
    ∀ k ∈ (c.receiveEach (List.range c.connections.length)).1.connections, k.phase = .ended := by
  refine all_ended_iff.2 fun id hid => receiveEach_ended _ (fun i hi => h i (List.mem_range.1 hi)) (.inr ?_)
  obtain ⟨ids, hids⟩ := receiveEach_receives (List.range c.connections.length) c
  rw [hids, length_receives] at hid
  exact List.mem_range.2 hid

/-! ## The steps of a caller -/

theorem holds_connect (h : Holds c [] [] [] false) (target : Endpoint) :
    (∃ call, (c.step (.connect target)).2 = [.started call] ∧ Holds (c.step (.connect target)).1 [call] [] [] false) ∨
      c.step (.connect target) = (c, [.refused .alreadyConnected]) := by
  by_cases hs : c.session.state = .disconnected
  · rw [connect_started h.dropped hs]
    refine .inl ⟨c.calls, rfl, ⟨?_, ?_, ?_, h.closing, h.dropped⟩⟩
    · simp [h.attempts_nil]
    · simp [h.writes_nil]
    · simp [h.writes_nil]
  · exact .inr (connect_refused h.dropped hs target)

theorem holds_finish (h : Holds c [call] [] [] false) :
    c.step (.finish call) = (c, []) ∨
      (c.step (.finish call)).2 ≠ [] ∧ Holds (c.step (.finish call)).1 [] [] [] false := by
  obtain ⟨a, ha, rfl⟩ := List.map_eq_singleton_iff.1 h.dialling
  have hrest : c.attempts.filter (·.call ≠ a.call) = [] := by simp [ha]
  have hfind : c.attempts.find? (·.call = a.call) = some a := by simp [ha]
  rw [step, finishConnect, hfind]
  dsimp only
  split
  · exact .inr ⟨List.cons_ne_nil _ _, .nothing hrest h.writes_nil h.closing h.dropped⟩
  · split
    · exact .inl rfl
    · exact .inr ⟨List.cons_ne_nil _ _, .nothing hrest h.writes_nil h.closing h.dropped⟩
    · exact .inr ⟨List.cons_ne_nil _ _, .nothing hrest h.writes_nil h.closing h.dropped⟩

theorem holds_send (h : Holds c [] [] [] false) (ht : Tally c told) (r : Request) :
    (∃ id, (c.step (.send r)).2 = [.noted id (.sent r.command) none, .started c.calls] ∧
      Holds (c.step (.send r)).1 [] [(c.calls, false)] [] false) ∨ ∃ e, c.step (.send r) = (c, [.refused e]) := by
  have hd : ¬ c.dropped = true := by simp [h.dropped]
  rw [step, if_neg hd, beginSend]
  cases hdispatch : c.session.dispatch r with
  | error e => exact .inr ⟨e, rfl⟩
  | ok passed =>
    obtain ⟨session, id, octets⟩ := passed
    obtain ⟨link, hl, rfl⟩ := Session.uses_iff.1 (Session.uses_of_dispatch hdispatch)
    refine .inl ⟨link.id, rfl, h.dialling, ?_, ?_, h.closing, h.dropped⟩
    · simp [h.writes_nil]
    · simpa [h.writes_nil] using ht.used_lt hl

theorem holds_write (h : Holds c [] [(call, false)] [] false) :
    (c.step (.write call)).2 = [] ∧ Holds (c.step (.write call)).1 [] [(call, true)] [] false ∨
      ∃ id r, (c.step (.write call)).2 = [.sent call id r] ∧ Holds (c.step (.write call)).1 [] [] [] false := by
  obtain ⟨w, hw, rfl, hf, k, hk⟩ := h.write
  have hf : w.fault = none := by simpa using hf
  rcases hwrite : k.socket.write w.octets with ⟨socket, _ | f⟩
  · have hstep : c.step (.write w.call) =
        ({ c.setConnection w.id { k with socket } with writes := [] }, [.sent w.call w.id w.request]) := by
      simp [step, Client.write, hw, hf, hk, hwrite, setConnection]
    rw [hstep]
    exact .inr ⟨w.id, w.request, rfl, .nothing h.attempts_nil rfl h.closing h.dropped⟩
  · have hstep : c.step (.write w.call) =
        ({ c.setConnection w.id { k with socket } with writes := [{ w with fault := some f }] }, []) := by
      simp [step, Client.write, hw, hf, hk, hwrite, setConnection]
    rw [hstep]
    refine .inl ⟨rfl, h.dialling, rfl, ?_, h.closing, h.dropped⟩
    simpa [setConnection] using (List.getElem?_eq_some_iff.1 hk).1

theorem holds_retract (h : Holds c [] [(call, true)] [] false) :
    (∃ id r f notes, (c.step (.retract call)).2 = notes ++ [.unsent call id r f] ∧ (∀ o ∈ notes, o.result? = none)) ∧
      Holds (c.step (.retract call)).1 [] [] [] false := by
  obtain ⟨w, hw, rfl, hf, k, hk⟩ := h.write
  obtain ⟨f, hf⟩ := Option.isSome_iff_exists.1 hf
  have hfind : c.writes.find? (·.call = w.call) = some w := by simp [hw]
  have hrest : c.writes.filter (·.call ≠ w.call) = [] := by simp [hw]
  rw [step, retract, hfind]
  dsimp only
  rw [hf]
  dsimp only
  split
  · exact ⟨⟨_, _, f, [_], rfl, by simp [Occurrence.result?]⟩, .nothing h.attempts_nil hrest h.closing h.dropped⟩
  · exact ⟨⟨_, _, f, [], rfl, by simp⟩, .nothing h.attempts_nil hrest h.closing h.dropped⟩

/-- A handshake that came to something ends its call. -/
theorem finish_of_outcome {a : Attempt} (ha : c.attempts = [a]) (ho : a.outcome.isSome = true) :
    (c.step (.finish a.call)).2 ≠ [] := by
  have hfind : c.attempts.find? (·.call = a.call) = some a := by simp [ha]
  rw [step, finishConnect, hfind]
  dsimp only
  split
  · exact List.cons_ne_nil _ _
  · split
    · rename_i hnone
      rw [hnone] at ho
      cases ho
    · exact List.cons_ne_nil _ _
    · exact List.cons_ne_nil _ _

theorem finish_after_wait {a : Attempt} (ha : c.attempts = [a]) (span : Nat) (h : a.deadline ≤ c.now + span) :
    ((c.step (.wait span)).1.step (.finish a.call)).2 ≠ [] := by
  have hattempts : (c.step (.wait span)).1.attempts = [a.expire (c.now + span)] := by rw [step, ha]; rfl
  have hcall : (a.expire (c.now + span)).call = a.call := Attempt.expire_call
  have hends := finish_of_outcome hattempts (Attempt.isSome_expire h)
  rwa [hcall] at hends

/-- **A handshake in hand ends**, at the latest when its time is up. -/
theorem finish_in_time (h : c.Holds [call] [] [] false) :
    ∃ span, ((c.step (.wait span)).1.step (.finish call)).2 ≠ [] := by
  obtain ⟨a, ha, rfl⟩ := List.map_eq_singleton_iff.1 h.dialling
  exact ⟨a.deadline, finish_after_wait ha _ (Nat.le_add_left _ _)⟩

/-- A disconnect takes the connection away, or there was none. -/
theorem holds_disconnect (h : Holds c [] [] [] false) (hc : c.Coupled) (ht : Tally c told) :
    (c.step .disconnect).1.session.link = none ∧
      ((∃ id, (c.step .disconnect).2 = [.disconnected (some id)] ∧ Holds (c.step .disconnect).1 [] [] [id] false ∧
        Halting (c.step .disconnect).1 id) ∨
      (c.step .disconnect).2 = [.disconnected none] ∧ Holds (c.step .disconnect).1 [] [] [] false) := by
  have hd : ¬ c.dropped = true := by simp [h.dropped]
  rw [step, if_neg hd, disconnect]
  split
  · rename_i hs
    exact ⟨hc.session.link_eq_none (by rw [hs]; rfl), .inr ⟨rfl, h⟩⟩
  · have hattempts : (c.attempts.map fun a =>
        if c.session.pending = some a.call then { a with cancelled := true } else a) = [] := by simp [h.attempts_nil]
    dsimp only
    rw [hattempts]
    split
    · exact ⟨rfl, .inr ⟨rfl, .nothing rfl h.writes_nil h.closing h.dropped⟩⟩
    · rename_i link hl
      refine ⟨rfl, .inl ⟨link.id, rfl, ⟨rfl, ?_, ?_, ?_, h.dropped⟩, ?_, fun k hk => ?_⟩⟩
      · simp [h.writes_nil]
      · simp [h.writes_nil]
      · simp [h.closing]
      · simpa using ht.used_lt hl
      · dsimp only at hk
        rw [List.getElem?_modify_eq] at hk
        obtain ⟨j, -, rfl⟩ := Option.map_eq_some_iff.1 hk
        rfl

theorem holds_close (h : Holds c [] [] [id] d) : Holds (c.step (.close id)).1 [] [] [] d := by
  rw [step, close, if_pos (by simp [h.closing])]
  exact .nothing h.attempts_nil h.writes_nil (by simp [h.closing]) h.dropped

theorem close_link (c : Client) (id : Nat) : (c.step (.close id)).1.session.link = c.session.link := by
  rw [step, close]
  split <;> rfl

theorem holds_drop (h : Holds c [] [] [] d) : Holds (c.step .drop).1 [] [] [] true ∧
    ∀ id < (c.step .drop).1.connections.length, Halting (c.step .drop).1 id := by
  refine ⟨.nothing ?_ h.writes_nil h.closing rfl, fun id hid => ⟨hid, fun k hk => ?_⟩⟩
  · simp [step, drop, h.attempts_nil]
  · obtain ⟨j, hj, rfl⟩ := List.mem_map.1 (List.mem_of_getElem? hk)
    rfl

end Client
end ChatClient
