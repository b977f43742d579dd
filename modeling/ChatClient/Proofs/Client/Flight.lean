import ChatClient.Proofs.Client.History
/-!
# Flight — what a step does to the requests in flight

A request that has passed the gate is in flight until its call ends: it was sent, or its write failed and it was taken
back.  `Flight` lists what a step does to the requests in flight, and `step_flight` says that there is nothing else.

Calls are numbered in the order in which they pass the gate, and what is told of a call's end is told once (`Ledger`).
-/
namespace ChatClient

open Network (Fault)

/-- The call of a request that ends here. -/
def Occurrence.settled? : Occurrence → Option Nat
  | sent call _ _ | unsent call _ _ _ => some call
  | _ => none

namespace Client

variable {c c' : Client} {s : Step} {told : List Occurrence}

inductive Flight (c : Client) (s : Step) (c' : Client) (told : List Occurrence) : Prop
  | keep (writes : c'.writes = c.writes) (calls : c.calls ≤ c'.calls) (quiet : ∀ o ∈ told, o.settled? = none)
      (refused : ∀ r, s = .send r → .started c.calls ∉ told)
  | pass (r : Request) (link : Link) (octets : Bytes) (step : s = .send r)
      (gate : Session.objection c.session.state r.command = none) (encoded : r.encode = .ok octets)
      (used : c.session.link = some link)
      (writes : c'.writes = c.writes ++ [{ call := c.calls, id := link.id, request := r, octets }])
      (calls : c'.calls = c.calls + 1) (tells : told = [.noted link.id (.sent r.command) none, .started c.calls])
  | fault (w : Write) (f : Fault) (step : s = .write w.call)
      (writes : c'.writes = c.writes.map fun v => if v.call = w.call then { v with fault := some f } else v)
      (calls : c'.calls = c.calls) (tells : told = [])
  | depart (w : Write) (step : s = .write w.call) (flying : w ∈ c.writes)
      (writes : c'.writes = c.writes.filter (·.call ≠ w.call)) (calls : c'.calls = c.calls)
      (tells : told = [.sent w.call w.id w.request])
  | withdraw (w : Write) (f : Fault) (notes : List Occurrence) (step : s = .retract w.call) (flying : w ∈ c.writes)
      (writes : c'.writes = c.writes.filter (·.call ≠ w.call)) (calls : c'.calls = c.calls)
      (quiet : ∀ o ∈ notes, o.settled? = none) (tells : told = notes ++ [.unsent w.call w.id w.request f])
      (failed : w.fault = some f)

/-- **A step does one of these things to the requests in flight.** -/
theorem step_flight (c : Client) (s : Step) : Flight c s (c.step s).1 (c.step s).2 := by
  have hm := step_move c s
  generalize c.step s = next at hm
  rcases next with ⟨c', told⟩
  cases hm with
  | refuseSend r e hd he => exact .keep rfl (Nat.le_refl _) (by simp [Occurrence.settled?]) (by simp)
  | start => exact .keep rfl (Nat.le_succ _) (by simp [Occurrence.settled?]) nofun
  | dispatch r link octets hd ho hr hl => exact .pass r link octets rfl ho hr hl rfl rfl rfl
  | write w k socket hw hf hk hwrite => exact .depart w rfl (List.mem_of_find?_eq_some hw) rfl rfl rfl
  | failWrite w k socket f hw hf hk hwrite => exact .fault w f rfl rfl rfl rfl
  | retract w f hw hf hu =>
    exact .withdraw w f [_] rfl (List.mem_of_find?_eq_some hw) rfl rfl (by simp [Occurrence.settled?]) rfl hf
  | forgo w f hw hf hu => exact .withdraw w f [] rfl (List.mem_of_find?_eq_some hw) rfl rfl (by simp) rfl hf
  | handle id k k' r hk hadv hu =>
    refine .keep rfl (Nat.le_refl _) ?_ nofun
    cases r.command? <;> simp [Occurrence.settled?]
  | idle => exact .keep rfl (Nat.le_refl _) (by simp) (by simp)
  | _ => exact .keep rfl (Nat.le_refl _) (by simp [Occurrence.settled?]) nofun

/-- What holds of the requests in flight, whether or not their write has failed, and of one that passes the gate, holds of
the requests in flight after the step. -/
theorem Flight.forall_writes {P : Write → Prop} (h : Flight c s c' told) (hw : ∀ w ∈ c.writes, P w)
    (hfault : ∀ w f, P w → P { w with fault := some f })
    (hpass : ∀ r link octets, Session.objection c.session.state r.command = none → r.encode = .ok octets →
      c.session.link = some link → c'.calls = c.calls + 1 → P { call := c.calls, id := link.id, request := r, octets }) :
    ∀ w ∈ c'.writes, P w := by
  cases h with
  | keep writes =>
    rw [writes]
    exact hw
  | pass r link octets step gate encoded used writes calls =>
    rw [writes]
    exact List.forall_mem_append.2 ⟨hw, List.forall_mem_singleton.2 (hpass r link octets gate encoded used calls)⟩
  | fault w f step writes =>
    rw [writes]
    intro v hv
    obtain ⟨u, hu, rfl⟩ := List.mem_map.1 hv
    split
    · exact hfault u f (hw u hu)
    · exact hw u hu
  | depart w step flying writes | withdraw w f notes step flying writes =>
    rw [writes]
    exact fun v hv => hw v (List.mem_filter.1 hv).1

theorem Flight.calls_le (h : Flight c s c' told) : c.calls ≤ c'.calls := by
  cases h with
  | keep writes calls => exact calls
  | pass r link octets step gate encoded used writes calls =>
    rw [calls]
    exact Nat.le_succ _
  | fault w f step writes calls | depart w step flying writes calls | withdraw w f notes step flying writes calls =>
    exact Nat.le_of_eq calls.symm

/-- The call that ends with a step was in flight before, and is not any more. -/
theorem Flight.settled (h : Flight c s c' told) {o : Occurrence} (ho : o ∈ told) {call : Nat}
    (hcall : o.settled? = some call) :
    (∃ w ∈ c.writes, w.call = call) ∧ (∀ w ∈ c'.writes, w.call ≠ call) ∧
      ∀ p ∈ told, p.settled? = some call → p = o := by
  have hout : ∀ w ∈ c.writes, c'.writes = c.writes.filter (·.call ≠ w.call) →
      ∀ v ∈ c'.writes, v.call ≠ w.call := by
    intro w _ writes v hv
    rw [writes, List.mem_filter, decide_eq_true_eq] at hv
    exact hv.2
  cases h with
  | keep writes calls quiet => rw [quiet o ho] at hcall; cases hcall
  | pass r link octets step gate encoded used writes calls tells =>
    rw [tells] at ho
    simp only [List.mem_cons, List.not_mem_nil, or_false] at ho
    rcases ho with rfl | rfl <;> cases hcall
  | fault w f step writes calls tells =>
    rw [tells] at ho
    cases ho
  | depart w step flying writes calls tells =>
    rw [tells, List.mem_singleton] at ho
    subst ho
    cases hcall
    refine ⟨⟨w, flying, rfl⟩, hout w flying writes, fun p hp _ => ?_⟩
    rwa [tells, List.mem_singleton] at hp
  | withdraw w f notes step flying writes calls quiet tells =>
    have honly : ∀ p ∈ told, ∀ n, p.settled? = some n → p = .unsent w.call w.id w.request f := by
      intro p hp n hn
      rw [tells] at hp
      rcases List.mem_append.1 hp with hp | hp
      · rw [quiet p hp] at hn
        cases hn
      · exact List.mem_singleton.1 hp
    have heq := honly o ho call hcall
    subst heq
    cases hcall
    exact ⟨⟨w, flying, rfl⟩, hout w flying writes, fun p hp hn => honly p hp _ hn⟩

/-! ## Every call ends once -/

/-- The requests in flight are written as their octets, under numbers that are given out once; a call that has ended is not
in flight, and has ended in one way. -/
structure Ledger (c : Client) (told : List Occurrence) : Prop where
  encoded : ∀ w ∈ c.writes, w.request.encode = .ok w.octets
  numbered : ∀ w ∈ c.writes, w.call < c.calls
  reported : ∀ o ∈ told, ∀ call, o.settled? = some call → call < c.calls
  pending : ∀ o ∈ told, ∀ w ∈ c.writes, o.settled? ≠ some w.call
  once : ∀ o ∈ told, ∀ p ∈ told, ∀ call, o.settled? = some call → p.settled? = some call → o = p

theorem Ledger.step (h : Ledger c told) (s : Step) : Ledger (c.step s).1 (told ++ (c.step s).2) := by
  have hf := step_flight c s
  have hcalls := hf.calls_le
  -- A call that ends with the step was in flight, so it has not ended before.
  have hnew : ∀ o ∈ told, ∀ p ∈ (c.step s).2, ∀ call, o.settled? = some call → p.settled? ≠ some call := by
    intro o ho p hp call hcall hcall'
    obtain ⟨⟨w, hw, rfl⟩, -⟩ := hf.settled hp hcall'
    exact h.pending o ho w hw hcall
  constructor
  · exact hf.forall_writes h.encoded (fun w f hw => hw) fun r link octets gate encoded used calls => encoded
  · refine hf.forall_writes (fun w hw => Nat.lt_of_lt_of_le (h.numbered w hw) hcalls) (fun w f hw => hw) ?_
    intro r link octets gate encoded used calls
    rw [calls]
    exact Nat.lt_succ_self _
  · intro o ho call hcall
    rcases List.mem_append.1 ho with ho | ho
    · exact Nat.lt_of_lt_of_le (h.reported o ho call hcall) hcalls
    · obtain ⟨⟨w, hw, rfl⟩, -⟩ := hf.settled ho hcall
      exact Nat.lt_of_lt_of_le (h.numbered w hw) hcalls
  · intro o ho
    rcases List.mem_append.1 ho with ho | ho
    · refine hf.forall_writes (h.pending o ho) (fun w f hw => hw) ?_
      intro r link octets gate encoded used calls hcall
      exact Nat.lt_irrefl _ (h.reported o ho _ hcall)
    · intro w hw hcall
      exact (hf.settled ho hcall).2.1 w hw rfl
  · intro o ho p hp call hcall hcall'
    rcases List.mem_append.1 ho with ho | ho <;> rcases List.mem_append.1 hp with hp | hp
    · exact h.once o ho p hp call hcall hcall'
    · exact absurd hcall' (hnew o ho p hp call hcall)
    · exact absurd hcall (hnew p hp o ho call hcall')
    · exact (hf.settled hp hcall').2.2 o ho hcall

theorem ledger_run (config : SessionConfig) (steps : List Step) :
    Ledger (run { config } steps).1 (run { config } steps).2 := by
  induction steps using List.reverseRecOn with
  | nil => exact ⟨nofun, nofun, by simp [run], by simp [run], by simp [run]⟩
  | append_singleton steps s ih =>
    rw [run_concat]
    exact ih.step s

end Client
end ChatClient
