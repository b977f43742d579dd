import ChatClient.Proofs.Client.Reception
import ChatClient.Proofs.Client.Release
/-!
# Cramped — a read limit for which there is no room

Before each read a loop makes room behind its buffer for as many octets as a read may take.  Where the limit is beyond what
any buffer can hold, the first read of every connection breaks its loop down, which nobody is told of: no event is ever
emitted, and the session stays as it is (`unheard_run`).
-/
namespace ChatClient
namespace Client

open Occurrence (event?)

variable {config : SessionConfig}

/-- A loop that makes no room for a read ends without a report. -/
theorem advance_oversized (hsize : Connection.mostRoom < config.readBufferSize.toNat) {k : Connection}
    (h : k.phase = .reading ∨ k.phase = .ended) :
    (k.advance config).1.phase = .ended ∧ (k.advance config).2 = none := by
  rcases h with hp | hp
  · have hroom : k.roomy config = false := by
      rw [Connection.roomy, decide_eq_false_iff_not]
      omega
    rw [Connection.advance_of_cramped hp hroom]
    exact ⟨rfl, rfl⟩
  · rw [Connection.advance_of_ended hp]
    exact ⟨hp, rfl⟩

/-- **With a read limit for which no buffer has room, the observer never hears of anything**, whatever is sent. -/
theorem unheard_run (hsize : Connection.mostRoom < config.readBufferSize.toNat) (steps : List Step) :
    (∀ (id : Nat) k, (run { config } steps).1.connections[id]? = some k → k.phase = .reading ∨ k.phase = .ended) ∧
      (run { config } steps).2.filterMap event? = [] := by
  induction steps using List.reverseRecOn with
  | nil => exact ⟨by simp [run], rfl⟩
  | append_singleton steps s ih =>
    obtain ⟨hphases, hevents⟩ := ih
    have hconfig : (run { config } steps).1.config = config := run_config _ steps
    rw [run_concat, List.filterMap_append, hevents, List.nil_append]
    generalize (run { config } steps).1 = c at hphases hconfig ⊢
    subst hconfig
    refine ⟨fun id k' hk' => ?_, List.filterMap_eq_nil_iff.2 fun o ho => ?_⟩
    · refine Released.of_step (P := fun k => k.phase = .reading ∨ k.phase = .ended) hk' (fun k hk he => ?_)
        fun _ => .inl rfl
      have h := hphases id k hk
      generalize (c.step s).2 = told at he
      cases he with
      | turn =>
        right
        rw [afterLoop_phase]
        exact (advance_oversized hsize h).1
      | _ => exact h
    · cases o with
      | emitted i event =>
        obtain rfl := (step_move c s).emitted ho
        cases hk : c.connections[i]? with
        | none => simp [step, receive, hk] at ho
        | some k =>
          rw [show (c.step (.receive i)).2 = _ from receive_told hk, (advance_oversized hsize (hphases i k hk)).2] at ho
          cases ho
      | _ => rfl

/-- With the largest limit nothing is heard of a server that welcomes its client and closes the connection, whatever comes
after it, and the session goes on as connected. -/
theorem unheard_welcome :
    let config : SessionConfig := { readBufferSize := 18446744073709551615 }
    let dialled : List Step := [.connect ⟨"localhost", 47007⟩, .answer 0 .accepted, .finish 0]
    let steps : List Step := [.peer 0 (.send [0, 200, 0, 0]), .receive 0, .peer 0 .close]
    .connected 0 0 ∈ (run { config } dialled).2 ∧
      ((Inbound.responses config.maxFieldLength.toNat).Framed [[0, 200, 0, 0]] [] ∧
        Step.inflow 0 steps = [0, 200, 0, 0]) ∧
      (run { config } (dialled ++ steps ++ [.receive 0])).1.session.state = .connected ∧
      ∀ more, (run { config } (dialled ++ steps ++ more)).2.filterMap event? = [] := by
  intro config dialled steps
  refine ⟨by decide +kernel, ⟨⟨List.forall_mem_singleton.2 ?_, .inl Nat.zero_lt_two⟩, rfl⟩, by decide +kernel,
    fun more => ?_⟩
  · exact ⟨.command .login, .code, [0, 0], rfl, rfl, rfl⟩
  · exact (unheard_run (by decide +kernel) _).2

end Client
end ChatClient
