import ChatClient.Connection
import ChatClient.Proofs.Frame.Agreement
import ChatClient.Proofs.Frame.Chunking
/-!
# Exhaustion — calls on a buffer come to an end

A call that returns something takes a frame of at least four octets off the buffer, or empties a buffer of at least two
(`Cursor.Safe.consumes`).  A buffer that was emptied yields nothing more, so making calls until one finds no frame, errors
not ending the loop, takes at most a call for every four octets, one more, and the one that finds none
(`Cursor.Exhausts`).  None of them stops the program.

The receive loop of a connection drains its buffer in the same number of steps (`Connection.advances_drain`).
-/
namespace ChatClient

open ChatClient.Frame

namespace Inbound

variable {α : Type} {g : Inbound α}

/-- **Every output takes four octets off the buffer**, or it is the last and at least two are dropped. -/
theorem length_drain_le (hfour : ∀ f, Whole g.layout g.limit f → 4 ≤ f.length) (b : Bytes) :
    (g.drain b).1.length ≤ b.length / 4 + 1 := by
  -- By the outputs: behind a frame the bound is one less, and behind a derailment nothing is left.
  fun_induction drain g b with
  | case1 b h => exact Nat.zero_le _
  | case2 b out rest h _ outs left hrec ih =>
    rw [hrec] at ih
    rw [List.length_cons]
    rcases next_cases h with ⟨f, hf, -, rfl⟩ | ⟨e, he, -, rfl⟩
    · have := hfour f hf
      rw [List.length_append]
      dsimp only at ih
      omega
    · have hnil : g.drain [] = ([], []) := drain_of_next_none (next_eq_none_iff.2 (.inl Nat.zero_lt_two))
      rw [hnil] at hrec
      cases hrec
      exact Nat.succ_le_succ (Nat.zero_le _)

end Inbound

namespace Cursor

variable {α : Type} {g : Cursor α}

/-- **A call that returns something takes a frame off, or empties the buffer.** -/
theorem Safe.consumes (hg : g.Safe) {b rest : Bytes} {out : Except FrameError (Option α)}
    (h : g.call b = some (out, rest)) (hout : out ≠ .ok none) :
    (∃ f, b = f ++ rest ∧ 4 ≤ f.length) ∨ rest = [] ∧ 2 ≤ b.length := by
  rw [hg.call_eq] at h
  cases hn : g.next b with
  | none =>
    rw [hn] at h
    cases h
    exact absurd rfl hout
  | some r =>
    obtain ⟨out', left⟩ := r
    rw [hn] at h
    cases h
    rcases Inbound.next_cases hn with ⟨f, hf, -, rfl⟩ | ⟨e, he, -, rfl⟩
    · exact .inl ⟨f, rfl, hg.four_le hf⟩
    · exact .inr ⟨rfl, length_of_extent_error he⟩

theorem drainWithin_of_nothing {b rest : Bytes} (h : g.call b = some (.ok none, rest)) (calls : Nat) :
    g.drainWithin (calls + 1) b = some ([.ok none], rest) := by
  rw [drainWithin, h]
  rfl

theorem drainWithin_of_output {b rest : Bytes} {out : Except FrameError α} (h : g.call b = some (some <$> out, rest))
    (calls : Nat) : g.drainWithin (calls + 1) b =
      (g.drainWithin calls rest).map fun r => (some <$> out :: r.1, r.2) := by
  rw [drainWithin, h]
  have hcalls : (g.drainWithin calls rest >>= fun r => some (some <$> out :: r.1, r.2)) =
      (g.drainWithin calls rest).map fun r => (some <$> out :: r.1, r.2) := by
    cases g.drainWithin calls rest <;> rfl
  cases out <;> exact hcalls

/-- **Calls go through the outputs of the buffer**, one after the other, and the next finds nothing. -/
theorem Safe.drainWithin_eq (hg : g.Safe) (b : Bytes) : ∀ {calls : Nat}, (g.drain b).1.length < calls →
    g.drainWithin calls b = some ((g.drain b).1.map (some <$> ·) ++ [.ok none], (g.drain b).2) := by
  fun_induction Inbound.drain g.toInbound b with
  | case1 b h =>
    rintro (_ | calls) hlt
    · cases hlt
    · exact drainWithin_of_nothing (hg.call_of_next_none h) calls
  | case2 b out rest h _ outs left hrec ih =>
    rintro (_ | calls) hlt
    · cases hlt
    · rw [hrec] at ih
      rw [drainWithin_of_output (hg.call_of_next h), ih (Nat.lt_of_succ_lt_succ hlt)]
      rfl

/-- **Making calls until one finds no frame comes to an end**, whatever the buffer holds. -/
structure Exhausts (g : Cursor α) : Prop where
  /-- Each call returns; if it returns an item or an error, it takes a frame off or empties the buffer. -/
  call : ∀ b, ∃ out rest, g.call b = some (out, rest) ∧
    (out ≠ .ok none → (∃ f, b = f ++ rest ∧ 4 ≤ f.length) ∨ rest = [] ∧ 2 ≤ b.length)
  /-- There are as many items and errors as stated, each from one call, and the call behind them finds nothing: any number
  of calls that is greater is enough, and no more than that one are made. -/
  drain : ∀ b : Bytes, ∃ (outs : List (Except FrameError α)) (rest : Bytes), outs.length ≤ b.length / 4 + 1 ∧
    ∀ calls, outs.length < calls → g.drainWithin calls b = some (outs.map (some <$> ·) ++ [.ok none], rest)

theorem Safe.exhausts (hg : g.Safe) : g.Exhausts where
  call b := by
    have h := hg.call_eq b
    exact ⟨_, _, h, hg.consumes h⟩
  drain b := ⟨_, _, Inbound.length_drain_le (fun _ => hg.four_le) b, fun _ => hg.drainWithin_eq b⟩

end Cursor

namespace Connection

/-- So many steps of the loop of a connection, and what it reports in them. -/
def advances (config : SessionConfig) : Nat → Connection → Connection × List Report
  | 0, k => (k, [])
  | steps + 1, k =>
    let (k, report) := k.advance config
    let (k, reports) := advances config steps k
    (k, report.toList ++ reports)

/-- **A loop that drains reports the outputs of its buffer**, a step each, and in one step more it reads on. -/
theorem advances_drain (config : SessionConfig) (k : Connection) :
    let drained := (Inbound.responses config.maxFieldLength.toNat).drain k.buffer
    advances config (drained.1.length + 1) { k with phase := .draining } =
      ({ k with phase := .reading, buffer := drained.2 }, drained.1.map .output) := by
  obtain ⟨peer, socket, buffer, phase, stopped⟩ := k
  dsimp only
  fun_induction Inbound.drain (Inbound.responses config.maxFieldLength.toNat) buffer with
  | case1 b h => simp only [advances, advance, h]; rfl
  | case2 b out rest h _ outs left hrec ih =>
    rw [hrec] at ih
    rw [List.length_cons, advances]
    simp only [advance, h, ih]
    rfl

end Connection

/-- **Draining a buffer comes to an end at both ends of a connection**, whatever their limit.
- No call stops the program; each that returns an item or an error takes at least four octets off as a frame, or empties a
  buffer of at least two; and calls until one finds no frame return at most a quarter of the octets, and one, of them.
- A receive loop that drains its buffer reads on after as many steps, each of which reports an item or an error, and one. -/
theorem Cursor.draining_ends : (∀ limit : UInt32, (responses limit.toNat).Exhausts ∧ (requests limit.toNat).Exhausts) ∧
    ∀ (config : SessionConfig) (k : Connection),
      ∃ (outs : List (Except FrameError Response)) (rest : Bytes), outs.length ≤ k.buffer.length / 4 + 1 ∧
        Connection.advances config (outs.length + 1) { k with phase := .draining } =
          ({ k with phase := .reading, buffer := rest }, outs.map .output) :=
  ⟨fun limit => ⟨(responses_safe limit.toNat).exhausts, (requests_safe limit.toNat).exhausts⟩, fun config k => ⟨_, _,
    Inbound.length_drain_le (fun _ => (responses_safe config.maxFieldLength.toNat).four_le) k.buffer,
    k.advances_drain config⟩⟩

end ChatClient
