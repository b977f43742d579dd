import ChatClient.Proofs.Frame.Delimiting
/-!
# Chunking — how a stream is cut does not matter

A connection delivers a stream in chunks, and after each chunk the buffer is drained.  Draining one stream in two ways of
cutting it gives the same outputs up to the first that derails it (`feedAll_upToDerailment`); when none does, it gives the
same outputs and leaves the same octets (`feedAll_eq_drain`).

The proof compares every way of cutting with the stream in one piece.  What is drained from the front of a stream is the
front of what is drained from the whole of it (`drain_append`), since the first output of a buffer stays the same when
more octets arrive (`Inbound.Sound.next_append`).
-/
namespace ChatClient
namespace Inbound

open ChatClient.Frame

variable {α : Type} {g : Inbound α}

/-- No output derails the stream. -/
def Steady (outs : List (Except FrameError α)) : Prop := ∀ out ∈ outs, derails out = false

/-- The outputs up to the first that derails the stream, that one included. -/
def upToDerailment : List (Except FrameError α) → List (Except FrameError α)
  | [] => []
  | out :: outs => if derails out then [out] else out :: upToDerailment outs

/-! ## Outputs up to a derailment -/

section
variable {outs more : List (Except FrameError α)}

theorem steady_cons {out : Except FrameError α} : Steady (out :: outs) ↔ derails out = false ∧ Steady outs :=
  List.forall_mem_cons

theorem steady_append : Steady (outs ++ more) ↔ Steady outs ∧ Steady more := List.forall_mem_append

theorem upToDerailment_append_of_steady (h : Steady outs) :
    upToDerailment (outs ++ more) = outs ++ upToDerailment more := by
  induction outs with
  | nil => rfl
  | cons out outs ih =>
    obtain ⟨h1, h2⟩ := steady_cons.1 h
    rw [List.cons_append, upToDerailment, h1, if_neg Bool.false_ne_true, ih h2, List.cons_append]

theorem upToDerailment_append_of_not_steady (h : ¬ Steady outs) :
    upToDerailment (outs ++ more) = upToDerailment outs := by
  induction outs with
  | nil => exact absurd (fun _ => nofun) h
  | cons out outs ih =>
    rw [List.cons_append, upToDerailment, upToDerailment]
    split
    · rfl
    · rename_i hout
      rw [ih fun hs => h (steady_cons.2 ⟨by simpa using hout, hs⟩)]

theorem steady_upToDerailment : Steady (upToDerailment outs) ↔ Steady outs := by
  induction outs with
  | nil => rfl
  | cons out outs ih =>
    rw [upToDerailment]
    split
    · rename_i hout
      rw [steady_cons, steady_cons, hout]
      simp
    · rw [steady_cons, steady_cons, ih]

end

/-! ## Draining -/

theorem drain_of_next_none {b : Bytes} (h : g.next b = none) : g.drain b = ([], b) := by
  rw [drain.eq_def]
  split
  · rfl
  · rename_i hn
    rw [h] at hn
    cases hn

theorem drain_of_next {b rest : Bytes} {out : Except FrameError α} (h : g.next b = some (out, rest)) :
    g.drain b = (out :: (g.drain rest).1, (g.drain rest).2) := by
  rw [drain.eq_def]
  split
  · rename_i hn
    rw [h] at hn
    cases hn
  · rename_i hn
    rw [h] at hn
    cases hn
    rfl

/-- **What is left after draining is waiting for more octets.** -/
theorem next_drain (b : Bytes) : g.next (g.drain b).2 = none := by
  fun_induction drain g b with
  | case1 b h => exact h
  | case2 b out rest h _ outs left hrec ih => rwa [hrec] at ih

/-- **Draining the front of a stream first** and then what is left with the rest is draining the whole stream. -/
theorem drain_append (hg : g.Sound) (b t : Bytes) (h : Steady (g.drain b).1) :
    g.drain (b ++ t) = ((g.drain b).1 ++ (g.drain ((g.drain b).2 ++ t)).1, (g.drain ((g.drain b).2 ++ t)).2) := by
  -- By the outputs of the front: each is also the next output of the whole, which keeps `t` behind what is left.
  fun_induction drain g b with
  | case1 b hn => rfl
  | case2 b out rest hn _ outs left hrec ih =>
    rw [hrec] at ih
    obtain ⟨hout, houts⟩ := steady_cons.1 h
    have hnext := hg.next_append hn t
    rw [hout, if_neg Bool.false_ne_true] at hnext
    rw [drain_of_next hnext, ih houts]
    rfl

theorem upToDerailment_drain_append (hg : g.Sound) (b t : Bytes) (h : ¬ Steady (g.drain b).1) :
    upToDerailment (g.drain (b ++ t)).1 = upToDerailment (g.drain b).1 := by
  fun_induction drain g b with
  | case1 b hn => exact absurd (fun _ => nofun) h
  | case2 b out rest hn _ outs left hrec ih =>
    rw [hrec] at ih
    have hnext := hg.next_append hn t
    rw [drain_of_next hnext, upToDerailment, upToDerailment]
    split
    · rfl
    · rename_i hout
      rw [ih fun hs => h (steady_cons.2 ⟨by simpa using hout, hs⟩)]

/-! ## Chunk by chunk -/

theorem feedAll_cons (buffer chunk : Bytes) (chunks : List Bytes) : g.feedAll buffer (chunk :: chunks) =
    ((g.drain (buffer ++ chunk)).1 ++ (g.feedAll (g.drain (buffer ++ chunk)).2 chunks).1,
      (g.feedAll (g.drain (buffer ++ chunk)).2 chunks).2) := rfl

/-- **Cut anyhow, a stream gives what it gives in one piece**, up to a derailment. -/
theorem feedAll_upToDerailment (hg : g.Sound) : ∀ {buffer : Bytes} (chunks : List Bytes), g.next buffer = none →
    upToDerailment (g.feedAll buffer chunks).1 = upToDerailment (g.drain (buffer ++ chunks.flatten)).1
  | buffer, [], h => by
    rw [List.flatten_nil, List.append_nil, drain_of_next_none h]
    rfl
  | buffer, chunk :: chunks, _ => by
    rw [feedAll_cons, List.flatten_cons, ← List.append_assoc]
    by_cases hs : Steady (g.drain (buffer ++ chunk)).1
    · rw [drain_append hg _ _ hs, upToDerailment_append_of_steady hs, upToDerailment_append_of_steady hs,
        feedAll_upToDerailment hg chunks (next_drain _)]
    · -- This chunk derails the stream: what the later ones give counts on neither side.
      rw [upToDerailment_append_of_not_steady hs, upToDerailment_drain_append hg _ _ hs]

/-- **Cut anyhow, a stream that nothing derails gives what it gives in one piece**, and leaves the same. -/
theorem feedAll_eq_drain (hg : g.Sound) : ∀ {buffer : Bytes} (chunks : List Bytes), g.next buffer = none →
    Steady (g.feedAll buffer chunks).1 → g.feedAll buffer chunks = g.drain (buffer ++ chunks.flatten)
  | buffer, [], h, _ => by
    rw [List.flatten_nil, List.append_nil, drain_of_next_none h]
    rfl
  | buffer, chunk :: chunks, _, hs => by
    rw [feedAll_cons] at hs ⊢
    obtain ⟨h1, h2⟩ := steady_append.1 hs
    rw [List.flatten_cons, ← List.append_assoc, drain_append hg _ _ h1, feedAll_eq_drain hg chunks (next_drain _) h2]

/-- Two ways of cutting one stream, drained chunk by chunk from an empty buffer, agree: on the outputs up to the first that
derails the stream, and, if none does, on all outputs and on what is left. -/
def CutFree (g : Inbound α) : Prop :=
  ∀ chunks chunks' : List Bytes, chunks.flatten = chunks'.flatten →
    upToDerailment (g.feedAll [] chunks).1 = upToDerailment (g.feedAll [] chunks').1 ∧
    (Steady (g.feedAll [] chunks).1 →
      Steady (g.feedAll [] chunks').1 ∧ g.feedAll [] chunks = g.feedAll [] chunks')

theorem Sound.cutFree (hg : g.Sound) : g.CutFree := by
  intro chunks chunks' heq
  have hnil : g.next [] = none := next_eq_none_iff.2 (.inl Nat.zero_lt_two)
  have hagree : upToDerailment (g.feedAll [] chunks).1 = upToDerailment (g.feedAll [] chunks').1 := by
    rw [feedAll_upToDerailment hg _ hnil, feedAll_upToDerailment hg _ hnil, heq]
  refine ⟨hagree, fun hs => ?_⟩
  have hs' : Steady (g.feedAll [] chunks').1 := by
    rw [← steady_upToDerailment, ← hagree, steady_upToDerailment]
    exact hs
  refine ⟨hs', ?_⟩
  rw [feedAll_eq_drain hg _ hnil hs, feedAll_eq_drain hg _ hnil hs', heq]

/-- **Both ends of a connection read the same however the stream is cut**, the client whatever its limit. -/
theorem chunking_irrelevant : (∀ limit, (responses limit).CutFree) ∧ requests.CutFree :=
  ⟨fun limit => (responses_sound limit).cutFree, requests_sound.cutFree⟩

end Inbound
end ChatClient
