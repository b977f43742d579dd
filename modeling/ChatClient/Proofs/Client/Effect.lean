import ChatClient.Proofs.Client.History
/-!
# Effect — what a step does to one of the connections

Most steps leave a given connection alone.  The others write to it, stop its loop, end our side of it, let its loop go on,
or are acts of its other end; `Effect` lists them with what is told, and `step_effect` says that there are no others.  A
connection that is not there yet stays so or is opened (`step_fresh`), and a connection that is there stays.
-/
namespace ChatClient

open Network (Act Fault Socket)

/-- The connection over which a message went when this happened. -/
def Occurrence.traffic? : Occurrence → Option Nat
  | sent _ id _ | handled id _ | emitted id _ => some id
  | _ => none

namespace Client

variable {c c' : Client} {id : Nat} {k k' : Connection} {s : Step} {told : List Occurrence}

/-- What is told of the report of a loop, if it makes one. -/
def telling (c : Client) (id : Nat) : Option Report → List Occurrence
  | none => []
  | some report => (c.take id report).2

inductive Effect (c : Client) (id : Nat) (k : Connection) : Step → Connection → List Occurrence → Prop
  | bystand (s : Step) (told : List Occurrence) :
      (∀ act, s ≠ .peer id act) → (∀ o ∈ told, o.traffic? ≠ some id) → Effect c id k s k told
  | write (w : Write) (socket : Socket) : w ∈ c.writes → w.id = id → k.socket.write w.octets = (socket, none) →
      Effect c id k (.write w.call) { k with socket } [.sent w.call id w.request]
  | failWrite (w : Write) (socket : Socket) (f : Fault) : w ∈ c.writes → w.id = id →
      k.socket.write w.octets = (socket, some f) → Effect c id k (.write w.call) { k with socket } []
  | stop (s : Step) (told : List Occurrence) : (∀ act, s ≠ .peer id act) → (∀ o ∈ told, o.traffic? ≠ some id) →
      Effect c id k s { k with stopped := true } told
  | shut : Effect c id k (.close id) { k with socket := k.socket.shutdown } []
  | turn : Effect c id k (.receive id) (c.afterLoop (k.advance c.config).1) (c.telling id (k.advance c.config).2)
  | peer (act : Act) : Effect c id k (.peer id act) { k with socket := k.socket.meet act } []

/-! ## A loop's report -/

theorem take_setConnection (report : Report) : ((c.setConnection id k).take id report).2 = (c.take id report).2 := by
  have hs : (c.setConnection id k).session = c.session := rfl
  rcases report with (e | r) | loss
  · rfl
  · simp only [take, hs]
    split <;> rfl
  · simp only [take, hs]
    split <;> rfl

theorem receive_told (hk : c.connections[id]? = some k) : (c.receive id).2 = c.telling id (k.advance c.config).2 := by
  cases hadv : k.advance c.config with
  | mk k' report =>
    cases report with
    | none =>
      rw [receive_silent hk hadv]
      rfl
    | some report =>
      rw [receive_report hk hadv, take_setConnection]
      rfl

/-! ## One connection -/

theorem modify_cases {f : Connection → Connection} {i : Nat} (hk : c.connections[id]? = some k) :
    (c.connections.modify i f)[id]? = some (if i = id then f k else k) := by
  by_cases h : i = id
  · subst h
    rw [List.getElem?_modify_eq, hk, if_pos rfl]
    rfl
  · rw [List.getElem?_modify_ne _ _ h, hk, if_neg h]

theorem set_cases {i : Nat} (hk : c.connections[id]? = some k) :
    (c.connections.set i k')[id]? = some (if i = id then k' else k) := by
  by_cases h : i = id
  · subst h
    rw [getElem?_set hk, if_pos rfl]
  · rw [List.getElem?_set_ne h, hk, if_neg h]

/-- **A step has one of these effects on a connection.** -/
theorem step_effect (hk : c.connections[id]? = some k) (s : Step) :
    ∃ k', (c.step s).1.connections[id]? = some k' ∧ Effect c id k s k' (c.step s).2 := by
  -- The turns of its own loop and the acts of its own other end are looked at first; then its number tells the moves apart.
  by_cases hs : s = .receive id
  · subst hs
    refine ⟨_, receive_getElem? hk, ?_⟩
    rw [show (c.step (.receive id)).2 = _ from receive_told hk]
    exact .turn
  by_cases hp : ∃ act, s = .peer id act
  · obtain ⟨act, rfl⟩ := hp
    refine ⟨_, (modify_cases hk).trans (congrArg some (if_pos rfl)), .peer act⟩
  have hp : ∀ act, s ≠ .peer id act := fun act h => hp ⟨act, h⟩
  have hm := step_move c s
  generalize c.step s = next at hm
  rcases next with ⟨c', told⟩
  cases hm with
  | establish a ha hc ho =>
    refine ⟨k, ?_, .bystand _ _ hp (by simp [Occurrence.traffic?])⟩
    rw [List.getElem?_append_left (List.getElem?_eq_some_iff.1 hk).1]
    exact hk
  | write w j socket hw hf hj hwrite =>
    refine ⟨_, set_cases hk, ?_⟩
    split
    · rename_i hid
      rw [hid, hk] at hj
      cases hj
      rw [hid]
      exact .write w socket (List.mem_of_find?_eq_some hw) hid hwrite
    · rename_i hid
      exact .bystand _ _ hp (by simp [Occurrence.traffic?, hid])
  | failWrite w j socket f hw hf hj hwrite =>
    refine ⟨_, set_cases hk, ?_⟩
    split
    · rename_i hid
      rw [hid, hk] at hj
      cases hj
      exact .failWrite w socket f (List.mem_of_find?_eq_some hw) hid hwrite
    · exact .bystand _ _ hp (by simp)
  | detach link hd hs hl =>
    refine ⟨_, modify_cases hk, ?_⟩
    split
    · exact .stop _ _ hp (by simp [Occurrence.traffic?])
    · exact .bystand _ _ hp (by simp [Occurrence.traffic?])
  | close i hi =>
    refine ⟨_, modify_cases hk, ?_⟩
    split
    · rename_i hid
      rw [hid]
      exact .shut
    · exact .bystand _ _ hp (by simp)
  | peer i act =>
    have hid : i ≠ id := fun h => hp act (by rw [h])
    refine ⟨k, (modify_cases hk).trans (congrArg some (if_neg hid)), .bystand _ _ hp (by simp)⟩
  | drop =>
    refine ⟨{ k with stopped := true }, ?_, .stop _ _ hp (by simp)⟩
    change (c.connections.map _)[id]? = _
    rw [List.getElem?_map, hk]
    rfl
  | loop i j j' hj hadv | passOver i j j' _ hj hadv =>
    have hid : i ≠ id := fun h => hs (congrArg _ h)
    exact ⟨k, (List.getElem?_set_ne hid).trans hk, .bystand _ _ hp (by simp)⟩
  | discard i j j' e hj hadv =>
    have hid : i ≠ id := fun h => hs (congrArg _ h)
    refine ⟨k, (List.getElem?_set_ne hid).trans hk, .bystand _ _ hp ?_⟩
    simp [Occurrence.traffic?, hid]
  | handle i j j' r hj hadv hu =>
    have hid : i ≠ id := fun h => hs (congrArg _ h)
    refine ⟨k, (List.getElem?_set_ne hid).trans hk, .bystand _ _ hp ?_⟩
    cases r.command? <;> simp [Occurrence.traffic?, hid]
  | lose i j j' loss hj hadv hu =>
    have hid : i ≠ id := fun h => hs (congrArg _ h)
    refine ⟨k, (List.getElem?_set_ne hid).trans hk, .bystand _ _ hp ?_⟩
    simp [Occurrence.traffic?, hid]
  | _ => exact ⟨k, hk, .bystand _ _ hp (by simp [Occurrence.traffic?])⟩

/-- **A connection that is not there stays so, or is opened**; nothing goes over it before. -/
theorem step_fresh (hk : c.connections[id]? = none) (s : Step) :
    (∀ o ∈ (c.step s).2, o.traffic? ≠ some id) ∧
      ((c.step s).1.connections[id]? = none ∨ ∃ peer, (c.step s).1.connections[id]? = some { peer := peer }) := by
  have hle := List.getElem?_eq_none_iff.1 hk
  have hne : ∀ {i : Nat} {j : Connection}, c.connections[i]? = some j → i ≠ id := by
    rintro i j hj rfl
    rw [hk] at hj
    cases hj
  have hset : ∀ (i : Nat) (j : Connection), (c.connections.set i j)[id]? = none := by
    intro i j
    rw [List.getElem?_eq_none_iff, List.length_set]
    exact hle
  have hmodify : ∀ (i : Nat) (f : Connection → Connection), (c.connections.modify i f)[id]? = none := by
    intro i f
    rw [List.getElem?_eq_none_iff, List.length_modify]
    exact hle
  have hm := step_move c s
  generalize c.step s = next at hm
  rcases next with ⟨c', told⟩
  cases hm with
  | establish a ha hc ho =>
    refine ⟨by simp [Occurrence.traffic?], ?_⟩
    by_cases hid : id = c.connections.length
    · subst hid
      exact .inr ⟨a.target, List.getElem?_concat_length⟩
    · left
      rw [List.getElem?_eq_none_iff, List.length_append, List.length_singleton]
      omega
  | write w j socket hw hf hj hwrite => exact ⟨by simp [Occurrence.traffic?, hne hj], .inl (hset _ _)⟩
  | failWrite | loop | passOver => exact ⟨by simp, .inl (hset _ _)⟩
  | discard i j j' e hj hadv => exact ⟨by simp [Occurrence.traffic?, hne hj], .inl (hset _ _)⟩
  | lose i j j' loss hj hadv hu => exact ⟨by simp [Occurrence.traffic?, hne hj], .inl (hset _ _)⟩
  | handle i j j' r hj hadv hu =>
    refine ⟨?_, .inl (hset _ _)⟩
    cases r.command? <;> simp [Occurrence.traffic?, hne hj]
  | detach => exact ⟨by simp [Occurrence.traffic?], .inl (hmodify _ _)⟩
  | close | peer => exact ⟨by simp, .inl (hmodify _ _)⟩
  | drop =>
    refine ⟨by simp, .inl ?_⟩
    change (c.connections.map _)[id]? = none
    rw [List.getElem?_map, hk]
    rfl
  | _ => exact ⟨by simp [Occurrence.traffic?], .inl hk⟩

end Client
end ChatClient
