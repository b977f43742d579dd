import ChatClient.Proofs.Client.Target
import ChatClient.Proofs.Session.Counts
/-!
# Posting — what a step does to the link, the counts and the requests in flight together

The counts say how many requests are unanswered, and some of these are still in flight.  `Posting` lists what a step does to
both, with what is told of them (`step_posting`).

The counts take note of things in one stream, under the number of the connection in use.  The notes of one connection stand
together in it, and they start with a reset that is the only one (`Filed`).
-/
namespace ChatClient

namespace Occurrence

/-- What the counts took note of on this connection, with the answer. -/
def noteOn? (id : Nat) : Occurrence → Option (Outstanding.Note × Option Match)
  | noted i note answer => if i = id then some (note, answer) else none
  | _ => none

/-- The connection whose requests or counts this is about. -/
def charged? : Occurrence → Option Nat
  | sent _ id _ | noted id _ _ => some id
  | _ => none

end Occurrence

namespace Client

open Occurrence (noted? noteOn? charged?)

variable {config : SessionConfig} {c c' : Client} {s : Step} {told more : List Occurrence} {id : Nat} {command : Command}
  {link : Link}

/-- How many requests of a command are in flight on a connection. -/
def flightCount (id : Nat) (command : Command) (writes : List Write) : Nat :=
  writes.countP fun w => w.id = id && w.request.command = command

/-- The connection in use is the one that was opened last. -/
theorem Tally.used_last (h : Tally c told) (hl : c.session.link = some link) : link.id + 1 = c.connections.length := by
  have hlast := congrArg List.getLast? h.ended
  rw [hl] at hlast
  cases hn : c.connections.length with
  | zero =>
    have := h.used_lt hl
    omega
  | succ n =>
    rw [hn] at hlast
    simp [List.range_succ] at hlast
    omega

/-! ## What a step does to the books -/

theorem flightCount_append (id : Nat) (command : Command) (writes : List Write) (w : Write) :
    flightCount id command (writes ++ [w]) =
      flightCount id command writes + if w.id = id ∧ w.request.command = command then 1 else 0 := by
  simp [flightCount, List.countP_append, List.countP_cons]

/-- One request less is in flight. -/
theorem flightCount_filter (id : Nat) (command : Command) {w : Write} : ∀ {writes : List Write},
    (writes.map (·.call)).Nodup → w ∈ writes →
      flightCount id command writes = flightCount id command (writes.filter (·.call ≠ w.call)) +
        if w.id = id ∧ w.request.command = command then 1 else 0
  | v :: rest, hdistinct, hw => by
    rw [List.map_cons, List.nodup_cons] at hdistinct
    obtain ⟨hv, hrest⟩ := hdistinct
    rcases List.mem_cons.1 hw with rfl | hw
    · have hothers : rest.filter (·.call ≠ w.call) = rest := by
        refine List.filter_eq_self.2 fun u hu => ?_
        rw [decide_eq_true_eq]
        exact fun heq => hv (heq ▸ List.mem_map_of_mem hu)
      rw [List.filter_cons_of_neg (by simp), hothers]
      simp [flightCount, List.countP_cons]
    · have hne : v.call ≠ w.call := fun heq => hv (heq ▸ List.mem_map_of_mem hw)
      have ih := flightCount_filter id command hrest hw
      rw [List.filter_cons_of_pos (by simpa using hne)]
      simp only [flightCount, List.countP_cons] at ih ⊢
      omega

/-- What a step does to the link, the counts and the requests in flight, with what is told of them. -/
inductive Posting (c c' : Client) (told : List Occurrence) : Prop
  | quiet (link : c'.session.link = c.session.link ∨ c'.session.link = none)
      (outstanding : c'.session.outstanding = c.session.outstanding)
      (length : c'.connections.length = c.connections.length)
      (flying : ∀ link command, c.session.link = some link →
        flightCount link.id command c'.writes = flightCount link.id command c.writes)
      (quiet : ∀ o ∈ told, o.charged? = none)
  | establish (call : Nat) (peer : Network.Endpoint)
      (link : c'.session.link = some ⟨c.connections.length, peer⟩) (outstanding : c'.session.outstanding = {})
      (length : c'.connections.length = c.connections.length + 1) (writes : c'.writes = c.writes)
      (tells : told = [.noted c.connections.length .reset none, .connected call c.connections.length])
  | pass (w : Write) (link : Link) (used : c.session.link = some link) (kept : c'.session.link = some link)
      (outstanding : c'.session.outstanding = c.session.outstanding.sent w.request.command)
      (length : c'.connections.length = c.connections.length) (writes : c'.writes = c.writes ++ [w])
      (place : w.id = link.id) (tells : told = [.noted link.id (.sent w.request.command) none, .started w.call])
  | depart (w : Write) (kept : c'.session.link = c.session.link)
      (outstanding : c'.session.outstanding = c.session.outstanding)
      (length : c'.connections.length = c.connections.length) (flying : w ∈ c.writes)
      (known : w.id < c.connections.length) (writes : c'.writes = c.writes.filter (·.call ≠ w.call))
      (tells : told = [.sent w.call w.id w.request])
  | withdraw (w : Write) (fault : Network.Fault) (link : Link) (used : c.session.link = some link)
      (kept : c'.session.link = some link) (place : link.id = w.id)
      (outstanding : c'.session.outstanding = c.session.outstanding.failed w.request.command)
      (length : c'.connections.length = c.connections.length) (flying : w ∈ c.writes)
      (writes : c'.writes = c.writes.filter (·.call ≠ w.call))
      (tells : told = [.noted link.id (.failed w.request.command) none, .unsent w.call w.id w.request fault])
  | receive (link : Link) (command : Command) (code : ReturnCode) (event : Event) (used : c.session.link = some link)
      (kept : c'.session.link = some link)
      (outstanding : c'.session.outstanding = (c.session.outstanding.received command).1)
      (length : c'.connections.length = c.connections.length) (writes : c'.writes = c.writes)
      (tells : told = [.handled link.id (.ack command code),
        .noted link.id (.received command) (some (c.session.outstanding.received command).2), .emitted link.id event])

/-- **A step does one of these things to the books.** -/
theorem step_posting (hdistinct : (c.writes.map (·.call)).Nodup) (s : Step) : Posting c (c.step s).1 (c.step s).2 := by
  have hm := step_move c s
  generalize c.step s = next at hm
  rcases next with ⟨c', told⟩
  cases hm with
  | establish a ha hc ho => exact .establish a.call a.target rfl rfl (by simp) rfl rfl
  | dispatch r link octets hd ho hr hl =>
    exact .pass { call := c.calls, id := link.id, request := r, octets } link hl hl rfl rfl rfl rfl rfl
  | write w k socket hw hf hk hwrite =>
    exact .depart w rfl rfl (by simp [setConnection]) (List.mem_of_find?_eq_some hw) (List.getElem?_eq_some_iff.1 hk).1
      rfl rfl
  | failWrite w k socket f hw hf hk hwrite =>
    refine .quiet (.inl rfl) rfl (List.length_set ..) (fun link command hl => ?_) (by simp)
    rw [flightCount, List.countP_map]
    refine List.countP_congr fun v hv => ?_
    simp only [Function.comp]
    split <;> rfl
  | retract w f hw hf hu =>
    obtain ⟨link, hl, hid⟩ := Session.uses_iff.1 hu
    exact .withdraw w f link hl hl hid rfl rfl (List.mem_of_find?_eq_some hw) rfl (by rw [hid])
  | forgo w f hw hf hu =>
    refine .quiet (.inl rfl) rfl rfl (fun link command hl => ?_) (by simp [charged?])
    have hne : w.id ≠ link.id := fun heq => by
      rw [Session.uses_iff.2 ⟨link, hl, heq.symm⟩] at hu
      cases hu
    rw [flightCount_filter _ _ hdistinct (List.mem_of_find?_eq_some hw), if_neg fun h => hne h.1]
    rfl
  | callOff hd hs hl => exact .quiet (.inr rfl) rfl rfl (fun _ _ _ => rfl) (by simp [charged?])
  | detach link hd hs hl => exact .quiet (.inr rfl) rfl (by simp) (fun _ _ _ => rfl) (by simp [charged?])
  | lose id k k' loss hk hadv hu =>
    exact .quiet (.inr rfl) rfl (by simp [setConnection]) (fun _ _ _ => rfl) (by simp [charged?])
  | handle id k k' r hk hadv hu =>
    obtain ⟨link, hl, rfl⟩ := Session.uses_iff.1 hu
    cases r with
    | ack command code => exact .receive link command code _ hl hl rfl (by simp [setConnection]) rfl rfl
    | delivery sender message =>
      exact .quiet (.inl rfl) rfl (by simp [setConnection]) (fun _ _ _ => rfl) (by simp [charged?, Response.command?])
  | drop => exact .quiet (.inl rfl) rfl (List.length_map _) (fun _ _ _ => rfl) (by simp)
  | close | peer => exact .quiet (.inl rfl) rfl (List.length_modify ..) (fun _ _ _ => rfl) (by simp)
  | loop | discard | passOver => exact .quiet (.inl rfl) rfl (List.length_set ..) (fun _ _ _ => rfl) (by simp [charged?])
  | _ => exact .quiet (.inl rfl) rfl rfl (fun _ _ _ => rfl) (by simp [charged?])

/-! ## The notes of a connection -/

theorem noteOn_eq (id : Nat) (told : List Occurrence) : told.filterMap (noteOn? id) =
    (told.filterMap noted?).filterMap fun p => if p.1 = id then some p.2 else none := by
  rw [List.filterMap_filterMap]
  refine List.filterMap_congr fun o _ => ?_
  cases o <;> rfl

theorem noted_quiet (quiet : ∀ o ∈ told, o.charged? = none) : told.filterMap noted? = [] := by
  refine List.filterMap_eq_nil_iff.2 fun o ho => ?_
  cases o with
  | noted id note answer => cases quiet _ ho
  | _ => rfl

/-- The notes of a connection stand together, in the order of the connections, and start with their only reset. -/
structure Filed (c : Client) (told : List Occurrence) : Prop where
  charged : ∀ o ∈ told, ∀ id, o.charged? = some id → id < c.connections.length
  ordered : ((told.filterMap noted?).map Prod.fst).Pairwise (· ≤ ·)
  opening : ∀ id < c.connections.length, ∃ rest, told.filterMap (noteOn? id) = (.reset, none) :: rest ∧
    ∀ n ∈ rest, n.1 ≠ .reset

namespace Filed

theorem noted_lt (h : Filed c told) : ∀ i ∈ (told.filterMap noted?).map Prod.fst, i < c.connections.length := by
  intro i hi
  obtain ⟨p, hp, rfl⟩ := List.mem_map.1 hi
  obtain ⟨o, ho, hnoted⟩ := List.mem_filterMap.1 hp
  cases o with
  | noted id note answer =>
    cases hnoted
    exact h.charged _ ho id rfl
  | _ => cases hnoted

/-- A connection that is not there yet has no notes. -/
theorem fresh (h : Filed c told) (hid : c.connections.length ≤ id) : told.filterMap (noteOn? id) = [] := by
  refine List.filterMap_eq_nil_iff.2 fun o ho => ?_
  cases o with
  | noted i note answer =>
    have hlt := h.charged _ ho i rfl
    exact if_neg (by omega)
  | _ => rfl

/-- One note more, which is no reset, on the connection in use. -/
theorem note (h : Filed c told) (ht : Tally c told) (hl : c.session.link = some link)
    (length : c'.connections.length = c.connections.length) {n : Outstanding.Note} {answer : Option Match}
    (hnoted : more.filterMap noted? = [(link.id, n, answer)]) (hreset : n ≠ .reset)
    (hcharged : ∀ o ∈ more, ∀ id, o.charged? = some id → id = link.id) : Filed c' (told ++ more) where
  charged := by
    rw [length]
    refine List.forall_mem_append.2 ⟨h.charged, fun o ho id hid => ?_⟩
    rw [hcharged o ho id hid]
    exact ht.used_lt hl
  ordered := by
    -- The connection in use is the last of all.
    have hlast : ∀ i ∈ (told.filterMap noted?).map Prod.fst, i ≤ link.id := by
      intro i hi
      have hlt := h.noted_lt i hi
      rw [← ht.used_last hl] at hlt
      exact Nat.le_of_lt_succ hlt
    rw [List.filterMap_append, hnoted, List.map_append]
    refine List.pairwise_append.2 ⟨h.ordered, List.pairwise_singleton _ _, fun i hi j hj => ?_⟩
    rw [List.map_singleton, List.mem_singleton] at hj
    exact hj ▸ hlast i hi
  opening id hid := by
    rw [length] at hid
    obtain ⟨rest, hrest, hnone⟩ := h.opening id hid
    rw [List.filterMap_append, hrest, noteOn_eq id more, hnoted]
    by_cases heq : link.id = id
    · refine ⟨rest ++ [(n, answer)], by simp [heq], ?_⟩
      exact List.forall_mem_append.2 ⟨hnone, List.forall_mem_singleton.2 hreset⟩
    · exact ⟨rest, by simp [heq], hnone⟩

/-- No note more. -/
theorem silent (h : Filed c told) (length : c'.connections.length = c.connections.length)
    (hnoted : more.filterMap noted? = [])
    (hcharged : ∀ o ∈ more, ∀ id, o.charged? = some id → id < c.connections.length) : Filed c' (told ++ more) where
  charged := by
    rw [length]
    exact List.forall_mem_append.2 ⟨h.charged, hcharged⟩
  ordered := by
    rw [List.filterMap_append, hnoted, List.append_nil]
    exact h.ordered
  opening id hid := by
    rw [List.filterMap_append, noteOn_eq id more, hnoted]
    rw [length] at hid
    simpa using h.opening id hid

theorem step (h : Filed c told) (ht : Tally c told) (hp : Posting c c' more) : Filed c' (told ++ more) := by
  cases hp with
  | quiet link outstanding length flying quiet =>
    refine h.silent length (noted_quiet quiet) fun o ho id hid => ?_
    rw [quiet o ho] at hid
    cases hid
  | establish call peer link outstanding length writes tells =>
    rw [tells]
    constructor
    · rw [length]
      refine List.forall_mem_append.2 ⟨fun o ho id hid => Nat.lt_succ_of_lt (h.charged o ho id hid), ?_⟩
      intro o ho id hid
      simp only [List.mem_cons, List.not_mem_nil, or_false] at ho
      rcases ho with rfl | rfl <;> cases hid
      exact Nat.lt_succ_self _
    · rw [List.filterMap_append, List.map_append]
      refine List.pairwise_append.2 ⟨h.ordered, List.pairwise_singleton _ _, fun i hi j hj => ?_⟩
      simp only [List.filterMap_cons, noted?, List.filterMap_nil, List.map_cons, List.map_nil, List.mem_singleton] at hj
      exact hj ▸ Nat.le_of_lt (h.noted_lt i hi)
    · intro id hid
      rw [length] at hid
      rw [List.filterMap_append]
      rcases Nat.lt_succ_iff_lt_or_eq.1 hid with hlt | rfl
      · obtain ⟨rest, hrest, hnone⟩ := h.opening id hlt
        exact ⟨rest, by simp [hrest, noteOn?, Nat.ne_of_gt hlt], hnone⟩
      · exact ⟨[], by simp [h.fresh (Nat.le_refl _), noteOn?], by simp⟩
  | pass w link used kept outstanding length writes place tells =>
    have hnoted : more.filterMap noted? = [(link.id, .sent w.request.command, none)] := by
      rw [tells]
      rfl
    exact h.note ht used length hnoted (by simp) (by simp [tells, charged?, eq_comm])
  | depart w kept outstanding length flying known writes tells =>
    exact h.silent length (by rw [tells]; rfl) (by simp [tells, charged?, known])
  | withdraw w fault link used kept place outstanding length flying writes tells =>
    have hnoted : more.filterMap noted? = [(link.id, .failed w.request.command, none)] := by
      rw [tells]
      rfl
    exact h.note ht used length hnoted (by simp) (by simp [tells, charged?, eq_comm])
  | receive link command code event used kept outstanding length writes tells =>
    have hnoted : more.filterMap noted? =
        [(link.id, .received command, some (c.session.outstanding.received command).2)] := by
      rw [tells]
      rfl
    exact h.note ht used length hnoted (by simp) (by simp [tells, charged?, eq_comm])

end Filed

theorem filed_run (config : SessionConfig) (steps : List Step) :
    Filed (run { config } steps).1 (run { config } steps).2 := by
  induction steps using List.reverseRecOn with
  | nil => exact ⟨by simp [run], .nil, by simp [run]⟩
  | append_singleton steps s ih =>
    rw [run_concat]
    exact ih.step (tally_run config steps) (step_posting (flying_distinct config steps) s)

end Client
end ChatClient
