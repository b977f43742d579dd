import ChatClient.Network.Socket
import Mathlib.Data.List.Infix
/-!
# Underway — what becomes of the octets that are written

A write that ends well has had all of its octets taken, and one that fails a front of them and not all (`Written`).  What is
taken arrives in order (`received_prefix_taken`) and stays taken whatever the other end and the network do (`meet_taken`).
While the other end is open, nothing of it is lost unless our end was shut and octets waited there unread
(`discarded_of_meet`), and all of it can still arrive (`deliver_received`); afterwards nothing more arrives
(`meet_received_of_severed`).
-/
namespace ChatClient
namespace Network

/-- An act that concerns only what we have written or will write. -/
def Act.outward : Act → Bool
  | .arrive _ | .choke .. | .discard => true
  | _ => false

namespace Socket

variable {s t : Socket} {octets : Bytes} {fault : Option Fault} {act : Act}

/-- Nothing more arrives at the other end. -/
def severed (s : Socket) : Bool := s.peer ≠ .opened || s.discarded

theorem severed_of (hpeer : t.peer = .opened → s.peer = .opened) (hdiscarded : t.discarded = s.discarded)
    (h : s.severed = true) : t.severed = true := by
  by_cases ho : t.peer = .opened
  · have hd : s.discarded = true := by simpa [severed, hpeer ho] using h
    simp [severed, hdiscarded, hd]
  · simp [severed, ho]

/-! ## Writes -/

inductive Written (s : Socket) (octets : Bytes) : Socket → Option Fault → Prop
  | nothing : octets = [] → Written s octets s none
  | reset : octets ≠ [] → s.peer = .reset → Written s octets { s with peer := .gone, waiting := [] } (some .reset)
  | broken : octets ≠ [] → s.peer = .gone ∨ s.shut = true → Written s octets s (some .brokenPipe)
  | whole (choke : Option (Nat × Fault)) : s.peer ≠ .reset → s.peer ≠ .gone → s.shut = false →
      (s.choke = none → choke = none) → Written s octets { s.put octets with choke } none
  | choked (room : Nat) (f : Fault) : s.choke = some (room, f) → room < octets.length →
      Written s octets { s.put (octets.take room) with choke := none } (some f)

/-- **A write is one of these.** -/
theorem write_written (s : Socket) (octets : Bytes) : Written s octets (s.write octets).1 (s.write octets).2 := by
  unfold write
  by_cases ho : octets = []
  · rw [if_pos ho]
    exact .nothing ho
  rw [if_neg ho]
  by_cases hr : s.peer = .reset
  · rw [if_pos hr]
    exact .reset ho hr
  rw [if_neg hr]
  by_cases hg : s.peer = .gone ∨ s.shut = true
  · rw [if_pos hg]
    exact .broken ho hg
  rw [if_neg hg]
  rw [not_or, Bool.not_eq_true] at hg
  split
  · exact .whole s.choke hr hg.1 hg.2 id
  · rename_i room f hc
    split
    · rename_i hlt
      exact .choked room f hc hlt
    · exact .whole _ hr hg.1 hg.2 fun hn => by rw [hn] at hc; cases hc

@[simp] theorem put_taken (s : Socket) (octets : Bytes) : (s.put octets).taken = s.taken ++ octets :=
  (List.append_assoc _ _ _).symm

/-- **What is taken of a write**: all of it if it ends well; otherwise less, and nothing if it did not choke. -/
theorem write_taken (h : s.write octets = (t, fault)) : ∃ front, front <+: octets ∧ t.taken = s.taken ++ front ∧
    (fault = none ↔ front = octets) ∧ (s.choke = none → fault ≠ none → front = []) := by
  have hw := s.write_written octets
  rw [h] at hw
  cases hw with
  | nothing ho => exact ⟨[], List.nil_prefix, by simp, by simp [ho], fun _ _ => rfl⟩
  | reset ho hr => exact ⟨[], List.nil_prefix, by simp [taken], by simp [Ne.symm ho], fun _ _ => rfl⟩
  | broken ho => exact ⟨[], List.nil_prefix, by simp, by simp [Ne.symm ho], fun _ _ => rfl⟩
  | whole choke => exact ⟨octets, List.prefix_rfl, put_taken s octets, by simp, fun _ hf => absurd rfl hf⟩
  | choked room f hc hlt =>
    refine ⟨octets.take room, List.take_prefix _ _, put_taken s _, ?_, fun hn => by rw [hn] at hc; cases hc⟩
    refine iff_of_false nofun fun heq => ?_
    have hle := congrArg List.length heq
    rw [List.length_take] at hle
    omega

theorem write_received (h : s.write octets = (t, fault)) : t.received = s.received := by
  have hw := s.write_written octets
  rw [h] at hw
  cases hw <;> rfl

theorem write_choke (h : s.write octets = (t, fault)) (hc : s.choke = none) : t.choke = none := by
  have hw := s.write_written octets
  rw [h] at hw
  cases hw with
  | nothing | reset | broken => exact hc
  | whole choke _ _ _ hnone => exact hnone hc
  | choked => rfl

/-- A write leaves our side as it is and opens no other end. -/
theorem write_open (h : s.write octets = (t, fault)) : t.shut = s.shut ∧ (t.peer = .opened → s.peer = .opened) := by
  have hw := s.write_written octets
  rw [h] at hw
  cases hw with
  | reset => exact ⟨rfl, nofun⟩
  | _ => exact ⟨rfl, id⟩

theorem write_discarded (h : s.write octets = (t, fault)) : t.discarded = s.discarded := by
  have hw := s.write_written octets
  rw [h] at hw
  cases hw <;> rfl

/-- **An open connection that neither is shut nor chokes takes everything that is written to it.** -/
theorem write_of_open (ho : s.peer = .opened) (hs : s.shut = false) (hc : s.choke = none) (octets : Bytes) :
    (s.write octets).2 = none := by
  have hw := s.write_written octets
  generalize (s.write octets).1 = t, (s.write octets).2 = fault at hw
  cases hw with
  | nothing | whole => rfl
  | reset _ hr => rw [ho] at hr; cases hr
  | broken _ hg => simp [ho, hs] at hg
  | choked room f hchoke => rw [hc] at hchoke; cases hchoke

/-! ## Acts of the other end and of the network -/

inductive Met (s : Socket) : Act → Socket → Prop
  | send (octets : Bytes) : s.peer = .opened → Met s (.send octets) { s with waiting := s.waiting ++ octets }
  | close : s.peer = .opened → Met s .close { s with peer := .closed }
  | reset : s.peer = .opened → Met s .reset { s with peer := .reset }
  | arrive (count n : Nat) : s.peer = .opened → (s.discarded = true → n = 0) → (s.discarded = false → n = count) →
      Met s (.arrive count) { s with received := s.received ++ s.underway.take n, underway := s.underway.drop n }
  | choke (room : Nat) (f : Fault) : s.peer = .opened → Met s (.choke room f) { s with choke := some (room, f) }
  | discard (lost : Bool) : s.peer = .opened →
      (lost = true ↔ s.discarded = true ∨ s.shut = true ∧ s.waiting ≠ []) →
        Met s .discard { s with discarded := lost }
  | refuse : s.peer = .closed → Met s .refuse { s with peer := .gone }
  | still (act : Act) : s.peer ≠ .opened ∨ act = .refuse → Met s act s

/-- **An act comes to one of these.** -/
theorem meet_met (s : Socket) (act : Act) : Met s act (s.meet act) := by
  unfold meet
  by_cases ho : s.peer = .opened
  · rw [if_pos ho]
    cases act with
    | send octets => exact .send octets ho
    | close => exact .close ho
    | reset => exact .reset ho
    | arrive count => exact .arrive count _ ho (fun hd => if_pos hd) fun hd => if_neg (by simp [hd])
    | choke room f => exact .choke room f ho
    | discard => exact .discard _ ho (by simp)
    | refuse => exact .still _ (.inr rfl)
  · rw [if_neg ho]
    split
    · rename_i hc
      rw [hc.2]
      exact .refuse hc.1
    · exact .still _ (.inl ho)

/-- What can be read is the same after an act that concerns only what we write. -/
theorem meet_outward (h : act.outward = true) : (s.meet act).waiting = s.waiting ∧ (s.meet act).peer = s.peer := by
  have hm := s.meet_met act
  generalize s.meet act = t at hm
  cases hm with
  | send | close | reset | refuse => cases h
  | arrive | choke | discard | still => exact ⟨rfl, rfl⟩

/-- **What was taken stays taken**, and what was received stays received. -/
theorem meet_taken (s : Socket) (act : Act) : (s.meet act).taken = s.taken := by
  have hm := s.meet_met act
  generalize s.meet act = t at hm
  cases hm with
  | arrive count n =>
    change (s.received ++ s.underway.take n) ++ s.underway.drop n = _
    rw [List.append_assoc, List.take_append_drop]
    rfl
  | _ => rfl

theorem received_prefix_taken (s : Socket) : s.received <+: s.taken := List.prefix_append _ _

/-- **Where it is over, nothing more arrives.** -/
theorem meet_received_of_severed (h : s.severed = true) (act : Act) : (s.meet act).received = s.received := by
  have hm := s.meet_met act
  generalize s.meet act = t at hm
  cases hm with
  | arrive count n ho hn =>
    have hd : s.discarded = true := by simpa [severed, ho] using h
    change s.received ++ s.underway.take n = s.received
    rw [hn hd, List.take_zero, List.append_nil]
  | _ => rfl

theorem meet_severed (h : s.severed = true) (act : Act) : (s.meet act).severed = true := by
  have hm := s.meet_met act
  generalize s.meet act = t at hm
  cases hm with
  | close | reset | refuse => simp [severed]
  | discard lost ho hl =>
    have hd : s.discarded = true := by simpa [severed, ho] using h
    simp [severed, hl.2 (.inl hd)]
  | _ => exact h

/-- **Everything taken can arrive** as long as the other end is open and nothing was discarded. -/
theorem deliver_received (h : s.severed = false) : s.deliver.received = s.taken := by
  obtain ⟨ho, hd⟩ : s.peer = .opened ∧ s.discarded = false := by simpa [severed] using h
  simp [deliver, meet, ho, hd, taken]

/-- **What has not arrived is discarded only at an end that is shut**, with octets waiting there. -/
theorem discarded_of_meet (h : (s.meet act).discarded = true) :
    s.discarded = true ∨ s.shut = true ∧ s.waiting ≠ [] ∧ act = .discard := by
  have hm := s.meet_met act
  generalize s.meet act = t at hm h
  cases hm with
  | discard lost ho hl => exact (hl.1 h).imp_right fun hs => ⟨hs.1, hs.2, rfl⟩
  | _ => exact .inl h

theorem meet_choke (hact : ∀ room f, act ≠ .choke room f) (h : s.choke = none) : (s.meet act).choke = none := by
  have hm := s.meet_met act
  generalize s.meet act = t at hm
  cases hm with
  | choke room f => exact absurd rfl (hact room f)
  | _ => exact h

/-- An act leaves our side as it is and opens no other end. -/
theorem meet_open (s : Socket) (act : Act) :
    (s.meet act).shut = s.shut ∧ ((s.meet act).peer = .opened → s.peer = .opened) := by
  have hm := s.meet_met act
  generalize s.meet act = t at hm
  cases hm with
  | close | reset | refuse => exact ⟨rfl, nofun⟩
  | _ => exact ⟨rfl, id⟩

end Socket
end Network
end ChatClient
