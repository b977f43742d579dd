import ChatClient.Proofs.Client.Loop
import ChatClient.Proofs.Frame.Delimiting
import ChatClient.Proofs.Frame.Retention
import ChatClient.Proofs.Network.Underway
/-!
# Intake — what a connection has still to hand on

The octets a connection has still to hand on are those in its buffer, those that wait in its socket, and those that will
arrive while the other end is open.  As long as they are whole frames and the front of one more (`Intake`), a turn of the
loop either keeps them all (`Intake.silent`), or hands on the first frame and keeps the rest (`Intake.output`), or, once
there is no frame left and the other end has closed, reports the end (`Intake.lost`).  Where a frame was cut, when its octets
arrived and how many of them a read takes make no difference, as long as there is room for the reads (`Spacious`).
-/
namespace ChatClient

/-- Whole frames, and behind them the front of one more. -/
structure Inbound.Framed {α : Type} (g : Inbound α) (frames : List Bytes) (tail : Bytes) : Prop where
  whole : ∀ f ∈ frames, Frame.Whole g.layout g.limit f
  unfinished : Frame.Unfinished g.layout g.limit tail

namespace Inbound.Framed

variable {α : Type} {g : Inbound α} {frames : List Bytes} {tail f b more rest : Bytes} {out : Except FrameError α}

theorem later (h : g.Framed (f :: frames) tail) : g.Framed frames tail :=
  ⟨fun f' hf' => h.whole f' (List.mem_cons_of_mem f hf'), h.unfinished⟩

theorem eq_nil_of_next (h : g.Framed frames tail) (hn : g.next (frames.flatten ++ tail) = none) : frames = [] := by
  cases frames with
  | nil => rfl
  | cons f frames =>
    rw [List.flatten_cons, List.append_assoc, next_of_whole (h.whole f List.mem_cons_self)] at hn
    cases hn

/-- **The first output of what has arrived is the first frame**, and what is left behind it is what is left of the stream. -/
theorem of_next (hg : g.Sound) (h : g.Framed frames tail) (hb : b ++ more = frames.flatten ++ tail)
    (hn : g.next b = some (out, rest)) :
    ∃ f left, frames = f :: left ∧ out = g.read f ∧ rest ++ more = left.flatten ++ tail := by
  have hnext := hg.next_append hn more
  rw [hb] at hnext
  cases frames with
  | nil =>
    rw [List.flatten_nil, List.nil_append, next_eq_none_iff.2 h.unfinished] at hnext
    cases hnext
  | cons f left =>
    have hf := h.whole f List.mem_cons_self
    rw [List.flatten_cons, List.append_assoc, next_of_whole hf, Option.some.injEq, Prod.mk.injEq] at hnext
    obtain ⟨hout, hrest⟩ := hnext
    rw [← hout, hg.derails_read hf, if_neg Bool.false_ne_true] at hrest
    exact ⟨f, left, rfl, hout.symm, hrest.symm⟩

end Inbound.Framed

namespace Network.Socket

theorem meet_send_peer (s : Socket) (octets : Bytes) : (s.meet (.send octets)).peer = s.peer := by
  have hm := s.meet_met (.send octets)
  generalize s.meet (.send octets) = t at hm
  cases hm <;> rfl

theorem meet_close_peer {s : Socket} (h : s.peer = .opened ∨ s.peer = .closed) : (s.meet .close).peer = .closed := by
  have hm := s.meet_met .close
  generalize s.meet .close = t at hm
  cases hm with
  | close => rfl
  | still _ hstill => exact h.resolve_left (hstill.resolve_right nofun)

end Network.Socket

/-- There is room for a read behind the longest front of a frame that is kept back. -/
def SessionConfig.Spacious (config : SessionConfig) : Prop :=
  9 + 2 * config.maxFieldLength.toNat + max config.readBufferSize.toNat 1 ≤ Connection.mostRoom

instance (config : SessionConfig) : Decidable config.Spacious := inferInstanceAs (Decidable (_ ≤ _))

namespace Connection

open Network (Act Socket)

/-- The octets that have arrived and were not handed on, and those that will arrive. -/
def ahead (k : Connection) (future : Bytes) : Bytes :=
  k.buffer ++ (k.socket.waiting ++ if k.socket.peer = .opened then future else [])

structure Intake (limit : Nat) (k : Connection) (future : Bytes) (frames : List Bytes) (tail : Bytes) : Prop where
  framed : (Inbound.responses limit).Framed frames tail
  octets : k.ahead future = frames.flatten ++ tail
  running : k.stopped = false
  peer : k.socket.peer = .opened ∨ k.socket.peer = .closed
  drained : k.phase ≠ .draining → (Inbound.responses limit).next k.buffer = none
  leaving : ∀ loss, k.phase = .leaving loss → loss = .closed ∧ k.socket.peer = .closed ∧ k.socket.waiting = []
  alive : k.phase ≠ .ended

namespace Intake

variable {limit : Nat} {config : SessionConfig} {k k' : Connection} {future tail : Bytes} {frames : List Bytes}

/-- A connection from which nothing more can be read has handed on every frame, and keeps the front of the next. -/
theorem all_handed_on (h : k.Intake limit future frames tail) (hp : k.phase ≠ .draining) (hw : k.socket.waiting = [])
    (hf : k.socket.peer = .opened → future = []) : frames = [] ∧ k.buffer = tail := by
  have hbuffer : k.buffer = frames.flatten ++ tail := by
    rw [← h.octets, ahead, hw]
    split
    · rename_i ho
      rw [hf ho, List.append_nil, List.append_nil]
    · rw [List.append_nil, List.append_nil]
  have hnil : frames = [] := h.framed.eq_nil_of_next (hbuffer ▸ h.drained hp)
  refine ⟨hnil, ?_⟩
  rw [hbuffer, hnil]
  rfl

/-- What is kept back is short, so a loop that would read has room for it. -/
theorem roomy (h : k.Intake config.maxFieldLength.toNat future frames tail) (hconfig : config.Spacious)
    (hp : k.phase ≠ .draining) : k.roomy config = true := by
  have hlt := (Inbound.responses_brief config.maxFieldLength.toNat).length_lt (h.drained hp)
  have hlongest : (Inbound.responses config.maxFieldLength.toNat).longest = 10 + 2 * config.maxFieldLength.toNat := rfl
  unfold SessionConfig.Spacious at hconfig
  rw [Connection.roomy, decide_eq_true_eq]
  omega

theorem silent (h : k.Intake config.maxFieldLength.toNat future frames tail) (hconfig : config.Spacious)
    (ht : Turn config k k' none) :
    k'.Intake config.maxFieldLength.toNat future frames tail ∧ k'.socket.peer = k.socket.peer := by
  cases ht with
  | breakDown hp hs hcramped =>
    rw [h.roomy hconfig (by rw [hp]; nofun)] at hcramped
    cases hcramped
  | halt hp hs =>
    rw [h.running] at hs
    cases hs
  | read chunk left hp hs hr hw hne hle =>
    refine ⟨⟨h.framed, ?_, h.running, h.peer, fun hd => absurd rfl hd, nofun, nofun⟩, rfl⟩
    rw [← h.octets, ahead, ahead, hw, List.append_assoc, List.append_assoc]
  | wait => exact ⟨h, rfl⟩
  | sense hp hs hw ho hr =>
    have hn := h.drained (by rw [hp]; nofun)
    refine ⟨⟨h.framed, h.octets, h.running, h.peer, fun _ => hn, ?_, nofun⟩, rfl⟩
    rintro _ ⟨⟩
    exact ⟨rfl, h.peer.resolve_left ho, hw⟩
  | fault hp hs hr => rcases h.peer with ho | ho <;> rw [ho] at hr <;> cases hr
  | pause hp hn => exact ⟨⟨h.framed, h.octets, h.running, h.peer, fun _ => hn, nofun, nofun⟩, rfl⟩
  | rest hp => exact absurd hp h.alive

/-- **What a turn hands on is the first frame**, read. -/
theorem output {out : Except FrameError Response} (h : k.Intake config.maxFieldLength.toNat future frames tail)
    (ht : Turn config k k' (some (.output out))) :
    ∃ f left, frames = f :: left ∧ out = Response.decode f ∧
      k'.Intake config.maxFieldLength.toNat future left tail ∧ k'.socket.peer = k.socket.peer := by
  cases ht with
  | output _ rest hp hn =>
    obtain ⟨f, left, rfl, hout, hoctets⟩ := h.framed.of_next (Inbound.responses_sound _) h.octets hn
    refine ⟨f, left, rfl, hout, ⟨h.framed.later, hoctets, h.running, h.peer, fun hd => absurd hp hd, ?_, h.alive⟩, rfl⟩
    intro loss hl
    rw [hp] at hl
    cases hl

/-- **The end is reported once every frame was handed on** and the other end has closed. -/
theorem lost {loss : Loss} (h : k.Intake config.maxFieldLength.toNat future frames tail)
    (ht : Turn config k k' (some (.lost loss))) :
    loss = .closed ∧ frames = [] ∧ k.socket.peer = .closed ∧ k'.phase = .ended ∧ k'.buffer = tail := by
  cases ht with
  | leave _ hp =>
    obtain ⟨hl, hc, hw⟩ := h.leaving loss hp
    obtain ⟨hnil, htail⟩ := h.all_handed_on (by rw [hp]; nofun) hw (by rw [hc]; nofun)
    exact ⟨hl, hnil, hc, rfl, htail⟩

/-! ## The other end -/

theorem send {octets : Bytes} (h : k.Intake limit (octets ++ future) frames tail) :
    Intake limit { k with socket := k.socket.meet (.send octets) } future frames tail := by
  have hm := k.socket.meet_met (.send octets)
  generalize k.socket.meet (.send octets) = t at hm
  cases hm with
  | send _ ho =>
    refine ⟨h.framed, ?_, h.running, h.peer, h.drained, fun loss hl => ?_, h.alive⟩
    · rw [← h.octets, ahead, ahead, if_pos ho, if_pos ho, List.append_assoc]
    · have hc := (h.leaving loss hl).2.1
      rw [ho] at hc
      cases hc
  | still _ hstill =>
    have ho := hstill.resolve_right nofun
    refine ⟨h.framed, ?_, h.running, h.peer, h.drained, h.leaving, h.alive⟩
    rw [← h.octets, ahead, ahead, if_neg ho, if_neg ho]

theorem close (h : k.Intake limit [] frames tail) :
    Intake limit { k with socket := k.socket.meet .close } future frames tail := by
  have hm := k.socket.meet_met .close
  generalize k.socket.meet .close = t at hm
  cases hm with
  | close ho =>
    refine ⟨h.framed, ?_, h.running, .inr rfl, h.drained, fun loss hl => ?_, h.alive⟩
    · rw [← h.octets, ahead, ahead, if_pos ho, if_neg nofun]
    · obtain ⟨hloss, -, hw⟩ := h.leaving loss hl
      exact ⟨hloss, rfl, hw⟩
  | still _ hstill =>
    have ho := hstill.resolve_right nofun
    refine ⟨h.framed, ?_, h.running, h.peer, h.drained, h.leaving, h.alive⟩
    rw [← h.octets, ahead, ahead, if_neg ho, if_neg ho]

/-- What becomes of the octets that we write makes no difference. -/
theorem outward {act : Act} (h : k.Intake limit future frames tail) (hact : act.outward = true) :
    Intake limit { k with socket := k.socket.meet act } future frames tail := by
  obtain ⟨hw, hp⟩ := Socket.meet_outward (s := k.socket) hact
  refine ⟨h.framed, ?_, h.running, ?_, h.drained, fun loss hl => ?_, h.alive⟩
  · rw [← h.octets, ahead, ahead, hw, hp]
  · rw [hp]
    exact h.peer
  · rw [hw, hp]
    exact h.leaving loss hl

end Intake
end Connection
end ChatClient
