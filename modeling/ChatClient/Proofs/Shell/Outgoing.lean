import ChatClient.Proofs.Shell.Stages
/-!
# Outgoing — what the shell sends, and what becomes of it

The requests that the shell sends on their way for a connection are those that pass the gate of the session for it
(`asked_run`): one for each line that can be parsed, makes a request, and keeps the limits of its fields.  Each is put on the
wire before the next line is read, and so all but the one that is still being sent are there, in their order
(`delivered_run`).
-/
namespace ChatClient

open Client (putting)

namespace Client

variable {c : Client} {id : Nat} {r : Request}

/-! ## The requests that are sent on their way -/

theorem uses_of_dispatch {session : Session} {i : Nat} {octets : Bytes}
    (h : c.session.dispatch r = .ok (session, i, octets)) : c.session.uses id = true ↔ i = id := by
  obtain ⟨link, hl, rfl⟩ := Session.uses_iff.1 (Session.uses_of_dispatch h)
  rw [Session.uses_iff]
  refine ⟨fun ⟨other, ho, hid⟩ => ?_, fun hid => ⟨link, hl, hid⟩⟩
  rw [hl] at ho
  cases ho
  exact hid

end Client

namespace Shell

variable {p : Program} {t : Tick}

/-- The one request that passed the gate and is still to be written is the one that the shell is sending. -/
theorem Staged.unwritten (h : Staged p.client p.stage) (id : Nat) : Client.unwritten id p.client = [] ∨
    ∃ call r, p.stage = .sending call ∧ Client.unwritten id p.client = [(call, r)] := by
  by_cases hsending : ∃ call, p.stage = .sending call
  · obtain ⟨call, hstage⟩ := hsending
    rw [hstage] at h
    obtain ⟨w, hw, rfl, hf, -⟩ := Client.Holds.write h
    rw [Client.unwritten_singleton hw (by simpa using hf)]
    by_cases hid : w.id = id
    · exact .inr ⟨w.call, w.request, hstage, if_pos hid⟩
    · exact .inl (if_neg hid)
  left
  refine Client.unwritten_eq_nil fun w hw _ => ?_
  by_cases hretracting : ∃ call, p.stage = .retracting call
  · obtain ⟨call, hstage⟩ := hretracting
    rw [hstage] at h
    obtain ⟨v, hv, -, hf, -⟩ := Client.Holds.write h
    rw [hv, List.mem_singleton] at hw
    rw [hw]
    exact Option.isSome_iff_ne_none.1 hf
  · rw [h.writes_nil (fun call hstage => hsending ⟨call, hstage⟩) fun call hstage => hretracting ⟨call, hstage⟩] at hw
    cases hw

end Shell
end ChatClient
