import ChatClient.Frame.Buffer
import ChatClient.Proofs.Frame.Chunking
import ChatClient.Proofs.Frame.Requests
import Mathlib.Data.List.Infix
/-!
# Transfer — what is put on a stream comes out of it

Messages are put onto one buffer one after the other; what is refused leaves no trace (`Request.put_eq`,
`Response.put_eq`).  The other end reads the stream in chunks.  However it is cut, what comes out of a front of the stream
are the messages whose last octet is in it (`Transfers`), because no proper front of a whole frame is a frame
(`Inbound.next_of_front`).
-/
namespace ChatClient

open ChatClient.Frame

/-! ## Putting -/

theorem Frame.putFields_eq (buffer : Bytes) (fs : List Field) :
    putFields buffer fs = buffer ++ fs.flatMap fun f => text f.value := by
  induction fs generalizing buffer with
  | nil => exact (List.append_nil _).symm
  | cons f fs ih =>
    change putFields (buffer ++ Bytes.word32 (Utf8.size f.value) ++ Utf8.encode f.value) fs = _
    rw [ih, List.flatMap_cons, text, List.append_assoc, List.append_assoc, List.append_assoc]

/-- **A request is put as it is encoded**, or not at all. -/
theorem Request.put_eq (buffer : Bytes) (r : Request) : r.put buffer =
    match r.encode with
    | .ok octets => (.ok (), buffer ++ octets)
    | .error e => (.error e, buffer) := by
  unfold put encode
  cases r.check with
  | error e => rfl
  | ok u =>
    change (Except.ok (), putFields _ _) = (Except.ok (), buffer ++ r.frame)
    rw [putFields_eq, List.append_assoc]
    rfl

theorem Response.put_eq (buffer : Bytes) (m : Response) : m.put buffer =
    match m.encode with
    | .ok octets => (.ok (), buffer ++ octets)
    | .error e => (.error e, buffer) := by
  cases m with
  | ack c code =>
    change (Except.ok (), _) = (Except.ok (), _)
    rw [List.append_assoc]
    rfl
  | delivery sender message =>
    unfold put encode
    dsimp only
    cases checkFields _ with
    | error e => rfl
    | ok u =>
      change (Except.ok (), putFields _ _) = (Except.ok (), buffer ++ (delivery sender message).frame)
      simp [putFields_eq, frame, Frame.opcode]

theorem Frame.putAll_eq {α : Type} {put : Bytes → α → Except FrameError Unit × Bytes}
    {encode : α → Except FrameError Bytes} {frame : α → Bytes} (hput : ∀ buffer m, put buffer m = match encode m with
      | .ok octets => (.ok (), buffer ++ octets)
      | .error e => (.error e, buffer))
    (hframe : ∀ m octets, encode m = .ok octets → frame m = octets) (buffer : Bytes) (ms : List α) :
    putAll put buffer ms = (ms.map fun m => (encode m).map fun _ => (),
      buffer ++ (ms.filter fun m => (encode m).isOk).flatMap frame) := by
  induction ms generalizing buffer with
  | nil => simp [putAll]
  | cons m ms ih =>
    rw [putAll, hput, List.map_cons]
    cases hm : encode m with
    | error e =>
      rw [List.filter_cons_of_neg (by rw [hm]; nofun)]
      simp only [ih]
      rfl
    | ok octets =>
      rw [List.filter_cons_of_pos (by rw [hm]; rfl), List.flatMap_cons, hframe m octets hm, ← List.append_assoc]
      simp only [ih]
      rfl

/-! ## Whole frames -/

theorem Frame.texts_text {limit count : Nat} {s : String} {rest : Bytes} (hs : Utf8.size s ≤ limit)
    (hm : limit ≤ Bytes.maxLength) (h : Texts limit count rest) : Texts limit (count + 1) (text s ++ rest) := by
  have hlt : Utf8.size s < 4294967296 := Nat.lt_succ_of_le (Nat.le_trans hs hm)
  rw [text, List.append_assoc]
  exact .cons (s := Utf8.encode s) (Bytes.ofWord32_word32 hlt).symm hs h

theorem Frame.texts_fields {limit : Nat} (hm : limit ≤ Bytes.maxLength) : ∀ {fs : List Field},
    (∀ f ∈ fs, Utf8.size f.value ≤ limit) → Texts limit fs.length (fs.flatMap fun f => text f.value)
  | [], _ => .nil
  | f :: fs, h => by
    obtain ⟨hf, hfs⟩ := List.forall_mem_cons.1 h
    exact texts_text hf hm (texts_fields hm hfs)

/-- **A request is a whole frame to a server** if no text of it is above the server's limit. -/
theorem Request.whole {r : Request} {limit : Nat} (hm : limit ≤ Bytes.maxLength)
    (h : ∀ f ∈ r.fields, Utf8.size f.value ≤ limit) : Whole Inbound.requests.layout limit r.frame := by
  refine ⟨r.opcode, .texts r.fields.length, r.body, rfl, ?_, texts_fields hm h⟩
  cases r <;> rfl

/-- **A request within its limits is a whole frame to a server.** -/
theorem Request.Fits.whole {r : Request} (h : r.Fits) :
    Whole Inbound.requests.layout Inbound.requests.limit r.frame := by
  refine Request.whole (by decide) fun f hf => ?_
  have h1 := h f hf
  have h2 := r.limit_le f hf
  rw [maxMessageLength] at h2
  show _ ≤ Inbound.defaultLimit
  rw [Inbound.defaultLimit]
  omega

/-! ## What comes out of a front of a stream -/

namespace Inbound

variable {α : Type} {g : Inbound α} {frame : α → Bytes} {ms : List α} {b f t : Bytes}

/-- **No proper front of a whole frame is a frame.** -/
theorem next_of_front (h : Whole g.layout g.limit f) (hb : b <+: f) (hlt : b.length < f.length) : g.next b = none := by
  obtain ⟨t, rfl⟩ := hb
  have hextent : extent g.layout g.limit b = .ok none := by
    refine Classical.byContradiction fun hne => ?_
    have hwhole := extent_of_whole h []
    rw [List.append_nil, extent_append hne] at hwhole
    exact absurd (extent_le hwhole).2 (Nat.not_le.2 hlt)
  simp only [next, hextent]

/-- **However a stream of these messages is cut, they come out of it**: from all of it all of them, and from a front of it
those whose last octet is in the front. -/
structure Transfers (g : Inbound α) (frame : α → Bytes) (ms : List α) : Prop where
  all : ∀ chunks : List Bytes, chunks.flatten = ms.flatMap frame → g.feedAll [] chunks = (ms.map .ok, [])
  front : ∀ chunks : List Bytes, chunks.flatten <+: ms.flatMap frame → ∃ k ≤ ms.length,
    (∀ i < ms.length, i < k ↔ ((ms.take (i + 1)).flatMap frame).length ≤ chunks.flatten.length) ∧
    g.feedAll [] chunks = ((ms.take k).map .ok, chunks.flatten.drop ((ms.take k).flatMap frame).length)

/-- The other end takes these messages as whole frames and reads them as what they are. -/
def Takes (g : Inbound α) (frame : α → Bytes) (ms : List α) : Prop :=
  ∀ m ∈ ms, Whole g.layout g.limit (frame m) ∧ g.read (frame m) = .ok m

theorem drain_front (h : Takes g frame ms) (hb : b <+: ms.flatMap frame) : ∃ k ≤ ms.length,
    (∀ i < ms.length, i < k ↔ ((ms.take (i + 1)).flatMap frame).length ≤ b.length) ∧
    g.drain b = ((ms.take k).map .ok, b.drop ((ms.take k).flatMap frame).length) := by
  induction ms generalizing b with
  | nil =>
    rw [List.flatMap_nil, List.prefix_nil] at hb
    subst hb
    exact ⟨0, Nat.le_refl 0, nofun, drain_of_next_none (next_eq_none_iff.2 (.inl Nat.zero_lt_two))⟩
  | cons m ms ih =>
    obtain ⟨⟨hwhole, hread⟩, hms⟩ := List.forall_mem_cons.1 h
    rw [List.flatMap_cons] at hb
    by_cases hlen : (frame m).length ≤ b.length
    · -- The first frame is there; what follows it is a front of the others.
      obtain ⟨t, rfl⟩ : frame m <+: b := List.prefix_of_prefix_length_le (List.prefix_append ..) hb hlen
      obtain ⟨k, hk, hcount, hdrain⟩ := ih hms ((List.prefix_append_right_inj _).1 hb)
      refine ⟨k + 1, Nat.succ_le_succ hk, fun i hi => ?_, ?_⟩
      · cases i with
        | zero => simp
        | succ i =>
          rw [Nat.succ_lt_succ_iff, hcount i (Nat.lt_of_succ_lt_succ hi), List.take_succ_cons, List.flatMap_cons,
            List.length_append, List.length_append, Nat.add_le_add_iff_left]
      · rw [drain_of_next (next_of_whole hwhole t), hread, hdrain, List.take_succ_cons, List.flatMap_cons,
          List.length_append, List.drop_length_add_append]
        rfl
    · -- Not even the first frame is there.
      have hfront : b <+: frame m :=
        List.prefix_of_prefix_length_le hb (List.prefix_append ..) (Nat.le_of_not_le hlen)
      refine ⟨0, Nat.zero_le _, fun i hi => ?_, drain_of_next_none (next_of_front hwhole hfront (Nat.not_le.1 hlen))⟩
      rw [List.take_succ_cons, List.flatMap_cons, List.length_append]
      omega

theorem Sound.transfers (hg : g.Sound) (h : Takes g frame ms) : Transfers g frame ms := by
  have hfront : ∀ chunks : List Bytes, chunks.flatten <+: ms.flatMap frame → ∃ k ≤ ms.length,
      (∀ i < ms.length, i < k ↔ ((ms.take (i + 1)).flatMap frame).length ≤ chunks.flatten.length) ∧
      g.feedAll [] chunks = ((ms.take k).map .ok, chunks.flatten.drop ((ms.take k).flatMap frame).length) := by
    intro chunks hchunks
    obtain ⟨k, hk, hcount, hdrain⟩ := drain_front h hchunks
    refine ⟨k, hk, hcount, ?_⟩
    have hpiece : g.feedAll [] [chunks.flatten] = g.drain chunks.flatten := by
      simp [feedAll, feed]
    have hsteady : Steady (g.feedAll [] [chunks.flatten]).1 := by
      rw [hpiece, hdrain]
      intro out hout
      obtain ⟨m, -, rfl⟩ := List.mem_map.1 hout
      rfl
    have hsame := ((hg.cutFree [chunks.flatten] chunks (by simp)).2 hsteady).2
    rw [← hsame, hpiece, hdrain]
  refine ⟨fun chunks hchunks => ?_, hfront⟩
  obtain ⟨k, hk, hcount, hfeed⟩ := hfront chunks (hchunks ▸ List.prefix_refl _)
  have hall : k = ms.length := by
    refine Nat.le_antisymm hk (Nat.le_of_not_lt fun hlt => ?_)
    refine Nat.lt_irrefl k ((hcount k hlt).2 ?_)
    rw [hchunks]
    exact (List.IsPrefix.flatMap (List.take_prefix _ _) _).length_le
  rw [hfeed, hchunks, hall, List.take_length, List.drop_length]

end Inbound

/-- A request that can be encoded. -/
def Request.sendable (r : Request) : Bool := r.encode.isOk

theorem Request.sendable_iff {r : Request} : r.sendable = true ↔ r.Fits := by
  unfold sendable
  cases h : r.encode with
  | ok b => exact ⟨fun _ => (encode_eq_ok_iff.1 h).1, fun _ => rfl⟩
  | error e =>
    refine ⟨nofun, fun hfits => ?_⟩
    rw [encode_eq_ok_iff.2 ⟨hfits, rfl⟩] at h
    cases h

theorem Request.takes_of_fits {rs : List Request} (h : ∀ r ∈ rs, r.Fits) : Inbound.Takes Inbound.requests frame rs :=
  fun r hr => ⟨(h r hr).whole, decode_eq_ok_iff.2 ⟨(h r hr).statable, rfl⟩⟩

theorem Request.takes (rs : List Request) : Inbound.Takes Inbound.requests frame (rs.filter sendable) :=
  takes_of_fits fun _ hr => sendable_iff.1 (List.mem_filter.1 hr).2

/-- **A response within the limit of a client is a whole frame to it.** -/
theorem Response.whole {limit : Nat} (hlimit : limit ≤ Bytes.maxLength) {m : Response}
    (h : ∀ s ∈ m.texts, Utf8.size s ≤ limit) :
    Whole (Inbound.responses limit).layout (Inbound.responses limit).limit m.frame := by
  rw [frame_eq]
  cases m with
  | ack c code => exact ⟨_, .code, _, rfl, rfl, rfl⟩
  | delivery sender message =>
    obtain ⟨hsender, hmessage, -⟩ := List.forall_mem_cons.1 h |>.imp_right List.forall_mem_cons.1
    refine ⟨_, .texts 2, _, rfl, rfl, texts_text hsender hlimit ?_⟩
    have hlast := texts_text hmessage hlimit .nil
    rwa [List.append_nil] at hlast

theorem Response.takes {limit : Nat} (hlimit : limit ≤ Bytes.maxLength) {ms : List Response}
    (h : ∀ m ∈ ms, ∀ s ∈ m.texts, Utf8.size s ≤ limit) : Inbound.Takes (Inbound.responses limit) frame ms := by
  intro m hm
  refine ⟨whole hlimit (h m hm), decode_eq_ok_iff.2 (encode_eq_ok_iff.2 ⟨fun s hs => ?_, rfl⟩)⟩
  exact Nat.le_trans (h m hm s hs) hlimit

namespace Inbound

/-- **Messages survive a shared stream, both ways.**
- A request, and likewise a response, is put onto a buffer as it is encoded, or the buffer stays as it was.
- A list of requests put onto a buffer adds the frames of those that can be encoded, in order, and a server reads exactly
  these off it, however it is cut.
- A list of responses with no text above the limit of a client is put as a whole, and this client reads exactly these off
  it, however it is cut.
- From a front of either stream come the messages whose last octet is in it, and its octets behind them are left. -/
theorem messages_survive (rs : List Request) (limit : UInt32) (ms : List Response)
    (hms : ∀ m ∈ ms, ∀ s ∈ m.texts, s.utf8ByteSize ≤ limit.toNat) (buffer : Bytes) :
    (∀ r : Request, r.put buffer = match r.encode with
      | .ok octets => (.ok (), buffer ++ octets)
      | .error e => (.error e, buffer)) ∧
    (putAll Request.put buffer rs = (rs.map fun r => r.encode.map fun _ => (),
      buffer ++ (rs.filter Request.sendable).flatMap Request.frame) ∧
      ∀ r : Request, r.sendable = true ↔ r.encode = .ok r.frame) ∧
    Transfers requests Request.frame (rs.filter Request.sendable) ∧
    (putAll Response.put buffer ms = (ms.map fun _ => .ok (), buffer ++ ms.flatMap Response.frame) ∧
      ∀ m ∈ ms, m.encode = .ok m.frame) ∧
    Transfers (responses limit.toNat) Response.frame ms := by
  have hlimit : limit.toNat ≤ Bytes.maxLength := Nat.le_of_lt_succ limit.toNat_lt
  simp only [← Utf8.size_eq] at hms
  have hencode : ∀ m ∈ ms, m.encode = .ok m.frame := fun m hm =>
    Response.encode_eq_ok_iff.2 ⟨fun s hs => Nat.le_trans (hms m hm s hs) hlimit, rfl⟩
  have hsendable : ∀ r : Request, r.sendable = true ↔ r.encode = .ok r.frame := fun r => by
    rw [Request.sendable_iff, Request.encode_eq_ok_iff, and_iff_left rfl]
  refine ⟨Request.put_eq buffer, ⟨?_, hsendable⟩, requests_sound.transfers (Request.takes rs), ⟨?_, hencode⟩,
    (responses_sound _).transfers (Response.takes hlimit hms)⟩
  · exact putAll_eq Request.put_eq (fun r octets h => (Request.encode_eq_ok_iff.1 h).2) buffer rs
  · rw [putAll_eq Response.put_eq (fun m octets h => (Response.encode_eq_ok_iff.1 h).2) buffer ms,
      List.filter_eq_self.2 fun m hm => by rw [hencode m hm]; rfl]
    refine congrArg (·, _) (List.map_congr_left fun m hm => ?_)
    rw [hencode m hm]
    rfl

/-- A whisper for a name of 33 octets leaves no trace between two requests, and two responses come out of pieces that cut
both of them; the front of the second yields nothing yet. -/
theorem messages_survive_cuts :
    let long : Request := .whisper "ooooooooooooooooooooooooooooooooo" "hi"
    let rs : List Request := [.join "lobby", long, .shout "hi"]
    let ms : List Response := [.ack .login ⟨0⟩, .delivery "eve" "hi"]
    (∀ m ∈ ms, ∀ s ∈ m.texts, s.utf8ByteSize ≤ (3 : UInt32).toNat) ∧
    (putAll Request.put [] rs).2 = [0, 202, 0, 0, 0, 5, 108, 111, 98, 98, 121, 0, 203, 0, 0, 0, 2, 104, 105] ∧
    requests.feedAll [] [[0, 202, 0, 0, 0, 5, 108, 111, 98, 98, 121, 0], [203, 0, 0, 0, 2, 104, 105]] =
      ([.ok (.join "lobby"), .ok (.shout "hi")], []) ∧
    (responses 3).feedAll [] [[0], [200, 0, 0, 1], [43, 0, 0, 0, 3, 101, 118, 101, 0, 0, 0, 2, 104, 105]] =
      ([.ok (.ack .login ⟨0⟩), .ok (.delivery "eve" "hi")], []) ∧
    (responses 3).feedAll [] [[0], [200, 0, 0, 1]] = ([.ok (.ack .login ⟨0⟩)], [1]) := by
  intro long rs ms
  have hms : ∀ m ∈ ms, ∀ s ∈ m.texts, s.utf8ByteSize ≤ (3 : UInt32).toNat := by decide +kernel
  obtain ⟨-, ⟨hput, -⟩, hrequests, -, hresponses⟩ := messages_survive rs 3 ms hms []
  have hsendable : rs.filter Request.sendable = [.join "lobby", .shout "hi"] := by decide +kernel
  rw [hsendable] at hput hrequests
  obtain ⟨k, hk, hcount, hfront⟩ := hresponses.front [[0], [200, 0, 0, 1]] (by decide +kernel)
  have hone : k = 1 := by
    have h0 := (hcount 0 (by decide)).2 (by decide +kernel)
    have h1 := mt (hcount 1 (by decide)).1 (by decide +kernel)
    omega
  subst hone
  exact ⟨hms, congrArg Prod.snd hput, hrequests.all _ (by decide +kernel), hresponses.all _ (by decide +kernel), hfront⟩

end Inbound
end ChatClient
