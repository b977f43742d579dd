import ChatClient.Network.Exchange
/-!
# Transit — from the other end's writes to our reads

What the other end writes is under way for a while.  It arrives in order and without loss, in pieces of any size and at any
time, and the close arrives behind all of it.  Our reads are made at any moment between.

Whatever the order of all this, the octets that were read, those that wait to be read and those under way are, one behind
the other, the octets that were written (`Faithful`).  So a read brings the octets that come next, at most so many at a
time, and it reports the end only where nothing more will come (`reads_in_order`).
-/
namespace ChatClient
namespace Network

/-! ## One read, one arrival -/

namespace Socket

variable {s : Socket}

theorem read_of_waiting (limit : Nat) (hr : s.peer ≠ .reset) (hw : s.waiting ≠ []) : s.read limit =
    ({ s with waiting := s.waiting.drop (max limit 1) }, .chunk (s.waiting.take (max limit 1))) := by
  rw [read, if_neg hr, if_pos hw]

theorem read_of_opened (limit : Nat) (ho : s.peer = .opened) (hw : s.waiting = []) : s.read limit = (s, .pending) := by
  rw [read, if_neg (by rw [ho]; nofun), if_neg (not_not_intro hw), if_pos ho]

theorem read_of_closed (limit : Nat) (hc : s.peer = .closed) (hw : s.waiting = []) : s.read limit = (s, .ended) := by
  rw [read, if_neg (by rw [hc]; nofun), if_neg (not_not_intro hw), if_neg (by rw [hc]; nofun)]

theorem meet_send (ho : s.peer = .opened) (octets : Bytes) :
    s.meet (.send octets) = { s with waiting := s.waiting ++ octets } := by
  rw [meet.eq_def, if_pos ho]

theorem meet_close (ho : s.peer = .opened) : s.meet .close = { s with peer := .closed } := by
  rw [meet.eq_def, if_pos ho]

end Socket

namespace Exchange

variable {l : Line}

theorem receive_of_waiting (x : Exchange) (hr : l.socket.peer ≠ .reset) (hw : l.socket.waiting ≠ []) : x.receive l =
    ({ x with
        line := some { l with socket := { l.socket with waiting := l.socket.waiting.drop (max l.limit 1) } }
        buffer := x.buffer ++ l.socket.waiting.take (max l.limit 1) },
      { outcome := .received (l.socket.waiting.take (max l.limit 1)).length, ended := l.halfClosed }) := by
  rw [receive, Socket.read_of_waiting l.limit hr hw]
  rfl

theorem receive_of_opened (x : Exchange) (ho : l.socket.peer = .opened) (hw : l.socket.waiting = []) :
    x.receive l = ({ x with line := some l }, { outcome := .pending, ended := l.halfClosed }) := by
  rw [receive, Socket.read_of_opened l.limit ho hw]

theorem receive_of_closed (x : Exchange) (hc : l.socket.peer = .closed) (hw : l.socket.waiting = []) :
    x.receive l = ({ x with line := some l }, { outcome := .ended, ended := l.halfClosed }) := by
  rw [receive, Socket.read_of_closed l.limit hc hw]

end Exchange

/-- A connection in use, with what its other end has written so far, what of it is still under way, and whether the other
end has closed. -/
structure Transit where
  exchange : Exchange
  written : Bytes := []
  underway : Bytes := []
  closed : Bool := false

namespace Transit

inductive Incident where
  | write (octets : Bytes)
  | close
  /-- The next octets under way arrive, at most so many. -/
  | arrive (count : Nat)
  /-- The close arrives, if nothing is under way before it. -/
  | arriveEnd
  | receive

/-- The connection once an act of the other end has arrived. -/
def meet (t : Transit) (act : Act) : Exchange :=
  match t.exchange.meet act with
  | .ok (x, _) => x
  | .error _ => t.exchange

/-- A read, and what it comes to. -/
def receive (t : Transit) : Except Exchange.Misuse (Exchange × Exchange.Shown) := t.exchange.act .isolated .receive

def step (t : Transit) : Incident → Transit
  | .write octets =>
    if t.closed then t else { t with written := t.written ++ octets, underway := t.underway ++ octets }
  | .close => { t with closed := true }
  | .arrive count => { t with exchange := t.meet (.send (t.underway.take count)), underway := t.underway.drop count }
  | .arriveEnd => if t.closed && t.underway.isEmpty then { t with exchange := t.meet .close } else t
  | .receive =>
    match t.receive with
    | .ok (x, _) => { t with exchange := x }
    | .error _ => t

def run (t : Transit) (incidents : List Incident) : Transit := incidents.foldl step t

/-- A connection that was just opened, to be read behind what the buffer holds. -/
def start (peer : Endpoint) (limit : Nat) (buffer : Bytes) : Transit :=
  { exchange := { opened := 1, line := some { peer, limit }, buffer } }

/-! ## Nothing is lost, nothing comes twice -/

/-- The octets written are those in the buffer, behind what it held at first, those that wait, and those under way; and the
end has arrived only behind all of them. -/
structure Faithful (limit : Nat) (buffer : Bytes) (l : Line) (t : Transit) : Prop where
  line : t.exchange.line = some l
  limit : l.limit = limit
  read : ∃ got, t.exchange.buffer = buffer ++ got ∧ got ++ (l.socket.waiting ++ t.underway) = t.written
  peer : l.socket.peer = .opened ∨ l.socket.peer = .closed ∧ t.closed = true ∧ t.underway = []

variable {limit : Nat} {buffer : Bytes} {l : Line} {t : Transit}

theorem faithful_start (peer : Endpoint) (limit : Nat) (buffer : Bytes) :
    Faithful limit buffer { peer, limit } (start peer limit buffer) where
  line := rfl
  limit := rfl
  read := ⟨[], (List.append_nil buffer).symm, rfl⟩
  peer := .inl rfl

theorem meet_opened (hl : t.exchange.line = some l) (ho : l.socket.peer = .opened) (act : Act) :
    t.meet act = { t.exchange with line := some { l with socket := l.socket.meet act } } := by
  simp only [meet, Exchange.meet, hl, ho, if_true]

theorem meet_closed (hl : t.exchange.line = some l) (hc : l.socket.peer = .closed) (act : Act) :
    t.meet act = t.exchange := by
  cases act <;> simp [meet, Exchange.meet, hl, hc]

namespace Faithful

theorem arrive (h : Faithful limit buffer l t) (count : Nat) : ∃ l', Faithful limit buffer l' (t.step (.arrive count)) := by
  obtain ⟨got, hbuffer, hwritten⟩ := h.read
  rw [step]
  rcases h.peer with ho | ⟨hc, hclosed, hnone⟩
  · rw [meet_opened h.line ho, Socket.meet_send ho]
    refine ⟨_, rfl, h.limit, ⟨got, hbuffer, ?_⟩, .inl ho⟩
    rw [List.append_assoc, List.take_append_drop]
    exact hwritten
  · rw [meet_closed h.line hc, hnone, List.drop_nil]
    rw [hnone] at hwritten
    exact ⟨l, h.line, h.limit, ⟨got, hbuffer, hwritten⟩, .inr ⟨hc, hclosed, rfl⟩⟩

theorem arriveEnd (h : Faithful limit buffer l t) : ∃ l', Faithful limit buffer l' (t.step .arriveEnd) := by
  rw [step]
  split
  · rename_i hend
    rw [Bool.and_eq_true, List.isEmpty_iff] at hend
    rcases h.peer with ho | ⟨hc, -⟩
    · rw [meet_opened h.line ho, Socket.meet_close ho]
      exact ⟨_, rfl, h.limit, h.read, .inr ⟨rfl, hend⟩⟩
    · rw [meet_closed h.line hc]
      exact ⟨l, h⟩
  · exact ⟨l, h⟩

theorem write (h : Faithful limit buffer l t) (octets : Bytes) : Faithful limit buffer l (t.step (.write octets)) := by
  rw [step]
  split
  · exact h
  · rename_i hclosed
    obtain ⟨got, hbuffer, hwritten⟩ := h.read
    have ho : l.socket.peer = .opened := h.peer.resolve_right fun hp => hclosed hp.2.1
    refine ⟨h.line, h.limit, ⟨got, hbuffer, ?_⟩, .inl ho⟩
    rw [← hwritten, List.append_assoc, List.append_assoc]

theorem close (h : Faithful limit buffer l t) : Faithful limit buffer l (t.step .close) :=
  ⟨h.line, h.limit, h.read, h.peer.imp_right fun hp => ⟨hp.1, rfl, hp.2.2⟩⟩

end Faithful

/-! ## What a read comes to -/

/-- Every later read reports the end and brings nothing, whatever happens before it. -/
def Over (t : Transit) : Prop :=
  ∀ later : List Incident, ∃ x shown, (t.run later).receive = .ok (x, shown) ∧ shown.outcome = .ended ∧
    x.buffer = t.exchange.buffer

/-- What a read may come to, with the connection `x` behind it, when the buffer held `buffer` at first:
- octets, at least one and at most so many, put behind what was read before;
- nothing, while everything that has arrived is read and the end has not arrived;
- the end, when the other end has closed and everything it wrote is read, and then every time. -/
inductive Honest (limit : Nat) (buffer : Bytes) (t : Transit) (x : Exchange) : Exchange.Outcome → Prop
  | received (octets : Bytes) : 1 ≤ octets.length → octets.length ≤ max limit 1 →
      x.buffer = t.exchange.buffer ++ octets → Honest limit buffer t x (.received octets.length)
  | pending : x.buffer = t.exchange.buffer → t.exchange.buffer ++ t.underway = buffer ++ t.written →
      Honest limit buffer t x .pending
  | ended : x.buffer = t.exchange.buffer → t.closed = true → t.exchange.buffer = buffer ++ t.written →
      Over { t with exchange := x } → Honest limit buffer t x .ended

theorem receive_eq (hl : t.exchange.line = some l) : t.receive = .ok (t.exchange.receive l) := by
  rw [receive, Exchange.act, Exchange.act.onLine, hl]

theorem step_receive (hl : t.exchange.line = some l) :
    t.step .receive = { t with exchange := (t.exchange.receive l).1 } := by
  rw [step, receive_eq hl]

/-- Nothing waits, nothing is under way, and the end has arrived. -/
structure Drained (l : Line) (t : Transit) : Prop where
  line : t.exchange.line = some l
  peer : l.socket.peer = .closed
  waiting : l.socket.waiting = []
  closed : t.closed = true
  underway : t.underway = []

theorem Drained.receive (h : Drained l t) :
    t.exchange.receive l = (t.exchange, { outcome := .ended, ended := l.halfClosed }) := by
  rw [Exchange.receive_of_closed t.exchange h.peer h.waiting, ← h.line]

theorem Drained.step (h : Drained l t) (i : Incident) :
    Drained l (t.step i) ∧ (t.step i).exchange.buffer = t.exchange.buffer := by
  cases i with
  | write octets => rw [Transit.step, if_pos h.closed]; exact ⟨h, rfl⟩
  | close => exact ⟨⟨h.line, h.peer, h.waiting, rfl, h.underway⟩, rfl⟩
  | arrive count =>
    rw [Transit.step, meet_closed h.line h.peer]
    refine ⟨⟨h.line, h.peer, h.waiting, h.closed, ?_⟩, rfl⟩
    change t.underway.drop count = []
    rw [h.underway, List.drop_nil]
  | arriveEnd =>
    rw [Transit.step, meet_closed h.line h.peer]
    split <;> exact ⟨h, rfl⟩
  | receive =>
    rw [step_receive h.line, h.receive]
    exact ⟨h, rfl⟩

/-- **A connection from which all was read stays so**, and every read reports its end. -/
theorem Drained.over (h : Drained l t) : Over t := by
  intro later
  induction later generalizing t with
  | nil =>
    have hend : t.receive = .ok (t.exchange, { outcome := .ended, ended := l.halfClosed }) := by
      rw [receive_eq h.line, h.receive]
    exact ⟨_, _, hend, rfl, rfl⟩
  | cons i later ih =>
    obtain ⟨hnext, hbuffer⟩ := h.step i
    obtain ⟨x, shown, hx, hshown, hsame⟩ := ih hnext
    exact ⟨x, shown, hx, hshown, hsame.trans hbuffer⟩

/-- **A read is honest, and it keeps what was written together.** -/
theorem Faithful.receive (h : Faithful limit buffer l t) :
    (∃ l', Faithful limit buffer l' (t.step .receive)) ∧
      ∃ x shown, t.receive = .ok (x, shown) ∧ Honest limit buffer t x shown.outcome := by
  obtain ⟨got, hbuffer, hwritten⟩ := h.read
  rw [step_receive h.line, receive_eq h.line]
  by_cases hw : l.socket.waiting = []
  · have hall : t.exchange.buffer ++ t.underway = buffer ++ t.written := by
      rw [hbuffer, ← hwritten, hw, List.nil_append, List.append_assoc]
    rcases h.peer with ho | ⟨hc, hclosed, hnone⟩
    · rw [Exchange.receive_of_opened _ ho hw]
      exact ⟨⟨l, rfl, h.limit, h.read, h.peer⟩, _, _, rfl, .pending rfl hall⟩
    · rw [Exchange.receive_of_closed _ hc hw]
      rw [hnone, List.append_nil] at hall
      have hdrained : Drained l { t with exchange := { t.exchange with line := some l } } := ⟨rfl, hc, hw, hclosed, hnone⟩
      exact ⟨⟨l, rfl, h.limit, h.read, h.peer⟩, _, _, rfl, .ended rfl hclosed hall hdrained.over⟩
  · have hr : l.socket.peer ≠ .reset := by
      rcases h.peer with hp | ⟨hp, -⟩
      · rw [hp]; nofun
      · rw [hp]; nofun
    have hlength : (l.socket.waiting.take (max l.limit 1)).length = min (max l.limit 1) l.socket.waiting.length :=
      List.length_take
    have hpos := List.length_pos_iff.2 hw
    have hlimit := h.limit
    rw [Exchange.receive_of_waiting _ hr hw]
    refine ⟨⟨_, rfl, h.limit, ⟨got ++ l.socket.waiting.take (max l.limit 1), ?_, ?_⟩, h.peer⟩, _, _, rfl,
      .received _ (by omega) (by omega) rfl⟩
    · change t.exchange.buffer ++ _ = _
      rw [hbuffer, List.append_assoc]
    · change got ++ l.socket.waiting.take _ ++ (l.socket.waiting.drop _ ++ t.underway) = t.written
      rw [List.append_assoc, ← List.append_assoc (l.socket.waiting.take _), List.take_append_drop]
      exact hwritten

theorem Faithful.step (h : Faithful limit buffer l t) (i : Incident) : ∃ l', Faithful limit buffer l' (t.step i) := by
  cases i with
  | write octets => exact ⟨l, h.write octets⟩
  | close => exact ⟨l, h.close⟩
  | arrive count => exact h.arrive count
  | arriveEnd => exact h.arriveEnd
  | receive => exact h.receive.1

theorem Faithful.run (h : Faithful limit buffer l t) (incidents : List Incident) :
    ∃ l', Faithful limit buffer l' (t.run incidents) := by
  induction incidents generalizing l t with
  | nil => exact ⟨l, h⟩
  | cons i incidents ih =>
    obtain ⟨l', hnext⟩ := h.step i
    exact ih hnext

/-- **Reads lose nothing and take no live end for a closed one**, whatever the limit of a read (zero counts as one), whatever
the buffer held before, and in every order of writes, arrivals and reads.
- The octets put behind what the buffer held are always the first octets that the other end has written.
- The next read comes to what `Honest` allows. -/
theorem reads_in_order (peer : Endpoint) (limit : Nat) (buffer : Bytes) (incidents : List Incident) :
    let t := (start peer limit buffer).run incidents
    (∃ got, t.exchange.buffer = buffer ++ got ∧ got <+: t.written) ∧
      ∃ x shown, t.receive = .ok (x, shown) ∧ Honest limit buffer t x shown.outcome := by
  intro t
  obtain ⟨l, h⟩ := (faithful_start peer limit buffer).run incidents
  obtain ⟨got, hbuffer, hwritten⟩ := h.read
  refine ⟨⟨got, hbuffer, ?_⟩, h.receive.2⟩
  rw [← hwritten]
  exact List.prefix_append _ _

end Transit
end Network
end ChatClient
