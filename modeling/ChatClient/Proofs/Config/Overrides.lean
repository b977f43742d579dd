import ChatClient.Proofs.Config.RoundTrip
import ChatClient.Proofs.Json.Skipping
/-!
# Overrides — a configuration that names only what it changes

A file may name some of a configuration's settings and leave out the others, in any order, among members that nobody knows
(`ClientConfig.Overrides.Document`).  What is loaded has the settings that are named, and the default for every other one
(`ClientConfig.Overrides.Replaces`), so neither the order nor the strangers make a difference.

Numbers are named as integers of any size.  One that its setting has no room for is refused, and so is a duration of more
seconds than a 64-bit word can count, the nanoseconds' whole seconds among them (`overrides_exactly`).
-/
namespace ChatClient

open Json (Gap Outcome ObjectText StringText Settles WellFormed writeInteger settles_integer writeObject_spells)

/-! ## What is named -/

/-- The texts of the values that the members have under a name. -/
def under (name : String) (members : List (String × List Char)) : List (List Char) :=
  (members.filter (·.1 == name)).map (·.2)

/-- What is named has one text, and what is not named has none. -/
inductive Spells {α : Type} (text : α → List Char → Prop) : Option α → List (List Char) → Prop
  | absent : Spells text none []
  | present {a : α} {v : List Char} : text a v → Spells text (some a) [v]

/-- A setting is what is named for it, and stays what it was if nothing is. -/
def Taken {α β : Type} (right : α → β → Prop) (named : Option α) (old new : β) : Prop :=
  match named with
  | none => new = old
  | some a => right a new

def IntegerText (z : Int) (t : List Char) : Prop := t = writeInteger z

/-- An integer is one of the numbers below a bound. -/
def Below (bound : Nat) (z : Int) : Prop := 0 ≤ z ∧ z < bound

variable {α β : Type} {text : α → List Char → Prop} {right : α → β → Prop} {named : Option α} {name k : String}
  {v : List Char} {members : List (String × List Char)}

theorem under_self : under name ((name, v) :: members) = v :: under name members := by simp [under]

theorem under_other (h : k ≠ name) : under name ((k, v) :: members) = under name members := by simp [under, h]

theorem not_mem_of_under (h : under name members = []) : name ∉ members.map (·.1) := by
  intro hmem
  obtain ⟨⟨k, v⟩, hkv, rfl⟩ := List.mem_map.1 hmem
  have hin : v ∈ under k members := List.mem_map.2 ⟨(k, v), List.mem_filter.2 ⟨hkv, beq_self_eq_true k⟩, rfl⟩
  rw [h] at hin
  cases hin

theorem Spells.of_cons (h : Spells text named (under name ((name, v) :: members))) :
    ∃ a, named = some a ∧ text a v ∧ under name members = [] := by
  rw [under_self] at h
  generalize under name members = texts at h
  cases h with
  | present ha => exact ⟨_, rfl, ha, rfl⟩

theorem Spells.of_nil (h : Spells text named (under name [])) : named = none := by
  cases h
  rfl

theorem Taken.exists_new (h : ∀ a ∈ named, ∃ new, right a new) (old : β) : ∃ new, Taken right named old new := by
  cases named with
  | none => exact ⟨old, rfl⟩
  | some a => exact h a rfl

theorem Taken.unique (hright : ∀ a new new', right a new → right a new' → new = new') {old new new' : β}
    (h : Taken right named old new) (h' : Taken right named old new') : new = new' := by
  cases named with
  | none => exact h.trans h'.symm
  | some a => exact hright a new new' h h'

theorem Below.exists_toNat {bound : Nat} {z : Int} (h : Below bound z) : ∃ n : Nat, n < bound ∧ (n : Int) = z := by
  obtain ⟨hpos, hlt⟩ := h
  exact ⟨z.toNat, by omega, Int.toNat_of_nonneg hpos⟩

/-! ## Durations -/

namespace Duration

/-- The two numbers of a duration, as they are named. -/
structure Numbers where
  seconds : Int
  nanoseconds : Int

namespace Numbers

def InRange (d : Numbers) : Prop := Below 18446744073709551616 d.seconds ∧ Below 4294967296 d.nanoseconds

/-- The whole seconds of both numbers can be counted in a 64-bit word. -/
def Fits (d : Numbers) : Prop := d.seconds + d.nanoseconds / 1000000000 ≤ 18446744073709551615

/-- The duration is as long as the numbers say, with less than a second beside the seconds. -/
structure Measures (d : Numbers) (δ : Duration) : Prop where
  total : (δ.nanoseconds : Int) = d.seconds * 1000000000 + d.nanoseconds
  carried : (δ.seconds : Int) = d.seconds + d.nanoseconds / 1000000000
  subseconds_lt : δ.subseconds < 1000000000

/-- The ways to write a duration, either number first. -/
inductive Text (d : Numbers) : List Char → Prop
  | seconds {t : List Char} :
      ObjectText [("secs", writeInteger d.seconds), ("nanos", writeInteger d.nanoseconds)] t → Text d t
  | nanoseconds {t : List Char} :
      ObjectText [("nanos", writeInteger d.nanoseconds), ("secs", writeInteger d.seconds)] t → Text d t

variable {d : Numbers} {t : List Char}

theorem measures_of_total {δ : Duration} (h : (δ.nanoseconds : Int) = d.seconds * 1000000000 + d.nanoseconds) :
    d.Measures δ := by
  refine ⟨h, ?_, δ.subseconds_lt⟩
  unfold Duration.seconds
  omega

theorem InRange.exists_measures (hr : d.InRange) (hf : d.Fits) : ∃ δ, d.Measures δ := by
  obtain ⟨s, -, hs⟩ := hr.1.exists_toNat
  obtain ⟨n, -, hn⟩ := hr.2.exists_toNat
  have hlt : s * 1000000000 + n < 18446744073709551616 * 1000000000 := by
    unfold Fits at hf
    omega
  have htotal : ((s * 1000000000 + n : Nat) : Int) = d.seconds * 1000000000 + d.nanoseconds := by omega
  exact ⟨⟨s * 1000000000 + n, hlt⟩, measures_of_total htotal⟩

theorem Measures.unique (d : Numbers) (δ δ' : Duration) (h : d.Measures δ) (h' : d.Measures δ') : δ = δ' := by
  have htotal : δ.nanoseconds = δ'.nanoseconds := Int.ofNat.inj (h.total.trans h'.total.symm)
  cases δ
  cases δ'
  cases htotal
  rfl

/-- What the numbers are read as. -/
def Parted (d : Numbers) (x : Parts) : Prop :=
  ∃ s n : Nat, x = ⟨some s, some n⟩ ∧ (s : Int) = d.seconds ∧ (n : Int) = d.nanoseconds

theorem ofParts?_of_lt {s n : Nat} (h : s * 1000000000 + n < 18446744073709551616 * 1000000000) :
    ofParts? s n = some ⟨s * 1000000000 + n, h⟩ :=
  dif_pos h

theorem ofParts?_of_le {s n : Nat} (h : 18446744073709551616 * 1000000000 ≤ s * 1000000000 + n) : ofParts? s n = none :=
  dif_neg (Nat.not_lt.2 h)

/-- What parts that are too long together make; `ofParts?` goes by another name as in `finish_of_parts`. -/
theorem finish_of_none {f : Nat → Nat → Option Duration} (hf : ofParts? = f) {s n : Nat} (h : f s n = none) :
    record.finish ⟨some s, some n⟩ = .error .mismatch := by
  rw [record, hf]
  simp only [h]

/-- **The whole seconds of the nanoseconds are carried over**, as far as they can be counted. -/
theorem Parted.finish {x : Parts} (h : d.Parted x) : Outcome True d.Fits d.Measures (record.finish x) := by
  obtain ⟨s, n, rfl, hs, hn⟩ := h
  by_cases hlt : s * 1000000000 + n < 18446744073709551616 * 1000000000
  · have hfits : d.Fits := by
      unfold Fits
      omega
    have htotal : ((s * 1000000000 + n : Nat) : Int) = d.seconds * 1000000000 + d.nanoseconds := by omega
    rw [finish_of_parts rfl (ofParts?_of_lt hlt)]
    exact (Outcome.ok (measures_of_total htotal)).congr Iff.rfl (iff_true_intro hfits)
  · have hlong : ¬ d.Fits := by
      unfold Fits
      omega
    rw [finish_of_none rfl (ofParts?_of_le (Nat.not_lt.1 hlt))]
    exact ⟨fun _ hf => absurd hf hlong, fun _ _ => rfl, fun hr => absurd trivial hr⟩

/-- **A duration is as long as its numbers say, or refused.** -/
theorem Text.settles (h : d.Text t) : Settles Duration.read d.InRange d.Fits d.Measures t := by
  have hseconds := settles_integer 18446744073709551616 (by decide) d.seconds
  have hnanoseconds := settles_integer 4294967296 (by decide) d.nanoseconds
  have hread : ∀ members, ObjectText members t → record.Settles d.InRange True d.Parted {} members →
      Settles Duration.read d.InRange d.Fits d.Measures t := fun members ht hm =>
    (hm.read ht fun _ hx => hx.finish).congr (and_iff_left trivial).symm (and_iff_right trivial).symm
  cases h with
  | seconds ht =>
    refine hread _ ht (.member _ _ rfl (by simp) (hseconds.map _) Iff.rfl and_self_iff.symm ?_)
    rintro _ ⟨s, hs, rfl⟩
    refine .member _ _ rfl (by simp) (hnanoseconds.map _) (and_iff_left trivial).symm and_self_iff.symm ?_
    rintro _ ⟨n, hn, rfl⟩
    exact .nil ⟨s, n, rfl, hs.1, hn.1⟩ trivial trivial
  | nanoseconds ht =>
    refine hread _ ht (.member _ _ rfl (by simp) (hnanoseconds.map _) and_comm and_self_iff.symm ?_)
    rintro _ ⟨n, hn, rfl⟩
    refine .member _ _ rfl (by simp) (hseconds.map _) (and_iff_left trivial).symm and_self_iff.symm ?_
    rintro _ ⟨s, hs, rfl⟩
    exact .nil ⟨s, n, rfl, hs.1, hn.1⟩ trivial trivial

end Numbers
end Duration

/-! ## Sessions -/

namespace SessionConfig

/-- The settings of a session that are named. -/
structure Overrides where
  connectTimeout : Option Duration.Numbers := none
  shutdownTimeout : Option Duration.Numbers := none
  readBufferSize : Option Int := none
  maxFieldLength : Option Int := none

namespace Overrides

def InRange (p : Overrides) : Prop :=
  (∀ d ∈ p.connectTimeout, d.InRange) ∧ (∀ d ∈ p.shutdownTimeout, d.InRange) ∧
    (∀ z ∈ p.readBufferSize, Below 18446744073709551616 z) ∧ ∀ z ∈ p.maxFieldLength, Below 4294967296 z

def Fits (p : Overrides) : Prop := (∀ d ∈ p.connectTimeout, d.Fits) ∧ ∀ d ∈ p.shutdownTimeout, d.Fits

/-- What is named is new, and the rest is old. -/
structure Replaces (p : Overrides) (old new : SessionConfig) : Prop where
  connectTimeout : Taken Duration.Numbers.Measures p.connectTimeout old.connectTimeout new.connectTimeout
  shutdownTimeout : Taken Duration.Numbers.Measures p.shutdownTimeout old.shutdownTimeout new.shutdownTimeout
  readBufferSize : Taken (fun z n => (n.toNat : Int) = z) p.readBufferSize old.readBufferSize new.readBufferSize
  maxFieldLength : Taken (fun z n => (n.toNat : Int) = z) p.maxFieldLength old.maxFieldLength new.maxFieldLength

/-- The members name these settings, each once, among others that have well-formed values. -/
structure Named (p : Overrides) (members : List (String × List Char)) : Prop where
  connectTimeout : Spells Duration.Numbers.Text p.connectTimeout (under "connect_timeout" members)
  shutdownTimeout : Spells Duration.Numbers.Text p.shutdownTimeout (under "shutdown_timeout" members)
  readBufferSize : Spells IntegerText p.readBufferSize (under "read_buffer_size" members)
  maxFieldLength : Spells IntegerText p.maxFieldLength (under "max_inbound_field_len" members)
  strangers : ∀ m ∈ members,
    m.1 ∉ ["connect_timeout", "shutdown_timeout", "read_buffer_size", "max_inbound_field_len"] → WellFormed .value m.2

/-- The ways to write a session's configuration that names these settings. -/
inductive Text (p : Overrides) : List Char → Prop
  | object {members : List (String × List Char)} {t : List Char} : p.Named members → ObjectText members t → Text p t

variable {p : Overrides} {t : List Char}

/-- **The members make of a configuration what they name**, in whatever order they come. -/
theorem Named.settles (h : p.Named members) (old : SessionConfig) :
    record.Settles p.InRange p.Fits (p.Replaces old) old members := by
  induction members generalizing p old with
  | nil =>
    obtain ⟨c, s, r, m⟩ := p
    obtain rfl := h.connectTimeout.of_nil
    obtain rfl := h.shutdownTimeout.of_nil
    obtain rfl := h.readBufferSize.of_nil
    obtain rfl := h.maxFieldLength.of_nil
    exact .nil ⟨rfl, rfl, rfl, rfl⟩ (by simp [InRange]) (by simp [Fits])
  | cons member members ih =>
    obtain ⟨name, v⟩ := member
    -- What the first member names is taken off what is named; the members behind it name the rest.
    obtain ⟨c, s, r, m⟩ := p
    obtain ⟨hc, hs, hr, hm, hx⟩ := h
    have hrest : ∀ m ∈ members, _ → WellFormed .value m.2 := fun m hm => hx m (List.mem_cons_of_mem _ hm)
    by_cases hknown : name ∈ ["connect_timeout", "shutdown_timeout", "read_buffer_size", "max_inbound_field_len"]
    · simp only [List.mem_cons, List.not_mem_nil, or_false] at hknown
      rcases hknown with rfl | rfl | rfl | rfl
      · obtain ⟨d, rfl, ht, hnil⟩ := hc.of_cons
        rw [under_other (by decide)] at hs hr hm
        refine .member (InRange ⟨none, s, r, m⟩) (Fits ⟨none, s, r, m⟩) rfl (not_mem_of_under hnil)
          (ht.settles.map _) (by simp [InRange]) (by simp [Fits]) ?_
        rintro _ ⟨δ, hδ, rfl⟩
        refine (ih (p := ⟨none, s, r, m⟩) ⟨hnil ▸ .absent, hs, hr, hm, hrest⟩ _).imp fun new hnew => ?_
        exact ⟨hnew.connectTimeout ▸ hδ, hnew.shutdownTimeout, hnew.readBufferSize, hnew.maxFieldLength⟩
      · obtain ⟨d, rfl, ht, hnil⟩ := hs.of_cons
        rw [under_other (by decide)] at hc hr hm
        refine .member (InRange ⟨c, none, r, m⟩) (Fits ⟨c, none, r, m⟩) rfl (not_mem_of_under hnil)
          (ht.settles.map _) (by simp [InRange, and_left_comm]) (by simp [Fits, and_comm]) ?_
        rintro _ ⟨δ, hδ, rfl⟩
        refine (ih (p := ⟨c, none, r, m⟩) ⟨hc, hnil ▸ .absent, hr, hm, hrest⟩ _).imp fun new hnew => ?_
        exact ⟨hnew.connectTimeout, hnew.shutdownTimeout ▸ hδ, hnew.readBufferSize, hnew.maxFieldLength⟩
      · obtain ⟨z, rfl, rfl, hnil⟩ := hr.of_cons
        rw [under_other (by decide)] at hc hs hm
        refine .member (InRange ⟨c, s, none, m⟩) (Fits ⟨c, s, none, m⟩) rfl (not_mem_of_under hnil)
          ((settles_integer _ (by decide) z).map _) (by simp [InRange, Below, and_left_comm]) (by simp [Fits]) ?_
        rintro _ ⟨n, hn, rfl⟩
        refine (ih (p := ⟨c, s, none, m⟩) ⟨hc, hs, hnil ▸ .absent, hm, hrest⟩ _).imp fun new hnew => ?_
        have hsize : (new.readBufferSize.toNat : Int) = z := by
          rw [hnew.readBufferSize, UInt64.toNat_ofNat_of_lt' hn.2, hn.1]
        exact ⟨hnew.connectTimeout, hnew.shutdownTimeout, hsize, hnew.maxFieldLength⟩
      · obtain ⟨z, rfl, rfl, hnil⟩ := hm.of_cons
        rw [under_other (by decide)] at hc hs hr
        refine .member (InRange ⟨c, s, r, none⟩) (Fits ⟨c, s, r, none⟩) rfl (not_mem_of_under hnil)
          ((settles_integer _ (by decide) z).map _) (by simp [InRange, Below, and_assoc, and_comm, and_left_comm])
          (by simp [Fits]) ?_
        rintro _ ⟨n, hn, rfl⟩
        refine (ih (p := ⟨c, s, r, none⟩) ⟨hc, hs, hr, hnil ▸ .absent, hrest⟩ _).imp fun new hnew => ?_
        have hlength : (new.maxFieldLength.toNat : Int) = z := by
          rw [hnew.maxFieldLength, UInt32.toNat_ofNat_of_lt' hn.2, hn.1]
        exact ⟨hnew.connectTimeout, hnew.shutdownTimeout, hnew.readBufferSize, hlength⟩
    · have hvalue := hx (name, v) List.mem_cons_self hknown
      simp only [List.mem_cons, List.not_mem_nil, or_false, not_or] at hknown
      obtain ⟨hc', hs', hr', hm'⟩ := hknown
      rw [under_other hc'] at hc
      rw [under_other hs'] at hs
      rw [under_other hr'] at hr
      rw [under_other hm'] at hm
      refine .stranger ?_ hvalue.overlooked (ih ⟨hc, hs, hr, hm, hrest⟩ old)
      simp [record, Ne.symm hc', Ne.symm hs', Ne.symm hr', Ne.symm hm']

theorem InRange.exists_replaces (hr : p.InRange) (hf : p.Fits) (old : SessionConfig) : ∃ new, p.Replaces old new := by
  obtain ⟨hc, hs, hsize, hlength⟩ := hr
  obtain ⟨connect, hconnect⟩ := Taken.exists_new (fun d hd => (hc d hd).exists_measures (hf.1 d hd)) old.connectTimeout
  obtain ⟨shutdown, hshutdown⟩ := Taken.exists_new (fun d hd => (hs d hd).exists_measures (hf.2 d hd)) old.shutdownTimeout
  have hsize' : ∀ z ∈ p.readBufferSize, ∃ n : UInt64, (n.toNat : Int) = z := fun z hz => by
    obtain ⟨n, hn, hz⟩ := (hsize z hz).exists_toNat
    exact ⟨.ofNat n, by rw [UInt64.toNat_ofNat_of_lt' hn, hz]⟩
  have hlength' : ∀ z ∈ p.maxFieldLength, ∃ n : UInt32, (n.toNat : Int) = z := fun z hz => by
    obtain ⟨n, hn, hz⟩ := (hlength z hz).exists_toNat
    exact ⟨.ofNat n, by rw [UInt32.toNat_ofNat_of_lt' hn, hz]⟩
  obtain ⟨size, hsize⟩ := Taken.exists_new hsize' old.readBufferSize
  obtain ⟨length, hlength⟩ := Taken.exists_new hlength' old.maxFieldLength
  exact ⟨⟨connect, shutdown, size, length⟩, hconnect, hshutdown, hsize, hlength⟩

theorem Replaces.unique {old new new' : SessionConfig} (h : p.Replaces old new) (h' : p.Replaces old new') :
    new = new' := by
  have hconnect := h.connectTimeout.unique Duration.Numbers.Measures.unique h'.connectTimeout
  have hshutdown := h.shutdownTimeout.unique Duration.Numbers.Measures.unique h'.shutdownTimeout
  have hsize := h.readBufferSize.unique (fun z n n' hn hn' => UInt64.toNat_inj.1 (Int.ofNat.inj (hn.trans hn'.symm)))
    h'.readBufferSize
  have hlength := h.maxFieldLength.unique (fun z n n' hn hn' => UInt32.toNat_inj.1 (Int.ofNat.inj (hn.trans hn'.symm)))
    h'.maxFieldLength
  cases new
  cases new'
  cases hconnect
  cases hshutdown
  cases hsize
  cases hlength
  rfl

theorem Text.settles (h : p.Text t) : Settles SessionConfig.read p.InRange p.Fits (p.Replaces {}) t := by
  obtain ⟨hnamed, ht⟩ := h
  exact ((hnamed.settles {}).read ht fun _ hc => .ok hc).congr (and_iff_left trivial).symm (and_iff_left trivial).symm

end Overrides
end SessionConfig

/-! ## Clients -/

namespace ClientConfig

/-- The settings of a client that are named. -/
structure Overrides where
  host : Option String := none
  port : Option Int := none
  session : Option SessionConfig.Overrides := none

namespace Overrides

def InRange (p : Overrides) : Prop := (∀ z ∈ p.port, Below 65536 z) ∧ ∀ q ∈ p.session, q.InRange

def Fits (p : Overrides) : Prop := ∀ q ∈ p.session, q.Fits

/-- What is named is new, and the rest is old; in a session that is named, the rest is the default. -/
structure Replaces (p : Overrides) (old new : ClientConfig) : Prop where
  host : Taken (· = ·) p.host old.host new.host
  port : Taken (fun z n => (n.toNat : Int) = z) p.port old.port new.port
  session : Taken (fun q c => q.Replaces {} c) p.session old.session new.session

/-- The members name these settings, each once, among others that have well-formed values. -/
structure Named (p : Overrides) (members : List (String × List Char)) : Prop where
  host : Spells StringText p.host (under "host" members)
  port : Spells IntegerText p.port (under "port" members)
  session : Spells SessionConfig.Overrides.Text p.session (under "session" members)
  strangers : ∀ m ∈ members, m.1 ∉ ["host", "port", "session"] → WellFormed .value m.2

/-- The text is an object that names these settings, with white space around it. -/
def Document (p : Overrides) (text : String) : Prop :=
  ∃ members g t g', p.Named members ∧ Gap g ∧ ObjectText members t ∧ Gap g' ∧ text.toList = g ++ (t ++ g')

variable {p : Overrides}

/-- **The members make of a configuration what they name**, in whatever order they come. -/
theorem Named.settles {members : List (String × List Char)} (h : p.Named members) (old : ClientConfig) :
    record.Settles p.InRange p.Fits (p.Replaces old) old members := by
  induction members generalizing p old with
  | nil =>
    obtain ⟨host, port, session⟩ := p
    obtain rfl := h.host.of_nil
    obtain rfl := h.port.of_nil
    obtain rfl := h.session.of_nil
    exact .nil ⟨rfl, rfl, rfl⟩ (by simp [InRange]) (by simp [Fits])
  | cons member members ih =>
    obtain ⟨name, v⟩ := member
    -- What the first member names is taken off what is named; the members behind it name the rest.
    obtain ⟨host, port, session⟩ := p
    obtain ⟨hh, hp, hs, hx⟩ := h
    have hrest : ∀ m ∈ members, _ → WellFormed .value m.2 := fun m hm => hx m (List.mem_cons_of_mem _ hm)
    by_cases hknown : name ∈ ["host", "port", "session"]
    · simp only [List.mem_cons, List.not_mem_nil, or_false] at hknown
      rcases hknown with rfl | rfl | rfl
      · obtain ⟨host, rfl, ht, hnil⟩ := hh.of_cons
        rw [under_other (by decide)] at hp hs
        refine .member (InRange ⟨none, port, session⟩) (Fits ⟨none, port, session⟩) rfl
          (not_mem_of_under hnil) (ht.reads.settles.map _) (by simp [InRange]) (by simp [Fits]) ?_
        rintro _ ⟨_, rfl, rfl⟩
        refine (ih (p := ⟨none, port, session⟩) ⟨hnil ▸ .absent, hp, hs, hrest⟩ _).imp fun new hnew => ?_
        exact ⟨Eq.symm hnew.host, hnew.port, hnew.session⟩
      · obtain ⟨z, rfl, rfl, hnil⟩ := hp.of_cons
        rw [under_other (by decide)] at hh hs
        refine .member (InRange ⟨host, none, session⟩) (Fits ⟨host, none, session⟩) rfl
          (not_mem_of_under hnil) ((settles_integer _ (by decide) z).map _) (by simp [InRange, Below]) (by simp [Fits]) ?_
        rintro _ ⟨n, hn, rfl⟩
        refine (ih (p := ⟨host, none, session⟩) ⟨hh, hnil ▸ .absent, hs, hrest⟩ _).imp fun new hnew => ?_
        have hport : (new.port.toNat : Int) = z := by
          rw [hnew.port, UInt16.toNat_ofNat_of_lt' hn.2, hn.1]
        exact ⟨hnew.host, hport, hnew.session⟩
      · obtain ⟨q, rfl, ht, hnil⟩ := hs.of_cons
        rw [under_other (by decide)] at hh hp
        refine .member (InRange ⟨host, port, none⟩) (Fits ⟨host, port, none⟩) rfl
          (not_mem_of_under hnil) (ht.settles.map _) (by simp [InRange, and_comm]) (by simp [Fits]) ?_
        rintro _ ⟨c, hc, rfl⟩
        refine (ih (p := ⟨host, port, none⟩) ⟨hh, hp, hnil ▸ .absent, hrest⟩ _).imp fun new hnew => ?_
        exact ⟨hnew.host, hnew.port, hnew.session ▸ hc⟩
    · have hvalue := hx (name, v) List.mem_cons_self hknown
      simp only [List.mem_cons, List.not_mem_nil, or_false, not_or] at hknown
      obtain ⟨hh', hp', hs'⟩ := hknown
      rw [under_other hh'] at hh
      rw [under_other hp'] at hp
      rw [under_other hs'] at hs
      refine .stranger ?_ hvalue.overlooked (ih ⟨hh, hp, hs, hrest⟩ old)
      simp [record, Ne.symm hh', Ne.symm hp', Ne.symm hs']

theorem InRange.exists_replaces (hr : p.InRange) (hf : p.Fits) (old : ClientConfig) : ∃ new, p.Replaces old new := by
  have hport : ∀ z ∈ p.port, ∃ n : UInt16, (n.toNat : Int) = z := fun z hz => by
    obtain ⟨n, hn, hz⟩ := (hr.1 z hz).exists_toNat
    exact ⟨.ofNat n, by rw [UInt16.toNat_ofNat_of_lt' hn, hz]⟩
  obtain ⟨host, hhost⟩ := Taken.exists_new (fun host (_ : host ∈ p.host) => ⟨host, rfl⟩) old.host
  obtain ⟨port, hport⟩ := Taken.exists_new hport old.port
  obtain ⟨session, hsession⟩ := Taken.exists_new (fun q hq => (hr.2 q hq).exists_replaces (hf q hq) {}) old.session
  exact ⟨⟨host, port, session⟩, hhost, hport, hsession⟩

theorem Replaces.unique {old new new' : ClientConfig} (h : p.Replaces old new) (h' : p.Replaces old new') : new = new' := by
  have hhost := h.host.unique (fun _ _ _ hn hn' => hn.symm.trans hn') h'.host
  have hport := h.port.unique (fun z n n' hn hn' => UInt16.toNat_inj.1 (Int.ofNat.inj (hn.trans hn'.symm))) h'.port
  have hsession := h.session.unique (fun q _ _ hn hn' => hn.unique hn') h'.session
  cases new
  cases new'
  cases hhost
  cases hport
  cases hsession
  rfl

/-- **A document is parsed as what it names**, or refused. -/
theorem Document.outcome {text : String} (h : p.Document text) :
    Outcome p.InRange p.Fits (p.Replaces {}) (ClientConfig.parse text) := by
  obtain ⟨members, g, t, g', hnamed, hg, ht, hg', htext⟩ := h
  obtain ⟨o, hgives, ho⟩ := (hnamed.settles {}).read ht fun _ hc => .ok hc
  have hdocument := hgives.document hg hg'
  rw [ClientConfig.parse, htext, ClientConfig.read, hdocument]
  exact ho.congr (and_iff_left trivial).symm (and_iff_left trivial).symm

theorem load_of_refused {files : FileTree} {path text : String} {fault : Json.Fault}
    (hf : files path = .ok (Utf8.encode text)) (hp : ClientConfig.parse text = .error fault) :
    ClientConfig.load files path = .error (.invalid fault) := by
  simp only [load, hf, Utf8.decode_eq_ok_iff.2 rfl, hp]

/-- **A file overrides exactly what it names.**
- When every number is in range and the durations fit, every file that names these settings is loaded as one and the same
  configuration, the default with what is named in its place.
- A duration that does not fit, everything being in range, is refused as a mismatch.
- A number out of range is refused, whatever else is named. -/
theorem overrides_exactly (p : Overrides) :
    (p.InRange → p.Fits → ∃ c, p.Replaces {} c ∧ ∀ (files : FileTree) (path text : String), p.Document text →
      files path = .ok (Utf8.encode text) → ClientConfig.load files path = .ok c) ∧
    (p.InRange → ¬ p.Fits → ∀ (files : FileTree) (path text : String), p.Document text →
      files path = .ok (Utf8.encode text) → ClientConfig.load files path = .error (.invalid .mismatch)) ∧
    (¬ p.InRange → ∀ (files : FileTree) (path text : String), p.Document text →
      files path = .ok (Utf8.encode text) → ∃ fault, ClientConfig.load files path = .error (.invalid fault)) := by
  refine ⟨fun hr hf => ?_, fun hr hf files path text hd hfile => ?_, fun hr files path text hd hfile => ?_⟩
  · obtain ⟨c, hc⟩ := hr.exists_replaces hf {}
    refine ⟨c, hc, fun files path text hd hfile => ?_⟩
    obtain ⟨c', hparse, hc'⟩ := hd.outcome.taken hr hf
    rw [hc.unique hc']
    exact load_of_parse hfile hparse
  · exact load_of_refused hfile (hd.outcome.long hr hf)
  · obtain ⟨fault, hparse⟩ := hd.outcome.wide hr
    exact ⟨fault, load_of_refused hfile hparse⟩

/-- A port and one duration of the session. -/
def sample (port seconds nanoseconds : Int) : Overrides :=
  { port := some port, session := some { connectTimeout := some ⟨seconds, nanoseconds⟩ } }

def sampleSession (seconds nanoseconds : Int) : List (String × List Char) :=
  [("connect_timeout", Json.writeObject [("nanos", writeInteger nanoseconds), ("secs", writeInteger seconds)])]

/-- They are named in an order of their own, behind a member that nobody knows. -/
def sampleMembers (port seconds nanoseconds : Int) : List (String × List Char) :=
  [("theme", ['[', '\x7b', '\x7d', ',', '-', '1', '.', '5', 'e', '9', '9', '9', ']']),
    ("session", Json.writeObject (sampleSession seconds nanoseconds)), ("port", writeInteger port)]

def sampleText (port seconds nanoseconds : Int) : String :=
  String.ofList (Json.writeObject (sampleMembers port seconds nanoseconds))

theorem sample_document (port seconds nanoseconds : Int) :
    (sample port seconds nanoseconds).Document (sampleText port seconds nanoseconds) := by
  have hsession : SessionConfig.Overrides.Named { connectTimeout := some ⟨seconds, nanoseconds⟩ }
      (sampleSession seconds nanoseconds) :=
    { connectTimeout := .present (.nanoseconds (writeObject_spells _))
      shutdownTimeout := .absent
      readBufferSize := .absent
      maxFieldLength := .absent
      strangers := by simp [sampleSession] }
  have hfraction : Json.FractionText ['.', '5'] := .digits ⟨by simp, by simp⟩
  have hexponent : Json.ExponentText ['e', '9', '9', '9'] := .digits (.inl rfl) (.inl rfl) ⟨by simp, by simp⟩
  have hvalue := WellFormed.array Json.gap_nil <| .firstElement (.object Json.gap_nil .noMembers) Json.gap_nil <|
    .nextElement Json.gap_nil (.number (.negative (n := 1) hfraction hexponent)) Json.gap_nil .noElements
  have hnamed : (sample port seconds nanoseconds).Named (sampleMembers port seconds nanoseconds) :=
    { host := .absent
      port := .present rfl
      session := .present (.object hsession (writeObject_spells _))
      strangers := by
        intro m hm hstrange
        simp only [sampleMembers, List.mem_cons, List.not_mem_nil, or_false] at hm
        rcases hm with rfl | rfl | rfl
        · exact hvalue
        · exact absurd (by simp) hstrange
        · exact absurd (by simp) hstrange }
  exact ⟨_, [], _, [], hnamed, Json.gap_nil, writeObject_spells _, Json.gap_nil,
    by simp [sampleText, String.toList_ofList]⟩

/-- Two and a half seconds in nanoseconds are carried over; a second more than there can be, and a port that has no room,
are refused. -/
theorem sample_overrides :
    ClientConfig.load (fun _ => .ok (Utf8.encode (sampleText 9000 1 2500000000))) "chat.json" =
        .ok { port := 9000, session := { connectTimeout := ⟨3500000000, by decide⟩ } } ∧
      ClientConfig.load (fun _ => .ok (Utf8.encode (sampleText 9000 18446744073709551615 1000000000))) "chat.json" =
        .error (.invalid .mismatch) ∧
      ∃ fault, ClientConfig.load (fun _ => .ok (Utf8.encode (sampleText 65536 1 0))) "chat.json" =
        .error (.invalid fault) := by
  have hreplaces : (sample 9000 1 2500000000).Replaces {}
      { port := 9000, session := { connectTimeout := ⟨3500000000, by decide⟩ } } :=
    ⟨rfl, rfl, Duration.Numbers.measures_of_total rfl, rfl, rfl, rfl⟩
  have hrange : (sample 9000 1 2500000000).InRange := by
    simp [sample, InRange, SessionConfig.Overrides.InRange, Duration.Numbers.InRange, Below]
  have hfits : (sample 9000 1 2500000000).Fits := by
    simp [sample, Fits, SessionConfig.Overrides.Fits, Duration.Numbers.Fits]
  have hrange' : (sample 9000 18446744073709551615 1000000000).InRange := by
    simp [sample, InRange, SessionConfig.Overrides.InRange, Duration.Numbers.InRange, Below]
  have hlong : ¬ (sample 9000 18446744073709551615 1000000000).Fits := by
    simp [sample, Fits, SessionConfig.Overrides.Fits, Duration.Numbers.Fits]
  have hwide : ¬ (sample 65536 1 0).InRange := by
    simp [sample, InRange, Below]
  obtain ⟨c, hc, hload⟩ := (overrides_exactly _).1 hrange hfits
  refine ⟨?_, (overrides_exactly _).2.1 hrange' hlong _ _ _ (sample_document _ _ _) rfl,
    (overrides_exactly _).2.2 hwide _ _ _ (sample_document _ _ _) rfl⟩
  rw [hreplaces.unique hc]
  exact hload _ _ _ (sample_document _ _ _) rfl

end Overrides
end ClientConfig
end ChatClient
