import ChatClient.Config.Load
import ChatClient.Config.Writer
import ChatClient.Proofs.Json.Reading
import ChatClient.Proofs.Text.Utf8
/-!
# RoundTrip — a configuration that is written is what is loaded

A text stands for a configuration when it is a document with all the configuration's members in order, spelled in any way
(`ClientConfig.Document`).  `ClientConfig.text` is such a document, and every such document in a file is loaded as the
configuration it stands for, whatever the host's characters are and however large the numbers.
-/
namespace ChatClient

open Json (Gap Reads ObjectText StringText writeNatural writeObject_spells writeString_spells reads_writeNatural)
open Json.Record (Fills)

namespace Duration

/-- The ways to write a duration. -/
def Spelled (d : Duration) (t : List Char) : Prop :=
  ObjectText [("secs", writeNatural d.seconds), ("nanos", writeNatural d.subseconds)] t

theorem write_spelled (d : Duration) : d.Spelled d.write := writeObject_spells _

theorem subseconds_lt (d : Duration) : d.subseconds < 1000000000 := by
  unfold subseconds
  omega

/-- What the two parts make.  Under its own name `ofParts?` would be unfolded down to a count of all nanoseconds that a
duration can have, so it goes by another. -/
theorem finish_of_parts {f : Nat → Nat → Option Duration} (hf : ofParts? = f) {seconds nanoseconds : Nat} {d : Duration}
    (h : f seconds nanoseconds = some d) : record.finish ⟨some seconds, some nanoseconds⟩ = .ok d := by
  rw [record, hf]
  simp only [h]

/-- **The parts of a duration are read, and together they are the duration again.** -/
theorem Spelled.reads {d : Duration} {t : List Char} (h : d.Spelled t) : Reads Duration.read d t := by
  have hs := d.seconds_lt
  have hn := d.subseconds_lt
  have fills : Fills record [] {} [("secs", writeNatural d.seconds), ("nanos", writeNatural d.subseconds)]
      ⟨some d.seconds, some d.subseconds⟩ :=
    .cons rfl (by simp) ((reads_writeNatural hs (by decide)).map _) <|
    .cons rfl (by simp) ((reads_writeNatural (by omega) (by decide)).map _) .nil
  exact fills.reads (finish_of_parts rfl d.ofParts?_seconds_subseconds) h

end Duration

namespace SessionConfig

/-- The ways to write a session's configuration. -/
def Spelled (c : SessionConfig) (t : List Char) : Prop :=
  ∃ connect shutdown, c.connectTimeout.Spelled connect ∧ c.shutdownTimeout.Spelled shutdown ∧
    ObjectText
      [("connect_timeout", connect), ("shutdown_timeout", shutdown),
        ("read_buffer_size", writeNatural c.readBufferSize.toNat),
        ("max_inbound_field_len", writeNatural c.maxFieldLength.toNat)] t

theorem write_spelled (c : SessionConfig) : c.Spelled c.write :=
  ⟨_, _, c.connectTimeout.write_spelled, c.shutdownTimeout.write_spelled, writeObject_spells _⟩

theorem Spelled.reads {c : SessionConfig} {t : List Char} (h : c.Spelled t) : Reads SessionConfig.read c t := by
  obtain ⟨connect, shutdown, hc, hs, ht⟩ := h
  have hsize := c.readBufferSize.toNat_lt
  have hlength := c.maxFieldLength.toNat_lt
  have fills : Fills record [] {}
      [("connect_timeout", connect), ("shutdown_timeout", shutdown),
        ("read_buffer_size", writeNatural c.readBufferSize.toNat),
        ("max_inbound_field_len", writeNatural c.maxFieldLength.toNat)]
      ⟨c.connectTimeout, c.shutdownTimeout, .ofNat c.readBufferSize.toNat, .ofNat c.maxFieldLength.toNat⟩ :=
    .cons rfl (by simp) (hc.reads.map _) <|
    .cons rfl (by simp) (hs.reads.map _) <|
    .cons rfl (by simp) ((reads_writeNatural hsize (by decide)).map _) <|
    .cons rfl (by simp) ((reads_writeNatural hlength (by decide)).map _) .nil
  refine fills.reads ?_ ht
  show Except.ok _ = _
  rw [UInt64.ofNat_toNat, UInt32.ofNat_toNat]

end SessionConfig

namespace ClientConfig

/-- The ways to write a client's configuration. -/
def Spelled (c : ClientConfig) (t : List Char) : Prop :=
  ∃ host session, StringText c.host host ∧ c.session.Spelled session ∧
    ObjectText [("host", host), ("port", writeNatural c.port.toNat), ("session", session)] t

theorem write_spelled (c : ClientConfig) : c.Spelled c.write :=
  ⟨_, _, writeString_spells c.host, c.session.write_spelled, writeObject_spells _⟩

theorem Spelled.reads {c : ClientConfig} {t : List Char} (h : c.Spelled t) : Reads ClientConfig.read c t := by
  obtain ⟨host, session, hh, hs, ht⟩ := h
  have hport := c.port.toNat_lt
  have fills : Fills record [] {} [("host", host), ("port", writeNatural c.port.toNat), ("session", session)]
      ⟨c.host, .ofNat c.port.toNat, c.session⟩ :=
    .cons rfl (by simp) (hh.reads.map _) <|
    .cons rfl (by simp) ((reads_writeNatural hport (by decide)).map _) <|
    .cons rfl (by simp) (hs.reads.map _) .nil
  refine fills.reads ?_ ht
  show Except.ok _ = _
  rw [UInt16.ofNat_toNat]

/-- The text is the configuration, spelled in some way, with white space around it. -/
def Document (c : ClientConfig) (text : String) : Prop :=
  ∃ g t g', Gap g ∧ c.Spelled t ∧ Gap g' ∧ text.toList = g ++ (t ++ g')

theorem text_document (c : ClientConfig) : c.Document c.text :=
  ⟨[], c.write, [], Json.gap_nil, c.write_spelled, Json.gap_nil, by simp [text, String.toList_ofList]⟩

theorem Document.parse {c : ClientConfig} {text : String} (h : c.Document text) : ClientConfig.parse text = .ok c := by
  obtain ⟨g, t, g', hg, ht, hg', htext⟩ := h
  rw [ClientConfig.parse, htext]
  exact ht.reads.document hg hg'

theorem load_of_parse {files : FileTree} {path text : String} {c : ClientConfig}
    (hf : files path = .ok (Utf8.encode text)) (hp : ClientConfig.parse text = .ok c) :
    ClientConfig.load files path = .ok c := by
  simp only [load, hf, Utf8.decode_eq_ok_iff.2 rfl, hp]

/-- **A configuration that is written to a file is what the file is loaded as**: the file may hold the text the writer
gives, or any other document that spells the configuration out. -/
theorem written_is_loaded (c : ClientConfig) (files : FileTree) (path : String) :
    (files path = .ok (Utf8.encode c.text) → ClientConfig.load files path = .ok c) ∧
      ∀ text, c.Document text → files path = .ok (Utf8.encode text) → ClientConfig.load files path = .ok c := by
  have load_document : ∀ text, c.Document text → files path = .ok (Utf8.encode text) →
      ClientConfig.load files path = .ok c := fun _ ht hf => load_of_parse hf ht.parse
  exact ⟨load_document c.text c.text_document, load_document⟩

/-- A configuration whose numbers are all as large as they can be, and whose host has characters that need an escape and
characters that have none. -/
def extreme : ClientConfig where
  host := String.ofList ['"', '\\', '\n', '\x00', 'é', '😀']
  port := 65535
  session :=
    { connectTimeout := ⟨18446744073709551615999999999, by decide⟩
      shutdownTimeout := ⟨18446744073709551615999999999, by decide⟩
      readBufferSize := 18446744073709551615
      maxFieldLength := 4294967295 }

/-- The text with a line break behind it, as editors leave one. -/
def extremeText : String := String.ofList (extreme.write ++ ['\n'])

theorem extreme_is_loaded :
    ClientConfig.load (fun _ => .ok (Utf8.encode extreme.text)) "chat.json" = .ok extreme ∧
      ClientConfig.load (fun _ => .ok (Utf8.encode extremeText)) "chat.json" = .ok extreme := by
  have hd : extreme.Document extremeText :=
    ⟨[], extreme.write, ['\n'], Json.gap_nil, extreme.write_spelled, by simp [Gap, Json.isGap], String.toList_ofList⟩
  exact ⟨(written_is_loaded extreme _ _).1 rfl, (written_is_loaded extreme _ _).2 extremeText hd rfl⟩

end ClientConfig
end ChatClient
