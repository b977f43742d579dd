/-!
# Config — where to connect and how a session behaves

Every setting has a default, so a configuration file names only what it wants to change.
-/
namespace ChatClient

/-- A span of time, in nanoseconds: as many seconds as a 64-bit word can count, and less than one second more. -/
structure Duration where
  nanoseconds : Nat
  lt_limit : nanoseconds < 18446744073709551616 * 1000000000 := by decide
  deriving DecidableEq, Repr

namespace Duration

def seconds (d : Duration) : Nat := d.nanoseconds / 1000000000

/-- So many nanoseconds beyond the whole seconds. -/
def subseconds (d : Duration) : Nat := d.nanoseconds % 1000000000

/-- So many seconds and nanoseconds together, if that is not too long. -/
def ofParts? (seconds nanoseconds : Nat) : Option Duration :=
  if h : seconds * 1000000000 + nanoseconds < 18446744073709551616 * 1000000000 then
    some ⟨seconds * 1000000000 + nanoseconds, h⟩
  else none

theorem seconds_lt (d : Duration) : d.seconds < 18446744073709551616 := by
  have := d.lt_limit
  unfold seconds
  omega

theorem ofParts?_seconds_subseconds (d : Duration) : ofParts? d.seconds d.subseconds = some d := by
  have h : d.seconds * 1000000000 + d.subseconds = d.nanoseconds := by
    unfold seconds subseconds
    omega
  have := d.lt_limit
  unfold ofParts?
  simp only [h, this, dif_pos]

end Duration

def SessionConfig.defaultConnectTimeout : Duration := ⟨5000000000, by decide⟩

def SessionConfig.defaultShutdownTimeout : Duration := ⟨1000000000, by decide⟩

/-- How a session behaves: how long a connect waits for its handshake, how long a disconnect waits for a graceful close, the
most octets one read takes (zero counting as one), and the most octets a text of the server may declare. -/
structure SessionConfig where
  connectTimeout : Duration := SessionConfig.defaultConnectTimeout
  shutdownTimeout : Duration := SessionConfig.defaultShutdownTimeout
  readBufferSize : UInt64 := 4096
  maxFieldLength : UInt32 := 4096
  deriving DecidableEq, Repr

/-- What a client needs to open a session. -/
structure ClientConfig where
  host : String := "127.0.0.1"
  port : UInt16 := 47007
  session : SessionConfig := {}
  deriving DecidableEq, Repr

end ChatClient
