import ChatClient.Config
import ChatClient.Json.Record
/-!
# Reader — configurations from JSON

The two configurations are records whose members may be missing and whose strangers are passed over.  A duration is a record
that needs both its members and admits no other; nanoseconds of a second or more carry over, and a duration that is then too
long is refused.
-/
namespace ChatClient

open Json (Reader Record Member readNatural readString)

namespace Duration

/-- The parts of a duration, as far as they are known. -/
structure Parts where
  seconds : Option Nat := none
  nanoseconds : Option Nat := none

def record : Record Parts Duration where
  members :=
    [⟨"secs", fun x => do return { x with seconds := some (← readNatural 18446744073709551616) }⟩,
      ⟨"nanos", fun x => do return { x with nanoseconds := some (← readNatural 4294967296) }⟩]
  stranger := Json.refuseStranger
  finish
    | ⟨some s, some n⟩ =>
      match ofParts? s n with
      | some d => .ok d
      | none => .error .mismatch
    | _ => .error .mismatch

def read : Reader Duration := record.read {}

end Duration

namespace SessionConfig

def record : Record SessionConfig SessionConfig where
  members :=
    [⟨"connect_timeout", fun c => do return { c with connectTimeout := ← Duration.read }⟩,
      ⟨"shutdown_timeout", fun c => do return { c with shutdownTimeout := ← Duration.read }⟩,
      ⟨"read_buffer_size", fun c => do
        return { c with readBufferSize := UInt64.ofNat (← readNatural 18446744073709551616) }⟩,
      ⟨"max_inbound_field_len", fun c => do return { c with maxFieldLength := UInt32.ofNat (← readNatural 4294967296) }⟩]
  stranger := Json.ignoreStranger
  finish := .ok

def read : Reader SessionConfig := record.read {}

/-- The session's configuration that a text is. -/
def parse (text : String) : Except Json.Fault SessionConfig := Json.readDocument read text.toList

end SessionConfig

namespace ClientConfig

def record : Record ClientConfig ClientConfig where
  members :=
    [⟨"host", fun c => do return { c with host := ← readString }⟩,
      ⟨"port", fun c => do return { c with port := UInt16.ofNat (← readNatural 65536) }⟩,
      ⟨"session", fun c => do return { c with session := ← SessionConfig.read }⟩]
  stranger := Json.ignoreStranger
  finish := .ok

def read : Reader ClientConfig := record.read {}

/-- The client's configuration that a text is. -/
def parse (text : String) : Except Json.Fault ClientConfig := Json.readDocument read text.toList

end ClientConfig
end ChatClient
