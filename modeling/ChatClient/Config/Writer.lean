import ChatClient.Config
import ChatClient.Json.Writer
/-!
# Writer — configurations as JSON

Each configuration is an object with all its members in order, and a duration is an object of whole seconds and the
nanoseconds beyond them.
-/
namespace ChatClient

open Json (writeObject writeString writeNatural)

def Duration.write (d : Duration) : List Char :=
  writeObject [("secs", writeNatural d.seconds), ("nanos", writeNatural d.subseconds)]

def SessionConfig.write (c : SessionConfig) : List Char :=
  writeObject
    [("connect_timeout", c.connectTimeout.write),
      ("shutdown_timeout", c.shutdownTimeout.write),
      ("read_buffer_size", writeNatural c.readBufferSize.toNat),
      ("max_inbound_field_len", writeNatural c.maxFieldLength.toNat)]

def ClientConfig.write (c : ClientConfig) : List Char :=
  writeObject
    [("host", writeString c.host), ("port", writeNatural c.port.toNat), ("session", c.session.write)]

def ClientConfig.text (c : ClientConfig) : String := String.ofList c.write

end ChatClient
