import ChatClient.Config.Reader
import ChatClient.Files
/-!
# Load — configurations from files

A path may lead to no file, to octets that are no text, or to a text that is no configuration.
-/
namespace ChatClient

/-- Why a file gives no text. -/
inductive ReadFault where
  | file (fault : FileFault)
  | notText
  deriving DecidableEq, Repr

def ReadFault.message : ReadFault → String
  | file fault => fault.message
  | notText => "stream did not contain valid UTF-8"

/-- Why a path gives no configuration. -/
inductive LoadError where
  | unreadable (path : String) (fault : ReadFault)
  | invalid (fault : Json.Fault)
  deriving DecidableEq, Repr

def LoadError.message : LoadError → String
  | unreadable path fault => s!"failed to read config {path}: {fault.message}"
  | invalid fault => s!"invalid config: {fault.message}"

def ClientConfig.load (files : FileTree) (path : String) : Except LoadError ClientConfig :=
  match files path with
  | .error fault => .error (.unreadable path (.file fault))
  | .ok octets =>
    match Utf8.decode octets with
    | .error _ => .error (.unreadable path .notText)
    | .ok text =>
      match ClientConfig.parse text with
      | .error fault => .error (.invalid fault)
      | .ok config => .ok config

end ChatClient
