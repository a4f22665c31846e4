/-
Why a session refused an operation or a frame.

A session passes on the failures of its connection, of the codec and of its transport,
and adds its own: frames that are not well-formed, settings that make no sense, and a
task that has ended.
-/
import PathWire.Error

namespace PathWire

/-- Why a transport or a byte stream failed. -/
inductive TransportError where
  | closed
  | frameTooLarge (size max : Nat)
  /-- The byte stream itself failed, or ended inside a frame. -/
  | io
  deriving DecidableEq, Repr

/-- The cause in words. -/
def TransportError.message : TransportError → String
  | closed => "transport closed"
  | frameTooLarge size max => s!"frame too large: {size} bytes (max {max})"
  | io => "io error"

/-- Why a session refused an operation or a frame. -/
inductive SessionError where
  | protocol (cause : ProtocolError)
  | codec (cause : CodecError)
  | transport (cause : TransportError)
  | unexpectedFrame (tag : Nat)
  | batchCount (count remaining : Nat)
  | trailingBytes (remaining : Nat)
  /-- The settings make no sense. -/
  | config (reason : String)
  /-- The settings cannot be read as such. -/
  | configParse
  /-- The file with the settings is not a text. -/
  | io
  /-- The session's task has ended. -/
  | stopped
  deriving DecidableEq, Repr

namespace SessionError

/-- The class of a codec or protocol failure; other failures have none. -/
def kind? : SessionError → Option ErrorKind
  | protocol cause => some cause.kind
  | codec cause => some cause.kind
  | _ => none

/-- The cause in words. -/
def message : SessionError → String
  | protocol cause => "protocol error: " ++ cause.message
  | codec cause => "codec error: " ++ cause.message
  | transport cause => "transport error: " ++ cause.message
  | unexpectedFrame tag => s!"unexpected frame tag {tag}"
  | batchCount count remaining => s!"batch claims {count} messages with {remaining} bytes left"
  | trailingBytes remaining => s!"{remaining} trailing bytes after frame"
  | config reason => "config error: " ++ reason
  | configParse => "config parse error"
  | io => "io error"
  | stopped => "session task stopped"

end SessionError

end PathWire
