import ChatRoom.Session
import ChatRoom.Settings

/-!
# Errors of the server

Everything that can keep a server from starting or a session from going on, by where it comes from.
-/

namespace ChatRoom

/-- An error, by the part of the chat it comes from. -/
inductive ChatError where
  | transport (e : TransportError)
  | session (e : SessionError)
  | log (e : LogError)
  | settings (e : SettingsError)
  | settingsFile (cause : IoError)
  deriving DecidableEq

def ChatError.message : ChatError → String
  | transport e => e.message
  | session e => e.message
  | log e => e.message
  | settings e => "invalid configuration: " ++ e.message
  | settingsFile cause => "failed to read configuration: " ++ cause.message

/-- The settings in a file; the defaults, if there is no such file. -/
def Settings.load (file : FileContent) : Except ChatError Settings :=
  match file.text with
  | .ok document =>
    match Settings.parse document with
    | .ok settings => .ok settings
    | .error e => .error (.settings e)
  | .error cause => if cause.kind = .notFound then .ok {} else .error (.settingsFile cause)

end ChatRoom
