import ChatRoom.Utf8

/-!
# Failures of the surroundings

What can go wrong outside the chat itself: files, connections and the chat log. Each failure is a
cause; its wording is one function.
-/

namespace ChatRoom

/-! ## Input and output -/

/-- The kinds of input or output failure that the chat tells apart. -/
inductive IoErrorKind where
  | notFound
  | notConnected
  | invalidInput
  | invalidData
  | other
  deriving DecidableEq

/-- A failed read, write or connection, as the operating system reports it. -/
structure IoError where
  kind : IoErrorKind
  message : String
  deriving DecidableEq

/-- What reading a file gives: its bytes, or why there are none. -/
abbrev FileContent := Except IoError (List UInt8)

/-- The text of a file. A file that is not UTF-8 cannot be read as text. -/
def FileContent.text : FileContent → Except IoError String
  | .error e => .error e
  | .ok bytes =>
    match Utf8.decode bytes with
    | some s => .ok s
    | none => .error ⟨.invalidData, "stream did not contain valid UTF-8"⟩

/-! ## Connections -/

inductive TransportError where
  | sendFailed (cause : IoError)
  /-- The input broke off or is not text. -/
  | receiveFailed (cause : IoError)
  /-- The peer sent a line of more than `max` bytes. -/
  | lineTooLong (max : Nat)
  /-- The listener could not be opened, or could not accept a peer. -/
  | acceptFailed (cause : IoError)
  /-- A peer was accepted and did not complete the upgrade of its connection. -/
  | handshakeFailed (reason : String)
  /-- A line holds a line terminator before its end. Passing it on would let its sender forge lines
  to every other client. -/
  | embeddedTerminator
  deriving DecidableEq

namespace TransportError

def message : TransportError → String
  | sendFailed cause => "send failed: " ++ cause.message
  | receiveFailed cause => "receive failed: " ++ cause.message
  | lineTooLong max => "line exceeds maximum length of " ++ toString max ++ " bytes"
  | acceptFailed cause => "accept failed: " ++ cause.message
  | handshakeFailed reason => "handshake failed: " ++ reason
  | embeddedTerminator => "line contains an embedded terminator"

/-- Whether a listener goes on after this error. Only a listener that is itself unusable stops; a
peer that resets, or a momentary shortage, does not take it down. -/
def isTransient : TransportError → Bool
  | acceptFailed cause => cause.kind != .notConnected && cause.kind != .invalidInput
  | _ => true

end TransportError

/-! ## The chat log -/

inductive LogError where
  | cannotOpen (path : String) (cause : IoError)
  | cannotWrite (cause : IoError)
  deriving DecidableEq

def LogError.message : LogError → String
  | cannotOpen path cause => "could not open chat log " ++ path ++ ": " ++ cause.message
  | cannotWrite cause => "chat log write failed: " ++ cause.message

end ChatRoom
