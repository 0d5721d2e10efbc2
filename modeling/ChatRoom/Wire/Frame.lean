import ChatRoom.Text
import ChatRoom.Wire.Incoming

/-!
# Lines in frames

A WebSocket connection carries messages. A text message is one line, with or without a terminator at
its end; messages of any other kind carry no line. Pings and pongs are short, and a connection with
one that is not is at fault.

`Frame.decode` reads one message, `readAll` those of a connection that has ended, and `write` is the
other direction.
-/

namespace ChatRoom

open Text

inductive Frame where
  /-- A text message, in one or more fragments. -/
  | text (fragments : List (List UInt8))
  | binary (payload : List UInt8)
  | ping (payload : List UInt8)
  | pong (payload : List UInt8)
  | close
  deriving DecidableEq

namespace Frame

/-- The longest payload of a ping or a pong, in bytes. -/
def controlLength : Nat := 125

/-- What is reported of a connection with a ping or a pong that is too long. -/
def controlTooLong : TransportError :=
  .receiveFailed ⟨.other, "control frame of more than 125 bytes"⟩

/-- The line of a text message. -/
def decodeLine (max : Nat) (payload : List UInt8) : Except TransportError String :=
  match Utf8.decode payload with
  | none => .error (.receiveFailed ⟨.other, "text message is not valid UTF-8"⟩)
  | some content =>
    let line := dropTerminators content
    if max < line.utf8ByteSize then .error (.lineTooLong max)
    else if line.toList.any isTerminator then .error .embeddedTerminator
    else .ok line

/-- What a message has for the chat, if anything. -/
def decode (max : Nat) : Frame → Option Incoming
  | text fragments =>
    match decodeLine max fragments.flatten with
    | .ok line => some (.line line)
    | .error e => some (.failed e)
  | close => some .finished
  | binary _ => none
  | ping payload | pong payload =>
    if controlLength < payload.length then some (.failed controlTooLong) else none

/-- What is reported of a connection that vanishes without being closed. -/
def reset : TransportError := .receiveFailed ⟨.other, "connection reset without closing handshake"⟩

/-- The lines of a connection that has ended, and the error that reading stopped at, if any. -/
def readAll (max : Nat) : List Frame → List String × Option TransportError
  | [] => ([], some reset)
  | frame :: frames =>
    match decode max frame with
    | none => readAll max frames
    | some (.line line) => let (lines, stop) := readAll max frames; (line :: lines, stop)
    | some .finished => ([], none)
    | some (.failed e) => ([], some e)

/-- The message of one line. A line feed ends it, so that clients can treat both kinds of connection
alike. -/
def write (line : String) : Frame := .text [Utf8.encode (line ++ "\n")]

end Frame

end ChatRoom
