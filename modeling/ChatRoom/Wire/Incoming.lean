import ChatRoom.Failure

/-!
# What comes in

The chat sees every connection as a sequence of lines, ended by the peer or by a fault, whatever
carries it.
-/

namespace ChatRoom

/-- What a connection has for the chat, whatever carries it. -/
inductive Incoming where
  | line (text : String)
  | finished
  /-- The connection, or what it carries, is at fault. -/
  | failed (error : TransportError)
  deriving DecidableEq

end ChatRoom
