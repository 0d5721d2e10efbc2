import ChatRoom.Roster
import ChatRoom.Wire.LineStream
import ChatRoom.Wire.Frame

/-!
# Connections

One connected client as the server sees it: what carries the connection, its session, the bytes
that are not a line yet, and every line it has been sent. A peer that reads slowly stops taking what
it is sent for a while; then its lines wait in its outbox.

`hear` turns what happens on the wire into what it means to the chat, which is where plain and
WebSocket connections differ; from there on they are the same.
-/

namespace ChatRoom

/-- What a connection runs over. -/
inductive Carrier where
  | tcp
  | webSocket
  deriving DecidableEq

/-- What happens on the wire of a connection. -/
inductive WireEvent where
  | bytes (data : List UInt8)
  | frame (frame : Frame)
  /-- The peer ends its sending side. -/
  | ends
  /-- Reading from the peer fails. -/
  | fails (cause : IoError)
  /-- The peer is gone, and takes nothing more. -/
  | vanishes
  deriving DecidableEq

structure Connection where
  carrier : Carrier
  session : Session
  outbox : Option OutboxId := none
  /-- Bytes received that do not make a line yet. -/
  unread : List UInt8 := []
  sent : List String := []
  /-- Whether the server still serves the connection. -/
  isOpen : Bool := true
  /-- Whether the peer is there to be sent something. -/
  isReachable : Bool := true
  /-- Whether the peer takes what its session sends it; if not, that waits in its outbox. The few
  lines of a login that do not go through an outbox always get through. -/
  isTaking : Bool := true
  deriving DecidableEq

namespace Connection

def id (c : Connection) : ConnectionId := c.session.id

/-! ## What comes in -/

/-- What comes of a connection's unread bytes when its stream ends. -/
def lastWords (unread : List UInt8) : List Incoming :=
  match LineStream.finish unread with
  | .error e => [.failed e]
  | .ok last => last.toList.map .line ++ [.finished]

/-- What an event on the wire means to the chat, and the bytes that are left unread. Lines have at
most `max` bytes. A stream that ends has last words, one that cannot be read any more has none. -/
def hear (max : Nat) (c : Connection) (event : WireEvent) : List Incoming × List UInt8 :=
  match c.carrier, event with
  | .tcp, .bytes data =>
    match LineStream.read max (c.unread ++ data) with
    | (lines, .unfinished rest) => (lines.map .line, rest)
    | (lines, .failed e) => (lines.map .line ++ [.failed e], [])
  | .tcp, .ends | .tcp, .vanishes => (lastWords c.unread, [])
  | .tcp, .fails cause => ([.failed (.receiveFailed cause)], [])
  | .webSocket, .frame frame => ((Frame.decode max frame).toList, [])
  | .webSocket, .ends | .webSocket, .vanishes | .webSocket, .fails _ => ([.failed Frame.reset], [])
  | .tcp, .frame _ | .webSocket, .bytes _ => ([], c.unread)

/-! ## What goes out -/

/-- Sends lines to the peer, if it is there. -/
def send (c : Connection) (lines : List String) : Connection :=
  if c.isReachable then { c with sent := c.sent ++ lines } else c

/-- What waits for the peer in its outbox, if it has one. -/
def waiting (c : Connection) (roster : Roster) : List String :=
  match c.outbox with
  | none => []
  | some box => roster.pending box

/-- The outbox that the peer empties, if it takes what it is sent. -/
def emptied? (c : Connection) : Option OutboxId := if c.isTaking then c.outbox else none

/-- Sends the peer what waits for it, if it takes that. -/
def collect (c : Connection) (roster : Roster) : Connection :=
  if c.isTaking then c.send (c.waiting roster) else c

def hangUp (c : Connection) : Connection :=
  { c with session := c.session.close.2, isOpen := false }

/-- Ends the connection with the lines of a rejection. -/
def refuse (c : Connection) (rejection : Rejection) : Connection :=
  (c.send rejection.lines).hangUp

/-- Ends the connection because of an error in its login. -/
def decline (c : Connection) (e : SessionError) : Connection :=
  match e.rejection? with
  | some rejection => c.refuse rejection
  | none => c.hangUp

end Connection

end ChatRoom
