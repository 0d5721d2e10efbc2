import ChatRoom.Roster
import ChatRoom.Groups
import ChatRoom.History
import ChatRoom.Log

/-!
# The room

Where the chat takes place: the roster, the groups, the history and the log, and the rules by which
a line goes from one client to others.

An arrival is two steps, `enter` and the record of the join, and so is a departure, `leave` and the
record of it. Within each step nothing else happens. The newcomer's replay is taken in `enter`, and
an event goes to the active sessions and into the history in the same step.
-/

namespace ChatRoom

/-- What became of a line that was routed. -/
inductive Routed where
  /-- A blank line: nothing was done. -/
  | ignored
  /-- No command, or nobody to send it to: only the sender was told. -/
  | rejected
  /-- Queued for `delivered` sessions, the sender among them. -/
  | global (delivered : Nat)
  | direct (recipient : String)
  /-- Queued for `delivered` members other than the sender. -/
  | group (name : String) (delivered : Nat)
  deriving DecidableEq

/-- The state of the chat, with a log on a device `δ`. -/
structure Room (δ : Type) where
  roster : Roster
  groups : GroupTable
  history : History
  log : δ

namespace Room

variable {δ : Type}

/-! ## Records -/

section Records

variable [LogDevice δ]

/-- Keeps an event in the history and the log. -/
def keep (room : Room δ) (event : Event) : Room δ :=
  { room with
    history := room.history.append event.line
    log := Log.note event.line room.log }

/-- Tells an event to every active session but one and keeps it. Says how many were told. -/
def record (room : Room δ) (event : Event) (except : Option ConnectionId) : Nat × Room δ :=
  let (delivered, roster) := room.roster.broadcast event.line except
  (delivered, { room with roster }.keep event)

end Records

/-- Tells one session something, without a record of it. -/
def tell (room : Room δ) (id : ConnectionId) (reply : Reply) : Room δ :=
  { room with roster := (room.roster.send id reply.line).2 }

/-! ## Arrival and departure -/

/-- What a newcomer is told first: a welcome, and the history if there is any. -/
def greeting (room : Room δ) (username : String) : List String :=
  (Reply.welcome username).line :: room.history.replay

/-- The most lines a greeting has: the welcome, and a full history between its two markers. -/
def greetingLength (room : Room δ) : Nat := room.history.capacity + 3

/-- First half of an arrival: the session is put on the roster, its greeting queued. -/
def enter (room : Room δ) (id : ConnectionId) (username : String) (box : OutboxId) :
    Except SessionError (Room δ) :=
  (room.roster.register id username box (room.greeting username)).map
    fun (_, roster) => { room with roster }

/-- First half of a departure: the session is taken off the roster. -/
def leave (room : Room δ) (id : ConnectionId) : Option String × Room δ :=
  let (username, roster) := room.roster.unregister id
  (username, { room with roster })

variable [LogDevice δ]

/-- Makes a session active, and tells the others. If its name is taken or the room is full, nothing
changes. -/
def arrive (room : Room δ) (id : ConnectionId) (username : String) (box : OutboxId) :
    Except SessionError (Room δ) :=
  (room.enter id username box).map fun room => (room.record (.joined username) (some id)).2

/-- Ends a session, if it is active, and tells the others. -/
def depart (room : Room δ) (id : ConnectionId) : Option String × Room δ :=
  match room.leave id with
  | (none, _) => (none, room)
  | (some username, room) => (some username, (room.record (.left username) none).2)

/-! ## Routing -/

/-- A direct message: to its recipient, with a copy to the sender. -/
def routeDirect (room : Room δ) (id : ConnectionId) (sender recipient text : String) :
    Routed × Room δ :=
  match room.roster.find? recipient with
  | none => (.rejected, room.tell id (.userNotFound recipient))
  | some recipientId =>
    let room := room.tell recipientId (.directFrom sender text)
    let room := room.tell id (.directTo recipient text)
    (.direct recipient, room.keep (.direct sender recipient text))

/-- A group message: to the active members but the sender, with a copy to the sender, who need not
be a member. -/
def routeGroup (room : Room δ) (id : ConnectionId) (sender name text : String) :
    Routed × Room δ :=
  match room.groups.get? name with
  | none => (.rejected, room.tell id (.groupNotFound name))
  | some group =>
    let members := (group.members.filterMap room.roster.find?).filter (· ≠ id)
    let (delivered, roster) :=
      room.roster.sendEach (Reply.groupFrom group.name sender text).line members
    let room := { room with roster }.tell id (.groupTo group.name text)
    (.group group.name delivered, room.keep (.group group.name sender text))

/-- Routes one line of an active session by what it asks for. -/
def route (room : Room δ) (id : ConnectionId) (sender line : String) : Routed × Room δ :=
  match Command.parse line with
  | .error malformed => (.rejected, room.tell id (.malformed malformed))
  | .ok none => (.ignored, room)
  | .ok (some (.global text)) =>
    let (delivered, room) := room.record (.global sender text) none
    (.global delivered, room)
  | .ok (some (.direct recipient text)) => room.routeDirect id sender recipient text
  | .ok (some (.group name text)) => room.routeGroup id sender name text

end Room

end ChatRoom
