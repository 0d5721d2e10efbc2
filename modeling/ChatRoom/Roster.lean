import ChatRoom.Session
import ChatRoom.Outbox

/-!
# The roster

Who is active: the one place that decides whether a name is free and whether there is room for one
more. Each active session has an outbox, and the lines of the chat are sent through the roster, so a
session that has been taken off it gets nothing more.

Outboxes outlive their sessions: a reader may still take what was queued before the session ended.
They are numbered in the order in which they were opened.
-/

namespace ChatRoom

abbrev OutboxId := Nat

structure Entry where
  id : ConnectionId
  username : String
  outbox : OutboxId
  deriving DecidableEq

/-- The active sessions, the limit on their number, and all outboxes opened so far. -/
structure Roster where
  limit : Option Nat := none
  entries : List Entry := []
  outboxes : List Outbox := []
  deriving DecidableEq

namespace Roster

/-! ## Looking up -/

def size (roster : Roster) : Nat := roster.entries.length

def isEmpty (roster : Roster) : Bool := roster.entries.isEmpty

def isFull (roster : Roster) : Bool :=
  match roster.limit with
  | none => false
  | some limit => limit ≤ roster.size

def entryOf? (roster : Roster) (id : ConnectionId) : Option Entry :=
  roster.entries.find? (·.id = id)

/-- The connection that is active under a name. -/
def find? (roster : Roster) (username : String) : Option ConnectionId :=
  (roster.entries.find? (·.username = username)).map (·.id)

/-- Whether a session that could send to this outbox is active. -/
def isConnected (roster : Roster) (box : OutboxId) : Bool :=
  roster.entries.any (·.outbox = box)

def pending (roster : Roster) (box : OutboxId) : List String :=
  match roster.outboxes[box]? with
  | none => []
  | some outbox => outbox.pending

/-! ## Outboxes -/

def openOutbox (roster : Roster) (capacity : Nat) : OutboxId × Roster :=
  (roster.outboxes.length,
    { roster with outboxes := roster.outboxes ++ [Outbox.ofCapacity capacity] })

/-- Takes everything that waits in an outbox. -/
def drain (roster : Roster) (box : OutboxId) : List String × Roster :=
  (roster.pending box, { roster with outboxes := roster.outboxes.modify box Outbox.drained })

/-- Takes everything that waits in any of these outboxes, or in any at all. -/
def drainAll (roster : Roster)
    (boxes : List OutboxId := List.range roster.outboxes.length) : Roster :=
  { roster with
    outboxes := roster.outboxes.mapIdx fun box outbox =>
      if box ∈ boxes then outbox.drained else outbox }

/-- The reader of an outbox goes away. -/
def abandon (roster : Roster) (box : OutboxId) : Roster :=
  { roster with outboxes := roster.outboxes.modify box Outbox.abandoned }

/-- Queues a line in an outbox, and says whether it was queued. -/
def offer (roster : Roster) (box : OutboxId) (line : String) : Bool × Roster :=
  match roster.outboxes[box]? with
  | none => (false, roster)
  | some outbox =>
    (outbox.accepts, { roster with outboxes := roster.outboxes.set box (outbox.push line) })

/-- Queues several lines in an outbox, and says of each whether it was queued. -/
def offerAll (roster : Roster) (box : OutboxId) : List String → List Bool × Roster
  | [] => ([], roster)
  | line :: lines =>
    let (queued, roster) := roster.offer box line
    let (rest, roster) := roster.offerAll box lines
    (queued :: rest, roster)

/-! ## Sending -/

/-- Queues a line for an active session, and says whether it was queued. A session whose outbox is
full loses the line and stays. -/
def send (roster : Roster) (id : ConnectionId) (line : String) : Bool × Roster :=
  match roster.entryOf? id with
  | none => (false, roster)
  | some entry => roster.offer entry.outbox line

/-- Queues a line for each of several sessions, and counts how often it was queued. -/
def sendEach (roster : Roster) (line : String) : List ConnectionId → Nat × Roster
  | [] => (0, roster)
  | id :: ids =>
    let (queued, roster) := roster.send id line
    let (count, roster) := roster.sendEach line ids
    (count + queued.toNat, roster)

/-- Queues a line for every active session but one, and counts how often it was queued. -/
def broadcast (roster : Roster) (line : String) (except : Option ConnectionId) : Nat × Roster :=
  roster.sendEach line ((roster.entries.map (·.id)).filter (some · ≠ except))

/-! ## Coming and going -/

/-- Puts a session on the roster, if its name is free and there is room, of which the first that
fails is reported. The greeting is queued in its outbox before anybody else can send to it. A
connection that is already on the roster gives up its former entry. -/
def register (roster : Roster) (id : ConnectionId) (username : String) (box : OutboxId)
    (greeting : List String) : Except SessionError (List Bool × Roster) :=
  if roster.entries.any (·.username = username) then .error (.usernameInUse username)
  else match roster.limit, roster.isFull with
    | some limit, true => .error (.serverFull limit)
    | _, _ =>
      let (queued, roster) := roster.offerAll box greeting
      let others := roster.entries.filter (·.id ≠ id)
      .ok (queued, { roster with entries := others ++ [⟨id, username, box⟩] })

/-- Takes a session off the roster, and tells its name if it was there. -/
def unregister (roster : Roster) (id : ConnectionId) : Option String × Roster :=
  ((roster.entryOf? id).map (·.username),
    { roster with entries := roster.entries.filter (·.id ≠ id) })

end Roster

end ChatRoom
