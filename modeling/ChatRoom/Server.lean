import ChatRoom.Room
import ChatRoom.Connection
import ChatRoom.ChatError

/-!
# The server

A room with its connections and listeners. A listener hands over the peers that come to it, and
goes on while their connections are being established. A connection is asked for a name, logs in,
and then has its lines routed until it ends; the handling of one incoming line is one step of the
room, after which every client that takes what it is sent is sent what waits for it. What the others
are sent waits, until their outboxes are full.

`step` says what one event on the network does, and `run` what a sequence of them does. What the
server finds around it when it starts is a `Host`.
-/

namespace ChatRoom

/-- What a listener gets when it accepts. -/
inductive Arrival where
  /-- A peer whose connection is established at once. -/
  | peer (address : Address)
  /-- A peer whose connection is still to be established. -/
  | opening (address : Address)
  /-- A peer that does not complete the upgrade of its connection. -/
  | stray
  /-- Nobody: the listener fails. -/
  | failure (cause : IoError)
  deriving DecidableEq

/-- What happens on the network. -/
inductive NetworkEvent where
  | accepts (carrier : Carrier) (arrival : Arrival)
  /-- The connection of a peer that was handed over is established, or cannot be. Of the peers for
  which this is under way, it is the one in this place. -/
  | establishes (place : Nat) (succeeds : Bool)
  | wire (id : ConnectionId) (event : WireEvent)
  /-- A client begins or stops to take what it is sent. -/
  | takes (id : ConnectionId) (isTaking : Bool)
  /-- The operator asks the server to stop. -/
  | shutdown
  deriving DecidableEq

/-- A server, with its chat log on a device `δ`. -/
structure Server (δ : Type) where
  limits : SessionLimits
  allowList : AllowList
  /-- The longest line a client may send, in bytes. -/
  lineLength : Nat
  /-- The capacity of the outbox of a session. -/
  outboxCapacity : Nat
  room : Room δ
  isListening : Carrier → Bool
  /-- The peers that were handed over and whose connections are being established, oldest first. -/
  upgrading : List (Carrier × Address) := []
  connections : List Connection := []
  nextId : Nat := 1

namespace Server

variable {δ : Type}

/-- Whether the server accepts connections at all. Sessions go on after it has stopped. -/
def isRunning (server : Server δ) : Bool := server.isListening .tcp || server.isListening .webSocket

def connection? (server : Server δ) (id : ConnectionId) : Option Connection :=
  server.connections.find? (·.id = id)

/-- Puts a connection in the place of the one that has its number. -/
def update (server : Server δ) (c : Connection) : Server δ :=
  { server with connections := server.connections.map fun d => if d.id = c.id then c else d }

/-- Sends every client that takes what it is sent what waits in its outbox. -/
def deliver (server : Server δ) : Server δ :=
  { server with
    connections := server.connections.map (·.collect server.room.roster)
    room := { server.room with
      roster := server.room.roster.drainAll (server.connections.filterMap (·.emptied?)) } }

/-- A client begins or stops to take what it is sent. -/
def pace (server : Server δ) (id : ConnectionId) (isTaking : Bool) : Server δ :=
  match server.connection? id with
  | none => server
  | some c => (server.update { c with isTaking }).deliver

/-! ## Listeners -/

def stopListening (server : Server δ) (carrier : Carrier) : Server δ :=
  { server with isListening := fun d => server.isListening d && d != carrier }

/-- Takes a connection: a full server refuses it, any other asks for a name. -/
def accept (server : Server δ) (carrier : Carrier) (address : Address) : Server δ :=
  let session : Session := { id := ⟨server.nextId⟩, peer := address }
  let c : Connection := { carrier, session }
  let c :=
    if server.room.roster.isFull then c.refuse .serverFull
    else match session.awaitUsername with
      | .ok session => { c with session }.send [usernameRequest]
      | .error _ => (c.send [usernameRequest]).hangUp
  { server with connections := server.connections ++ [c], nextId := server.nextId + 1 }

/-- What comes of what a listener gets. The listener stops for good at an error that is not
transient. -/
def take (server : Server δ) (carrier : Carrier) : Arrival → Server δ
  | .peer address => server.accept carrier address
  | .opening address => { server with upgrading := server.upgrading ++ [(carrier, address)] }
  | .stray => server
  | .failure cause =>
    if (TransportError.acceptFailed cause).isTransient then server
    else server.stopListening carrier

/-- Takes the connection of a peer that was handed over, if it can be established. By then the
listener may have stopped, and the server may have become full. -/
def establish (server : Server δ) (place : Nat) (succeeds : Bool) : Server δ :=
  match server.upgrading[place]? with
  | none => server
  | some (carrier, address) =>
    let server := { server with upgrading := server.upgrading.eraseIdx place }
    if succeeds then server.accept carrier address else server

/-! ## Sessions -/

variable [LogDevice δ]

/-- Ends a connection; if its session was active, it departs. -/
def part (server : Server δ) (c : Connection) : Connection × Room δ :=
  (c.hangUp, if c.session.close.1 then (server.room.depart c.id).2 else server.room)

/-- Answers the line that a client was asked for. A server that is to make outboxes larger than they
can be has nothing to offer, and hangs up. -/
def login (server : Server δ) (c : Connection) (line : String) : Connection × Room δ :=
  if Outbox.maxCapacity < server.outboxCapacity then (c.hangUp, server.room)
  else match server.allowList.check server.limits line with
  | .error e => (c.decline e, server.room)
  | .ok username =>
    let (box, roster) := server.room.roster.openOutbox server.outboxCapacity
    match { server.room with roster }.arrive c.id username box with
    | .error e => (c.decline e, server.room)
    | .ok room =>
      match c.session.activate username with
      | .ok session => ({ c with session, outbox := some box }, room)
      | .error _ => (c.hangUp, (room.depart c.id).2)

/-- What becomes of a connection and the room when something comes in. -/
def receive (server : Server δ) (c : Connection) (incoming : Incoming) : Connection × Room δ :=
  match c.session.state, c.session.username, incoming with
  | .awaitingUsername, _, .line line => server.login c line
  | .awaitingUsername, _, .failed (.lineTooLong _) => (c.refuse .usernameTooLong, server.room)
  | .active, some sender, .line line => (c, (server.room.route c.id sender line).2)
  | _, _, _ => server.part c

/-- Handles one thing that comes in on a connection, if it is still served, and sends every client
that takes it what is queued because of it. -/
def handle (id : ConnectionId) (server : Server δ) (incoming : Incoming) : Server δ :=
  match server.connection? id with
  | none => server
  | some c =>
    if c.isOpen then
      let (c, room) := server.receive c incoming
      ({ server with room }.update c).deliver
    else server

/-- Handles an event on the wire of a connection, if it is still served. -/
def wire (server : Server δ) (id : ConnectionId) (event : WireEvent) : Server δ :=
  match server.connection? id with
  | none => server
  | some c =>
    if c.isOpen then
      let (incoming, unread) := c.hear server.lineLength event
      let isReachable := c.isReachable && event != .vanishes
      incoming.foldl (handle id) (server.update { c with unread, isReachable })
    else server

/-! ## Runs -/

/-- What one event on the network does. At a shutdown all listeners stop, and what is connected or
being established stays. -/
def step (server : Server δ) : NetworkEvent → Server δ
  | .accepts carrier arrival =>
    if server.isListening carrier then server.take carrier arrival else server
  | .establishes place succeeds => server.establish place succeeds
  | .wire id event => server.wire id event
  | .takes id isTaking => server.pace id isTaking
  | .shutdown => { server with isListening := fun _ => false }

def run (server : Server δ) (events : List NetworkEvent) : Server δ := events.foldl step server

end Server

/-! ## Starting -/

/-- What a server finds around it. -/
structure Host (δ : Type) where
  file : (path : String) → FileContent
  openLog : (path : String) → Except IoError δ
  listen : Carrier → (address : String) → Except IoError Unit

/-- How a server is to start: its settings, and the allow-list and the groups unless they are to be
read from the files that the settings name. -/
structure Plan where
  settings : Settings := {}
  allowList : Option AllowList := none
  groups : Option GroupTable := none

/-- Starts a server: reads the lists, opens the log, and opens the listeners, of which the first
that fails is reported. A greeting always fits into an outbox. -/
def Plan.start {δ : Type} (plan : Plan) (host : Host δ) : Except ChatError (Server δ) := do
  let settings := plan.settings
  let allowList := plan.allowList.getD
    (AllowList.load settings.limits (host.file settings.usersFile))
  let groups := plan.groups.getD
    (GroupTable.load settings.limits (host.file settings.groupsFile))
  let log ← (host.openLog settings.logFile).mapError fun cause =>
    .log (.cannotOpen settings.logFile cause)
  let listen (carrier : Carrier) (address : String) : Except ChatError Unit :=
    (host.listen carrier address).mapError fun cause => .transport (.acceptFailed cause)
  listen .tcp settings.tcpAddress
  match settings.webSocketAddress with
  | some address => listen .webSocket address
  | none => pure ()
  let room : Room δ :=
    { roster := { limit := settings.maxSessions }
      groups
      history := { capacity := settings.historyLines }
      log }
  return {
    limits := settings.limits
    allowList
    lineLength := settings.lineLength
    outboxCapacity := max settings.outboxCapacity room.greetingLength
    room
    isListening := fun carrier => carrier = .tcp || settings.webSocketAddress.isSome }

end ChatRoom
