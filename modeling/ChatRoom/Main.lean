import ChatRoom.Log.Memory
import ChatRoom.Server
import Std.Async.TCP
import Std.Async.Timer
import Std.Sync.Mutex

/-!
# Command line

`chatroom [settings]` starts a server with the settings in a file, or with the defaults if no file
is named or there is none, and serves plain connections until it is interrupted or its listener
fails.

Everything that happens on the network is handed to `Server.step`; what a step adds to the log and
to the lines of each connection is then written out.
-/

namespace ChatRoom.CommandLine

open Std.Async Std.Async.TCP Std.Net

/-! ## Surroundings -/

/-- An error of the operating system, as far as the chat tells them apart. -/
def ioError (e : IO.Error) : IoError :=
  match e with
  | .noFileOrDirectory .. => ⟨.notFound, toString e⟩
  | .invalidArgument .. => ⟨.invalidInput, toString e⟩
  | _ => ⟨.other, toString e⟩

/-- What an action gives, or how it fails. -/
def attempt {α : Type} (action : IO α) : IO (Except IoError α) := do
  try
    return .ok (← action)
  catch e =>
    return .error (ioError e)

def fileContent (path : String) : IO FileContent :=
  attempt do return (← IO.FS.readBinFile path).data.toList

def localTime : IO Timestamp := do
  let now ← Std.Time.PlainDateTime.now
  return {
    year := now.year.toInt.toNat
    month := now.month.val.toNat
    day := now.day.val.toNat
    hour := now.hour.val.toNat
    minute := now.minute.val.toNat
    second := now.second.val.toNat }

/-- An address as the operating system takes it, which has no scope. -/
def socketAddress : Address → SocketAddress
  | .v4 octets service => .v4 ⟨⟨octets⟩, service⟩
  | .v6 groups _ service => .v6 ⟨⟨groups⟩, service⟩

/-- An address that the operating system gives. -/
def address : SocketAddress → Address
  | .v4 ⟨⟨octets⟩, service⟩ => .v4 octets service
  | .v6 ⟨⟨groups⟩, service⟩ => .v6 groups 0 service

/-- The address given for a peer that is already gone. -/
def nowhere : Address := .v4 #v[0, 0, 0, 0] 0

/-- Opens a listener at an address. -/
def openListener (address : String) : IO Socket.Server := do
  let some address := Address.parse? address
    | throw (.invalidArgument none 0 "invalid socket address")
  let listener ← Socket.Server.mk
  listener.bind (socketAddress address)
  listener.listen 128
  return listener

/-! ## A running server -/

structure Peer where
  id : ConnectionId
  socket : Socket.Client

/-- A server with the sockets of its clients and the file of its log. What has been written out is
no longer in the server. -/
structure Running where
  server : Server MemoryLog
  peers : List Peer := []
  logFile : IO.FS.Handle

/-- Writes what a client is sent, and says whether the client stays. -/
def writeOut (server : Server MemoryLog) (peer : Peer) : IO Bool := do
  let some c := server.connection? peer.id | return false
  unless c.sent.isEmpty do
    discard <| Async.toIO (peer.socket.send ⟨(LineStream.writeAll c.sent).toArray⟩)
  unless c.isOpen do
    discard <| Async.toIO peer.socket.shutdown
  return c.isOpen

/-- Lets something happen on the network, and writes out what comes of it. -/
def happen (running : Running) (event : NetworkEvent) (newcomer : Option Socket.Client) :
    IO Running := do
  let server := running.server
  let log := { server.room.log with clock := ← localTime }
  let arrived : List Peer := newcomer.toList.map fun socket => { id := ⟨server.nextId⟩, socket }
  let server := { server with room := { server.room with log } }.step event
  try
    running.logFile.write ⟨server.room.log.written.toArray⟩
    running.logFile.flush
  catch e =>
    IO.eprintln (LogError.cannotWrite (ioError e)).message
  let peers ← (running.peers ++ arrived).filterM (writeOut server)
  let log := { server.room.log with written := [] }
  let connections := (server.connections.filter (·.isOpen)).map fun c => { c with sent := [] }
  return { running with
    server := { server with connections, room := { server.room with log } }
    peers }

/-- Lets something happen on the network of a server that several tasks share. -/
def perform (state : Std.Mutex Running) (event : NetworkEvent)
    (newcomer : Option Socket.Client) : IO Unit :=
  state.atomically do
    set (← happen (← get) event newcomer)

/-- Reads from a client until it ends. -/
partial def readFrom (state : Std.Mutex Running) (id : ConnectionId) (socket : Socket.Client) :
    Async Unit := do
  let data ← try socket.recv? 4096 catch _ => pure none
  match data with
  | some data =>
    perform state (.wire id (.bytes data.data.toList)) none
    readFrom state id socket
  | none => perform state (.wire id .ends) none

/-- Accepts clients until the listener fails for good. -/
partial def acceptFrom (state : Std.Mutex Running) (listener : Socket.Server) (retryDelay : Nat) :
    Async Unit := do
  let accepted ← try Except.ok <$> listener.accept catch e => pure (.error (ioError e))
  match accepted with
  | .ok socket =>
    let peer ← try address <$> socket.getPeerName catch _ => pure nowhere
    let id ← state.atomically do
      let running ← get
      set (← happen running (.accepts .tcp (.peer peer)) (some socket))
      return ⟨running.server.nextId⟩
    background (readFrom state id socket)
    acceptFrom state listener retryDelay
  | .error cause =>
    perform state (.accepts .tcp (.failure cause)) none
    if (← state.atomically get).server.isRunning then
      sleep (.ofNat retryDelay)
      acceptFrom state listener retryDelay

/-! ## Starting -/

/-- Starts a server with these settings and serves until its listener fails. -/
def serve (settings : Settings) : IO (Except ChatError Unit) := do
  let users ← fileContent settings.usersFile
  let groups ← fileContent settings.groupsFile
  let logFile ← attempt (IO.FS.Handle.mk settings.logFile .append)
  let listener ← attempt (openListener settings.tcpAddress)
  let clock ← localTime
  let host : Host MemoryLog := {
    file := fun path => if path = settings.usersFile then users else groups
    openLog := fun _ => logFile.map fun _ => { clock }
    listen := fun
      | .tcp, _ => listener.map fun _ => ()
      | .webSocket, _ => .error ⟨.other, "WebSocket connections are not supported here"⟩ }
  match ({ settings } : Plan).start host, logFile, listener with
  | .ok server, .ok logFile, .ok listener =>
    let state ← Std.Mutex.new { server, logFile }
    (acceptFrom state listener settings.acceptRetryDelay).block
    return .ok ()
  | .error e, _, _ => return .error e
  | _, .error cause, _ => return .error (.log (.cannotOpen settings.logFile cause))
  | _, _, .error cause => return .error (.transport (.acceptFailed cause))

/-- The settings that the arguments name. -/
def settings (args : List String) : IO (Except ChatError Settings) := do
  match args with
  | [] => return .ok {}
  | path :: _ => return Settings.load (← fileContent path)

end ChatRoom.CommandLine

open ChatRoom in
def main (args : List String) : IO UInt32 := do
  let outcome ← match ← CommandLine.settings args with
    | .ok settings => CommandLine.serve settings
    | .error e => pure (.error e)
  match outcome with
  | .ok () => return 0
  | .error e =>
    IO.eprintln e.message
    return 1
