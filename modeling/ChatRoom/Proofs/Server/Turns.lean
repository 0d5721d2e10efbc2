import ChatRoom.Log.Memory
import ChatRoom.Server
import ChatRoom.Proofs.Room.History
import ChatRoom.Proofs.Session
import ChatRoom.Proofs.Wire.Lines

/-!
# The turns of a server

A run of a server is a sequence of turns (`Server.turns`): in each, one thing that came in on a
served connection is handled. A turn moves the room by the steps of `Server.moves`, and has one of
four outcomes (`Server.Receives`, `receives`). What a run puts on record (`Server.recorded`) is what
its turns do, and history and log were given just that (`room_run_recorded`).

`Invariant.run` is induction over runs: what the listeners do, what is heard, what clients begin or
stop to take and what a turn does keep an invariant, so a run does; and it holds before each turn
(`Invariant.atTurn`). Of the lines that come in, all are single lines. What a plan sets up
(`Plan.SetsUp`) stays (`SameSetup`).
-/

namespace ChatRoom

open Text

namespace Server

variable {δ : Type}

/-! ## What comes of what comes in -/

/-- The steps of the room when a client answers with a name. -/
def loginMoves (server : Server δ) (c : Connection) (line : String) : List RoomStep :=
  if Outbox.maxCapacity < server.outboxCapacity then []
  else match server.allowList.check server.limits line with
  | .error _ => []
  | .ok username =>
    if server.room.roster.Admits username then
      [.enter c.id username server.outboxCapacity, .joined c.id username]
    else []

/-- The steps of the room when something comes in on a connection. -/
def moves (server : Server δ) (c : Connection) (incoming : Incoming) : List RoomStep :=
  match c.session.state, c.session.username, incoming with
  | .awaitingUsername, _, .line line => server.loginMoves c line
  | .active, some sender, .line line => [.route c.id sender line]
  | .active, _, _ => server.room.departure c.id
  | _, _, _ => []

/-- A connection whose session is active under a name. -/
def welcome (c : Connection) (username : String) (box : OutboxId) : Connection :=
  { c with
    session := { c.session with state := .active, username := some username }
    outbox := some box }

/-- What can become of a connection, and the steps that go with it. -/
inductive Receives (server : Server δ) (c : Connection) (incoming : Incoming) :
    Connection → List RoomStep → Prop
  /-- It was not active and ends, with the lines of a rejection or with none. -/
  | turnedAway (lines : List String) (hstate : c.session.state ≠ .active)
      (hlines : lines = [] ∨ ∃ rejection : Rejection, lines = rejection.lines) :
      server.Receives c incoming (c.send lines).hangUp []
  | welcomed (line username : String) (hstate : c.session.state = .awaitingUsername)
      (hline : incoming = .line line)
      (hcheck : server.allowList.check server.limits line = .ok username)
      (hadmits : server.room.roster.Admits username) :
      server.Receives c incoming (welcome c username server.room.roster.outboxes.length)
        [.enter c.id username server.outboxCapacity, .joined c.id username]
  | routed (sender line : String) (hstate : c.session.state = .active)
      (husername : c.session.username = some sender) (hline : incoming = .line line) :
      server.Receives c incoming c [.route c.id sender line]
  | parted (hstate : c.session.state = .active) :
      server.Receives c incoming c.hangUp (server.room.departure c.id)

theorem send_nil (c : Connection) : c.send [] = c := by
  simp [Connection.send]

theorem Receives.hangUp (server : Server δ) {c : Connection} (incoming : Incoming)
    (hstate : c.session.state ≠ .active) : server.Receives c incoming c.hangUp [] := by
  have h : server.Receives c incoming (c.send []).hangUp [] := .turnedAway [] hstate (.inl rfl)
  rwa [send_nil] at h

theorem decline_eq (c : Connection) (e : SessionError) :
    ∃ lines, (lines = [] ∨ ∃ rejection : Rejection, lines = rejection.lines) ∧
      c.decline e = (c.send lines).hangUp := by
  unfold Connection.decline
  cases e.rejection? with
  | none => exact ⟨[], .inl rfl, by rw [send_nil]⟩
  | some rejection => exact ⟨rejection.lines, .inr ⟨rejection, rfl⟩, rfl⟩

/-! ## Connections -/

theorem mem_update {server : Server δ} {c d : Connection} (h : d ∈ (server.update c).connections) :
    d = c ∨ d ∈ server.connections ∧ d.id ≠ c.id := by
  obtain ⟨e, he, rfl⟩ := List.mem_map.1 h
  split
  · exact .inl rfl
  · rename_i hid
    exact .inr ⟨he, hid⟩

theorem id_replace (c d : Connection) : (if d.id = c.id then c else d).id = d.id := by
  split
  · rename_i hid
    exact hid.symm
  · rfl

theorem id_of_connection? {server : Server δ} {id : ConnectionId} {c : Connection}
    (h : server.connection? id = some c) : c.id = id := by
  simpa using List.find?_some h

theorem ids_update (server : Server δ) (c : Connection) :
    (server.update c).connections.map (·.id) = server.connections.map (·.id) := by
  rw [update, List.map_map]
  exact List.map_congr_left fun d _ => id_replace c d

theorem connection?_map (server : Server δ) {f : Connection → Connection}
    (hf : ∀ c, (f c).id = c.id) (id : ConnectionId) :
    (server.connections.map f).find? (·.id = id) = (server.connection? id).map f := by
  have hsame : (fun c : Connection => decide ((f c).id = id)) = fun c => decide (c.id = id) :=
    funext fun c => by rw [hf]
  rw [List.find?_map, connection?, Function.comp_def, hsame]

theorem connection?_update (server : Server δ) (c : Connection) (id : ConnectionId) :
    (server.update c).connection? id =
      (server.connection? id).map fun d => if d.id = c.id then c else d := by
  rw [← connection?_map server (id_replace c), update, connection?]

@[simp] theorem session_send (c : Connection) (lines : List String) :
    (c.send lines).session = c.session := by
  unfold Connection.send
  split <;> rfl

theorem id_send (c : Connection) (lines : List String) : (c.send lines).id = c.id :=
  congrArg Session.id (session_send c lines)

@[simp] theorem isOpen_send (c : Connection) (lines : List String) :
    (c.send lines).isOpen = c.isOpen := by
  unfold Connection.send
  split <;> rfl

@[simp] theorem session_collect (c : Connection) (roster : Roster) :
    (c.collect roster).session = c.session := by
  unfold Connection.collect
  split <;> simp

theorem id_collect (c : Connection) (roster : Roster) : (c.collect roster).id = c.id :=
  congrArg Session.id (session_collect c roster)

@[simp] theorem isOpen_collect (c : Connection) (roster : Roster) :
    (c.collect roster).isOpen = c.isOpen := by
  unfold Connection.collect
  split <;> simp

@[simp] theorem unread_send (c : Connection) (lines : List String) :
    (c.send lines).unread = c.unread := by
  unfold Connection.send
  split <;> rfl

@[simp] theorem unread_collect (c : Connection) (roster : Roster) :
    (c.collect roster).unread = c.unread := by
  unfold Connection.collect
  split <;> simp

theorem mem_deliver {server : Server δ} {d : Connection} (h : d ∈ server.deliver.connections) :
    ∃ c ∈ server.connections, d = c.collect server.room.roster := by
  obtain ⟨c, hc, rfl⟩ := List.mem_map.1 h
  exact ⟨c, hc, rfl⟩

theorem ids_deliver (server : Server δ) :
    server.deliver.connections.map (·.id) = server.connections.map (·.id) := by
  rw [deliver, List.map_map]
  exact List.map_congr_left fun c _ => id_collect c server.room.roster

theorem connection?_deliver (server : Server δ) (id : ConnectionId) :
    server.deliver.connection? id =
      (server.connection? id).map (·.collect server.room.roster) :=
  connection?_map server (fun c => id_collect c server.room.roster) id

/-- No connection keeps a whole line between two events. -/
def KeepsNoLines (server : Server δ) : Prop := ∀ c ∈ server.connections, c.KeepsNoLine

theorem KeepsNoLines.update {server : Server δ} (h : server.KeepsNoLines) {c : Connection}
    (hc : c.KeepsNoLine) : (server.update c).KeepsNoLines := by
  intro d hd
  rcases mem_update hd with rfl | ⟨hd, -⟩
  · exact hc
  · exact h d hd

theorem KeepsNoLines.deliver {server : Server δ} (h : server.KeepsNoLines) :
    server.deliver.KeepsNoLines := by
  intro d hd
  obtain ⟨c, hc, rfl⟩ := mem_deliver hd
  rw [Connection.KeepsNoLine, unread_collect]
  exact h c hc

def newcomer (server : Server δ) (carrier : Carrier) (address : Address) : Connection :=
  { carrier, session := { id := ⟨server.nextId⟩, peer := address } }

/-- A connection that is accepted is refused, or is asked for a name. -/
theorem connections_accept (server : Server δ) (carrier : Carrier) (address : Address) :
    ∃ d, (server.accept carrier address).connections = server.connections ++ [d] ∧
      (d = ((server.newcomer carrier address).send Rejection.serverFull.lines).hangUp ∨
        d = { server.newcomer carrier address with
          session := { id := ⟨server.nextId⟩, peer := address, state := .awaitingUsername } }.send
            [usernameRequest]) := by
  refine ⟨_, rfl, ?_⟩
  cases server.room.roster.isFull with
  | true => exact .inl rfl
  | false => exact .inr rfl

theorem mem_accept {server : Server δ} {carrier : Carrier} {address : Address} {d : Connection}
    (h : d ∈ (server.accept carrier address).connections) :
    d ∈ server.connections ∨
      d = ((server.newcomer carrier address).send Rejection.serverFull.lines).hangUp ∨
      d = { server.newcomer carrier address with
        session := { id := ⟨server.nextId⟩, peer := address, state := .awaitingUsername } }.send
          [usernameRequest] := by
  obtain ⟨new, hconnections, hnew⟩ := server.connections_accept carrier address
  rw [hconnections] at h
  rcases List.mem_append.1 h with hd | hd
  · exact .inl hd
  · exact .inr (List.mem_singleton.1 hd ▸ hnew)

theorem KeepsNoLines.accept {server : Server δ} (h : server.KeepsNoLines) (carrier : Carrier)
    (address : Address) : (server.accept carrier address).KeepsNoLines := by
  intro d hd
  rcases mem_accept hd with hd | rfl | rfl
  · exact h d hd
  · have hunread : ((server.newcomer carrier address).send
        Rejection.serverFull.lines).hangUp.unread = [] := unread_send _ _
    rw [Connection.KeepsNoLine, hunread]
    exact List.not_mem_nil
  · rw [Connection.KeepsNoLine, unread_send]
    exact List.not_mem_nil

/-- The connection of a peer begins in this event: it comes to a listener that listens and is
established at once, or it was handed over before and is established now. -/
def Connects (server : Server δ) (carrier : Carrier) (address : Address) (event : NetworkEvent) :
    Prop :=
  event = .accepts carrier (.peer address) ∧ server.isListening carrier = true ∨
    ∃ place, event = .establishes place true ∧ server.upgrading[place]? = some (carrier, address)

theorem Connects.step_eq [LogDevice δ] {server : Server δ} {carrier : Carrier} {address : Address}
    {event : NetworkEvent} (h : server.Connects carrier address event) :
    ∃ upgrading, server.step event = { server with upgrading }.accept carrier address := by
  rcases h with ⟨rfl, hlistens⟩ | ⟨place, rfl, hplace⟩
  · exact ⟨server.upgrading, if_pos hlistens⟩
  · refine ⟨server.upgrading.eraseIdx place, ?_⟩
    rw [step, establish, hplace]
    rfl

/-! ## Turns -/

/-- One thing that came in on a served connection, and the server that it came to. -/
structure Turn (δ : Type) where
  server : Server δ
  connection : Connection
  incoming : Incoming

/-- The turn in which something comes in on a connection, if it is still served. -/
def turn? (server : Server δ) (id : ConnectionId) (incoming : Incoming) : Option (Turn δ) :=
  match server.connection? id with
  | none => none
  | some c => if c.isOpen then some ⟨server, c, incoming⟩ else none

/-- The connection of a turn is one of the server's, and is still served. -/
structure Turn.Served (turn : Turn δ) : Prop where
  isFound : turn.server.connection? turn.connection.id = some turn.connection
  isOpen : turn.connection.isOpen = true

theorem Turn.Served.mem {turn : Turn δ} (h : turn.Served) :
    turn.connection ∈ turn.server.connections :=
  List.mem_of_find?_eq_some h.isFound

theorem turn?_eq_some {server : Server δ} {id : ConnectionId} {incoming : Incoming} {turn : Turn δ}
    (h : server.turn? id incoming = some turn) :
    turn.server = server ∧ turn.incoming = incoming ∧ turn.Served := by
  unfold turn? at h
  cases hc : server.connection? id with
  | none => simp [hc] at h
  | some c =>
    simp only [hc] at h
    split at h
    · rename_i hopen
      cases h
      exact ⟨rfl, rfl, (id_of_connection? hc).symm ▸ hc, hopen⟩
    · cases h

theorem id_of_turn? {server : Server δ} {id : ConnectionId} {incoming : Incoming} {turn : Turn δ}
    (h : server.turn? id incoming = some turn) : turn.connection.id = id := by
  unfold turn? at h
  cases hc : server.connection? id with
  | none => simp [hc] at h
  | some c =>
    simp only [hc] at h
    split at h
    · cases h
      exact id_of_connection? hc
    · cases h

/-! ## What a turn does -/

variable [LogDevice δ]

/-- A name that is let in becomes that of the connection, and arrives in the room. -/
theorem login_of_admits {server : Server δ} {c : Connection} {line username : String}
    (hfits : ¬ Outbox.maxCapacity < server.outboxCapacity)
    (hstate : c.session.state = .awaitingUsername)
    (hcheck : server.allowList.check server.limits line = .ok username)
    (hadmits : server.room.roster.Admits username) :
    server.login c line = (welcome c username server.room.roster.outboxes.length,
        server.room.run (server.loginMoves c line)) ∧
      server.loginMoves c line =
        [.enter c.id username server.outboxCapacity, .joined c.id username] := by
  have hmoves : server.loginMoves c line =
      [.enter c.id username server.outboxCapacity, .joined c.id username] := by
    simp only [loginMoves, if_neg hfits, hcheck, if_pos hadmits]
  have harrive := Room.arrive_of_admits c.id hadmits server.outboxCapacity
  have hsession := Session.activate_eq_ok hstate username
  refine ⟨?_, hmoves⟩
  rw [hmoves, login, if_neg hfits, hcheck]
  dsimp only
  rw [harrive, hsession]
  rfl

theorem receives_login {server : Server δ} {c : Connection} (line : String)
    (hstate : c.session.state = .awaitingUsername) :
    server.Receives c (.line line) (server.login c line).1 (server.loginMoves c line) ∧
      (server.login c line).2 = server.room.run (server.loginMoves c line) := by
  have hactive : c.session.state ≠ .active := by simp [hstate]
  have hdecline (e : SessionError) : server.Receives c (.line line) (c.decline e) [] := by
    obtain ⟨lines, hlines, heq⟩ := decline_eq c e
    rw [heq]
    exact .turnedAway lines hactive hlines
  by_cases hfits : Outbox.maxCapacity < server.outboxCapacity
  · rw [login, loginMoves, if_pos hfits, if_pos hfits]
    exact ⟨.hangUp _ _ hactive, rfl⟩
  · cases hcheck : server.allowList.check server.limits line with
    | error e =>
      rw [login, loginMoves, if_neg hfits, if_neg hfits, hcheck]
      exact ⟨hdecline e, rfl⟩
    | ok username =>
      by_cases ha : server.room.roster.Admits username
      · obtain ⟨hlogin, hmoves⟩ := login_of_admits hfits hstate hcheck ha
        rw [hlogin, hmoves]
        exact ⟨.welcomed line username hstate rfl hcheck ha, rfl⟩
      · obtain ⟨e, harrive⟩ := Room.arrive_of_not_admits c.id ha server.outboxCapacity
        rw [login, loginMoves, if_neg hfits, if_neg hfits, hcheck]
        dsimp only
        rw [if_neg ha, harrive]
        exact ⟨hdecline e, rfl⟩

theorem receives_part_of_not_active {server : Server δ} {c : Connection} {incoming : Incoming}
    (hstate : c.session.state ≠ .active) :
    server.Receives c incoming (server.part c).1 [] ∧ (server.part c).2 = server.room := by
  have hclose : c.session.close.1 = false := by simpa [Session.close] using hstate
  refine ⟨.hangUp server incoming hstate, ?_⟩
  rw [part, hclose]
  rfl

theorem receives_part_of_active {server : Server δ} {c : Connection} {incoming : Incoming}
    (hstate : c.session.state = .active) :
    server.Receives c incoming (server.part c).1 (server.room.departure c.id) ∧
      (server.part c).2 = server.room.run (server.room.departure c.id) := by
  have hclose : c.session.close.1 = true := by simp [Session.close, hstate]
  refine ⟨.parted hstate, ?_⟩
  rw [part, hclose, ← Room.depart_eq]
  rfl

/-- **What a turn does**: it has one of the four outcomes, and moves the room by its steps. -/
theorem receives (server : Server δ) (c : Connection) (incoming : Incoming) :
    server.Receives c incoming (server.receive c incoming).1 (server.moves c incoming) ∧
      (server.receive c incoming).2 = server.room.run (server.moves c incoming) := by
  cases hstate : c.session.state with
  | pending =>
    have hne : c.session.state ≠ .active := by simp [hstate]
    simp only [receive, moves, hstate]
    exact receives_part_of_not_active hne
  | closed =>
    have hne : c.session.state ≠ .active := by simp [hstate]
    simp only [receive, moves, hstate]
    exact receives_part_of_not_active hne
  | awaitingUsername =>
    have hne : c.session.state ≠ .active := by simp [hstate]
    cases incoming with
    | line line =>
      simp only [receive, moves, hstate]
      exact receives_login line hstate
    | finished =>
      simp only [receive, moves, hstate]
      exact receives_part_of_not_active hne
    | failed e =>
      cases e with
      | lineTooLong max =>
        simp only [receive, moves, hstate]
        exact ⟨.turnedAway _ hne (.inr ⟨.usernameTooLong, rfl⟩), rfl⟩
      | _ =>
        simp only [receive, moves, hstate]
        exact receives_part_of_not_active hne
  | active =>
    cases husername : c.session.username with
    | none =>
      simp only [receive, moves, hstate, husername]
      exact receives_part_of_active hstate
    | some sender =>
      cases incoming with
      | line line =>
        simp only [receive, moves, hstate, husername]
        exact ⟨.routed sender line hstate husername rfl, rfl⟩
      | finished =>
        simp only [receive, moves, hstate, husername]
        exact receives_part_of_active hstate
      | failed e =>
        simp only [receive, moves, hstate, husername]
        exact receives_part_of_active hstate

namespace Turn

def moves (turn : Turn δ) : List RoomStep := turn.server.moves turn.connection turn.incoming

def records (turn : Turn δ) : List Record := turn.server.room.recorded turn.moves

/-- The connection after a turn, before it is sent what waits for it. -/
def after (turn : Turn δ) : Connection := (turn.server.receive turn.connection turn.incoming).1

/-- The room after a turn, before the clients are sent what waits for them. -/
def room (turn : Turn δ) : Room δ := (turn.server.receive turn.connection turn.incoming).2

/-- The server after a turn, before the clients are sent what waits for them. -/
def handled (turn : Turn δ) : Server δ := { turn.server with room := turn.room }.update turn.after

def next (turn : Turn δ) : Server δ := turn.handled.deliver

theorem room_eq (turn : Turn δ) : turn.room = turn.server.room.run turn.moves :=
  (turn.server.receives turn.connection turn.incoming).2

theorem receives (turn : Turn δ) :
    turn.server.Receives turn.connection turn.incoming turn.after turn.moves :=
  (turn.server.receives turn.connection turn.incoming).1

end Turn

/-- The turns in which several things come in on a connection. -/
def turnsOn (id : ConnectionId) (server : Server δ) : List Incoming → List (Turn δ)
  | [] => []
  | incoming :: rest =>
    (server.turn? id incoming).toList ++ (server.handle id incoming).turnsOn id rest

def turnsIn (server : Server δ) : NetworkEvent → List (Turn δ)
  | .wire id event =>
    match server.connection? id with
    | none => []
    | some c =>
      if c.isOpen then
        let (incoming, unread) := c.hear server.lineLength event
        let isReachable := c.isReachable && event != .vanishes
        (server.update { c with unread, isReachable }).turnsOn id incoming
      else []
  | .accepts .. | .establishes .. | .takes .. | .shutdown => []

def turns (server : Server δ) : List NetworkEvent → List (Turn δ)
  | [] => []
  | event :: events => server.turnsIn event ++ (server.step event).turns events

def recorded (server : Server δ) (events : List NetworkEvent) : List Record :=
  (server.turns events).flatMap Turn.records

theorem handle_eq (server : Server δ) (id : ConnectionId) (incoming : Incoming) :
    server.handle id incoming = match server.turn? id incoming with
      | none => server
      | some turn => turn.next := by
  unfold handle turn?
  cases server.connection? id with
  | none => rfl
  | some c =>
    dsimp only
    split <;> rfl

/-- What every turn of a connection keeps is kept by everything that comes in on it. -/
theorem handle_all_induction {P : Server δ → Prop} {id : ConnectionId}
    (hP : ∀ turn : Turn δ, turn.Served → turn.connection.id = id → P turn.server → P turn.next)
    {server : Server δ} (h : P server) (incoming : List Incoming) :
    P (incoming.foldl (handle id) server) := by
  refine List.foldlRecOn incoming _ h fun server h i _ => ?_
  rw [handle_eq]
  cases hturn : server.turn? id i with
  | none => exact h
  | some turn =>
    have hid := id_of_turn? hturn
    obtain ⟨rfl, -, hserved⟩ := turn?_eq_some hturn
    exact hP turn hserved hid h

section Kept

variable {β : Type} (kept : Server δ → β)
  (hkept : ∀ server connections room, kept { server with connections, room } = kept server)
include hkept

/-- What does not depend on the connections and the room is kept by an event on a wire. -/
theorem kept_wire (server : Server δ) (id : ConnectionId) (event : WireEvent) :
    kept (server.wire id event) = kept server := by
  unfold wire
  cases server.connection? id with
  | none => rfl
  | some c =>
    dsimp only
    split
    · refine handle_all_induction (P := fun s => kept s = kept server) ?_ ?_ _
      · exact fun turn _ _ h => (hkept turn.server turn.next.connections turn.next.room).trans h
      · exact hkept server _ server.room
    · rfl

omit [LogDevice δ] in
/-- It is also kept by what a client begins or stops to take. -/
theorem kept_pace (server : Server δ) (id : ConnectionId) (isTaking : Bool) :
    kept (server.pace id isTaking) = kept server := by
  unfold pace
  split
  · rfl
  · exact hkept server _ _

end Kept

/-! ## Connections in a turn -/

theorem Turn.mem_handled {turn : Turn δ} {c : Connection} (h : c ∈ turn.handled.connections) :
    c = turn.after ∨ c ∈ turn.server.connections ∧ c.id ≠ turn.after.id :=
  mem_update h

/-- After a turn, a connection has been sent what waited for it. -/
theorem Turn.mem_next {turn : Turn δ} {d : Connection} (h : d ∈ turn.next.connections) :
    ∃ e, (e = turn.after ∨ e ∈ turn.server.connections ∧ e.id ≠ turn.after.id) ∧
      d = e.collect turn.room.roster := by
  obtain ⟨e, he, rfl⟩ := mem_deliver h
  exact ⟨e, mem_handled he, rfl⟩

/-- What is kept when lines are sent and when a session goes on is kept in a turn. -/
theorem Turn.kept_after {β : Type} (kept : Connection → β)
    (hsend : ∀ c lines, kept (c.send lines) = kept c)
    (hsession : ∀ c state username outbox isOpen,
      kept { c with session := { c.session with state, username }, outbox, isOpen } = kept c)
    (turn : Turn δ) : kept turn.after = kept turn.connection := by
  have h := turn.receives
  generalize turn.after = c, turn.moves = steps at h
  cases h with
  | turnedAway lines hstate hlines => exact (hsession _ _ _ _ _).trans (hsend _ lines)
  | welcomed line username hstate hline hcheck hadmits => exact hsession _ _ _ _ _
  | routed sender line hstate husername hline => rfl
  | parted hstate => exact hsession _ _ _ _ _

theorem Turn.id_after (turn : Turn δ) : turn.after.id = turn.connection.id :=
  turn.kept_after _ id_send fun _ _ _ _ _ => rfl

theorem Turn.after_mem_handled (turn : Turn δ) (hs : turn.Served) :
    turn.after ∈ turn.handled.connections :=
  List.mem_map.2 ⟨turn.connection, hs.mem, if_pos turn.id_after.symm⟩

theorem Turn.ids_next (turn : Turn δ) :
    turn.next.connections.map (·.id) = turn.server.connections.map (·.id) := by
  rw [next, ids_deliver, handled, ids_update]

theorem Turn.connection?_next (turn : Turn δ) (id : ConnectionId) :
    turn.next.connection? id = (turn.server.connection? id).map fun d =>
      (if d.id = turn.after.id then turn.after else d).collect turn.room.roster := by
  rw [next, connection?_deliver, handled, connection?_update, Option.map_map]
  rfl

theorem Turn.unread_after (turn : Turn δ) : turn.after.unread = turn.connection.unread :=
  turn.kept_after _ unread_send fun _ _ _ _ _ => rfl

/-! ## Induction over runs -/

/-- What holds of a server and the turns so far, whatever happens next. -/
structure Invariant (P : Server δ → List (Turn δ) → Prop) : Prop where
  listeners : ∀ server ts isListening upgrading, P server ts →
    P { server with isListening, upgrading } ts
  accept : ∀ server ts carrier address, P server ts → P (server.accept carrier address) ts
  hear : ∀ server ts c unread stays, server.connection? c.id = some c → P server ts →
    P (server.update { c with unread, isReachable := c.isReachable && stays }) ts
  pace : ∀ server ts c isTaking, server.connection? c.id = some c → P server ts →
    P (server.update { c with isTaking }).deliver ts
  turn : ∀ turn ts, turn.Served → turn.incoming.IsClean → P turn.server ts →
    P turn.next (ts ++ [turn])

theorem KeepsNoLines.next {turn : Turn δ} (h : turn.server.KeepsNoLines) (hs : turn.Served) :
    turn.next.KeepsNoLines := by
  refine KeepsNoLines.deliver fun c hc => ?_
  rcases turn.mem_handled hc with rfl | ⟨hc, -⟩
  · rw [Connection.KeepsNoLine, turn.unread_after]
    exact h _ hs.mem
  · exact h c hc

section Induction

variable {P : Server δ → List (Turn δ) → Prop} {server : Server δ} {ts : List (Turn δ)}

theorem Invariant.turnsOn (hP : Invariant P) (h : P server ts) (hkeeps : server.KeepsNoLines)
    (id : ConnectionId) {incoming : List Incoming} (hclean : ∀ i ∈ incoming, i.IsClean) :
    P (incoming.foldl (Server.handle id) server) (ts ++ server.turnsOn id incoming) ∧
      (incoming.foldl (Server.handle id) server).KeepsNoLines := by
  induction incoming generalizing server ts with
  | nil => exact ⟨by rwa [Server.turnsOn, List.append_nil], hkeeps⟩
  | cons i rest ih =>
    have hrest : ∀ j ∈ rest, j.IsClean := fun j hj => hclean j (List.mem_cons_of_mem _ hj)
    rw [List.foldl_cons, Server.turnsOn, ← List.append_assoc]
    cases ht : server.turn? id i with
    | none =>
      have hsame : server.handle id i = server := by rw [handle_eq, ht]
      rw [hsame, Option.toList_none, List.append_nil]
      exact ih h hkeeps hrest
    | some turn =>
      have hnext : server.handle id i = turn.next := by rw [handle_eq, ht]
      obtain ⟨rfl, rfl, hserved⟩ := turn?_eq_some ht
      rw [hnext, Option.toList_some]
      exact ih (hP.turn turn ts hserved (hclean _ List.mem_cons_self) h) (hkeeps.next hserved) hrest

theorem Invariant.step (hP : Invariant P) (h : P server ts) (hkeeps : server.KeepsNoLines)
    (event : NetworkEvent) :
    P (server.step event) (ts ++ server.turnsIn event) ∧ (server.step event).KeepsNoLines := by
  cases event with
  | shutdown =>
    rw [turnsIn, List.append_nil]
    exact ⟨hP.listeners _ _ _ _ h, hkeeps⟩
  | accepts carrier arrival =>
    rw [turnsIn, List.append_nil, Server.step]
    split
    · cases arrival with
      | peer address => exact ⟨hP.accept _ _ _ _ h, hkeeps.accept _ _⟩
      | opening address => exact ⟨hP.listeners _ _ _ _ h, hkeeps⟩
      | stray => exact ⟨h, hkeeps⟩
      | failure cause =>
        rw [take]
        split
        · exact ⟨h, hkeeps⟩
        · exact ⟨hP.listeners _ _ _ _ h, hkeeps⟩
    · exact ⟨h, hkeeps⟩
  | establishes place succeeds =>
    rw [turnsIn, List.append_nil, Server.step, establish]
    split
    · exact ⟨h, hkeeps⟩
    · rename_i carrier address _
      have hleft := hP.listeners server ts server.isListening (server.upgrading.eraseIdx place) h
      cases succeeds with
      | true => exact ⟨hP.accept _ _ carrier address hleft, hkeeps.accept carrier address⟩
      | false => exact ⟨hleft, hkeeps⟩
  | takes id isTaking =>
    rw [turnsIn, List.append_nil, Server.step, Server.pace]
    cases hc : server.connection? id with
    | none => exact ⟨h, hkeeps⟩
    | some c =>
      have hid : c.id = id := id_of_connection? hc
      have hunread : ({ c with isTaking } : Connection).KeepsNoLine :=
        hkeeps c (List.mem_of_find?_eq_some hc)
      exact ⟨hP.pace _ _ c isTaking (hid ▸ hc) h, (hkeeps.update hunread).deliver⟩
  | wire id event =>
    simp only [Server.step, wire, turnsIn]
    cases hc : server.connection? id with
    | none => exact ⟨by rwa [List.append_nil], hkeeps⟩
    | some c =>
      have hid : c.id = id := id_of_connection? hc
      have hmem : c ∈ server.connections := List.mem_of_find?_eq_some hc
      obtain ⟨hclean, hunread⟩ :=
        Connection.isClean_of_hear (hkeeps c hmem) server.lineLength event
      dsimp only
      split
      · have hheard := hP.hear server ts c (c.hear server.lineLength event).2
          (event != .vanishes) (hid ▸ hc) h
        exact hP.turnsOn hheard (hkeeps.update hunread) id hclean
      · exact ⟨by rwa [List.append_nil], hkeeps⟩

theorem Invariant.run_from (hP : Invariant P) (h : P server ts) (hkeeps : server.KeepsNoLines)
    (events : List NetworkEvent) : P (server.run events) (ts ++ server.turns events) := by
  induction events generalizing server ts with
  | nil => rwa [turns, List.append_nil]
  | cons event events ih =>
    obtain ⟨hstep, hkeeps'⟩ := hP.step h hkeeps event
    rw [turns, ← List.append_assoc]
    exact ih hstep hkeeps'

/-- **Induction over runs.** -/
theorem Invariant.run (hP : Invariant P) (h : P server []) (hkeeps : server.KeepsNoLines)
    (events : List NetworkEvent) : P (server.run events) (server.turns events) :=
  hP.run_from h hkeeps events

end Induction

/-! ## Invariants together, and at every turn -/

section Together

variable {P Q : Server δ → List (Turn δ) → Prop}

theorem Invariant.and (hP : Invariant P) (hQ : Invariant Q) :
    Invariant fun server ts => P server ts ∧ Q server ts where
  listeners server ts isListening upgrading h :=
    ⟨hP.listeners server ts isListening upgrading h.1,
      hQ.listeners server ts isListening upgrading h.2⟩
  accept server ts carrier address h :=
    ⟨hP.accept server ts carrier address h.1, hQ.accept server ts carrier address h.2⟩
  hear server ts c unread stays hc h :=
    ⟨hP.hear server ts c unread stays hc h.1, hQ.hear server ts c unread stays hc h.2⟩
  pace server ts c isTaking hc h :=
    ⟨hP.pace server ts c isTaking hc h.1, hQ.pace server ts c isTaking hc h.2⟩
  turn turn ts hs hi h := ⟨hP.turn turn ts hs hi h.1, hQ.turn turn ts hs hi h.2⟩

/-- An invariant holds before every turn of a run, of the server that the turn finds and of the
turns before it. -/
theorem Invariant.atTurn (hP : Invariant P) {server : Server δ} (h : P server [])
    (hkeeps : server.KeepsNoLines) {events : List NetworkEvent} {before after : List (Turn δ)}
    {turn : Turn δ} (hts : server.turns events = before ++ turn :: after) :
    P turn.server before ∧ turn.Served := by
  have hall : Invariant fun server ts => P server ts ∧
      ∀ before turn after, ts = before ++ turn :: after → P turn.server before ∧ turn.Served := by
    refine ⟨fun server ts isListening upgrading h => ⟨hP.listeners _ _ _ _ h.1, h.2⟩,
      fun server ts carrier address h => ⟨hP.accept _ _ _ _ h.1, h.2⟩,
      fun server ts c unread isReachable hc h => ⟨hP.hear _ _ _ _ _ hc h.1, h.2⟩,
      fun server ts c isTaking hc h => ⟨hP.pace _ _ _ _ hc h.1, h.2⟩,
      fun turn ts hs hi h => ⟨hP.turn _ _ hs hi h.1, fun before t after ht => ?_⟩⟩
    rcases List.eq_nil_or_concat after with rfl | ⟨after, last, rfl⟩
    · obtain ⟨rfl, hturn⟩ := List.append_inj' ht rfl
      cases hturn
      exact ⟨h.1, hs⟩
    · rw [List.concat_eq_append, ← List.cons_append, ← List.append_assoc] at ht
      obtain ⟨hts, -⟩ := List.append_inj' ht rfl
      exact h.2 before t after hts
  have hnone : ∀ before turn after, ([] : List (Turn δ)) = before ++ turn :: after →
      P turn.server before ∧ turn.Served := by
    intro before turn after hnil
    simp at hnil
  exact (hall.run ⟨h, hnone⟩ hkeeps events).2 before turn after hts

end Together

/-! ## What stays -/

/-- What a server never changes. -/
structure SameSetup (start server : Server δ) : Prop where
  limits : server.limits = start.limits
  allowList : server.allowList = start.allowList
  lineLength : server.lineLength = start.lineLength
  outboxCapacity : server.outboxCapacity = start.outboxCapacity
  limit : server.room.roster.limit = start.room.roster.limit
  capacity : server.room.history.capacity = start.room.history.capacity

omit [LogDevice δ] in
theorem SameSetup.refl (server : Server δ) : server.SameSetup server :=
  ⟨rfl, rfl, rfl, rfl, rfl, rfl⟩

theorem invariant_sameSetup (start : Server δ) :
    Invariant fun server _ => start.SameSetup server where
  listeners _ _ _ _ h := { h with }
  accept _ _ _ _ h := { h with }
  hear _ _ _ _ _ _ h := { h with }
  pace _ _ _ _ _ h := { h with }
  turn turn _ _ _ h := by
    have hlimit : turn.room.roster.limit = turn.server.room.roster.limit := by
      rw [turn.room_eq, Room.limit_run]
    have hcapacity : turn.room.history.capacity = turn.server.room.history.capacity := by
      rw [turn.room_eq, Room.history_run, History.capacity_foldl_append]
    exact ⟨h.limits, h.allowList, h.lineLength, h.outboxCapacity, hlimit.trans h.limit,
      hcapacity.trans h.capacity⟩

/-! ## The record of a run -/

/-- History and log have been given what is on record, and nothing else. -/
theorem invariant_records (start : Room δ) :
    Invariant fun server ts =>
      server.room.history =
        ((ts.flatMap Turn.records).map (·.event.line)).foldl History.append start.history ∧
      server.room.log = ((ts.flatMap Turn.records).map (·.event.line)).foldl
        (fun log line => Log.note line log) start.log where
  listeners _ _ _ _ h := h
  accept _ _ _ _ h := h
  hear _ _ _ _ _ _ h := h
  pace _ _ _ _ _ h := h
  turn turn ts _ _ h := by
    have hhistory : turn.next.room.history = turn.room.history := rfl
    have hlog : turn.next.room.log = turn.room.log := rfl
    rw [hhistory, hlog, turn.room_eq, Room.history_run, Room.log_run, h.1, h.2]
    simp only [List.flatMap_append, List.flatMap_singleton, List.map_append, List.foldl_append]
    exact ⟨rfl, rfl⟩

theorem room_run_recorded {server : Server δ} (hkeeps : server.KeepsNoLines)
    (events : List NetworkEvent) :
    (server.run events).room.history =
        ((server.recorded events).map (·.event.line)).foldl History.append server.room.history ∧
      (server.run events).room.log = ((server.recorded events).map (·.event.line)).foldl
        (fun log line => Log.note line log) server.room.log :=
  (invariant_records server.room).run ⟨rfl, rfl⟩ hkeeps events

end Server

/-! ## Starting -/

/-- A host without files, on which a server can always start, with its log in memory. -/
def Host.inMemory (log : MemoryLog) : Host MemoryLog where
  file _ := .error ⟨.notFound, "no such file"⟩
  openLog _ := .ok log
  listen _ _ := .ok ()

/-- A server starts with nobody connected and an empty room. -/
structure Server.IsNew {δ : Type} (server : Server δ) : Prop where
  connections : server.connections = []
  upgrading : server.upgrading = []
  room : ∃ limit groups capacity log, server.room = .new limit groups capacity log

theorem Server.IsNew.keepsNoLines {δ : Type} {server : Server δ} (h : server.IsNew) :
    server.KeepsNoLines := by
  rw [KeepsNoLines, h.connections]
  exact fun c hc => absurd hc List.not_mem_nil

/-- How a plan sets up a server. -/
structure Plan.SetsUp {δ : Type} (plan : Plan) (host : Host δ) (server : Server δ) : Prop where
  isNew : server.IsNew
  limits : server.limits = plan.settings.limits
  allowList : server.allowList =
    plan.allowList.getD (AllowList.load plan.settings.limits (host.file plan.settings.usersFile))
  groups : server.room.groups =
    plan.groups.getD (GroupTable.load plan.settings.limits (host.file plan.settings.groupsFile))
  lineLength : server.lineLength = plan.settings.lineLength
  outboxCapacity :
    server.outboxCapacity = max plan.settings.outboxCapacity (plan.settings.historyLines + 3)
  limit : server.room.roster.limit = plan.settings.maxSessions
  capacity : server.room.history.capacity = plan.settings.historyLines
  listening : ∀ carrier,
    server.isListening carrier = (carrier = .tcp || plan.settings.webSocketAddress.isSome)

theorem Plan.setsUp_of_start {δ : Type} {plan : Plan} {host : Host δ} {server : Server δ}
    (h : plan.start host = .ok server) : plan.SetsUp host server := by
  simp only [start, bind, Except.bind, pure, Except.pure] at h
  split at h
  · cases h
  · split at h
    · cases h
    · split at h
      · split at h
        · cases h
        · cases h
          exact ⟨⟨rfl, rfl, _, _, _, _, rfl⟩, rfl, rfl, rfl, rfl, rfl, rfl, rfl, fun carrier => rfl⟩
      · cases h
        exact ⟨⟨rfl, rfl, _, _, _, _, rfl⟩, rfl, rfl, rfl, rfl, rfl, rfl, rfl, fun carrier => rfl⟩

theorem Plan.isNew_of_start {δ : Type} {plan : Plan} {host : Host δ} {server : Server δ}
    (h : plan.start host = .ok server) : server.IsNew :=
  (setsUp_of_start h).isNew

end ChatRoom
