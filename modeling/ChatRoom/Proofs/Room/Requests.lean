import ChatRoom.Proofs.Roster.Requests
import ChatRoom.Proofs.Room.Sinks

/-!
# What is asked of a room

A room is asked to admit somebody, who brings an outbox of its own, to let somebody go and to route
lines, while readers act on the outboxes (`RoomRequest`). Of its roster it asks no more than
requests can (`exists_asked`), so no two sessions share an outbox (`owned_served`), and its history
and its log are given the events that happened (`kept_served`).
-/

namespace ChatRoom

/-- What is asked of a room, and what readers do. -/
inductive RoomRequest where
  | arrive (id : ConnectionId) (username : String) (capacity : Nat) (reader : Bool)
  | depart (id : ConnectionId)
  | route (id : ConnectionId) (sender line : String)
  | drain (box : OutboxId)
  | abandon (box : OutboxId)
  deriving DecidableEq

/-- The action that a request comes to, if a newcomer is given this outbox. -/
def RoomRequest.action (box : OutboxId) : RoomRequest → RoomAction
  | .arrive id username _ _ => .arrive id username box
  | .depart id => .depart id
  | .route id sender line => .route id sender line
  | .drain box => .drain box
  | .abandon box => .abandon box

namespace Room

variable {δ : Type}

/-- The room once it has the outbox that a newcomer brings. -/
def hosting (room : Room δ) : RoomRequest → Room δ
  | .arrive _ _ capacity reader => { room with roster := room.roster.withOutbox capacity reader }
  | _ => room

variable [LogDevice δ]

/-- What a request does, and what is answered. -/
def serve (room : Room δ) (request : RoomRequest) : Outcome × Room δ :=
  (room.hosting request).act (request.action room.roster.outboxes.length)

/-- The room after several requests. -/
def served (room : Room δ) (requests : List RoomRequest) : Room δ :=
  requests.foldl (fun room request => (room.serve request).2) room

/-- The event that comes of a request. -/
def event? (room : Room δ) (request : RoomRequest) : Option Event :=
  (request.action room.roster.outboxes.length).event? (room.serve request).1

/-- The events that come of several requests, in order. -/
def happened (room : Room δ) : List RoomRequest → List Event
  | [] => []
  | request :: requests => (room.event? request).toList ++ (room.serve request).2.happened requests

/-- The lines that the reader of an outbox takes out of it. -/
def takenFrom (room : Room δ) (box : OutboxId) : List RoomRequest → List String
  | [] => []
  | request :: requests =>
    (if request = .drain box then room.roster.pending box else []) ++
      (room.serve request).2.takenFrom box requests

variable {room : Room δ}

theorem served_cons (request : RoomRequest) (requests : List RoomRequest) :
    room.served (request :: requests) = (room.serve request).2.served requests := rfl

theorem serve_route (room : Room δ) (id : ConnectionId) (sender line : String) :
    room.serve (.route id sender line) =
      (.routed (room.route id sender line).1, (room.route id sender line).2) := rfl

/-! ## What is kept -/

theorem kept_serve (request : RoomRequest) :
    (room.serve request).2.history =
        ((room.event? request).toList.map Event.line).foldl History.append room.history ∧
      (room.serve request).2.log = ((room.event? request).toList.map Event.line).foldl
        (fun log line => Log.note line log) room.log := by
  have h := (room.hosting request).kept_act (request.action room.roster.outboxes.length)
  cases request <;> exact h

/-- History and log are given the lines of what happened, and nothing else. -/
theorem kept_served (room : Room δ) (requests : List RoomRequest) :
    (room.served requests).history =
        ((room.happened requests).map Event.line).foldl History.append room.history ∧
      (room.served requests).log = ((room.happened requests).map Event.line).foldl
        (fun log line => Log.note line log) room.log := by
  induction requests generalizing room with
  | nil => exact ⟨rfl, rfl⟩
  | cons request requests ih =>
    obtain ⟨hhistory, hlog⟩ := room.kept_serve request
    obtain ⟨ihhistory, ihlog⟩ := ih (room.serve request).2
    rw [served_cons, happened, List.map_append, List.foldl_append, List.foldl_append, ← hhistory,
      ← hlog]
    exact ⟨ihhistory, ihlog⟩

/-! ## What is asked of the roster -/

theorem serve_arrive (room : Room δ) (id : ConnectionId) (username : String) (capacity : Nat)
    (reader : Bool) :
    room.serve (.arrive id username capacity reader) =
      match room.roster.enrol id username capacity reader (room.greeting username) with
      | .ok (_, roster) =>
        (.arrived, ({ room with roster }.record (.joined username) (some id)).2)
      | .error e =>
        (.refused e, { room with roster := room.roster.withOutbox capacity reader }) := by
  have hregister : (room.roster.withOutbox capacity reader).register id username
      room.roster.outboxes.length
      (Room.greeting { room with roster := room.roster.withOutbox capacity reader } username) =
    room.roster.enrol id username capacity reader (room.greeting username) := rfl
  rw [serve, RoomRequest.action, act_arrive, enter, hosting, hregister]
  cases room.roster.enrol id username capacity reader (room.greeting username) <;> rfl

theorem exists_asked_route (room : Room δ) (id : ConnectionId) (sender line : String) :
    ∃ requests, (room.route id sender line).2.roster = room.roster.askedAll requests := by
  unfold route
  cases Command.parse line with
  | error malformed => exact ⟨[.send id (Reply.malformed malformed).line], rfl⟩
  | ok command =>
    cases command with
    | none => exact ⟨[], rfl⟩
    | some command =>
      cases command with
      | global text => exact ⟨[.broadcast (Event.global sender text).line none], rfl⟩
      | direct recipient text =>
        simp only [routeDirect]
        cases room.roster.find? recipient with
        | none => exact ⟨[.send id (Reply.userNotFound recipient).line], rfl⟩
        | some recipientId =>
          exact ⟨[.send recipientId (Reply.directFrom sender text).line,
            .send id (Reply.directTo recipient text).line], rfl⟩
      | group name text =>
        simp only [routeGroup]
        cases room.groups.get? name with
        | none => exact ⟨[.send id (Reply.groupNotFound name).line], rfl⟩
        | some group =>
          refine ⟨((group.members.filterMap room.roster.find?).filter (· ≠ id)).map
            (.send · (Reply.groupFrom group.name sender text).line) ++
              [.send id (Reply.groupTo group.name text).line], ?_⟩
          rw [Roster.askedAll_append, ← Roster.sendEach_eq_askedAll]
          rfl

/-- A room asks nothing else of its roster than requests can. -/
theorem exists_asked (room : Room δ) (request : RoomRequest) :
    ∃ requests, (room.serve request).2.roster = room.roster.askedAll requests := by
  cases request with
  | arrive id username capacity reader =>
    rw [serve_arrive]
    have hroster : (room.roster.asked (.register id username capacity reader
        (room.greeting username))) = match room.roster.enrol id username capacity reader
          (room.greeting username) with
        | .ok (_, roster) => roster
        | .error _ => room.roster.withOutbox capacity reader := rfl
    cases he : room.roster.enrol id username capacity reader (room.greeting username) with
    | error e =>
      refine ⟨[.register id username capacity reader (room.greeting username)], ?_⟩
      rw [Roster.askedAll_cons, hroster, he]
      rfl
    | ok enrolled =>
      refine ⟨[.register id username capacity reader (room.greeting username),
        .broadcast (Event.joined username).line (some id)], ?_⟩
      rw [Roster.askedAll_cons, hroster, he]
      rfl
  | depart id =>
    show ∃ requests, (room.act (.depart id)).2.roster = _
    rw [act_depart, leave, Roster.unregister]
    cases room.roster.entryOf? id with
    | none => exact ⟨[], rfl⟩
    | some entry =>
      exact ⟨[.unregister id, .broadcast (Event.left entry.username).line none], rfl⟩
  | route id sender line =>
    simp only [serve_route]
    exact room.exists_asked_route id sender line
  | drain box => exact ⟨[.drain box], rfl⟩
  | abandon box => exact ⟨[.abandon box], rfl⟩

/-- Outboxes stay, whatever becomes of their sessions. -/
theorem length_outboxes_serve_le (room : Room δ) (request : RoomRequest) :
    room.roster.outboxes.length ≤ (room.serve request).2.roster.outboxes.length := by
  obtain ⟨requests, he⟩ := room.exists_asked request
  rw [he]
  exact Roster.length_outboxes_le_askedAll requests

theorem length_outboxes_served_le (room : Room δ) (requests : List RoomRequest) :
    room.roster.outboxes.length ≤ (room.served requests).roster.outboxes.length := by
  induction requests generalizing room with
  | nil => exact Nat.le_refl _
  | cons request requests ih =>
    exact Nat.le_trans (room.length_outboxes_serve_le request) (ih (room.serve request).2)

theorem owned_serve (h : room.roster.Owned) (request : RoomRequest) :
    (room.serve request).2.roster.Owned := by
  obtain ⟨requests, he⟩ := room.exists_asked request
  rw [he]
  exact h.askedAll requests

theorem owned_served (h : room.roster.Owned) (requests : List RoomRequest) :
    (room.served requests).roster.Owned := by
  induction requests generalizing room with
  | nil => exact h
  | cons request requests ih => exact ih (owned_serve h request)

end Room

end ChatRoom
