import ChatRoom.Proofs.Server.Forgetting

/-!
# Forgetting carriers

A server as if all its connections were plain (`Server.plain`). Nothing that the server does once
something has come in looks at a carrier (`Connection.forgets_plain`), so forgetting the carriers
commutes with taking connections, and with an event on a wire if the same is heard
(`Server.plain_wire`).
-/

namespace ChatRoom

/-! ## Connections -/

namespace Connection

/-- The connection as if it were plain. -/
def plain (c : Connection) : Connection := { c with carrier := .tcp }

@[simp] theorem id_plain (c : Connection) : c.plain.id = c.id := rfl

@[simp] theorem isOpen_plain (c : Connection) : c.plain.isOpen = c.isOpen := rfl

@[simp] theorem sent_plain (c : Connection) : c.plain.sent = c.sent := rfl

theorem plain_send (c : Connection) (lines : List String) :
    (c.send lines).plain = c.plain.send lines := by
  have hreach : c.plain.isReachable = c.isReachable := rfl
  unfold send
  rw [hreach]
  split
  · rfl
  · rfl

theorem forgets_plain : Forgets plain where
  session _ := rfl
  outbox _ := rfl
  isOpen _ := rfl
  isTaking _ := rfl
  send := plain_send
  served _ _ _ _ _ _ := rfl

end Connection

/-! ## Servers -/

namespace Server

variable {δ : Type}

/-- The server as if all its connections were plain. -/
def plain (server : Server δ) : Server δ :=
  { server with connections := server.connections.map Connection.plain }

theorem connection?_plain (server : Server δ) (id : ConnectionId) :
    server.plain.connection? id = (server.connection? id).map Connection.plain :=
  connection?_forget Connection.forgets_plain server id

theorem plain_accept (server : Server δ) (carrier : Carrier) (address : Address) :
    (server.accept carrier address).plain = server.plain.accept .tcp address := by
  cases hfull : server.room.roster.isFull with
  | true =>
    simp only [plain, accept, hfull, if_true, List.map_append]
    rfl
  | false =>
    simp only [plain, accept, hfull, List.map_append]
    rfl

/-- An event on a wire does the same if the same is heard, be it another event. -/
theorem plain_wire [LogDevice δ] {server : Server δ} {id : ConnectionId}
    {event event' : WireEvent}
    (hheard : ∀ c, server.connection? id = some c →
      c.plain.hear server.lineLength event' = c.hear server.lineLength event)
    (hstays : (event' != .vanishes) = (event != .vanishes)) :
    (server.wire id event).plain = server.plain.wire id event' := by
  refine forget_wire Connection.forgets_plain hheard fun c unread _ => ?_
  rw [hstays]
  rfl

end Server

end ChatRoom
