import ChatRoom.Proofs.Server.Turns

/-!
# Forgetting

Once something has come in on a connection, a server looks at little of its connections: at their
sessions, at their outboxes, and at whether they are open and take what they are sent. A function
that keeps these may forget the rest (`Connection.Forgets`). Forgetting it of all connections
(`Server.forget`) commutes with what the server does then (`Server.forget_handle`), and with an
event on a wire if the same is heard (`Server.forget_wire`).
-/

namespace ChatRoom

/-! ## Connections -/

namespace Connection

/-- A function that may forget of a connection what the server does not act on. -/
structure Forgets (f : Connection → Connection) : Prop where
  session : ∀ c, (f c).session = c.session
  outbox : ∀ c, (f c).outbox = c.outbox
  isOpen : ∀ c, (f c).isOpen = c.isOpen
  isTaking : ∀ c, (f c).isTaking = c.isTaking
  send : ∀ c lines, f (c.send lines) = (f c).send lines
  /-- What is forgotten may depend on the number of the connection, but not on the rest of what
  stays. -/
  served : ∀ c session outbox isOpen isTaking, session.id = c.session.id →
    f { c with session, outbox, isOpen, isTaking } =
      { f c with session, outbox, isOpen, isTaking }

namespace Forgets

variable {f : Connection → Connection}

theorem id (h : Forgets f) (c : Connection) : (f c).id = c.id := congrArg Session.id (h.session c)

theorem collect (h : Forgets f) (c : Connection) (roster : Roster) :
    f (c.collect roster) = (f c).collect roster := by
  have hwaiting : (f c).waiting roster = c.waiting roster := by
    rw [Connection.waiting, Connection.waiting, h.outbox]
  unfold Connection.collect
  rw [h.isTaking, hwaiting]
  split
  · exact h.send c _
  · rfl

theorem emptied? (h : Forgets f) (c : Connection) : (f c).emptied? = c.emptied? := by
  rw [Connection.emptied?, Connection.emptied?, h.isTaking, h.outbox]

theorem hangUp (h : Forgets f) (c : Connection) : f c.hangUp = (f c).hangUp := by
  refine (h.served c c.session.close.2 c.outbox false c.isTaking rfl).trans ?_
  rw [← h.outbox c, ← h.session c, ← h.isTaking c]
  rfl

theorem refuse (h : Forgets f) (c : Connection) (rejection : Rejection) :
    f (c.refuse rejection) = (f c).refuse rejection := by
  rw [Connection.refuse, Connection.refuse, h.hangUp, h.send]

theorem decline (h : Forgets f) (c : Connection) (e : SessionError) :
    f (c.decline e) = (f c).decline e := by
  unfold Connection.decline
  cases e.rejection? with
  | none => exact h.hangUp c
  | some rejection => exact h.refuse c rejection

end Forgets

end Connection

theorem Session.id_activate {session next : Session} {username : String}
    (h : session.activate username = .ok next) : next.id = session.id := by
  unfold activate become at h
  split at h
  · cases h
    rfl
  · cases h

/-! ## Servers -/

namespace Server

variable {δ : Type} {f : Connection → Connection}

/-- The server with something forgotten of all its connections. -/
def forget (f : Connection → Connection) (server : Server δ) : Server δ :=
  { server with connections := server.connections.map f }

theorem connection?_forget (hf : Connection.Forgets f) (server : Server δ) (id : ConnectionId) :
    (server.forget f).connection? id = (server.connection? id).map f :=
  connection?_map server hf.id id

theorem forget_update (hf : Connection.Forgets f) (server : Server δ) (c : Connection) :
    (server.update c).forget f = (server.forget f).update (f c) := by
  have hreplace : ∀ d : Connection, f (if d.id = c.id then c else d) =
      if (f d).id = (f c).id then f c else f d := by
    intro d
    rw [hf.id, hf.id]
    split
    · rfl
    · rfl
  simp only [forget, update, List.map_map, Function.comp_def, hreplace]

theorem forget_deliver (hf : Connection.Forgets f) (server : Server δ) :
    server.deliver.forget f = (server.forget f).deliver := by
  simp only [forget, deliver, List.map_map, List.filterMap_map, Function.comp_def, hf.collect,
    hf.emptied?]

theorem forget_pace (hf : Connection.Forgets f) (server : Server δ) (id : ConnectionId)
    (isTaking : Bool) :
    (server.pace id isTaking).forget f = (server.forget f).pace id isTaking := by
  unfold pace
  rw [connection?_forget hf]
  cases hc : server.connection? id with
  | none => rfl
  | some c =>
    have hpaced : f { c with isTaking } = { f c with isTaking } := by
      refine (hf.served c c.session c.outbox c.isOpen isTaking rfl).trans ?_
      rw [← hf.session c, ← hf.outbox c, ← hf.isOpen c]
    dsimp only [Option.map_some]
    rw [forget_deliver hf, forget_update hf, hpaced]

/-! ## What comes in -/

variable [LogDevice δ]

theorem forget_part (hf : Connection.Forgets f) (server : Server δ) (c : Connection) :
    (server.forget f).part (f c) = (f (server.part c).1, (server.part c).2) := by
  have hroom : (server.forget f).room = server.room := rfl
  rw [part, part, hf.session, hf.id, hf.hangUp, hroom]

theorem forget_login (hf : Connection.Forgets f) (server : Server δ) (c : Connection)
    (line : String) :
    (server.forget f).login (f c) line =
      (f (server.login c line).1, (server.login c line).2) := by
  have hcapacity : (server.forget f).outboxCapacity = server.outboxCapacity := rfl
  have hcheck : (server.forget f).allowList.check (server.forget f).limits line =
      server.allowList.check server.limits line := rfl
  have hroom : (server.forget f).room = server.room := rfl
  unfold login
  rw [hcapacity, hcheck, hroom, hf.id, hf.session]
  split
  · rw [hf.hangUp]
  · split
    · rw [hf.decline]
    · dsimp only
      split
      · rw [hf.decline]
      · split
        · rename_i hactive
          rw [hf.served c _ _ c.isOpen c.isTaking (Session.id_activate hactive), hf.isOpen,
            hf.isTaking]
        · rw [hf.hangUp]

theorem forget_receive (hf : Connection.Forgets f) (server : Server δ) (c : Connection)
    (incoming : Incoming) :
    (server.forget f).receive (f c) incoming =
      (f (server.receive c incoming).1, (server.receive c incoming).2) := by
  unfold receive
  rw [hf.session]
  split
  · exact forget_login hf server c _
  · rw [hf.refuse]
    rfl
  · rw [hf.id]
    rfl
  · exact forget_part hf server c

/-- What comes in is handled alike. -/
theorem forget_handle (hf : Connection.Forgets f) (id : ConnectionId) (server : Server δ)
    (incoming : Incoming) :
    (server.handle id incoming).forget f = (server.forget f).handle id incoming := by
  unfold handle
  rw [connection?_forget hf]
  cases hc : server.connection? id with
  | none => rfl
  | some c =>
    dsimp only [Option.map_some]
    rw [hf.isOpen]
    by_cases hopen : c.isOpen = true
    · rw [if_pos hopen, if_pos hopen, forget_receive hf, forget_deliver hf, forget_update hf]
      rfl
    · rw [if_neg hopen, if_neg hopen]

theorem forget_handle_all (hf : Connection.Forgets f) (id : ConnectionId) (server : Server δ)
    (incoming : List Incoming) :
    (incoming.foldl (handle id) server).forget f =
      incoming.foldl (handle id) (server.forget f) := by
  induction incoming generalizing server with
  | nil => rfl
  | cons i rest ih => rw [List.foldl_cons, List.foldl_cons, ih, forget_handle hf]

/-- An event on a wire does the same if the same is heard, be it another event. -/
theorem forget_wire (hf : Connection.Forgets f) {server : Server δ} {id : ConnectionId}
    {event event' : WireEvent}
    (hheard : ∀ c, server.connection? id = some c →
      (f c).hear server.lineLength event' = c.hear server.lineLength event)
    (hkept : ∀ c unread, server.connection? id = some c →
      f { c with unread, isReachable := c.isReachable && event != .vanishes } =
        { f c with unread, isReachable := (f c).isReachable && event' != .vanishes }) :
    (server.wire id event).forget f = (server.forget f).wire id event' := by
  have hlength : (server.forget f).lineLength = server.lineLength := rfl
  unfold wire
  rw [connection?_forget hf]
  cases hc : server.connection? id with
  | none => rfl
  | some c =>
    dsimp only [Option.map_some]
    rw [hlength, hheard c hc]
    by_cases hopen : c.isOpen = true
    · rw [if_pos hopen, if_pos ((hf.isOpen c).trans hopen), forget_handle_all hf, forget_update hf,
        hkept c _ hc]
    · rw [if_neg hopen, if_neg (hf.isOpen c ▸ hopen)]

end Server

end ChatRoom
