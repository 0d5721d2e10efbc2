import ChatRoom.Proofs.Room.Outboxes
import ChatRoom.Proofs.Server.Turns

/-!
# What a server says

A server speaks in a closed vocabulary, whatever it hears (`invariant_vocabulary`): a room keeps to it
(`Room.Says.run`), and a server adds no more than the request for a name and the rejections, if the
names that it lets in belong to the vocabulary.
-/

namespace ChatRoom

open Text

/-- What a server needs to say, and everything that it may hear. -/
structure Vocabulary.IsServed (v : Vocabulary) : Prop where
  request : v.said usernameRequest
  rejection (rejection : Rejection) : ∀ line ∈ rejection.lines, v.said line
  heard {line : String} : IsLine line → v.heard line

namespace Connection

variable {δ : Type} {v : Vocabulary} {c : Connection}

/-- A connection has been sent what is in the vocabulary, and its name, if it has one, belongs to
it. -/
structure Hears (c : Connection) (v : Vocabulary) : Prop where
  sent : ∀ line ∈ c.sent, v.said line
  username : ∀ username ∈ c.session.username, v.named username

namespace Hears

theorem send (h : c.Hears v) {lines : List String} (hlines : ∀ line ∈ lines, v.said line) :
    (c.send lines).Hears v := by
  unfold Connection.send
  split
  · refine ⟨fun line hl => ?_, h.username⟩
    rcases List.mem_append.1 hl with hl | hl
    · exact h.sent line hl
    · exact hlines line hl
  · exact h

theorem hangUp (h : c.Hears v) : c.hangUp.Hears v := ⟨h.sent, h.username⟩

theorem collect (h : c.Hears v) {room : Room δ} (hroom : room.Says v) :
    (c.collect room.roster).Hears v := by
  unfold Connection.collect Connection.waiting
  split
  · split
    · exact h.send fun line hl => absurd hl List.not_mem_nil
    · exact h.send (hroom.pending _)
  · exact h

theorem welcome (h : c.Hears v) {username : String} (hu : v.named username) (box : OutboxId) :
    (Server.welcome c username box).Hears v :=
  ⟨h.sent, fun _ hn => Option.mem_some.1 hn ▸ hu⟩

end Hears

end Connection

namespace Server

variable {δ : Type} {v : Vocabulary}

/-- Everything that a server has said and has to say is in a closed vocabulary, as are the names
that it lets in. -/
structure Says (server : Server δ) (v : Vocabulary) : Prop where
  room : server.room.Says v
  closed : v.IsClosed server.room.groups
  connections : ∀ c ∈ server.connections, c.Hears v
  login : ∀ line username, v.heard line →
    server.allowList.check server.limits line = .ok username → v.named username

theorem IsNew.speaks {server : Server δ} (h : server.IsNew) (hclosed : v.IsClosed server.room.groups)
    (hlogin : ∀ line username, v.heard line →
      server.allowList.check server.limits line = .ok username → v.named username) :
    server.Says v := by
  obtain ⟨limit, groups, capacity, log, hroom⟩ := h.room
  refine ⟨?_, hclosed, fun c hc => ?_, hlogin⟩
  · rw [hroom]
    exact Room.says_new limit groups capacity log
  · rw [h.connections] at hc
    cases hc

/-! ## Turns -/

section

variable (hv : v.IsServed)
include hv

/-- In a turn, the steps keep to the vocabulary and so does the connection. -/
theorem Receives.speaks {server : Server δ} {c next : Connection} {incoming : Incoming}
    {steps : List RoomStep} (h : server.Receives c incoming next steps) (hserver : server.Says v)
    (hc : c.Hears v) (hi : incoming.IsClean) : next.Hears v ∧ ∀ s ∈ steps, v.Allows s := by
  cases h with
  | turnedAway lines hstate hlines =>
    have hsaid : ∀ line ∈ lines, v.said line := by
      rcases hlines with rfl | ⟨rejection, rfl⟩
      · exact fun line hl => absurd hl List.not_mem_nil
      · exact hv.rejection rejection
    exact ⟨(hc.send hsaid).hangUp, fun s hs => absurd hs List.not_mem_nil⟩
  | welcomed line username hstate hline hcheck hadmits =>
    subst hline
    have hu : v.named username := hserver.login line username (hv.heard hi) hcheck
    refine ⟨hc.welcome hu _, fun s hs => ?_⟩
    simp only [List.mem_cons, List.not_mem_nil, or_false] at hs
    rcases hs with rfl | rfl
    · exact hu
    · exact hu
  | routed sender line hstate husername hline =>
    subst hline
    refine ⟨hc, fun s hs => ?_⟩
    rw [List.mem_singleton.1 hs]
    exact ⟨hc.username sender (Option.mem_def.2 husername), hv.heard hi⟩
  | parted hstate => exact ⟨hc.hangUp, hserver.room.allows_departure c.id⟩

theorem Says.accept {server : Server δ} (h : server.Says v) (carrier : Carrier)
    (address : Address) : (server.accept carrier address).Says v := by
  have hnew : (server.newcomer carrier address).Hears v :=
    ⟨fun line hl => absurd hl List.not_mem_nil, fun u hu => by cases hu⟩
  refine ⟨h.room, h.closed, fun d hd => ?_, h.login⟩
  rcases mem_accept hd with hd | rfl | rfl
  · exact h.connections d hd
  · exact (hnew.send (hv.rejection .serverFull)).hangUp
  · refine Connection.Hears.send ⟨fun line hl => absurd hl List.not_mem_nil,
      fun u hu => by cases hu⟩ fun line hl => ?_
    exact List.mem_singleton.1 hl ▸ hv.request

end

theorem Says.update {server : Server δ} (h : server.Says v) {c : Connection} (hc : c.Hears v) :
    (server.update c).Says v := by
  refine ⟨h.room, h.closed, fun d hd => ?_, h.login⟩
  rcases mem_update hd with rfl | ⟨hd, -⟩
  · exact hc
  · exact h.connections d hd

theorem Says.deliver {server : Server δ} (h : server.Says v) : server.deliver.Says v := by
  refine ⟨⟨h.room.history, fun box line hl => ?_, h.room.usernames⟩, h.closed, fun d hd => ?_,
    h.login⟩
  · have hpending : line ∈ (server.room.roster.drainAll
        (server.connections.filterMap (·.emptied?))).pending box := hl
    rw [Roster.pending_drainAll] at hpending
    split at hpending
    · cases hpending
    · exact h.room.pending box line hpending
  · obtain ⟨c, hc, rfl⟩ := mem_deliver hd
    exact (h.connections c hc).collect h.room

variable [LogDevice δ]

/-- What is put on record in a turn, and what clients are then sent, is in the vocabulary. -/
structure Turn.Says (turn : Turn δ) (v : Vocabulary) : Prop where
  records : ∀ r ∈ turn.records, v.kept r.event
  pending : ∀ box, ∀ line ∈ turn.room.roster.pending box, v.said line

theorem Says.turn (hv : v.IsServed) {turn : Turn δ} (h : turn.server.Says v) (hs : turn.Served)
    (hi : turn.incoming.IsClean) : turn.Says v ∧ turn.next.Says v := by
  obtain ⟨hafter, hsteps⟩ := turn.receives.speaks hv h (h.connections _ hs.mem) hi
  obtain ⟨hroom, hrecords⟩ := h.room.run h.closed hsteps
  have hgroups : turn.room.groups = turn.server.room.groups := by
    rw [turn.room_eq, Room.groups_run]
  rw [← turn.room_eq] at hroom
  have hserver : ({ turn.server with room := turn.room } : Server δ).Says v :=
    ⟨hroom, hgroups ▸ h.closed, h.connections, h.login⟩
  exact ⟨⟨hrecords, hroom.pending⟩, (hserver.update hafter).deliver⟩

/-- **A server keeps to its vocabulary**, whatever comes in. -/
theorem invariant_vocabulary (hv : v.IsServed) : Invariant fun (server : Server δ) ts =>
    server.Says v ∧ ∀ turn ∈ ts, turn.Says v where
  listeners _ _ _ _ h := ⟨⟨h.1.room, h.1.closed, h.1.connections, h.1.login⟩, h.2⟩
  accept _ _ carrier address h := ⟨h.1.accept hv carrier address, h.2⟩
  hear server ts c unread stays hc h := by
    have hears := h.1.connections c (List.mem_of_find?_eq_some hc)
    exact ⟨h.1.update ⟨hears.sent, hears.username⟩, h.2⟩
  pace server ts c isTaking hc h := by
    have hears := h.1.connections c (List.mem_of_find?_eq_some hc)
    have hupdate : (server.update { c with isTaking }).Says v :=
      h.1.update ⟨hears.sent, hears.username⟩
    exact ⟨hupdate.deliver, h.2⟩
  turn turn ts hs hi h := by
    obtain ⟨hturn, hnext⟩ := h.1.turn hv hs hi
    refine ⟨hnext, fun t ht => ?_⟩
    rcases List.mem_append.1 ht with ht | ht
    · exact h.2 t ht
    · exact List.mem_singleton.1 ht ▸ hturn

theorem Says.run (hv : v.IsServed) {server : Server δ} (h : server.Says v)
    (hkeeps : server.KeepsNoLines) (events : List NetworkEvent) :
    (server.run events).Says v ∧ ∀ r ∈ server.recorded events, v.kept r.event := by
  obtain ⟨hrun, hturns⟩ :=
    (invariant_vocabulary hv).run ⟨h, fun turn ht => absurd ht List.not_mem_nil⟩ hkeeps events
  refine ⟨hrun, fun r hr => ?_⟩
  obtain ⟨turn, ht, hr⟩ := List.mem_flatMap.1 hr
  exact (hturns turn ht).records r hr

end Server

end ChatRoom
