import ChatRoom.Proofs.Roster.Losses
import ChatRoom.Proofs.Room.Sinks

/-!
# Failures leave no trace

What a room refuses leaves it as it was: an arrival under a taken name or in a full room
(`arrive_cases`), the departure of somebody who is not there, a blank line. Only of a line that is a
malformed command, or for which there is no recipient or no group (`Room.objection?`), something is
told, and to nobody but its sender (`tell_spec`). Any other line goes on record, once
(`route_cases`, `kept_route`).
-/

namespace ChatRoom

open Text

/-- The line was sent on to others. -/
def Routed.isSent : Routed → Bool
  | .global _ | .direct _ | .group .. => true
  | .ignored | .rejected => false

/-! ## One reply -/

namespace Roster

variable {roster : Roster}

/-- A line that is sent to a session goes to its outbox, and nothing else changes. -/
theorem getElem?_send (id : ConnectionId) (line : String) (box : OutboxId) :
    (roster.send id line).2.outboxes[box]? =
      if (roster.entryOf? id).map (·.outbox) = some box then
        roster.outboxes[box]?.map (·.push line)
      else roster.outboxes[box]? := by
  unfold send
  cases roster.entryOf? id with
  | none => rfl
  | some entry =>
    rw [getElem?_offer, Option.map_some]
    by_cases hb : box = entry.outbox
    · subst hb
      rw [if_pos rfl, if_pos rfl]
    · rw [if_neg hb, if_neg fun h => hb (Option.some.inj h).symm]

/-- An outbox with a reader and room is given the line that is sent to its session; all others stay
as they are. -/
theorem getElem?_send_of_hasRoom (id : ConnectionId) (line : String) (box : OutboxId) :
    (roster.send id line).2.outboxes[box]? =
      if (roster.entryOf? id).map (·.outbox) = some box ∧ roster.hasRoom box = true then
        roster.outboxes[box]?.map fun outbox =>
          { outbox with pending := outbox.pending ++ [line] }
      else roster.outboxes[box]? := by
  rw [getElem?_send, hasRoom]
  cases roster.outboxes[box]? with
  | none => simp
  | some outbox =>
    by_cases he : (roster.entryOf? id).map (·.outbox) = some box
    · cases ha : outbox.accepts with
      | true => simp [he, ha, Outbox.push_of_accepts ha]
      | false => simp [he, ha, Outbox.push_of_not_accepts ha]
    · simp [he]

end Roster

namespace Room

variable {δ : Type} {room : Room δ} {id : ConnectionId} {username sender line : String}
  {box : OutboxId}

/-- What the sender of a line is told if the line cannot be sent on. -/
def objection? (room : Room δ) (line : String) : Option Reply :=
  match Command.parse line with
  | .error malformed => some (.malformed malformed)
  | .ok (some (.direct recipient _)) =>
    if (room.roster.find? recipient).isNone then some (.userNotFound recipient) else none
  | .ok (some (.group name _)) =>
    if (room.groups.get? name).isNone then some (.groupNotFound name) else none
  | .ok none | .ok (some (.global _)) => none

theorem prefix_append {front s : String} (h : front.toList <+: s.toList) (t : String) :
    front.toList <+: (s ++ t).toList := by
  rw [String.toList_append]
  exact h.trans (List.prefix_append _ _)

/-- The room speaks for itself, not for a client. -/
theorem system_of_objection {reply : Reply} (h : room.objection? line = some reply) :
    "System: ".toList <+: reply.line.toList := by
  unfold objection? at h
  split at h
  · rename_i malformed _
    cases h
    cases malformed <;> decide
  · split at h
    · cases h
      exact prefix_append (prefix_append (by decide) _) _
    · cases h
  · split at h
    · cases h
      exact prefix_append (prefix_append (by decide) _) _
    · cases h
  · cases h
  · cases h

variable [LogDevice δ]

/-- A line to which there is an objection is answered with it. Any other line is blank, or it is an
event. -/
theorem route_objection (room : Room δ) (id : ConnectionId) (sender line : String) :
    (∃ reply, room.objection? line = some reply ∧
        room.route id sender line = (.rejected, room.tell id reply)) ∨
      room.route id sender line = (.ignored, room) ∨
      ((room.route id sender line).1.event? sender line).isSome = true := by
  unfold objection? route Routed.event?
  cases Command.parse line with
  | error malformed => exact .inl ⟨_, rfl, rfl⟩
  | ok command =>
    cases command with
    | none => exact .inr (.inl rfl)
    | some command =>
      cases command with
      | global text => exact .inr (.inr rfl)
      | direct recipient text =>
        simp only [routeDirect]
        cases room.roster.find? recipient with
        | none => exact .inl ⟨_, rfl, rfl⟩
        | some recipientId => exact .inr (.inr rfl)
      | group name text =>
        simp only [routeGroup]
        cases room.groups.get? name with
        | none => exact .inl ⟨_, rfl, rfl⟩
        | some group => exact .inr (.inr rfl)

omit [LogDevice δ] in
theorem isSent_of_event? {routed : Routed} {event : Event}
    (h : routed.event? sender line = some event) : routed.isSent = true := by
  unfold Routed.event? at h
  cases routed <;> first | rfl | cases h

/-- What a line comes to: nothing, a reply to its sender, or an event. -/
theorem route_cases (room : Room δ) (id : ConnectionId) (sender line : String) :
    room.route id sender line = (.ignored, room) ∨
      (∃ reply, room.objection? line = some reply ∧
        room.route id sender line = (.rejected, room.tell id reply)) ∨
      (room.route id sender line).1.isSent = true ∧
        ∃ event, (room.route id sender line).1.event? sender line = some event := by
  rcases room.route_objection id sender line with hreply | hr | hsome
  · exact .inr (.inl hreply)
  · exact .inl hr
  · obtain ⟨event, he⟩ := Option.isSome_iff_exists.1 hsome
    exact .inr (.inr ⟨isSent_of_event? he, event, he⟩)

omit [LogDevice δ] in
/-- A reply changes one outbox at most, by one line. -/
theorem tell_spec (room : Room δ) (id : ConnectionId) (reply : Reply) :
    (room.tell id reply).roster.entries = room.roster.entries ∧
      (room.tell id reply).roster.limit = room.roster.limit ∧
      ∀ box : OutboxId, (room.tell id reply).roster.outboxes[box]? =
        if (room.roster.entryOf? id).map (·.outbox) = some box ∧ room.roster.hasRoom box = true then
          room.roster.outboxes[box]?.map fun outbox =>
            { outbox with pending := outbox.pending ++ [reply.line] }
        else room.roster.outboxes[box]? :=
  ⟨(Roster.entries_send reply.line).1, (Roster.entries_send reply.line).2,
    Roster.getElem?_send_of_hasRoom id reply.line⟩

theorem event?_act_route : (RoomAction.route id sender line).event?
    (room.act (.route id sender line)).1 = (room.route id sender line).1.event? sender line := rfl

theorem endsPlain_of_event? {event : Event}
    (h : (room.route id sender line).1.event? sender line = some event) : EndsPlain event.line := by
  obtain ⟨s, r, hr, rfl⟩ := record?_of_event? (event?_act_route.trans h)
  exact endsPlain_of_record? hr

/-- A message that is sent on is put on record once, in the history and in the log. -/
theorem kept_route {event : Event}
    (h : (room.route id sender line).1.event? sender line = some event) :
    (room.route id sender line).2.history = room.history.append event.line ∧
      (room.route id sender line).2.log = Log.note event.line room.log := by
  obtain ⟨hhistory, hlog⟩ := room.kept_act (.route id sender line)
  rw [event?_act_route, h] at hhistory hlog
  simp only [act_route, Option.toList_some, List.map_cons, List.map_nil, List.foldl_cons,
    List.foldl_nil] at hhistory hlog
  exact ⟨hhistory, hlog⟩

/-- A line that is no message leaves history and log as they are. -/
theorem kept_of_no_event (h : (room.route id sender line).1.event? sender line = none) :
    (room.route id sender line).1.isSent = false ∧
      (room.route id sender line).2.history = room.history ∧
      (room.route id sender line).2.log = room.log := by
  rcases room.route_cases id sender line with hr | ⟨reply, -, hr⟩ | ⟨-, event, he⟩
  · rw [hr]
    exact ⟨rfl, rfl, rfl⟩
  · rw [hr]
    exact ⟨rfl, rfl, rfl⟩
  · rw [h] at he
    cases he

/-! ## Arrivals and departures -/

/-- An arrival succeeds, or nothing happens: the name is taken, or else the room is full. -/
theorem arrive_cases (room : Room δ) (id : ConnectionId) (username : String) (box : OutboxId) :
    (room.act (.arrive id username box)).1 = .arrived ∧ room.roster.Admits username ∨
      room.act (.arrive id username box) = (.refused (.usernameInUse username), room) ∧
        (∃ entry ∈ room.roster.entries, entry.username = username) ∨
      ∃ max, room.act (.arrive id username box) = (.refused (.serverFull max), room) ∧
        room.roster.limit = some max ∧ max ≤ room.roster.size := by
  rcases room.roster.admits_or username with ha | ht | ⟨hfree, max, hlimit, hfull⟩
  · refine .inl ⟨?_, ha⟩
    rw [act_arrive, enter, Roster.register_of_admits ha]
    rfl
  · refine .inr (.inl ⟨?_, ht⟩)
    rw [act_arrive, enter, Roster.register_of_taken ht]
    rfl
  · refine .inr (.inr ⟨max, ?_, hlimit, hfull⟩)
    rw [act_arrive, enter, Roster.register_of_full hfree hlimit hfull]
    rfl

theorem depart_eq_of_none (h : (room.depart id).1 = none) : (room.depart id).2 = room := by
  unfold depart at h ⊢
  rcases hl : room.leave id with ⟨username, left⟩
  cases username with
  | none => rfl
  | some username =>
    rw [hl] at h
    cases h

/-! ## All failures -/

/-- **Failures leave no trace**, in whatever state the room is. An arrival that is refused, the
departure of nobody and a blank line change nothing; an arrival is refused only if its name is
taken or the room is full. After a line that is rejected the roster, the history and the log
are as before, and so is every outbox, but that its sender, if it is active and has room, is told
why. A line goes on record exactly if it was sent on, and once. -/
theorem failures_leave_no_trace (room : Room δ) :
    (∀ id username box error, (room.act (.arrive id username box)).1 = .refused error →
      (room.act (.arrive id username box)).2 = room ∧
      (error = .usernameInUse username ∧
          (∃ entry ∈ room.roster.entries, entry.username = username) ∨
        ∃ max, error = .serverFull max ∧ room.roster.limit = some max ∧
          max ≤ room.roster.size)) ∧
    (∀ id, (room.depart id).1 = none → (room.depart id).2 = room) ∧
    (∀ id sender line, (room.route id sender line).1 = .ignored →
      (room.route id sender line).2 = room) ∧
    (∀ id sender line, (room.route id sender line).1 = .rejected →
      ∃ reply after, room.objection? line = some reply ∧
        "System: ".toList <+: reply.line.toList ∧
        (room.route id sender line).2 = { room with roster := after } ∧
        after.entries = room.roster.entries ∧ after.limit = room.roster.limit ∧
        ∀ box : OutboxId, after.outboxes[box]? =
          if (room.roster.entryOf? id).map (·.outbox) = some box ∧
              room.roster.hasRoom box = true then
            room.roster.outboxes[box]?.map fun outbox =>
              { outbox with pending := outbox.pending ++ [reply.line] }
          else room.roster.outboxes[box]?) ∧
    ∀ id sender line,
      let routed := (room.route id sender line).1
      let after := (room.route id sender line).2
      match routed.event? sender line with
      | some event => routed.isSent = true ∧
          after.history = room.history.append event.line ∧
          after.log = Log.note event.line room.log ∧
          ∀ written works, LogDevice.Works written works → works room.log →
            ∃ time, written after.log =
              written room.log ++ LineStream.write (Log.stamped time event.line)
      | none => routed.isSent = false ∧ after.history = room.history ∧ after.log = room.log := by
  refine ⟨fun id username box error h => ?_, fun id => depart_eq_of_none,
    fun id sender line h => ?_, fun id sender line h => ?_, fun id sender line => ?_⟩
  · rcases room.arrive_cases id username box with ⟨ha, -⟩ | ⟨he, ht⟩ | ⟨max, he, hlimit, hfull⟩
    · rw [ha] at h
      cases h
    · rw [he] at h ⊢
      cases h
      exact ⟨rfl, .inl ⟨rfl, ht⟩⟩
    · rw [he] at h ⊢
      cases h
      exact ⟨rfl, .inr ⟨max, rfl, hlimit, hfull⟩⟩
  · rcases room.route_cases id sender line with hr | ⟨reply, -, hr⟩ | ⟨hs, -⟩
    · rw [hr]
    · rw [hr] at h
      cases h
    · rw [h] at hs
      cases hs
  · rcases room.route_cases id sender line with hr | ⟨reply, ho, hr⟩ | ⟨hs, -⟩
    · rw [hr] at h
      cases h
    · obtain ⟨hentries, hlimit, hboxes⟩ := room.tell_spec id reply
      rw [hr]
      exact ⟨reply, _, ho, system_of_objection ho, rfl, hentries, hlimit, hboxes⟩
    · rw [h] at hs
      cases hs
  · dsimp only
    cases he : (room.route id sender line).1.event? sender line with
    | none => exact kept_of_no_event he
    | some event =>
      obtain ⟨hhistory, hlog⟩ := kept_route he
      refine ⟨isSent_of_event? he, hhistory, hlog, fun written works hworks hw => ?_⟩
      rw [hlog]
      exact (hworks.note (endsPlain_of_event? he) hw).2

end Room

end ChatRoom
