import ChatRoom.Proofs.Groups
import ChatRoom.Proofs.Room.Failures
import ChatRoom.Proofs.Room.Reachable
import ChatRoom.Proofs.Room.View

/-!
# Where private messages go

A direct message goes to its recipient and is confirmed to its sender, a message to a group goes to
its members and is confirmed to its sender, who need not be one of them. Nobody gets a line twice:
no two sessions share a name or an outbox (`Roster.Owned`), and no group has a member twice
(`GroupTable.IsBuilt`). So it is known of each session what is offered to its outbox
(`Room.Offers`), and of a message to a group how many members it is queued for. If there is room for
two lines in every outbox, each session gets what it is offered (`Room.Gives`).
-/

namespace ChatRoom

/-! ## Sending to several sessions -/

namespace Roster

variable {roster : Roster} {id : ConnectionId} {line : String}

/-- There is room for a line to this session. -/
def canReach (roster : Roster) (id : ConnectionId) : Bool :=
  ((roster.entryOf? id).map (roster.hasRoom ·.outbox)).getD false

theorem Owned.canReach_send (h : roster.Owned) {other : ConnectionId} (hne : other ≠ id) :
    (roster.send id line).2.canReach other = roster.canReach other := by
  have hentry : (roster.send id line).2.entryOf? other = roster.entryOf? other := by
    rw [entryOf?, (entries_send line).1, entryOf?]
  rw [canReach, canReach, hentry]
  cases he : roster.entryOf? other with
  | none => rfl
  | some entry =>
    obtain ⟨hm, hid⟩ := h.wellFormed.entryOf?_eq_some_iff.1 he
    have hbox : (roster.entryOf? id).map (·.outbox) ≠ some entry.outbox := by
      intro hsame
      obtain ⟨sender, hs, hbox⟩ := Option.map_eq_some_iff.1 hsame
      obtain ⟨hm', hid'⟩ := h.wellFormed.entryOf?_eq_some_iff.1 hs
      have hsame : sender = entry := (h.outbox_inj hm' hm).1 hbox
      exact hne (by rw [← hid, ← hsame, hid'])
    rw [Option.map_some, Option.map_some, hasRoom, getElem?_send, if_neg hbox, hasRoom]

/-- Of several sessions those are counted that there is room for a line to. -/
theorem Owned.sendEach_fst (h : roster.Owned) {ids : List ConnectionId} (hids : ids.Nodup) :
    (roster.sendEach line ids).1 = ids.countP roster.canReach := by
  induction ids generalizing roster with
  | nil => rfl
  | cons id ids ih =>
    obtain ⟨hid, hids⟩ := List.nodup_cons.1 hids
    have hsame : ids.countP (roster.send id line).2.canReach = ids.countP roster.canReach := by
      refine List.countP_congr fun other ho => ?_
      have hne : other ≠ id := by
        rintro rfl
        exact hid ho
      rw [h.canReach_send hne]
    have hnext : (roster.send id line).2.Owned := h.asked (.send id line)
    have hrest : (roster.sendEach line (id :: ids)).1 =
        ((roster.send id line).2.sendEach line ids).1 + (roster.send id line).1.toNat := rfl
    rw [hrest, ih hnext hids, hsame, List.countP_cons, send_fst, ← canReach]
    cases roster.canReach id <;> rfl

/-! ## Members that are active -/

/-- The members of a group that are active, but the sender, each once. -/
theorem WellFormed.perm_members (h : roster.WellFormed) {members : List String}
    (hmembers : members.Nodup) {sender : Entry} (hsender : sender ∈ roster.entries) :
    ((members.filterMap roster.find?).filter (· ≠ sender.id)).Perm
      ((roster.entries.filter fun entry =>
        entry ≠ sender ∧ entry.username ∈ members).map (·.id)) := by
  have hfound {username : String} {other : ConnectionId} :
      roster.find? username = some other ↔
        ∃ entry ∈ roster.entries, entry.id = other ∧ entry.username = username := by
    rw [h.find?_eq_some_iff]
    simp only [h.entryOf?_eq_some_iff, and_assoc]
  have honce : (members.filterMap roster.find?).Nodup := by
    refine hmembers.filterMap fun a b other ha hb => ?_
    obtain ⟨entry, he, hid, rfl⟩ := hfound.1 ha
    obtain ⟨entry', he', hid', rfl⟩ := hfound.1 hb
    rw [(h.id_inj he he').1 (hid.trans hid'.symm)]
  have hentries : ((roster.entries.filter fun entry =>
      entry ≠ sender ∧ entry.username ∈ members).map (·.id)).Nodup :=
    h.ids.sublist (List.filter_sublist.map _)
  refine (List.perm_ext_iff_of_nodup (honce.filter _) hentries).2 fun other => ?_
  simp only [List.mem_filter, List.mem_filterMap, List.mem_map, decide_eq_true_eq, hfound]
  constructor
  · rintro ⟨⟨_, hm, entry, he, rfl, rfl⟩, hne⟩
    exact ⟨entry, ⟨he, fun hs => hne (congrArg Entry.id hs), hm⟩, rfl⟩
  · rintro ⟨entry, ⟨he, hne, hm⟩, rfl⟩
    exact ⟨⟨_, hm, entry, he, rfl, rfl⟩, fun hid => hne ((h.id_inj he hsender).1 hid)⟩

theorem WellFormed.mem_members (h : roster.WellFormed) {members : List String}
    (hmembers : members.Nodup) {sender entry : Entry} (hsender : sender ∈ roster.entries)
    (he : entry ∈ roster.entries) :
    entry.id ∈ (members.filterMap roster.find?).filter (· ≠ sender.id) ↔
      entry ≠ sender ∧ entry.username ∈ members := by
  rw [(h.perm_members hmembers hsender).mem_iff, List.mem_map]
  constructor
  · rintro ⟨other, ho, hid⟩
    obtain ⟨hm, hp⟩ := List.mem_filter.1 ho
    rw [← (h.id_inj hm he).1 hid]
    exact of_decide_eq_true hp
  · intro hp
    exact ⟨entry, List.mem_filter.2 ⟨he, decide_eq_true hp⟩, rfl⟩

end Roster

namespace Room

variable {δ : Type} {room : Room δ} {id : ConnectionId}

/-! ## What a session gets -/

/-- Every active session has a reader and room for two more lines. -/
def HasRoomForTwo (room : Room δ) : Prop :=
  ∀ entry ∈ room.roster.entries, ∃ outbox ∈ room.roster.outboxes[entry.outbox]?,
    outbox.hasReader = true ∧ outbox.pending.length + 2 ≤ outbox.capacity

instance (room : Room δ) : Decidable room.HasRoomForTwo :=
  inferInstanceAs (Decidable (∀ entry ∈ room.roster.entries, _))

theorem HasRoomForTwo.canReach (hroom : room.HasRoomForTwo) (hw : room.roster.WellFormed)
    {entry : Entry} (he : entry ∈ room.roster.entries) : room.roster.canReach entry.id = true := by
  obtain ⟨outbox, hbox, hreader, htwo⟩ := hroom entry he
  rw [Roster.canReach, hw.entryOf?_eq_some_iff.2 ⟨he, rfl⟩]
  exact Roster.hasRoom_eq_true_iff.2 ⟨outbox, hbox, hreader, by omega⟩

/-- What a change of a room offers to the outboxes: to that of each active session these lines, of
which it takes as many as there is room for, and nothing to any other. The sessions stay. -/
structure Offers (room after : Room δ) (lines : Entry → List String) : Prop where
  entries : after.roster.entries = room.roster.entries
  limit : after.roster.limit = room.roster.limit
  active : ∀ entry ∈ room.roster.entries, after.roster.outboxes[entry.outbox]? =
    room.roster.outboxes[entry.outbox]?.map (·.pushAll (lines entry))
  others : ∀ box : OutboxId, (∀ entry ∈ room.roster.entries, entry.outbox ≠ box) →
    after.roster.outboxes[box]? = room.roster.outboxes[box]?

/-- The first line that is offered to a session is queued, if there is room for one. -/
theorem Offers.mem_pending {after : Room δ} {lines : Entry → List String}
    (h : room.Offers after lines) (hw : room.roster.WellFormed) {entry : Entry}
    (he : entry ∈ room.roster.entries) (hreach : room.roster.canReach entry.id = true)
    {first : String} {rest : List String} (hlines : lines entry = first :: rest) :
    first ∈ after.roster.pending entry.outbox := by
  rw [Roster.canReach, hw.entryOf?_eq_some_iff.2 ⟨he, rfl⟩] at hreach
  obtain ⟨outbox, hbox, hreader, hroom⟩ := Roster.hasRoom_eq_true_iff.1 hreach
  have hafter := h.active entry he
  rw [hbox, hlines, Option.map_some] at hafter
  rw [Roster.pending, hafter]
  show first ∈ (outbox.pushAll (first :: rest)).pending
  rw [Outbox.pending_pushAll hreader]
  obtain ⟨n, hn⟩ : ∃ n, outbox.capacity - outbox.pending.length = n + 1 :=
    Nat.exists_eq_succ_of_ne_zero (by omega)
  rw [hn, List.take_succ_cons]
  exact List.mem_append_right _ List.mem_cons_self

/-- What a change of a room adds to the outboxes: to that of each active session these lines, and
nothing to any other. The sessions stay. -/
structure Gives (room after : Room δ) (lines : Entry → List String) : Prop where
  entries : after.roster.entries = room.roster.entries
  limit : after.roster.limit = room.roster.limit
  active : ∀ entry ∈ room.roster.entries, ∃ outbox,
    room.roster.outboxes[entry.outbox]? = some outbox ∧ after.roster.outboxes[entry.outbox]? =
      some { outbox with pending := outbox.pending ++ lines entry }
  others : ∀ box : OutboxId, (∀ entry ∈ room.roster.entries, entry.outbox ≠ box) →
    after.roster.outboxes[box]? = room.roster.outboxes[box]?

/-- What is offered is given, if it is no more than there is room for. -/
theorem Offers.gives {after : Room δ} {lines : Entry → List String} (h : room.Offers after lines)
    (hroom : room.HasRoomForTwo) (hlines : ∀ entry ∈ room.roster.entries, (lines entry).length ≤ 2) :
    room.Gives after lines := by
  refine ⟨h.entries, h.limit, fun entry he => ?_, h.others⟩
  obtain ⟨outbox, hbox, hreader, htwo⟩ := hroom entry he
  have hlength := hlines entry he
  refine ⟨outbox, hbox, ?_⟩
  rw [h.active entry he, hbox, Option.map_some, Outbox.pushAll_of_room hreader (by omega)]

/-- A change of a room puts one event on record: in the history, as far as that goes back, and in
the log, where a device that works gets one entry for it. -/
structure Records [LogDevice δ] (room after : Room δ) (event : Event) : Prop where
  history : after.history.lines =
    (room.history.lines ++ [event.line]).rtake room.history.capacity
  capacity : after.history.capacity = room.history.capacity
  log : after.log = Log.note event.line room.log
  entry : ∀ written works, LogDevice.Works written works → works room.log →
    ∃ time, written after.log = written room.log ++ LineStream.write (Log.stamped time event.line)

theorem seated_of_owned (h : room.roster.Owned) {entry : Entry} (he : entry ∈ room.roster.entries) :
    room.Seated entry.id entry.outbox where
  wellFormed := h.wellFormed
  boxOpen := h.opened entry he
  active := List.mem_map_of_mem he
  seat other ho := by rw [h.outbox_inj ho he, h.wellFormed.id_inj ho he]

theorem box_of_commandDeliveries {sender : String} {c : Command} {d : Delivery}
    (hd : d ∈ room.commandDeliveries id sender c) :
    ∃ entry ∈ room.roster.entries, entry.outbox = d.box := by
  rcases mem_commandDeliveries hd with ⟨text, -, hd⟩ | ⟨reply, other, hd, -⟩
  · obtain ⟨other, hd⟩ := mem_noticeAll hd
    obtain ⟨-, entry, he, -, hbox⟩ := mem_noticeTo hd
    exact ⟨entry, he, hbox⟩
  · obtain ⟨-, entry, he, -, hbox⟩ := mem_noticeTo hd
    exact ⟨entry, he, hbox⟩

variable [LogDevice δ] {sender line : String} {c : Command}

/-- A command offers each session the notices for it. -/
theorem offers_route (hc : Command.parse line = .ok (some c)) {lines : Entry → List String}
    (hlines : ∀ entry ∈ room.roster.entries,
      (Delivery.noticesFor entry.outbox (room.commandDeliveries id sender c)).map Notice.line =
        lines entry) :
    room.Offers (room.route id sender line).2 lines := by
  have hdeliveries : room.deliveries (.route id sender line) =
      room.commandDeliveries id sender c := by
    simp only [deliveries, hc]
  have houtbox (box : OutboxId) : (room.route id sender line).2.roster.outboxes[box]? =
      room.roster.outboxes[box]?.map (·.pushAll
        ((Delivery.noticesFor box (room.commandDeliveries id sender c)).map Notice.line)) := by
    rw [← step_route, getElem?_outboxes_step, if_neg (by simp), hdeliveries]
    rfl
  refine ⟨?_, ?_, fun entry he => ?_, fun box hbox => ?_⟩
  · rw [← step_route, entries_step, entriesAfter]
  · rw [← step_route, limit_step]
  · rw [houtbox, hlines entry he]
  · have hnone : Delivery.noticesFor box (room.commandDeliveries id sender c) = [] := by
      refine Delivery.noticesFor_eq_nil fun d hd hb => ?_
      obtain ⟨entry, he, hbox'⟩ := box_of_commandDeliveries hd
      exact hbox entry he (hbox'.trans hb)
    rw [houtbox, hnone]
    exact Option.map_id'

theorem records_route (hc : Command.parse line = .ok (some c)) {event : Event}
    (he : room.commandEvent? sender c = some event) :
    room.Records (room.route id sender line).2 event := by
  have hevent : (room.route id sender line).1.event? sender line = some event := by
    rw [← event?_act_route, act_route, event?_route]
    simp only [record?, hc, he, Option.map_some]
  have hplain := endsPlain_of_event? hevent
  obtain ⟨hhistory, hlog⟩ := kept_route hevent
  refine ⟨?_, ?_, hlog, fun written works hworks hw => ?_⟩
  · rw [hhistory, History.append, hplain.dropTerminators]
    rfl
  · rw [hhistory, History.capacity_append]
  · rw [hlog]
    exact (hworks.note hplain hw).2

/-! ## Direct messages -/

/-- What each session is offered of a direct message. -/
def directLines (sender : Entry) (recipient text : String) (entry : Entry) : List String :=
  (if entry.username = recipient then [(Reply.directFrom sender.username text).line] else []) ++
    (if entry = sender then [(Reply.directTo recipient text).line] else [])

theorem length_directLines_le (sender : Entry) (recipient text : String) (entry : Entry) :
    (directLines sender recipient text entry).length ≤ 2 := by
  unfold directLines
  split <;> split <;> simp

theorem offers_direct (h : room.roster.Owned) {sender : Entry}
    (hsender : sender ∈ room.roster.entries) {recipient text : String}
    (hc : Command.parse line = .ok (some (.direct recipient text)))
    (hactive : ∃ target ∈ room.roster.entries, target.username = recipient) :
    (room.route sender.id sender.username line).1 = .direct recipient ∧
      room.Offers (room.route sender.id sender.username line).2
        (directLines sender recipient text) ∧
      room.commandEvent? sender.username (.direct recipient text) =
        some (.direct sender.username recipient text) := by
  obtain ⟨target, htarget, hname⟩ := hactive
  have hfind : room.roster.find? recipient = some target.id :=
    h.wellFormed.find?_eq_some_iff.2
      ⟨target, h.wellFormed.entryOf?_eq_some_iff.2 ⟨htarget, rfl⟩, hname⟩
  refine ⟨?_, offers_route hc fun entry he => ?_, ?_⟩
  · simp only [route, hc, routeDirect, hfind]
  · have hseated := seated_of_owned h he
    have hrecipient : target.id = entry.id ↔ entry.username = recipient := by
      rw [h.wellFormed.id_inj htarget he, ← h.wellFormed.username_inj htarget he, hname]
      exact eq_comm
    have hself : sender.id = entry.id ↔ entry = sender :=
      eq_comm.trans (h.wellFormed.id_inj he hsender)
    simp only [commandDeliveries, hfind, Delivery.noticesFor_append, hseated.noticesFor_noticeTo,
      List.map_append, hrecipient, hself, apply_ite (List.map Notice.line), List.map_cons,
      List.map_nil, Notice.line, directLines]
  · rw [commandEvent?, hfind, Option.map_some]

theorem route_direct (h : room.roster.Owned) (hroom : room.HasRoomForTwo) {sender : Entry}
    (hsender : sender ∈ room.roster.entries) {recipient text : String}
    (hc : Command.parse line = .ok (some (.direct recipient text)))
    (hactive : ∃ target ∈ room.roster.entries, target.username = recipient) :
    (room.route sender.id sender.username line).1 = .direct recipient ∧
      room.Gives (room.route sender.id sender.username line).2
        (directLines sender recipient text) ∧
      room.Records (room.route sender.id sender.username line).2
        (.direct sender.username recipient text) := by
  obtain ⟨hrouted, hoffers, hevent⟩ := offers_direct h hsender hc hactive
  exact ⟨hrouted, hoffers.gives hroom fun entry _ => length_directLines_le _ _ _ entry,
    records_route hc hevent⟩

/-! ## Messages to a group -/

/-- What each session is offered of a message to a group of these members. -/
def groupLines (sender : Entry) (name : String) (members : List String) (text : String)
    (entry : Entry) : List String :=
  if entry = sender then [(Reply.groupTo name text).line]
  else if entry.username ∈ members then [(Reply.groupFrom name sender.username text).line]
  else []

theorem length_groupLines_le (sender : Entry) (name : String) (members : List String)
    (text : String) (entry : Entry) : (groupLines sender name members text entry).length ≤ 2 := by
  unfold groupLines
  split
  · simp
  · split <;> simp

section

variable {name text : String} {group : Group}

theorem offers_group (h : room.roster.Owned) {sender : Entry}
    (hsender : sender ∈ room.roster.entries)
    (hc : Command.parse line = .ok (some (.group name text)))
    (hgroup : room.groups.get? name = some group) (hmembers : group.members.Nodup) :
    (room.route sender.id sender.username line).1 = .group name
        (room.roster.entries.countP fun entry =>
          room.roster.canReach entry.id ∧ entry ≠ sender ∧ entry.username ∈ group.members) ∧
      room.Offers (room.route sender.id sender.username line).2
        (groupLines sender name group.members text) ∧
      room.commandEvent? sender.username (.group name text) =
        some (.group name sender.username text) := by
  obtain rfl : group.name = name := GroupTable.name_of_get? hgroup
  have hperm := h.wellFormed.perm_members hmembers hsender
  have hnodup : ((group.members.filterMap room.roster.find?).filter (· ≠ sender.id)).Nodup :=
    hperm.nodup_iff.2 (h.wellFormed.ids.sublist (List.filter_sublist.map _))
  refine ⟨?_, offers_route hc fun entry he => ?_, ?_⟩
  · simp only [route, hc, routeGroup, hgroup]
    rw [h.sendEach_fst hnodup, hperm.countP_eq, List.countP_map, List.countP_filter]
    simp only [Function.comp_apply, Bool.decide_and, Bool.decide_eq_true]
  · have hseated := seated_of_owned h he
    have hmem := h.wellFormed.mem_members hmembers hsender he
    have hself : sender.id = entry.id ↔ entry = sender :=
      eq_comm.trans (h.wellFormed.id_inj he hsender)
    simp only [commandDeliveries, hgroup, Delivery.noticesFor_append, Delivery.noticesFor_flatMap,
      hseated.noticesFor_noticeTo, flatMap_ite_eq hnodup, hmem, hself, groupLines]
    by_cases hsame : entry = sender
    · simp [hsame, Notice.line]
    · by_cases hmember : entry.username ∈ group.members
      · simp [hsame, hmember, Notice.line]
      · simp [hsame, hmember]
  · rw [commandEvent?, hgroup, Option.map_some]

theorem route_group (h : room.roster.Owned) (hroom : room.HasRoomForTwo) {sender : Entry}
    (hsender : sender ∈ room.roster.entries)
    (hc : Command.parse line = .ok (some (.group name text)))
    (hgroup : room.groups.get? name = some group) (hmembers : group.members.Nodup) :
    (room.route sender.id sender.username line).1 = .group name
        (room.roster.entries.countP fun entry =>
          entry ≠ sender ∧ entry.username ∈ group.members) ∧
      room.Gives (room.route sender.id sender.username line).2
        (groupLines sender name group.members text) ∧
      room.Records (room.route sender.id sender.username line).2
        (.group name sender.username text) := by
  obtain ⟨hrouted, hoffers, hevent⟩ := offers_group h hsender hc hgroup hmembers
  have hcount : (room.roster.entries.countP fun entry =>
      room.roster.canReach entry.id ∧ entry ≠ sender ∧ entry.username ∈ group.members) =
      room.roster.entries.countP fun entry =>
        entry ≠ sender ∧ entry.username ∈ group.members := by
    refine List.countP_congr fun entry he => ?_
    simp only [hroom.canReach h.wellFormed he, true_and]
  exact ⟨hrouted.trans (congrArg _ hcount),
    hoffers.gives hroom fun entry _ => length_groupLines_le _ _ _ _ entry,
    records_route hc hevent⟩

end

/-! ## Rooms that are reached -/

/-- **Where private messages go**, in every room that is reached and has room for two lines in the
outbox of each session. A direct message to somebody active goes to its recipient, and is confirmed
to its sender after that, who may be the same. A message to a group that exists goes to the members
that are active, but not to its sender, who is sent a confirmation; as many are counted. Nobody gets
anything else, the sessions stay, and the message goes on record once. -/
theorem private_routing (limit : Option Nat) {groups : GroupTable} (hgroups : groups.IsBuilt)
    (capacity : Nat) (log : δ) {room : Room δ}
    (hreach : (Room.new limit groups capacity log).Reachable room) (hroom : room.HasRoomForTwo)
    {sender : Entry} (hsender : sender ∈ room.roster.entries) (line : String) :
    let routed := (room.route sender.id sender.username line).1
    let after := (room.route sender.id sender.username line).2
    (∀ recipient text, Command.parse line = .ok (some (.direct recipient text)) →
      (∃ target ∈ room.roster.entries, target.username = recipient) →
      routed = .direct recipient ∧
      room.Gives after (fun entry =>
        (if entry.username = recipient then [(Reply.directFrom sender.username text).line]
          else []) ++
        (if entry = sender then [(Reply.directTo recipient text).line] else [])) ∧
      room.Records after (.direct sender.username recipient text)) ∧
    ∀ name text group, Command.parse line = .ok (some (.group name text)) →
      groups.get? name = some group →
      routed = .group name (room.roster.entries.countP fun entry =>
        entry ≠ sender ∧ entry.username ∈ group.members) ∧
      room.Gives after (fun entry =>
        if entry = sender then [(Reply.groupTo name text).line]
        else if entry.username ∈ group.members then
          [(Reply.groupFrom name sender.username text).line]
        else []) ∧
      room.Records after (.group name sender.username text) := by
  have howned : room.roster.Owned := hreach.owned (.empty limit)
  have hsame : room.groups = groups := hreach.groups_eq
  refine ⟨fun recipient text hc hactive => route_direct howned hroom hsender hc hactive,
    fun name text group hc hgroup => ?_⟩
  rw [← hsame] at hgroup
  exact route_group howned hroom hsender hc hgroup (hgroups.nodup_members (hsame ▸ hgroup))

/-- Ann writes to herself and to a team of which she is a member; Carl looks on. -/
theorem private_routing_ann_bob :
    let groups : GroupTable := .ofGroups [.ofMembers "team" ["bob", "ann", "bob", "dan"]]
    let start : Room MemoryLog := .new none groups 2 { clock := ⟨2024, 5, 1, 12, 0, 0⟩ }
    let room := start.run [.enter ⟨1⟩ "ann" 9, .joined ⟨1⟩ "ann", .enter ⟨2⟩ "bob" 9,
      .joined ⟨2⟩ "bob", .enter ⟨3⟩ "carl" 9, .joined ⟨3⟩ "carl", .drain 0, .drain 1, .drain 2]
    let direct := room.route ⟨1⟩ "ann" "PRIVMSG ann hi"
    let group := room.route ⟨1⟩ "ann" "GROUPMSG team hi"
    direct.1 = .direct "ann" ∧ room.Records direct.2 (.direct "ann" "ann" "hi") ∧
      direct.2.roster.outboxes.map (·.pending) =
        [["(DM from ann): hi", "(DM to ann): hi"], [], []] ∧
      group.1 = .group "team" 1 ∧ room.Records group.2 (.group "team" "ann" "hi") ∧
      group.2.roster.outboxes.map (·.pending) =
        [["(To #team): hi"], ["(#team from ann): hi"], []] := by
  intro groups start room direct group
  have hgroups : groups.IsBuilt := GroupTable.isBuilt_ofGroups fun g hg => by
    rw [List.mem_singleton.1 hg]
    exact Group.isBuilt_ofMembers _ _
  have hreach : start.Reachable room := Reachable.start.run _
  have hroom : room.HasRoomForTwo := by decide +kernel
  have hann : (⟨⟨1⟩, "ann", 0⟩ : Entry) ∈ room.roster.entries := by decide +kernel
  have hmembers : groups.get? "team" = some ⟨"team", ["bob", "ann", "dan"]⟩ := by decide +kernel
  have hcount : (room.roster.entries.countP fun entry =>
      entry ≠ ⟨⟨1⟩, "ann", 0⟩ ∧ entry.username ∈ ["bob", "ann", "dan"]) = 1 := by decide +kernel
  obtain ⟨hdirect, -, hrecorded⟩ := (private_routing none hgroups 2 start.log hreach hroom hann
    "PRIVMSG ann hi").1 "ann" "hi" (by decide +kernel) ⟨_, hann, rfl⟩
  obtain ⟨hgroup, -, hkept⟩ := (private_routing none hgroups 2 start.log hreach hroom hann
    "GROUPMSG team hi").2 "team" "hi" _ (by decide +kernel) hmembers
  exact ⟨hdirect, hrecorded, by decide +kernel, hgroup.trans (congrArg _ hcount), hkept,
    by decide +kernel⟩

end Room
end ChatRoom
