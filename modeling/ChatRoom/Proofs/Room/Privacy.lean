import ChatRoom.Proofs.Room.Likeness
import ChatRoom.Proofs.Room.Requests

/-!
# Private text stays private

Two runs differ in what one line says to a user or a group (`Addressee`). What comes of it is shown
to the sender and to those addressed, in a reply of the same kind (`Room.Shown`); it is kept in one
event; and a newcomer is shown that event. Nothing else differs: after the line the rooms are alike
(`route_alike`), and they stay alike whatever is asked of both (`Alike.served`).
-/

namespace ChatRoom

open Text

/-- Whom a private message is for. -/
inductive Addressee where
  | user (name : String)
  | group (name : String)
  deriving DecidableEq

namespace Addressee

def command (text : String) : Addressee → Command
  | user name => .direct name text
  | group name => .group name text

/-- The event that is kept of a message. -/
def event (sender text : String) : Addressee → Event
  | user name => .direct sender name text
  | group name => .group name sender text

/-- The replies in which a message is shown: to those it is for, and to its sender. -/
def replies (sender : String) : Addressee → List (String → Reply)
  | user name => [.directFrom sender, .directTo name]
  | group name => [.groupFrom name sender, .groupTo name]

end Addressee

namespace Room

variable {δ : Type}

/-- The user is active, or there is such a group. -/
def Reaches (room : Room δ) : Addressee → Prop
  | .user name => (room.roster.find? name).isSome = true
  | .group name => (room.groups.get? name).isSome = true

/-- The session sent the message, or it is addressed by it. -/
def IsParty (room : Room δ) (id : ConnectionId) (addressee : Addressee) (entry : Entry) : Prop :=
  entry.id = id ∨
    match addressee with
    | .user name => entry.username = name
    | .group name => ∃ group, room.groups.get? name = some group ∧ entry.username ∈ group.members

/-- Two lines that show a message with one text and with another: in an outbox of a party the
replies in which it is told, in the outbox of a newcomer the event that is kept of it. -/
def Shown (room : Room δ) (id : ConnectionId) (sender : String) (addressee : Addressee)
    (text other : String) (box : OutboxId) (line twin : String) : Prop :=
  (∃ entry ∈ room.roster.entries, entry.outbox = box ∧ room.IsParty id addressee entry ∧
    ∃ reply ∈ addressee.replies sender, line = (reply text).line ∧ twin = (reply other).line) ∨
  (room.roster.outboxes.length ≤ box ∧
    line = (addressee.event sender text).line ∧ twin = (addressee.event sender other).line)

/-- The line that is kept of a message with one text, and of one with another. -/
def KeptOf (sender : String) (addressee : Addressee) (text other line twin : String) : Prop :=
  line = (addressee.event sender text).line ∧ twin = (addressee.event sender other).line

variable {room other : Room δ} {seen : OutboxId → String → String → Prop}
  {kept : String → String → Prop}

/-- Rooms that differ in what one message says at most; `room` is the room it was sent in. -/
abbrev Differ (room : Room δ) (id : ConnectionId) (sender : String) (addressee : Addressee)
    (text altered : String) (said unsaid : Room δ) : Prop :=
  said.Alike (room.Shown id sender addressee text altered) (KeptOf sender addressee text altered)
    unsaid

/-! ## The line itself -/

section Line

variable {id : ConnectionId} {sender text altered : String} {addressee : Addressee}

/-- A reply that shows the message may go to any party. -/
theorem matches_of_isParty (reply : String → Reply) (hr : reply ∈ addressee.replies sender)
    {entry : Entry} (he : entry ∈ room.roster.entries) (hparty : room.IsParty id addressee entry) :
    Matches (room.Shown id sender addressee text altered entry.outbox) (reply text).line
      (reply altered).line :=
  .inr (.inl ⟨entry, he, rfl, hparty, reply, hr, rfl, rfl⟩)

/-- The session that sends a message is a party to it. -/
theorem matches_of_sender (reply : String → Reply) (hr : reply ∈ addressee.replies sender)
    {entry : Entry} (he : room.roster.entryOf? id = some entry) :
    Matches (room.Shown id sender addressee text altered entry.outbox) (reply text).line
      (reply altered).line := by
  have hid : entry.id = id := by simpa using List.find?_some he
  exact matches_of_isParty reply hr (List.mem_of_find?_eq_some he) (.inl hid)

/-- A session that is found by its name has that name. -/
theorem username_of_find? (h : room.roster.WellFormed) {username : String} {entry : Entry}
    (hfind : room.roster.find? username = some id) (he : room.roster.entryOf? id = some entry) :
    entry.username = username := by
  obtain ⟨found, hfound, hname⟩ := h.find?_eq_some_iff.1 hfind
  obtain rfl : found = entry := Option.some.inj (hfound.symm.trans he)
  exact hname

variable [LogDevice δ]

/-- The copy to the sender and the event that is kept end both kinds of messages. -/
theorem Differ.copy_keep {said unsaid : Room δ}
    (h : room.Differ id sender addressee text altered said unsaid)
    (hentries : said.roster.entries = room.roster.entries) (reply : String → Reply)
    (hr : reply ∈ addressee.replies sender)
    (hplain : EndsPlain (addressee.event sender text).line)
    (hplain' : EndsPlain (addressee.event sender altered).line) :
    room.Differ id sender addressee text altered
      ((said.tell id (reply text)).keep (addressee.event sender text))
      ((unsaid.tell id (reply altered)).keep (addressee.event sender altered)) := by
  have hcopy : room.Differ id sender addressee text altered (said.tell id (reply text))
      (unsaid.tell id (reply altered)) := by
    refine h.tell fun entry he => matches_of_sender reply hr ?_
    rwa [Roster.entryOf?, hentries] at he
  refine hcopy.keep (.inr ?_)
  rw [hplain.dropTerminators, hplain'.dropTerminators]
  exact ⟨rfl, rfl⟩

theorem routeDirect_alike (hroster : room.roster.WellFormed) {name : String}
    (hreach : room.Reaches (.user name))
    (hplain : EndsPlain (Event.direct sender name text).line)
    (hplain' : EndsPlain (Event.direct sender name altered).line) :
    (room.routeDirect id sender name text).1 = (room.routeDirect id sender name altered).1 ∧
      room.Differ id sender (.user name) text altered (room.routeDirect id sender name text).2
        (room.routeDirect id sender name altered).2 := by
  obtain ⟨recipientId, hfind⟩ := Option.isSome_iff_exists.1 hreach
  have htold : room.Differ id sender (.user name) text altered
      (room.tell recipientId (.directFrom sender text))
      (room.tell recipientId (.directFrom sender altered)) := by
    refine (Alike.refl room).tell fun entry he => ?_
    have hname := username_of_find? hroster hfind he
    exact matches_of_isParty (.directFrom sender) (by simp [Addressee.replies])
      (List.mem_of_find?_eq_some he) (.inr hname)
  simp only [routeDirect, hfind]
  exact ⟨trivial, htold.copy_keep (Roster.entries_send _).1 (.directTo name)
    (by simp [Addressee.replies]) hplain hplain'⟩

theorem routeGroup_alike (hroster : room.roster.WellFormed) {name : String}
    (hreach : room.Reaches (.group name))
    (hplain : EndsPlain (Event.group name sender text).line)
    (hplain' : EndsPlain (Event.group name sender altered).line) :
    (room.routeGroup id sender name text).1 = (room.routeGroup id sender name altered).1 ∧
      room.Differ id sender (.group name) text altered (room.routeGroup id sender name text).2
        (room.routeGroup id sender name altered).2 := by
  obtain ⟨group, hget⟩ := Option.isSome_iff_exists.1 hreach
  obtain rfl := GroupTable.name_of_get? hget
  have hmember : ∀ member ∈ (group.members.filterMap room.roster.find?).filter (· ≠ id), ∀ entry,
      room.roster.entryOf? member = some entry →
        Matches (room.Shown id sender (.group group.name) text altered entry.outbox)
          (Reply.groupFrom group.name sender text).line
          (Reply.groupFrom group.name sender altered).line := by
    intro member hm entry he
    obtain ⟨username, hu, hfind⟩ := List.mem_filterMap.1 (List.mem_of_mem_filter hm)
    have hname := username_of_find? hroster hfind he
    have hparty : room.IsParty id (.group group.name) entry := .inr ⟨group, hget, hname ▸ hu⟩
    exact matches_of_isParty (.groupFrom group.name sender) (by simp [Addressee.replies])
      (List.mem_of_find?_eq_some he) hparty
  obtain ⟨hcount, hsent⟩ := Roster.Alike.sendEach hmember (.refl room.roster)
  have hsame : room.Differ id sender (.group group.name) text altered room room := Alike.refl room
  have hmembers := hsame.withRoster hsent
  simp only [routeGroup, hget]
  exact ⟨congrArg _ hcount, Differ.copy_keep hmembers (Roster.entries_sendEach _ _)
    (.groupTo group.name) (by simp [Addressee.replies]) hplain hplain'⟩

omit [LogDevice δ] in
theorem commandEvent?_of_reaches (h : room.Reaches addressee) (sender text : String) :
    room.commandEvent? sender (addressee.command text) = some (addressee.event sender text) := by
  cases addressee with
  | user name =>
    obtain ⟨recipientId, hfind⟩ := Option.isSome_iff_exists.1 h
    show (room.roster.find? name).map _ = _
    rw [hfind]
    rfl
  | group name =>
    obtain ⟨group, hget⟩ := Option.isSome_iff_exists.1 h
    obtain rfl := GroupTable.name_of_get? hget
    show (room.groups.get? group.name).map _ = _
    rw [hget]
    rfl

omit [LogDevice δ] in
/-- What is neither for a party nor for a newcomer shows nothing of the message. -/
theorem not_shown {line twin : String} (howned : room.roster.Owned) {entry : Entry}
    (he : entry ∈ room.roster.entries) (hbystander : ¬ room.IsParty id addressee entry) :
    ¬ room.Shown id sender addressee text altered entry.outbox line twin := by
  rintro (⟨party, hm, hbox, hparty, -⟩ | ⟨hle, -⟩)
  · have hsame : party = entry := (howned.outbox_inj hm he).1 hbox
    exact hbystander (hsame ▸ hparty)
  · exact absurd (howned.opened entry he) (Nat.not_lt.2 hle)

/-- **The line** is answered alike, and what comes of it differs in what it says. -/
theorem route_alike (hroster : room.roster.WellFormed) (hreach : room.Reaches addressee)
    {line twin : String} (hline : Command.parse line = .ok (some (addressee.command text)))
    (htwin : Command.parse twin = .ok (some (addressee.command altered))) :
    (room.route id sender line).1 = (room.route id sender twin).1 ∧
      room.Differ id sender addressee text altered (room.route id sender line).2
        (room.route id sender twin).2 := by
  have hplain := endsPlain_of_commandEvent? hline (commandEvent?_of_reaches hreach sender text)
  have hplain' := endsPlain_of_commandEvent? htwin (commandEvent?_of_reaches hreach sender altered)
  simp only [route, hline, htwin]
  cases addressee with
  | user name => exact routeDirect_alike hroster hreach hplain hplain'
  | group name => exact routeGroup_alike hroster hreach hplain hplain'

end Line

/-! ## What is asked afterwards -/

variable [LogDevice δ]

/-- A request is answered alike in rooms that are alike; what is drained is alike by
`Roster.Alike.pending`. -/
theorem Alike.serve (h : room.Alike seen kept other) {request : RoomRequest}
    (hnew : ∀ line twin, kept line twin → seen room.roster.outboxes.length line twin) :
    ((∀ box, request ≠ .drain box) → (room.serve request).1 = (other.serve request).1) ∧
      (room.serve request).2.Alike seen kept (other.serve request).2 := by
  have hlen := h.roster.length_outboxes
  cases request with
  | arrive id username capacity reader =>
    have hhosting := h.withRoster (h.roster.withOutbox capacity reader)
    obtain ⟨hanswer, hafter⟩ := hhosting.arrive id username hnew
    simp only [Room.serve, RoomRequest.action, hosting, ← hlen]
    exact ⟨fun _ => hanswer, hafter⟩
  | depart id =>
    obtain ⟨hanswer, hafter⟩ := h.depart id
    exact ⟨fun _ => hanswer, hafter⟩
  | route id sender line =>
    obtain ⟨hanswer, hafter⟩ := h.route id sender line
    simp only [serve_route]
    exact ⟨fun _ => congrArg Outcome.routed hanswer, hafter⟩
  | drain box => exact ⟨fun hne => absurd rfl (hne box), h.withRoster (h.roster.drain box)⟩
  | abandon box => exact ⟨fun _ => rfl, h.withRoster (h.roster.abandon box)⟩

theorem Alike.event? (h : room.Alike seen kept other) {request : RoomRequest}
    (hnew : ∀ line twin, kept line twin → seen room.roster.outboxes.length line twin) :
    room.event? request = other.event? request := by
  rw [Room.event?, Room.event?, ← h.roster.length_outboxes]
  by_cases hdrain : ∀ box, request ≠ .drain box
  · rw [(h.serve hnew).1 hdrain]
  · obtain ⟨box, hbox⟩ := not_forall.1 hdrain
    obtain rfl := not_not.1 hbox
    rfl

/-- **Whatever is asked** of rooms that are alike: they stay alike, the same events happen in them,
and readers take lines that may stand for each other. -/
theorem Alike.served (h : room.Alike seen kept other) {opened : Nat}
    (hopened : opened ≤ room.roster.outboxes.length)
    (hnew : ∀ box, opened ≤ box → ∀ line twin, kept line twin → seen box line twin)
    (requests : List RoomRequest) :
    (room.served requests).Alike seen kept (other.served requests) ∧
      room.happened requests = other.happened requests ∧
      ∀ box, List.Forall₂ (Matches (seen box)) (room.takenFrom box requests)
        (other.takenFrom box requests) := by
  induction requests generalizing room other with
  | nil => exact ⟨h, rfl, fun _ => .nil⟩
  | cons request requests ih =>
    have hnext := hnew _ hopened
    obtain ⟨halike, hhappened, htaken⟩ := ih (h.serve hnext).2
      (Nat.le_trans hopened (room.length_outboxes_serve_le request))
    refine ⟨halike, ?_, fun box => ?_⟩
    · rw [happened, happened, h.event? hnext, hhappened]
    · rw [takenFrom, takenFrom]
      refine List.rel_append ?_ (htaken box)
      by_cases hd : request = .drain box
      · rw [if_pos hd, if_pos hd]
        exact h.roster.pending box
      · rw [if_neg hd, if_neg hd]
        exact .nil

/-! ## Two runs -/

section Runs

variable {id : ConnectionId} {sender line twin text altered : String} {addressee : Addressee}

/-- A message that reaches somebody is the first event that happens. -/
theorem happened_route (hreach : room.Reaches addressee)
    (hline : Command.parse line = .ok (some (addressee.command text))) (after : List RoomRequest) :
    room.happened (.route id sender line :: after) =
      addressee.event sender text :: (room.serve (.route id sender line)).2.happened after := by
  have hevent : room.event? (.route id sender line) = some (addressee.event sender text) := by
    refine (event?_route room id sender line).trans ?_
    simp only [record?, hline, commandEvent?_of_reaches hreach, Option.map_some]
  rw [happened, hevent]
  rfl

/-- After the line the rooms differ in what it says, whatever is asked of both. -/
theorem differ_served (howned : room.roster.Owned) (id : ConnectionId) (sender : String)
    (hreach : room.Reaches addressee)
    (hline : Command.parse line = .ok (some (addressee.command text)))
    (htwin : Command.parse twin = .ok (some (addressee.command altered)))
    (after : List RoomRequest) :
    room.Differ id sender addressee text altered
        (room.served (.route id sender line :: after))
        (room.served (.route id sender twin :: after)) ∧
      (room.serve (.route id sender line)).2.happened after =
        (room.serve (.route id sender twin)).2.happened after ∧
      (∀ box, List.Forall₂ (Matches (room.Shown id sender addressee text altered box))
        (room.takenFrom box (.route id sender line :: after))
        (room.takenFrom box (.route id sender twin :: after))) ∧
      ∀ request, (∀ box, request ≠ .drain box) →
        ((room.served (.route id sender line :: after)).serve request).1 =
          ((room.served (.route id sender twin :: after)).serve request).1 := by
  have hroute : room.Differ id sender addressee text altered
      (room.serve (.route id sender line)).2 (room.serve (.route id sender twin)).2 := by
    simp only [serve_route]
    exact (route_alike howned.wellFormed hreach hline htwin).2
  -- whoever comes later is shown what is kept
  have hnew : ∀ box, room.roster.outboxes.length ≤ box → ∀ line twin,
      KeptOf sender addressee text altered line twin →
        room.Shown id sender addressee text altered box line twin :=
    fun box hbox line twin hkept => .inr ⟨hbox, hkept⟩
  have hopened := room.length_outboxes_serve_le (.route id sender line)
  obtain ⟨hafter, hhappened, htaken⟩ := hroute.served hopened hnew after
  rw [served_cons, served_cons]
  refine ⟨hafter, hhappened, fun box => ?_, fun request hd => ?_⟩
  · rw [takenFrom, takenFrom, if_neg (by simp), if_neg (by simp)]
    exact htaken box
  · have hlater := Nat.le_trans hopened (length_outboxes_served_le _ after)
    exact (hafter.serve (hnew _ hlater)).1 hd

omit [LogDevice δ] in
/-- A bystander's outbox is the same. -/
theorem Differ.bystander {said unsaid : Room δ} (howned : room.roster.Owned)
    (h : room.Differ id sender addressee text altered said unsaid) {entry : Entry}
    (he : entry ∈ room.roster.entries) (hbystander : ¬ room.IsParty id addressee entry) :
    said.roster.outboxes[entry.outbox]? = unsaid.roster.outboxes[entry.outbox]? := by
  rcases h.roster.outboxes entry.outbox with ⟨hr, ho⟩ | ⟨outbox, mirror, hr, ho, ha⟩
  · rw [hr, ho]
  · rw [hr, ho, ha.eq fun _ _ => not_shown howned he hbystander]

end Runs

/-- **Private text stays private.** Two runs that are the same but for what one line says to a user
who is active, or to a group that exists: that line, and all that is asked later, is answered alike;
the roster is the same, and as many lines wait in each outbox. A session that was active and no
party to the message finds the same in its outbox at all times, and takes the same out of it. In any
outbox the lines differ only where the message is told to a party, or shown to a newcomer. History
and log are given the same events, but for the one that is kept of the message. -/
theorem private_text_stays_private (limit : Option Nat) (groups : GroupTable) (capacity : Nat)
    (log : δ) (before after : List RoomRequest) (id : ConnectionId)
    (sender line twin text altered : String) (addressee : Addressee)
    (hline : Command.parse line = .ok (some (addressee.command text)))
    (htwin : Command.parse twin = .ok (some (addressee.command altered)))
    (hreach : ((Room.new limit groups capacity log).served before).Reaches addressee) :
    let room := (Room.new limit groups capacity log).served before
    let said := room.served (.route id sender line :: after)
    let unsaid := room.served (.route id sender twin :: after)
    let shown := room.Shown id sender addressee text altered
    (room.serve (.route id sender line)).1 = (room.serve (.route id sender twin)).1 ∧
    (∀ request, (∀ box, request ≠ .drain box) →
      (said.serve request).1 = (unsaid.serve request).1) ∧
    (said.roster.limit = unsaid.roster.limit ∧ said.roster.entries = unsaid.roster.entries ∧
      ∀ box, (said.roster.pending box).length = (unsaid.roster.pending box).length) ∧
    (∀ entry ∈ room.roster.entries, ¬ room.IsParty id addressee entry →
      said.roster.outboxes[entry.outbox]? = unsaid.roster.outboxes[entry.outbox]? ∧
      room.takenFrom entry.outbox (.route id sender line :: after) =
        room.takenFrom entry.outbox (.route id sender twin :: after)) ∧
    (∀ box,
      List.Forall₂ (Matches (shown box)) (said.roster.pending box) (unsaid.roster.pending box) ∧
      List.Forall₂ (Matches (shown box)) (room.takenFrom box (.route id sender line :: after))
        (room.takenFrom box (.route id sender twin :: after))) ∧
    ∃ later : List Event,
      let happened := (addressee.event sender text :: later).map Event.line
      let happened' := (addressee.event sender altered :: later).map Event.line
      said.history = happened.foldl History.append room.history ∧
      unsaid.history = happened'.foldl History.append room.history ∧
      said.log = happened.foldl (fun log line => Log.note line log) room.log ∧
      unsaid.log = happened'.foldl (fun log line => Log.note line log) room.log := by
  intro room said unsaid shown
  have howned : room.roster.Owned := owned_served (Roster.Owned.empty limit) before
  obtain ⟨hafter, hhappened, htaken, hanswer⟩ :=
    differ_served howned id sender hreach hline htwin after
  obtain ⟨hhistory, hlog⟩ := room.kept_served (.route id sender line :: after)
  obtain ⟨hhistory', hlog'⟩ := room.kept_served (.route id sender twin :: after)
  rw [happened_route hreach hline] at hhistory hlog
  rw [happened_route hreach htwin, ← hhappened] at hhistory' hlog'
  refine ⟨congrArg Outcome.routed (route_alike howned.wellFormed hreach hline htwin).1, hanswer,
    ⟨hafter.roster.limit, hafter.roster.entries,
      fun box => (hafter.roster.pending box).length_eq⟩,
    fun entry he hbystander => ⟨hafter.bystander howned he hbystander, ?_⟩,
    fun box => ⟨hafter.roster.pending box, htaken box⟩, _, hhistory, hhistory', hlog, hlog'⟩
  exact eq_of_forall₂_matches (fun _ _ => not_shown howned he hbystander) (htaken entry.outbox)

/-- Ann tells Bob yes or no; Carl, whose outbox is full, and Dan, who comes later, look on. -/
theorem private_text_stays_private_ann_bob :
    let start : Room MemoryLog := .new none ⟨[]⟩ 3 { clock := ⟨2024, 5, 1, 12, 0, 0⟩ }
    let before : List RoomRequest := [.arrive ⟨1⟩ "ann" 9 true, .arrive ⟨2⟩ "bob" 9 true,
      .arrive ⟨3⟩ "carl" 1 true]
    let after : List RoomRequest := [.drain 2, .route ⟨2⟩ "bob" "hi", .arrive ⟨4⟩ "dan" 9 true]
    let room := start.served before
    let said := room.served (.route ⟨1⟩ "ann" "PRIVMSG bob yes" :: after)
    let unsaid := room.served (.route ⟨1⟩ "ann" "PRIVMSG bob no" :: after)
    said.roster.pending 3 = ["Welcome, dan!", "--- Recent Chat History ---",
        "System: carl has joined the chat.", "DM from ann to bob: yes", "bob: hi",
        "--- End of History ---"] ∧
      said.roster.outboxes[2]? = unsaid.roster.outboxes[2]? ∧
      room.takenFrom 2 (.route ⟨1⟩ "ann" "PRIVMSG bob yes" :: after) =
        room.takenFrom 2 (.route ⟨1⟩ "ann" "PRIVMSG bob no" :: after) := by
  intro start before after room said unsaid
  have hdan : said.roster.pending 3 = ["Welcome, dan!", "--- Recent Chat History ---",
      "System: carl has joined the chat.", "DM from ann to bob: yes", "bob: hi",
      "--- End of History ---"] := by decide +kernel
  have hcarl : (⟨⟨3⟩, "carl", 2⟩ : Entry) ∈ room.roster.entries := by decide +kernel
  have hbob : (room.roster.find? "bob").isSome = true := by decide +kernel
  have hparty : ¬ room.IsParty ⟨1⟩ (.user "bob") ⟨⟨3⟩, "carl", 2⟩ := by simp [IsParty]
  -- nothing is to be computed from here on
  clear_value before after
  obtain ⟨-, -, -, hbystander, -, -⟩ := private_text_stays_private none ⟨[]⟩ 3 start.log before
    after ⟨1⟩ "ann" "PRIVMSG bob yes" "PRIVMSG bob no" "yes" "no" (.user "bob") (by decide +kernel)
    (by decide +kernel) hbob
  obtain ⟨houtbox, htaken⟩ := hbystander _ hcarl hparty
  exact ⟨hdan, houtbox, htaken⟩

end Room

end ChatRoom
