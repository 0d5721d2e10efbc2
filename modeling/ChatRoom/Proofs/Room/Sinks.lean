import ChatRoom.Proofs.Log.Entries
import ChatRoom.Proofs.Room.Lines

/-!
# Where events go

What happens in a room goes to its history, to its log and, if it is for everybody, to the sessions
that are active. These agree: whatever is asked of a room (`RoomAction`), each is given the line of
the event that came of it (`RoomAction.event?`), so history and log hold the same lines
(`lines_acted`, `log_acted`), and they are the lines that were told (`roster_act`).

The log alone depends on its device. Rooms that agree in everything else (`Room.Agrees`) still agree
after any action, and with the same outcome (`Agrees.act`), whatever becomes of their logs.
-/

namespace ChatRoom

open Text

/-! ## Actions -/

/-- What can be asked of a room and of the outboxes of its sessions. -/
inductive RoomAction where
  | openOutbox (capacity : Nat)
  | arrive (id : ConnectionId) (username : String) (box : OutboxId)
  | depart (id : ConnectionId)
  | route (id : ConnectionId) (sender line : String)
  | drain (box : OutboxId)
  | abandon (box : OutboxId)
  deriving DecidableEq

/-- What is answered. -/
inductive Outcome where
  | opened (box : OutboxId)
  | arrived
  | refused (error : SessionError)
  | departed (username : Option String)
  | routed (routed : Routed)
  | drained (lines : List String)
  | abandoned
  deriving DecidableEq

/-- The event of a line that was routed to others: a message of the kind that its command asks
for. -/
def Routed.event? (routed : Routed) (sender line : String) : Option Event :=
  match routed, Command.parse line with
  | .global _, .ok (some (.global text)) => some (.global sender text)
  | .direct _, .ok (some (.direct recipient text)) => some (.direct sender recipient text)
  | .group .., .ok (some (.group name text)) => some (.group name sender text)
  | _, _ => none

/-- The event of an action with this outcome: of an arrival or a departure that succeeds, and of a
line that was routed to others. -/
def RoomAction.event? : RoomAction → Outcome → Option Event
  | .arrive _ username _, .arrived => some (.joined username)
  | .depart _, .departed (some username) => some (.left username)
  | .route _ sender line, .routed routed => routed.event? sender line
  | _, _ => none

/-- Whom the event of an action is not told. -/
def RoomAction.except : RoomAction → Option ConnectionId
  | .arrive id .. => some id
  | _ => none

/-- An event for everybody. -/
def Event.isPublic : Event → Bool
  | .joined _ | .left _ | .global .. => true
  | .direct .. | .group .. => false

namespace Room

variable {δ : Type} [LogDevice δ]

/-- What an action does, and what is answered. -/
def act (room : Room δ) : RoomAction → Outcome × Room δ
  | .openOutbox capacity =>
    (.opened room.roster.outboxes.length,
      { room with roster := (room.roster.openOutbox capacity).2 })
  | .arrive id username box =>
    match room.arrive id username box with
    | .ok room => (.arrived, room)
    | .error e => (.refused e, room)
  | .depart id => (.departed (room.depart id).1, (room.depart id).2)
  | .route id sender line => (.routed (room.route id sender line).1, (room.route id sender line).2)
  | .drain box =>
    (.drained (room.roster.pending box), { room with roster := (room.roster.drain box).2 })
  | .abandon box => (.abandoned, { room with roster := room.roster.abandon box })

/-- The room after several actions. -/
def acted (room : Room δ) (actions : List RoomAction) : Room δ :=
  actions.foldl (fun room action => (room.act action).2) room

def outcomes (room : Room δ) : List RoomAction → List Outcome
  | [] => []
  | action :: actions => (room.act action).1 :: (room.act action).2.outcomes actions

/-- The events of several actions, in order. -/
def events (room : Room δ) : List RoomAction → List Event
  | [] => []
  | action :: actions =>
    (action.event? (room.act action).1).toList ++ (room.act action).2.events actions

/-- The sessions that the event of an action is told to: those there once a newcomer has entered, or
once somebody has left. -/
def audience (room : Room δ) : RoomAction → Roster
  | .arrive id username box =>
    match room.enter id username box with
    | .ok entered => entered.roster
    | .error _ => room.roster
  | .depart id => (room.leave id).2.roster
  | _ => room.roster

variable {room : Room δ} {id : ConnectionId} {username sender line : String} {box : OutboxId}

/-! ## One action -/

omit [LogDevice δ] in
theorem history_told (ds : List Delivery) : (room.told ds).history = room.history := rfl

omit [LogDevice δ] in
theorem log_told (ds : List Delivery) : (room.told ds).log = room.log := rfl

omit [LogDevice δ] in
theorem enter_eq_ok {entered : Room δ} (h : room.enter id username box = .ok entered) :
    entered.history = room.history ∧ entered.log = room.log := by
  unfold enter at h
  cases hr : room.roster.register id username box (room.greeting username) with
  | error e => simp [hr, Except.map] at h
  | ok registered =>
    rw [hr] at h
    cases h
    exact ⟨rfl, rfl⟩

theorem act_arrive (room : Room δ) (id : ConnectionId) (username : String) (box : OutboxId) :
    room.act (.arrive id username box) = match room.enter id username box with
      | .ok entered => (.arrived, (entered.record (.joined username) (some id)).2)
      | .error e => (.refused e, room) := by
  rw [act, arrive]
  cases room.enter id username box <;> rfl

theorem act_depart (room : Room δ) (id : ConnectionId) :
    room.act (.depart id) = match room.leave id with
      | (none, _) => (.departed none, room)
      | (some username, left) =>
        (.departed (some username), (left.record (.left username) none).2) := by
  rw [act, depart]
  rcases room.leave id with ⟨username, left⟩
  cases username <;> rfl

theorem act_route (room : Room δ) (id : ConnectionId) (sender line : String) :
    room.act (.route id sender line) =
      (.routed (room.route id sender line).1, (room.route id sender line).2) := rfl

theorem route_global (room : Room δ) (id : ConnectionId) (sender : String) {text : String}
    (h : Command.parse line = .ok (some (.global text))) :
    room.route id sender line = (.global (room.record (.global sender text) none).1,
      (room.record (.global sender text) none).2) := by
  rw [route, h]

/-- Routing answers by what it puts on record. -/
theorem event?_route (room : Room δ) (id : ConnectionId) (sender line : String) :
    (RoomAction.route id sender line).event? (.routed (room.route id sender line).1) =
      (room.record? (.route id sender line)).map (·.event) := by
  show (room.route id sender line).1.event? sender line = _
  unfold Routed.event? route record?
  dsimp only
  cases hc : Command.parse line with
  | error malformed => rfl
  | ok command =>
    cases command with
    | none => rfl
    | some command =>
      cases command with
      | global text => rfl
      | direct recipient text =>
        simp only [routeDirect, commandEvent?]
        cases room.roster.find? recipient <;> rfl
      | group name text =>
        simp only [routeGroup, commandEvent?]
        cases hg : room.groups.get? name with
        | none => rfl
        | some group =>
          obtain rfl := GroupTable.name_of_get? hg
          rfl

/-- **One event, one line** in the history and one in the log; without an event, nothing. -/
theorem kept_act (room : Room δ) (action : RoomAction) :
    let events := (action.event? (room.act action).1).toList
    (room.act action).2.history = (events.map Event.line).foldl History.append room.history ∧
      (room.act action).2.log =
        (events.map Event.line).foldl (fun log line => Log.note line log) room.log := by
  cases action with
  | openOutbox capacity => exact ⟨rfl, rfl⟩
  | drain box => exact ⟨rfl, rfl⟩
  | abandon box => exact ⟨rfl, rfl⟩
  | arrive id username box =>
    rw [act_arrive]
    cases he : room.enter id username box with
    | error e => exact ⟨rfl, rfl⟩
    | ok entered =>
      obtain ⟨hhistory, hlog⟩ := enter_eq_ok he
      show (entered.history.append (Event.joined username).line) = _ ∧
        Log.note (Event.joined username).line entered.log = _
      rw [hhistory, hlog]
      exact ⟨rfl, rfl⟩
  | depart id =>
    rw [act_depart]
    cases hl : room.leave id with
    | mk username left =>
      obtain rfl : (room.leave id).2 = left := congrArg Prod.snd hl
      cases username with
      | none => exact ⟨rfl, rfl⟩
      | some username => exact ⟨rfl, rfl⟩
  | route id sender line =>
    have hlines (o : Option Record) :
        ((o.map (·.event)).toList.map Event.line) = o.toList.map (·.event.line) := by
      cases o <;> rfl
    dsimp only
    rw [act_route, event?_route, hlines, route_eq, history_kept, log_kept, history_told, log_told]
    exact ⟨rfl, rfl⟩

/-- **What is for everybody** is told to everybody, in the same line. -/
theorem roster_act {action : RoomAction} {event : Event}
    (h : action.event? (room.act action).1 = some event) (hpublic : event.isPublic = true) :
    (room.act action).2.roster =
      ((room.audience action).broadcast event.line action.except).2 := by
  cases action with
  | openOutbox capacity => cases h
  | drain box => cases h
  | abandon box => cases h
  | arrive id username box =>
    rw [act_arrive] at h ⊢
    rw [audience]
    cases he : room.enter id username box with
    | error e => simp [he, RoomAction.event?] at h
    | ok entered =>
      simp only [he, RoomAction.event?, Option.some.injEq] at h
      subst h
      rfl
  | depart id =>
    rw [act_depart] at h ⊢
    rw [audience]
    cases hl : room.leave id with
    | mk username left =>
      cases username with
      | none => simp [hl, RoomAction.event?] at h
      | some username =>
        simp only [hl, RoomAction.event?, Option.some.injEq] at h
        subst h
        rfl
  | route id sender line =>
    have hrecord := (event?_route room id sender line).symm.trans h
    obtain ⟨r, hr, rfl⟩ := Option.map_eq_some_iff.1 hrecord
    obtain ⟨_, hs, -⟩ | ⟨_, hs, -⟩ | ⟨_, _, command, hs, hc, hevent⟩ := record?_eq_some hr
    · cases hs
    · cases hs
    · simp only [RoomStep.route.injEq] at hs
      obtain ⟨-, rfl, rfl⟩ := hs
      cases command with
      | global text =>
        have hsame : .global sender text = r.event := Option.some.inj hevent
        rw [act_route, route_global room _ sender hc, ← hsame]
        rfl
      | direct recipient text =>
        obtain ⟨_, -, he⟩ := Option.map_eq_some_iff.1 hevent
        rw [← he] at hpublic
        cases hpublic
      | group name text =>
        obtain ⟨_, -, he⟩ := Option.map_eq_some_iff.1 hevent
        rw [← he] at hpublic
        cases hpublic

/-- The events of actions are those that steps put on record. -/
theorem record?_of_event? {action : RoomAction} {event : Event}
    (h : action.event? (room.act action).1 = some event) :
    ∃ s r, room.record? s = some r ∧ r.event = event := by
  cases action with
  | openOutbox capacity => cases h
  | drain box => cases h
  | abandon box => cases h
  | arrive id username box =>
    rw [act_arrive] at h
    cases he : room.enter id username box with
    | error e => simp [he, RoomAction.event?] at h
    | ok entered =>
      simp only [he, RoomAction.event?, Option.some.injEq] at h
      exact ⟨.joined id username, ⟨id, .joined username⟩, rfl, h⟩
  | depart id =>
    rw [act_depart] at h
    cases hl : room.leave id with
    | mk username left =>
      cases username with
      | none => simp [hl, RoomAction.event?] at h
      | some username =>
        simp only [hl, RoomAction.event?, Option.some.injEq] at h
        exact ⟨.left id username, ⟨id, .left username⟩, rfl, h⟩
  | route id sender line =>
    have hrecord := (event?_route room id sender line).symm.trans h
    obtain ⟨r, hr, hevent⟩ := Option.map_eq_some_iff.1 hrecord
    exact ⟨_, r, hr, hevent⟩

theorem endsPlain_of_mem_events {actions : List RoomAction} {event : Event}
    (h : event ∈ room.events actions) : EndsPlain event.line := by
  induction actions generalizing room with
  | nil => cases h
  | cons action actions ih =>
    rcases List.mem_append.1 h with h | h
    · obtain ⟨s, r, hr, rfl⟩ := record?_of_event? (Option.mem_toList.1 h)
      exact endsPlain_of_record? hr
    · exact ih h

/-! ## Several actions -/

theorem acted_cons (action : RoomAction) (actions : List RoomAction) :
    room.acted (action :: actions) = (room.act action).2.acted actions := rfl

theorem kept_acted (room : Room δ) (actions : List RoomAction) :
    (room.acted actions).history =
        ((room.events actions).map Event.line).foldl History.append room.history ∧
      (room.acted actions).log = ((room.events actions).map Event.line).foldl
        (fun log line => Log.note line log) room.log := by
  induction actions generalizing room with
  | nil => exact ⟨rfl, rfl⟩
  | cons action actions ih =>
    obtain ⟨hhistory, hlog⟩ := room.kept_act action
    obtain ⟨ihhistory, ihlog⟩ := ih (room.act action).2
    rw [acted_cons, events, List.map_append, List.foldl_append, List.foldl_append, ← hhistory,
      ← hlog]
    exact ⟨ihhistory, ihlog⟩

/-- **The history** holds the lines of the last events. -/
theorem lines_acted (hempty : room.history.lines = []) (actions : List RoomAction) :
    (room.acted actions).history.lines =
      ((room.events actions).map Event.line).rtake room.history.capacity := by
  have hplain : ((room.events actions).map Event.line).map dropTerminators =
      (room.events actions).map Event.line := by
    rw [List.map_map]
    exact List.map_congr_left fun e he => (endsPlain_of_mem_events he).dropTerminators
  rw [(room.kept_acted actions).1, History.lines_foldl_append _ _ (by simp [hempty]), hempty,
    hplain, List.nil_append]

/-- **The log** grows by one entry for each event, if its device works. -/
theorem log_acted {written : δ → List UInt8} {works : δ → Prop}
    (hworks : LogDevice.Works written works) (hw : works room.log) (actions : List RoomAction) :
    ∃ entries : List String,
      List.Forall₂ (fun event entry => ∃ time, entry = Log.stamped time event.line)
        (room.events actions) entries ∧
      written (room.acted actions).log = written room.log ++ LineStream.writeAll entries := by
  have hplain : ∀ line ∈ (room.events actions).map Event.line, EndsPlain line := by
    intro line hl
    obtain ⟨event, he, rfl⟩ := List.mem_map.1 hl
    exact endsPlain_of_mem_events he
  obtain ⟨entries, hentries, hwritten⟩ := hworks.written_foldl_note hplain hw
  rw [List.forall₂_map_left_iff] at hentries
  exact ⟨entries, hentries, (room.kept_acted actions).2 ▸ hwritten⟩

/-! ## Two logs -/

/-- Rooms that differ in their logs at most. -/
structure Agrees {ε : Type} (room : Room δ) (other : Room ε) : Prop where
  roster : room.roster = other.roster
  groups : room.groups = other.groups
  history : room.history = other.history

section Agrees

variable {ε : Type} [LogDevice ε] {other : Room ε}

theorem Agrees.record (h : room.Agrees other) (event : Event) (except : Option ConnectionId) :
    (room.record event except).1 = (other.record event except).1 ∧
      (room.record event except).2.Agrees (other.record event except).2 := by
  obtain ⟨hroster, hgroups, hhistory⟩ := h
  simp only [Room.record, keep, hroster, hgroups, hhistory, true_and]
  exact ⟨rfl, rfl, rfl⟩

theorem Agrees.keep (h : room.Agrees other) (event : Event) :
    (room.keep event).Agrees (other.keep event) :=
  ⟨h.roster, h.groups, congrArg (·.append event.line) h.history⟩

omit [LogDevice δ] [LogDevice ε] in
theorem Agrees.tell (h : room.Agrees other) (id : ConnectionId) (reply : Reply) :
    (room.tell id reply).Agrees (other.tell id reply) :=
  ⟨congrArg (fun roster : Roster => (roster.send id reply.line).2) h.roster, h.groups, h.history⟩

omit [LogDevice δ] [LogDevice ε] in
theorem Agrees.withRoster (h : room.Agrees other) (roster : Roster) :
    Agrees { room with roster } { other with roster } :=
  ⟨rfl, h.groups, h.history⟩

theorem Agrees.routeDirect (h : room.Agrees other) (id : ConnectionId)
    (sender recipient text : String) :
    (room.routeDirect id sender recipient text).1 =
        (other.routeDirect id sender recipient text).1 ∧
      (room.routeDirect id sender recipient text).2.Agrees
        (other.routeDirect id sender recipient text).2 := by
  unfold Room.routeDirect
  rw [h.roster]
  cases other.roster.find? recipient with
  | none => exact ⟨rfl, h.tell _ _⟩
  | some recipientId => exact ⟨rfl, ((h.tell _ _).tell _ _).keep _⟩

theorem Agrees.routeGroup (h : room.Agrees other) (id : ConnectionId)
    (sender name text : String) :
    (room.routeGroup id sender name text).1 = (other.routeGroup id sender name text).1 ∧
      (room.routeGroup id sender name text).2.Agrees
        (other.routeGroup id sender name text).2 := by
  have hget : room.groups.get? name = other.groups.get? name := by rw [h.groups]
  unfold Room.routeGroup
  rw [hget, h.roster]
  cases other.groups.get? name with
  | none => exact ⟨rfl, h.tell _ _⟩
  | some group =>
    dsimp only
    rcases other.roster.sendEach (Reply.groupFrom group.name sender text).line
      ((group.members.filterMap other.roster.find?).filter (· ≠ id)) with ⟨delivered, roster⟩
    exact ⟨rfl, ((h.withRoster roster).tell _ _).keep _⟩

theorem Agrees.route (h : room.Agrees other) (id : ConnectionId) (sender line : String) :
    (room.route id sender line).1 = (other.route id sender line).1 ∧
      (room.route id sender line).2.Agrees (other.route id sender line).2 := by
  unfold Room.route
  cases Command.parse line with
  | error malformed => exact ⟨rfl, h.tell _ _⟩
  | ok command =>
    cases command with
    | none => exact ⟨rfl, h⟩
    | some command =>
      cases command with
      | global text =>
        obtain ⟨hcount, hrecord⟩ := h.record (.global sender text) none
        exact ⟨congrArg Routed.global hcount, hrecord⟩
      | direct recipient text => exact h.routeDirect id sender recipient text
      | group name text => exact h.routeGroup id sender name text

omit [LogDevice δ] [LogDevice ε] in
theorem Agrees.greeting (h : room.Agrees other) (username : String) :
    room.greeting username = other.greeting username := by
  rw [Room.greeting, Room.greeting, h.history]

/-- **An action** is answered alike, and leaves rooms that agree. -/
theorem Agrees.act (h : room.Agrees other) (action : RoomAction) :
    (room.act action).1 = (other.act action).1 ∧
      (room.act action).2.Agrees (other.act action).2 := by
  cases action with
  | openOutbox capacity =>
    simp only [Room.act, h.roster, true_and]
    exact h.withRoster _
  | drain box =>
    simp only [Room.act, h.roster, true_and]
    exact h.withRoster _
  | abandon box =>
    simp only [Room.act, h.roster, true_and]
    exact h.withRoster _
  | arrive id username box =>
    rw [act_arrive, act_arrive, enter, enter, h.greeting, h.roster]
    cases other.roster.register id username box (other.greeting username) with
    | error e => exact ⟨rfl, h⟩
    | ok registered => exact ⟨rfl, ((h.withRoster registered.2).record _ _).2⟩
  | depart id =>
    rw [act_depart, act_depart, leave, leave, h.roster]
    rcases other.roster.unregister id with ⟨username, roster⟩
    cases username with
    | none => exact ⟨rfl, h⟩
    | some username => exact ⟨rfl, ((h.withRoster roster).record _ _).2⟩
  | route id sender line =>
    obtain ⟨hrouted, hroute⟩ := h.route id sender line
    simp only [act_route, hrouted, true_and]
    exact hroute

/-- **Whatever becomes of the log**, all else stays the same. -/
theorem Agrees.acted (h : room.Agrees other) (actions : List RoomAction) :
    room.outcomes actions = other.outcomes actions ∧
      (room.acted actions).Agrees (other.acted actions) := by
  induction actions generalizing room other with
  | nil => exact ⟨rfl, h⟩
  | cons action actions ih =>
    obtain ⟨houtcome, hnext⟩ := h.act action
    obtain ⟨hrest, hacted⟩ := ih hnext
    rw [outcomes, outcomes, houtcome, hrest]
    exact ⟨rfl, hacted⟩

end Agrees

/-- **History, log and the sessions are given the same lines.** After any actions in a new room the
history holds the lines of the last events, and the log, if its device works, has grown by one entry
for each event. What is for everybody is told in that same line, which loses nothing on its way into
the history and the log. Another log, on a device of any kind that may fail at any time, changes
nothing else: neither what is answered, nor the roster with its outboxes, nor the history. -/
theorem sinks_agree (limit : Option Nat) (groups : GroupTable) (capacity : Nat) (log : δ)
    (actions : List RoomAction) :
    let start := Room.new limit groups capacity log
    (start.acted actions).history.lines =
        ((start.events actions).map Event.line).rtake capacity ∧
    (∀ written works, LogDevice.Works written works → works log →
      ∃ entries : List String,
        List.Forall₂ (fun event entry => ∃ time, entry = Log.stamped time event.line)
          (start.events actions) entries ∧
        written (start.acted actions).log = written log ++ LineStream.writeAll entries) ∧
    (∀ (room : Room δ) action event, action.event? (room.act action).1 = some event →
      (room.act action).2.history = room.history.append event.line ∧
      (room.act action).2.log = Log.note event.line room.log ∧
      dropTerminators event.line = event.line ∧
      (event.isPublic = true → (room.act action).2.roster =
        ((room.audience action).broadcast event.line action.except).2)) ∧
    ∀ (ε : Type) [LogDevice ε] (other : ε),
      let twin := Room.new limit groups capacity other
      twin.outcomes actions = start.outcomes actions ∧
        (twin.acted actions).roster = (start.acted actions).roster ∧
        (twin.acted actions).groups = (start.acted actions).groups ∧
        (twin.acted actions).history = (start.acted actions).history := by
  intro start
  refine ⟨lines_acted rfl actions, fun written works hworks hw => log_acted hworks hw actions,
    fun room action event hevent => ?_, fun ε _ other => ?_⟩
  · obtain ⟨hhistory, hlog⟩ := room.kept_act action
    rw [hevent] at hhistory hlog
    obtain ⟨s, r, hr, hline⟩ := record?_of_event? hevent
    have hplain : EndsPlain event.line := hline ▸ endsPlain_of_record? hr
    exact ⟨hhistory, hlog, hplain.dropTerminators, roster_act hevent⟩
  · have hagrees : Agrees (Room.new limit groups capacity other) start := ⟨rfl, rfl, rfl⟩
    obtain ⟨houtcomes, hacted⟩ := hagrees.acted actions
    exact ⟨houtcomes, hacted.roster, hacted.groups, hacted.history⟩

/-- Ann and Bob talk, Bob under a name with a line feed in it; one log takes three bytes at a time,
and every write to the other fails. -/
theorem sinks_agree_ann_bob :
    let clock : Timestamp := ⟨2024, 5, 1, 12, 0, 0⟩
    let start : Room MemoryLog := .new none ⟨[⟨"team", ["ann"]⟩]⟩ 2 { clock, pace := some 3 }
    let twin : Room MemoryLog := .new none ⟨[⟨"team", ["ann"]⟩]⟩ 2
      { clock, writeFault := some ⟨.other, "disk full"⟩ }
    let actions : List RoomAction := [.openOutbox 9, .arrive ⟨1⟩ "ann" 0, .openOutbox 9,
      .arrive ⟨2⟩ "b\nob" 1, .arrive ⟨3⟩ "ann" 0, .route ⟨1⟩ "ann" "hi \r\n",
      .route ⟨2⟩ "b\nob" "GROUPMSG team go\n", .route ⟨2⟩ "b\nob" "PRIVMSG carl hi", .depart ⟨1⟩]
    start.events actions = [.joined "ann", .joined "b\nob", .global "ann" "hi ",
        .group "team" "b\nob" "go", .left "ann"] ∧
      (start.acted actions).history.lines =
        ["GROUPMSG to #team from b\nob: go", "System: ann has left the chat."] ∧
      (∃ entries : List String,
        List.Forall₂ (fun event entry => ∃ time, entry = Log.stamped time event.line)
          (start.events actions) entries ∧
        (start.acted actions).log.written = LineStream.writeAll entries) ∧
      twin.outcomes actions = start.outcomes actions ∧
      (twin.acted actions).roster = (start.acted actions).roster ∧
      (twin.acted actions).history = (start.acted actions).history := by
  intro clock start twin actions
  have hevents : start.events actions = [.joined "ann", .joined "b\nob", .global "ann" "hi ",
      .group "team" "b\nob" "go", .left "ann"] := by decide +kernel
  have hlines : ((start.events actions).map Event.line).rtake 2 =
      ["GROUPMSG to #team from b\nob: go", "System: ann has left the chat."] := by
    rw [hevents]
    decide +kernel
  -- nothing is to be computed from here on
  clear_value actions
  obtain ⟨hhistory, hlog, -, htwin⟩ := sinks_agree none ⟨[⟨"team", ["ann"]⟩]⟩ 2 start.log actions
  obtain ⟨entries, hentries, hwritten⟩ := hlog _ _ MemoryLog.works ⟨rfl, rfl, by decide⟩
  obtain ⟨houtcomes, hroster, -, hsame⟩ := htwin MemoryLog twin.log
  exact ⟨hevents, hhistory.trans hlines, ⟨entries, hentries, hwritten⟩, houtcomes, hroster, hsame⟩

end Room

end ChatRoom
