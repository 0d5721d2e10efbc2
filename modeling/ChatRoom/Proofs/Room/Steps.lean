import ChatRoom.Room
import ChatRoom.Proofs.Command
import ChatRoom.Proofs.Roster.Uniqueness

/-!
# The steps of a room

A room changes by the steps in which nothing else happens (`RoomStep`): the two halves of an arrival
and of a departure, and the routing of one line. What a step does is said by two functions of the
room it happens in:

* `Room.deliveries`: which notices it offers to which outboxes, in order;
* `Room.record?`: which event it puts on record.

`step_eq` is the proof that a step does this, changes the entries of the roster as `entriesAfter`
says, and does no more. Arrivals and departures are lists of steps (`arrive_of_admits`,
`depart_eq`), and history and log are given what a run records (`history_run`, `log_run`).
-/

namespace ChatRoom

/-! ## What a step does -/

inductive RoomStep where
  /-- First half of an arrival, with a new outbox of this capacity. -/
  | enter (id : ConnectionId) (username : String) (capacity : Nat)
  /-- Second half of an arrival. -/
  | joined (id : ConnectionId) (username : String)
  /-- First half of a departure. -/
  | leave (id : ConnectionId)
  /-- Second half of a departure. -/
  | left (id : ConnectionId) (username : String)
  | route (id : ConnectionId) (sender line : String)
  /-- A reader takes what waits in its outbox. -/
  | drain (box : OutboxId)
  deriving DecidableEq

/-- What the lines in an outbox are. -/
inductive Notice where
  | reply (reply : Reply)
  | event (event : Event)
  /-- A line of the history, or one of the two markers around them. -/
  | replay (line : String)
  deriving DecidableEq

def Notice.line : Notice → String
  | reply r => r.line
  | event e => e.line
  | replay line => line

/-- A notice on its way into an outbox. -/
structure Delivery where
  box : OutboxId
  notice : Notice
  deriving DecidableEq

def Delivery.offer (d : Delivery) : Offer := ⟨d.box, d.notice.line⟩

def Delivery.noticesFor (box : OutboxId) (ds : List Delivery) : List Notice :=
  (ds.filter (·.box = box)).map (·.notice)

theorem Delivery.linesFor_offer (box : OutboxId) (ds : List Delivery) :
    Offer.linesFor box (ds.map Delivery.offer) = (noticesFor box ds).map Notice.line := by
  rw [Offer.linesFor, noticesFor, List.filter_map, List.map_map, List.map_map]
  rfl

theorem Delivery.mem_of_mem_noticesFor {box : OutboxId} {n : Notice} {ds : List Delivery}
    (h : n ∈ Delivery.noticesFor box ds) : ∃ d ∈ ds, d.box = box ∧ d.notice = n := by
  obtain ⟨d, hd, rfl⟩ := List.mem_map.1 h
  obtain ⟨hd, hbox⟩ := List.mem_filter.1 hd
  exact ⟨d, hd, by simpa using hbox, rfl⟩

/-- An event on record, and the connection that it comes from. -/
structure Record where
  source : ConnectionId
  event : Event
  deriving DecidableEq

namespace Room

variable {δ : Type}

def new (limit : Option Nat) (groups : GroupTable) (capacity : Nat) (log : δ) : Room δ :=
  { roster := { limit }, groups, history := { capacity }, log }

/-- A notice to one session, if it is active. -/
def noticeTo (room : Room δ) (notice : Notice) (id : ConnectionId) : List Delivery :=
  (room.roster.entryOf? id).toList.map fun entry => ⟨entry.outbox, notice⟩

/-- An event told to every active session but one. -/
def noticeAll (room : Room δ) (event : Event) (except : Option ConnectionId) : List Delivery :=
  ((room.roster.entries.map (·.id)).filter (some · ≠ except)).flatMap (room.noticeTo (.event event))

theorem mem_noticeTo {room : Room δ} {id : ConnectionId} {n : Notice} {d : Delivery}
    (h : d ∈ room.noticeTo n id) :
    d.notice = n ∧ ∃ entry ∈ room.roster.entries, entry.id = id ∧ entry.outbox = d.box := by
  obtain ⟨entry, he, rfl⟩ := List.mem_map.1 h
  have hentry : room.roster.entryOf? id = some entry := Option.mem_toList.1 he
  refine ⟨rfl, entry, List.mem_of_find?_eq_some hentry, ?_, rfl⟩
  simpa using List.find?_some hentry

theorem mem_noticeAll {room : Room δ} {e : Event} {except : Option ConnectionId} {d : Delivery}
    (h : d ∈ room.noticeAll e except) : ∃ other, d ∈ room.noticeTo (.event e) other := by
  obtain ⟨other, -, hd⟩ := List.mem_flatMap.1 h
  exact ⟨other, hd⟩

def greetingOf (room : Room δ) (username : String) : List Notice :=
  .reply (.welcome username) :: room.history.replay.map .replay

theorem map_line_greetingOf (room : Room δ) (username : String) :
    (room.greetingOf username).map Notice.line = room.greeting username := by
  simp [greetingOf, greeting, Function.comp_def, Notice.line]

/-- Who is told what because of a command. -/
def commandDeliveries (room : Room δ) (id : ConnectionId) (sender : String) :
    Command → List Delivery
  | .global text => room.noticeAll (.global sender text) none
  | .direct recipient text =>
    match room.roster.find? recipient with
    | none => room.noticeTo (.reply (.userNotFound recipient)) id
    | some recipientId =>
      room.noticeTo (.reply (.directFrom sender text)) recipientId ++
        room.noticeTo (.reply (.directTo recipient text)) id
  | .group name text =>
    match room.groups.get? name with
    | none => room.noticeTo (.reply (.groupNotFound name)) id
    | some group =>
      ((group.members.filterMap room.roster.find?).filter (· ≠ id)).flatMap
          (room.noticeTo (.reply (.groupFrom group.name sender text))) ++
        room.noticeTo (.reply (.groupTo group.name text)) id

def commandEvent? (room : Room δ) (sender : String) : Command → Option Event
  | .global text => some (.global sender text)
  | .direct recipient text =>
    (room.roster.find? recipient).map fun _ => .direct sender recipient text
  | .group name text => (room.groups.get? name).map fun group => .group group.name sender text

/-- The notices that a step offers to outboxes, in order. -/
def deliveries (room : Room δ) : RoomStep → List Delivery
  | .enter _ username _ =>
    if room.roster.Admits username then
      (room.greetingOf username).map (⟨room.roster.outboxes.length, ·⟩)
    else []
  | .joined id username => room.noticeAll (.joined username) (some id)
  | .left _ username => room.noticeAll (.left username) none
  | .route id sender line =>
    match Command.parse line with
    | .error malformed => room.noticeTo (.reply (.malformed malformed)) id
    | .ok none => []
    | .ok (some command) => room.commandDeliveries id sender command
  | .leave _ | .drain _ => []

def record? (room : Room δ) : RoomStep → Option Record
  | .joined id username => some ⟨id, .joined username⟩
  | .left id username => some ⟨id, .left username⟩
  | .route id sender line =>
    match Command.parse line with
    | .ok (some command) => (room.commandEvent? sender command).map (⟨id, ·⟩)
    | _ => none
  | .enter .. | .leave _ | .drain _ => none

theorem record?_eq_some {room : Room δ} {s : RoomStep} {r : Record} (h : room.record? s = some r) :
    (∃ username, s = .joined r.source username ∧ r.event = .joined username) ∨
      (∃ username, s = .left r.source username ∧ r.event = .left username) ∨
      ∃ sender line c, s = .route r.source sender line ∧ Command.parse line = .ok (some c) ∧
        room.commandEvent? sender c = some r.event := by
  cases s with
  | joined id username =>
    cases h
    exact .inl ⟨username, rfl, rfl⟩
  | left id username =>
    cases h
    exact .inr (.inl ⟨username, rfl, rfl⟩)
  | route id sender line =>
    simp only [record?] at h
    cases hc : Command.parse line with
    | error malformed => simp [hc] at h
    | ok command =>
      cases command with
      | none => simp [hc] at h
      | some c =>
        simp only [hc] at h
        obtain ⟨event, he, rfl⟩ := Option.map_eq_some_iff.1 h
        exact .inr (.inr ⟨sender, line, c, rfl, hc, he⟩)
  | enter id username capacity => cases h
  | leave id => cases h
  | drain box => cases h

/-- The roster that the notices of a step are offered through: an arrival first opens its outbox. -/
def opened (room : Room δ) : RoomStep → Roster
  | .enter _ username capacity =>
    if room.roster.Admits username then (room.roster.openOutbox capacity).2 else room.roster
  | _ => room.roster

/-! ## Telling -/

/-- The room after several notices were offered. -/
def told (room : Room δ) (ds : List Delivery) : Room δ :=
  { room with roster := (room.roster.offerEach (ds.map Delivery.offer)).2 }

variable {room : Room δ} {id : ConnectionId} {username sender line : String}

theorem told_append (room : Room δ) (ds es : List Delivery) :
    room.told (ds ++ es) = (room.told ds).told es := by
  simp only [told, List.map_append, Roster.offerEach_append]

@[simp] theorem entries_told (ds : List Delivery) :
    (room.told ds).roster.entries = room.roster.entries :=
  Roster.entries_offerEach _

theorem told_eq (ds : List Delivery) :
    room.told ds =
      { room with roster :=
        { (room.roster.offerEach (ds.map Delivery.offer)).2 with
          entries := room.roster.entries } } := by
  rw [told]
  congr 1
  exact Roster.ext_outboxes rfl (Roster.entries_offerEach _) fun _ => rfl

theorem noticeTo_told (ds : List Delivery) : (room.told ds).noticeTo = room.noticeTo := by
  funext notice id
  simp only [noticeTo, Roster.entryOf?, entries_told]

theorem offers_noticeTo (room : Room δ) (notice : Notice) (id : ConnectionId) :
    (room.noticeTo notice id).map Delivery.offer = room.roster.offersTo notice.line id := by
  simp [noticeTo, Roster.offersTo, Function.comp_def, Delivery.offer]

theorem tell_eq (reply : Reply) :
    room.tell id reply = room.told (room.noticeTo (.reply reply) id) := by
  rw [tell, (room.roster.send_eq id reply.line).2, told, offers_noticeTo]
  rfl

theorem sendEach_eq_told (room : Room δ) (notice : Notice) (ids : List ConnectionId) :
    { room with roster := (room.roster.sendEach notice.line ids).2 } =
      room.told (ids.flatMap (room.noticeTo notice)) := by
  have hoffers : (ids.flatMap (room.noticeTo notice)).map Delivery.offer =
      ids.flatMap (room.roster.offersTo notice.line) := by
    rw [List.map_flatMap]
    exact congrArg ids.flatMap (funext fun id => room.offers_noticeTo notice id)
  rw [Roster.sendEach_eq, told, hoffers]

/-! ## Admission -/

theorem admits_openOutbox {roster : Roster} {capacity : Nat} :
    (roster.openOutbox capacity).2.Admits username ↔ roster.Admits username :=
  ⟨fun h => ⟨h.free, h.room⟩, fun h => ⟨h.free, h.room⟩⟩

theorem enter_of_not_admits (h : ¬ room.roster.Admits username) (id : ConnectionId)
    (capacity : Nat) :
    ∃ e, { room with roster := (room.roster.openOutbox capacity).2 }.enter id username
      (room.roster.openOutbox capacity).1 = .error e := by
  rw [enter]
  cases hr : (room.roster.openOutbox capacity).2.register id username
      (room.roster.openOutbox capacity).1
      ({ room with roster := (room.roster.openOutbox capacity).2 }.greeting username) with
  | error e => exact ⟨e, rfl⟩
  | ok outcome => exact absurd (admits_openOutbox.1 (Roster.register_eq_ok_iff.1 ⟨_, hr⟩)) h

/-! ## Steps and runs -/

variable [LogDevice δ]

/-- The room after a step. An arrival that is refused leaves it as it is. -/
def step (room : Room δ) : RoomStep → Room δ
  | .enter id username capacity =>
    let (box, roster) := room.roster.openOutbox capacity
    match { room with roster }.enter id username box with
    | .ok room => room
    | .error _ => room
  | .joined id username => (room.record (.joined username) (some id)).2
  | .leave id => (room.leave id).2
  | .left _ username => (room.record (.left username) none).2
  | .route id sender line => (room.route id sender line).2
  | .drain box => { room with roster := (room.roster.drain box).2 }

def run (room : Room δ) (steps : List RoomStep) : Room δ := steps.foldl step room

theorem run_cons (room : Room δ) (s : RoomStep) (steps : List RoomStep) :
    room.run (s :: steps) = (room.step s).run steps := rfl

@[simp] theorem run_nil (room : Room δ) : room.run [] = room := rfl

def recorded (room : Room δ) : List RoomStep → List Record
  | [] => []
  | s :: steps => (room.record? s).toList ++ (room.step s).recorded steps

/-- The notices that a run offers to outboxes, in order. -/
def delivered (room : Room δ) : List RoomStep → List Delivery
  | [] => []
  | s :: steps => room.deliveries s ++ (room.step s).delivered steps

/-! ## What a line does -/

/-- The room after it kept an event, if there is one. -/
def kept (room : Room δ) : Option Record → Room δ
  | none => room
  | some r => room.keep r.event

theorem record_eq (event : Event) (except : Option ConnectionId) :
    (room.record event except).2 = (room.told (room.noticeAll event except)).keep event := by
  rw [noticeAll, ← sendEach_eq_told]
  rfl

theorem routeDirect_eq (recipient text : String) :
    (room.routeDirect id sender recipient text).2 =
      (room.told (room.commandDeliveries id sender (.direct recipient text))).kept
        ((room.commandEvent? sender (.direct recipient text)).map (⟨id, ·⟩)) := by
  simp only [routeDirect, commandDeliveries, commandEvent?]
  cases room.roster.find? recipient with
  | none => exact tell_eq _
  | some recipientId =>
    simp only [tell_eq, told_append, noticeTo_told]
    rfl

theorem routeGroup_eq (name text : String) :
    (room.routeGroup id sender name text).2 =
      (room.told (room.commandDeliveries id sender (.group name text))).kept
        ((room.commandEvent? sender (.group name text)).map (⟨id, ·⟩)) := by
  simp only [routeGroup, commandDeliveries, commandEvent?]
  cases room.groups.get? name with
  | none => exact tell_eq _
  | some group =>
    have hmembers := room.sendEach_eq_told (.reply (.groupFrom group.name sender text))
      ((group.members.filterMap room.roster.find?).filter (· ≠ id))
    simp only [Notice.line] at hmembers
    simp only [told_append, hmembers, tell_eq, noticeTo_told]
    rfl

/-- Routing a line tells what it delivers and keeps what it records, and nothing else. -/
theorem route_eq : (room.route id sender line).2 =
    (room.told (room.deliveries (.route id sender line))).kept
      (room.record? (.route id sender line)) := by
  simp only [route, deliveries, record?]
  cases Command.parse line with
  | error malformed => exact tell_eq _
  | ok command =>
    cases command with
    | none => rfl
    | some command =>
      cases command with
      | global text => exact record_eq _ _
      | direct recipient text => exact routeDirect_eq _ _
      | group name text => exact routeGroup_eq _ _

/-! ## What a step does to the parts of a room -/

def entriesAfter (room : Room δ) : RoomStep → List Entry
  | .enter id username _ =>
    if room.roster.Admits username then
      room.roster.entries.filter (·.id ≠ id) ++ [⟨id, username, room.roster.outboxes.length⟩]
    else room.roster.entries
  | .leave id => room.roster.entries.filter (·.id ≠ id)
  | .joined .. | .left .. | .route .. | .drain _ => room.roster.entries

def rosterAfter (room : Room δ) : RoomStep → Roster
  | .drain box => (room.roster.drain box).2
  | s =>
    { ((room.opened s).offerEach ((room.deliveries s).map Delivery.offer)).2 with
      entries := room.entriesAfter s }

theorem step_enter_of_admits {capacity : Nat} (h : room.roster.Admits username) :
    room.step (.enter id username capacity) =
      { room with roster := room.rosterAfter (.enter id username capacity) } := by
  have hoffers : ((room.greetingOf username).map
      (⟨room.roster.outboxes.length, ·⟩)).map Delivery.offer =
      (room.greeting username).map (⟨room.roster.outboxes.length, ·⟩) := by
    rw [← map_line_greetingOf, List.map_map, List.map_map]
    rfl
  simp only [step, enter, rosterAfter, entriesAfter, opened, deliveries, if_pos h, hoffers]
  rw [Roster.register_of_admits (admits_openOutbox.2 h)]
  rfl

theorem step_enter_of_not_admits {capacity : Nat} (h : ¬ room.roster.Admits username) :
    room.step (.enter id username capacity) = room := by
  obtain ⟨e, he⟩ := enter_of_not_admits h id capacity
  simp only [step]
  rw [he]

/-- **A step** leaves the roster as `rosterAfter` says and keeps the event that it records. -/
theorem step_eq (s : RoomStep) :
    room.step s = { room with roster := room.rosterAfter s }.kept (room.record? s) := by
  cases s with
  | enter id username capacity =>
    by_cases h : room.roster.Admits username
    · exact step_enter_of_admits h
    · rw [step_enter_of_not_admits h]
      simp [rosterAfter, entriesAfter, opened, deliveries, h, record?, kept]
  | joined id username =>
    rw [step, record_eq, told_eq]
    rfl
  | leave id => rfl
  | left id username =>
    rw [step, record_eq, told_eq]
    rfl
  | route id sender line =>
    rw [step, route_eq, told_eq]
    simp only [rosterAfter, opened, entriesAfter]
  | drain box => rfl

@[simp] theorem roster_kept (r : Option Record) : (room.kept r).roster = room.roster := by
  cases r <;> rfl

theorem history_kept (r : Option Record) : (room.kept r).history =
    (r.toList.map (·.event.line)).foldl History.append room.history := by
  cases r <;> rfl

theorem log_kept (r : Option Record) : (room.kept r).log =
    (r.toList.map (·.event.line)).foldl (fun log line => Log.note line log) room.log := by
  cases r <;> rfl

theorem roster_step (s : RoomStep) : (room.step s).roster = room.rosterAfter s := by
  rw [step_eq, roster_kept]

theorem history_step (s : RoomStep) : (room.step s).history =
    ((room.record? s).toList.map (·.event.line)).foldl History.append room.history := by
  rw [step_eq, history_kept]

theorem log_step (s : RoomStep) : (room.step s).log =
    ((room.record? s).toList.map (·.event.line)).foldl (fun log line => Log.note line log)
      room.log := by
  rw [step_eq, log_kept]

theorem entries_step (s : RoomStep) : (room.step s).roster.entries = room.entriesAfter s := by
  rw [roster_step]
  cases s <;> simp only [rosterAfter, entriesAfter, Roster.drain]

/-- An outbox is pushed the lines of the notices for it, unless it is drained. -/
theorem getElem?_outboxes_step (s : RoomStep) (box : OutboxId) :
    (room.step s).roster.outboxes[box]? =
      if s = .drain box then room.roster.outboxes[box]?.map Outbox.drained
      else (room.opened s).outboxes[box]?.map
        (·.pushAll ((Delivery.noticesFor box (room.deliveries s)).map Notice.line)) := by
  rw [roster_step, ← Delivery.linesFor_offer]
  cases s with
  | drain other =>
    by_cases h : other = box
    · simp [h, rosterAfter, Roster.drain]
    · simp [h, rosterAfter, Roster.drain, opened, deliveries, Offer.linesFor]
  | _ =>
    rw [if_neg (by simp)]
    simp only [rosterAfter]
    exact Roster.getElem?_outboxes_offerEach _ _

@[simp] theorem limit_step (s : RoomStep) :
    (room.step s).roster.limit = room.roster.limit := by
  have hopened : (room.opened s).limit = room.roster.limit := by
    cases s <;> simp only [opened]
    split <;> rfl
  rw [roster_step]
  cases s with
  | drain box => rfl
  | _ =>
    simp only [rosterAfter, Roster.limit_offerEach]
    exact hopened

theorem wellFormed_step (h : room.roster.WellFormed) (s : RoomStep) :
    (room.step s).roster.WellFormed := by
  have hafter : Roster.WellFormed { room.roster with entries := room.entriesAfter s } := by
    cases s with
    | enter id username capacity =>
      simp only [entriesAfter]
      split
      · rename_i ha
        exact h.arrive ⟨id, username, _⟩ ha
      · exact h
    | leave id => exact h.leave id
    | _ => exact h
  exact hafter.congr (entries_step s) (limit_step s)

/-! ## Runs -/

theorem wellFormed_run (h : room.roster.WellFormed) (steps : List RoomStep) :
    (room.run steps).roster.WellFormed := by
  induction steps generalizing room with
  | nil => exact h
  | cons s steps ih => exact ih (wellFormed_step h s)

@[simp] theorem limit_run (room : Room δ) (steps : List RoomStep) :
    (room.run steps).roster.limit = room.roster.limit := by
  induction steps generalizing room with
  | nil => rfl
  | cons s steps ih => exact (ih (room.step s)).trans (limit_step s)

theorem recorded_append (room : Room δ) (steps more : List RoomStep) :
    room.recorded (steps ++ more) = room.recorded steps ++ (room.run steps).recorded more := by
  induction steps generalizing room with
  | nil => rfl
  | cons s steps ih => simp only [List.cons_append, recorded, ih, List.append_assoc]; rfl

theorem delivered_append (room : Room δ) (steps more : List RoomStep) :
    room.delivered (steps ++ more) = room.delivered steps ++ (room.run steps).delivered more := by
  induction steps generalizing room with
  | nil => rfl
  | cons s steps ih => simp only [List.cons_append, delivered, ih, List.append_assoc]; rfl

theorem history_run (room : Room δ) (steps : List RoomStep) :
    (room.run steps).history =
      ((room.recorded steps).map (·.event.line)).foldl History.append room.history := by
  induction steps generalizing room with
  | nil => rfl
  | cons s steps ih =>
    rw [recorded, List.map_append, List.foldl_append, ← history_step]
    exact ih (room.step s)

theorem log_run (room : Room δ) (steps : List RoomStep) :
    (room.run steps).log = ((room.recorded steps).map (·.event.line)).foldl
      (fun log line => Log.note line log) room.log := by
  induction steps generalizing room with
  | nil => rfl
  | cons s steps ih =>
    rw [recorded, List.map_append, List.foldl_append, ← log_step]
    exact ih (room.step s)

/-! ## Arrivals and departures -/

theorem enter_of_admits (h : room.roster.Admits username) (capacity : Nat) :
    { room with roster := (room.roster.openOutbox capacity).2 }.enter id username
      (room.roster.openOutbox capacity).1 = .ok (room.step (.enter id username capacity)) := by
  simp only [step, enter]
  rw [Roster.register_of_admits (admits_openOutbox.2 h)]
  rfl

theorem arrive_of_admits (id : ConnectionId) (h : room.roster.Admits username) (capacity : Nat) :
    { room with roster := (room.roster.openOutbox capacity).2 }.arrive id username
        (room.roster.openOutbox capacity).1 =
      .ok (room.run [.enter id username capacity, .joined id username]) := by
  rw [arrive, enter_of_admits h]
  rfl

theorem arrive_of_register {box : OutboxId} {e : SessionError}
    (h : room.roster.register id username box (room.greeting username) = .error e) :
    room.arrive id username box = .error e := by
  rw [arrive, enter, h]
  rfl

theorem arrive_of_not_admits (id : ConnectionId) (h : ¬ room.roster.Admits username)
    (capacity : Nat) :
    ∃ e, { room with roster := (room.roster.openOutbox capacity).2 }.arrive id username
      (room.roster.openOutbox capacity).1 = .error e := by
  obtain ⟨e, he⟩ := enter_of_not_admits h id capacity
  rw [arrive, he]
  exact ⟨e, rfl⟩

def departure (room : Room δ) (id : ConnectionId) : List RoomStep :=
  match room.roster.entryOf? id with
  | none => []
  | some entry => [.leave id, .left id entry.username]

theorem depart_eq : (room.depart id).2 = room.run (room.departure id) := by
  rw [depart, departure, leave, Roster.unregister]
  cases room.roster.entryOf? id <;> rfl

end Room

end ChatRoom
