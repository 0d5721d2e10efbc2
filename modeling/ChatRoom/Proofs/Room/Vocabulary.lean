import ChatRoom.Proofs.Room.History

/-!
# What is said in a room

What a room has said and has to say depends on what is brought to it. A `Vocabulary` says which
lines, names and events there are, and is closed (`Vocabulary.IsClosed`) if whatever a room makes of
them is in it. Then a room that speaks in it keeps doing so in every step that brings nothing else
(`Says.step`), and so in every run (`Says.run`).
-/

namespace ChatRoom

open Text

/-- What is said in a chat: the lines, the names of users, what users write, and the events that are
put on record. -/
structure Vocabulary where
  said : String → Prop
  named : String → Prop
  heard : String → Prop
  kept : Event → Prop

namespace Vocabulary

/-- Whatever a room with these groups makes of names and lines of the vocabulary is in it. -/
structure IsClosed (v : Vocabulary) (groups : GroupTable) : Prop where
  historyStart : v.said historyStart
  historyEnd : v.said historyEnd
  malformed (malformed : MalformedCommand) : v.said (Reply.malformed malformed).line
  welcome {username : String} : v.named username → v.said (Reply.welcome username).line
  joined {username : String} : v.named username → v.kept (.joined username)
  left {username : String} : v.named username → v.kept (.left username)
  /-- An event is told as it is, and replayed as the history keeps it. -/
  told {event : Event} : v.kept event → v.said event.line ∧ v.said (dropTerminators event.line)
  global {sender line text : String} : v.named sender → v.heard line →
    Command.parse line = .ok (some (.global text)) → v.kept (.global sender text)
  direct {sender line recipient text : String} : v.named sender → v.heard line →
    Command.parse line = .ok (some (.direct recipient text)) →
      v.kept (.direct sender recipient text) ∧ v.said (Reply.directFrom sender text).line ∧
        v.said (Reply.directTo recipient text).line ∧ v.said (Reply.userNotFound recipient).line
  groupNotFound {line name text : String} : v.heard line →
    Command.parse line = .ok (some (.group name text)) → v.said (Reply.groupNotFound name).line
  group {sender line name text : String} : v.named sender → v.heard line →
    Command.parse line = .ok (some (.group name text)) → (groups.get? name).isSome →
      v.kept (.group name sender text) ∧ v.said (Reply.groupFrom name sender text).line ∧
        v.said (Reply.groupTo name text).line

/-- The names and lines that a step brings are in the vocabulary. -/
def Allows (v : Vocabulary) : RoomStep → Prop
  | .enter _ username _ | .joined _ username | .left _ username => v.named username
  | .route _ sender line => v.named sender ∧ v.heard line
  | .leave _ | .drain _ => True

end Vocabulary

theorem GroupTable.name_of_get? {table : GroupTable} {name : String} {group : Group}
    (h : table.get? name = some group) : group.name = name := by
  simpa using List.find?_some h

namespace Room

variable {δ : Type} {room : Room δ} {id : ConnectionId} {v : Vocabulary}

/-- Everything that a room has to say is in the vocabulary. -/
structure Says (room : Room δ) (v : Vocabulary) : Prop where
  history : ∀ line ∈ room.history.lines, v.said line
  pending : ∀ box, ∀ line ∈ room.roster.pending box, v.said line
  usernames : ∀ entry ∈ room.roster.entries, v.named entry.username

theorem says_new (limit : Option Nat) (groups : GroupTable) (capacity : Nat) (log : δ) :
    (Room.new limit groups capacity log).Says v :=
  ⟨fun _ hl => absurd hl List.not_mem_nil, fun _ _ hl => absurd hl List.not_mem_nil,
    fun _ he => absurd he List.not_mem_nil⟩

/-! ## What a step tells -/

section

variable {sender line : String} {c : Command} (hv : v.IsClosed room.groups)
include hv

theorem kept_of_commandEvent? {event : Event} (hs : v.named sender) (hl : v.heard line)
    (hc : Command.parse line = .ok (some c)) (he : room.commandEvent? sender c = some event) :
    v.kept event := by
  cases c with
  | global text =>
    cases he
    exact hv.global hs hl hc
  | direct recipient text =>
    obtain ⟨_, -, rfl⟩ := Option.map_eq_some_iff.1 he
    exact (hv.direct hs hl hc).1
  | group name text =>
    obtain ⟨group, hg, rfl⟩ := Option.map_eq_some_iff.1 he
    obtain rfl := GroupTable.name_of_get? hg
    exact (hv.group hs hl hc (by rw [hg]; rfl)).1

/-- What is put on record is in the vocabulary. -/
theorem kept_of_record? {s : RoomStep} {r : Record} (hs : v.Allows s)
    (h : room.record? s = some r) : v.kept r.event := by
  obtain ⟨username, rfl, he⟩ | ⟨username, rfl, he⟩ | ⟨sender, line, c, rfl, hc, he⟩ :=
    record?_eq_some h
  · exact he ▸ hv.joined hs
  · exact he ▸ hv.left hs
  · exact kept_of_commandEvent? hv hs.1 hs.2 hc he

theorem said_of_replay (h : room.Says v) {line : String} (hl : line ∈ room.history.replay) :
    v.said line := by
  unfold History.replay at hl
  split at hl
  · cases hl
  · simp only [List.cons_append, List.mem_cons, List.mem_append, List.not_mem_nil, or_false] at hl
    rcases hl with rfl | hl | rfl
    · exact hv.historyStart
    · exact h.history line hl
    · exact hv.historyEnd

theorem said_of_noticeAll {event : Event} {except : Option ConnectionId} {d : Delivery}
    (he : v.kept event) (hd : d ∈ room.noticeAll event except) : v.said d.notice.line := by
  obtain ⟨other, hd⟩ := mem_noticeAll hd
  rw [(mem_noticeTo hd).1]
  exact (hv.told he).1

theorem said_of_commandDeliveries {d : Delivery} (hs : v.named sender) (hl : v.heard line)
    (hc : Command.parse line = .ok (some c)) (hd : d ∈ room.commandDeliveries id sender c) :
    v.said d.notice.line := by
  cases c with
  | global text => exact said_of_noticeAll hv (hv.global hs hl hc) hd
  | direct recipient text =>
    obtain ⟨-, hfrom, hto, hnotFound⟩ := hv.direct hs hl hc
    simp only [commandDeliveries] at hd
    split at hd
    · rw [(mem_noticeTo hd).1]
      exact hnotFound
    · rcases List.mem_append.1 hd with hd | hd
      · rw [(mem_noticeTo hd).1]
        exact hfrom
      · rw [(mem_noticeTo hd).1]
        exact hto
  | group name text =>
    simp only [commandDeliveries] at hd
    split at hd
    · rw [(mem_noticeTo hd).1]
      exact hv.groupNotFound hl hc
    · rename_i group hg
      obtain rfl := GroupTable.name_of_get? hg
      obtain ⟨-, hfrom, hto⟩ := hv.group hs hl hc (by rw [hg]; rfl)
      rcases List.mem_append.1 hd with hd | hd
      · obtain ⟨other, -, hd⟩ := List.mem_flatMap.1 hd
        rw [(mem_noticeTo hd).1]
        exact hfrom
      · rw [(mem_noticeTo hd).1]
        exact hto

/-- What is told is in the vocabulary. -/
theorem said_of_deliveries (h : room.Says v) {s : RoomStep} (hs : v.Allows s) {d : Delivery}
    (hd : d ∈ room.deliveries s) : v.said d.notice.line := by
  cases s with
  | enter id username capacity =>
    simp only [deliveries] at hd
    split at hd
    · obtain ⟨n, hn, rfl⟩ := List.mem_map.1 hd
      rcases List.mem_cons.1 hn with rfl | hn
      · exact hv.welcome hs
      · obtain ⟨line, hl, rfl⟩ := List.mem_map.1 hn
        exact said_of_replay hv h hl
    · cases hd
  | joined id username => exact said_of_noticeAll hv (hv.joined hs) hd
  | left id username => exact said_of_noticeAll hv (hv.left hs) hd
  | leave id => cases hd
  | drain box => cases hd
  | route id sender line =>
    simp only [deliveries] at hd
    cases hc : Command.parse line with
    | error malformed =>
      simp only [hc] at hd
      rw [(mem_noticeTo hd).1]
      exact hv.malformed malformed
    | ok command =>
      cases command with
      | none => simp [hc] at hd
      | some c =>
        simp only [hc] at hd
        exact said_of_commandDeliveries hv hs.1 hs.2 hc hd

end

theorem Says.allows_departure (h : room.Says v) (id : ConnectionId) :
    ∀ s ∈ room.departure id, v.Allows s := by
  intro s hs
  unfold Room.departure at hs
  split at hs
  · cases hs
  · rename_i entry he
    have hmem : entry ∈ room.roster.entries := List.mem_of_find?_eq_some he
    simp only [List.mem_cons, List.not_mem_nil, or_false] at hs
    rcases hs with rfl | rfl
    · trivial
    · exact h.usernames entry hmem

/-! ## What waits in the outboxes -/

theorem mem_pending_pushAll {outbox : Outbox} {lines : List String} {line : String}
    (h : line ∈ (outbox.pushAll lines).pending) : line ∈ outbox.pending ∨ line ∈ lines := by
  induction lines generalizing outbox with
  | nil => exact .inl h
  | cons l lines ih =>
    rcases ih h with h | h
    · rw [Outbox.pending_push, List.mem_append] at h
      rcases h with h | h
      · exact .inl h
      · split at h
        · exact .inr (List.mem_singleton.1 h ▸ List.mem_cons_self)
        · cases h
    · exact .inr (List.mem_cons_of_mem _ h)

theorem mem_pending {roster : Roster} {box : OutboxId} {line : String} :
    line ∈ roster.pending box ↔
      ∃ outbox, roster.outboxes[box]? = some outbox ∧ line ∈ outbox.pending := by
  unfold Roster.pending
  cases roster.outboxes[box]? <;> simp

/-- A new outbox is empty. -/
theorem getElem?_of_opened {s : RoomStep} {box : OutboxId} {outbox : Outbox}
    (h : (room.opened s).outboxes[box]? = some outbox) :
    room.roster.outboxes[box]? = some outbox ∨ outbox.pending = [] := by
  cases s with
  | enter id username capacity =>
    simp only [opened] at h
    split at h
    · simp only [Roster.openOutbox, List.getElem?_append] at h
      split at h
      · exact .inl h
      · have hnew := List.mem_of_getElem? h
        rw [List.mem_singleton.1 hnew]
        exact .inr rfl
    · exact .inl h
  | _ => exact .inl h

variable [LogDevice δ]

theorem mem_pending_step {s : RoomStep} {box : OutboxId} {line : String}
    (h : line ∈ (room.step s).roster.pending box) :
    line ∈ room.roster.pending box ∨
      ∃ d ∈ room.deliveries s, d.box = box ∧ d.notice.line = line := by
  obtain ⟨next, hnext, hl⟩ := mem_pending.1 h
  rw [getElem?_outboxes_step] at hnext
  split at hnext
  · obtain ⟨outbox, -, rfl⟩ := Option.map_eq_some_iff.1 hnext
    exact absurd hl List.not_mem_nil
  · obtain ⟨outbox, hbox, rfl⟩ := Option.map_eq_some_iff.1 hnext
    rcases mem_pending_pushAll hl with hl | hl
    · rcases getElem?_of_opened hbox with hbox | hnil
      · exact .inl (mem_pending.2 ⟨outbox, hbox, hl⟩)
      · rw [hnil] at hl
        exact absurd hl List.not_mem_nil
    · obtain ⟨n, hn, rfl⟩ := List.mem_map.1 hl
      obtain ⟨d, hd, hbox, rfl⟩ := Delivery.mem_of_mem_noticesFor hn
      exact .inr ⟨d, hd, hbox, rfl⟩

/-! ## Steps and runs -/

theorem groups_step (s : RoomStep) : (room.step s).groups = room.groups := by
  rw [step_eq]
  cases room.record? s <;> rfl

theorem groups_run (steps : List RoomStep) : (room.run steps).groups = room.groups := by
  induction steps generalizing room with
  | nil => rfl
  | cons s steps ih => rw [run_cons, ih, groups_step]

namespace Says

/-- **A room that speaks in a vocabulary keeps to it.** -/
theorem step (h : room.Says v) (hv : v.IsClosed room.groups) {s : RoomStep} (hs : v.Allows s) :
    (room.step s).Says v where
  history := by
    rw [history_step]
    cases hr : room.record? s with
    | none => exact h.history
    | some r =>
      have hline : v.said (dropTerminators r.event.line) := (hv.told (kept_of_record? hv hs hr)).2
      intro line hl
      rcases List.mem_append.1 (List.mem_of_mem_drop hl) with hl | hl
      · exact h.history line hl
      · exact List.mem_singleton.1 hl ▸ hline
  pending box line hl := by
    rcases mem_pending_step hl with hl | ⟨d, hd, -, rfl⟩
    · exact h.pending box line hl
    · exact said_of_deliveries hv h hs hd
  usernames entry he := by
    rw [entries_step] at he
    cases s with
    | enter id username capacity =>
      simp only [entriesAfter] at he
      split at he
      · rcases List.mem_append.1 he with he | he
        · exact h.usernames entry (List.mem_of_mem_filter he)
        · cases List.mem_singleton.1 he
          exact hs
      · exact h.usernames entry he
    | leave id => exact h.usernames entry (List.mem_of_mem_filter he)
    | _ => exact h.usernames entry he

theorem run (h : room.Says v) (hv : v.IsClosed room.groups) {steps : List RoomStep}
    (hs : ∀ s ∈ steps, v.Allows s) :
    (room.run steps).Says v ∧ ∀ r ∈ room.recorded steps, v.kept r.event := by
  induction steps generalizing room with
  | nil => exact ⟨h, fun r hr => absurd hr List.not_mem_nil⟩
  | cons s steps ih =>
    have hfirst := hs s List.mem_cons_self
    have hclosed : v.IsClosed (room.step s).groups := by rwa [groups_step]
    obtain ⟨hrun, hrecorded⟩ :=
      ih (h.step hv hfirst) hclosed fun t ht => hs t (List.mem_cons_of_mem _ ht)
    refine ⟨hrun, fun r hr => ?_⟩
    rcases List.mem_append.1 hr with hr | hr
    · exact kept_of_record? hv hfirst (Option.mem_toList.1 hr)
    · exact hrecorded r hr

end Says

end Room

end ChatRoom
