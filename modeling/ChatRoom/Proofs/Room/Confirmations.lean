import ChatRoom.Proofs.Message
import ChatRoom.Proofs.Room.Addressing

/-!
# What the sender of a direct message is told

A direct message to somebody active is reported and confirmed as one, whether or not it was queued.
What becomes of it depends on the outboxes: each takes the first of the lines that are offered to it,
as many as it has places (`Outbox.free`, `Offers.pending_eq`). So a message is dropped and still
confirmed exactly if its recipient's outbox has no place and its sender's has one
(`reported_queued_or_not`). Whoever writes to itself is not told so, since there the message comes
before the confirmation.
-/

namespace ChatRoom

/-! ## Places -/

/-- How many more lines an outbox takes. -/
def Roster.free (roster : Roster) (box : OutboxId) : Nat :=
  (roster.outboxes[box]?.map Outbox.free).getD 0

/-- The first of several lines that is `a` is among the first `n` if fewer than `n` precede it. -/
theorem mem_take_append_cons {α : Type} {front : List α} {a : α} (h : a ∉ front) (rest : List α)
    (n : Nat) : a ∈ (front ++ a :: rest).take n ↔ front.length < n := by
  constructor
  · intro ha
    by_contra hle
    rw [List.take_append_of_le_length (Nat.le_of_not_lt hle)] at ha
    exact h (List.mem_of_mem_take ha)
  · intro hlt
    obtain ⟨k, rfl⟩ : ∃ k, n = front.length + (k + 1) := ⟨n - front.length - 1, by omega⟩
    rw [List.take_length_add_append, List.take_succ_cons]
    exact List.mem_append_right _ List.mem_cons_self

/-- A message is not its own confirmation. -/
theorem Reply.line_directFrom_ne_directTo (sender recipient text text' : String) :
    (Reply.directFrom sender text).line ≠ (Reply.directTo recipient text').line := by
  intro h
  have hfrom : (Reply.directFrom sender text).line.toList =
      "(DM from ".toList ++ (sender ++ ("): " ++ text)).toList := by
    show ("(DM from " ++ sender ++ "): " ++ text).toList = _
    rw [String.append_assoc, String.append_assoc, String.toList_append]
  have hto : (Reply.directTo recipient text').line.toList =
      "(DM to ".toList ++ (recipient ++ ("): " ++ text')).toList := by
    show ("(DM to " ++ recipient ++ "): " ++ text').toList = _
    rw [String.append_assoc, String.append_assoc, String.toList_append]
  have hnone : Text.after? "(DM from ".toList (Reply.directTo recipient text').line.toList = none := by
    rw [hto]
    exact Text.after?_of_differ (by decide) _
  rw [← h, hfrom, Text.after?_append] at hnone
  cases hnone

namespace Room

variable {δ : Type} {room after : Room δ} {lines : Entry → List String} {sender target : Entry}

/-! ## What is queued -/

/-- From one room to the next, the line is queued for the session. -/
def Queues (room after : Room δ) (entry : Entry) (line : String) : Prop :=
  ∃ added, after.roster.pending entry.outbox = room.roster.pending entry.outbox ++ added ∧
    line ∈ added

/-- Of the lines that are offered to a session the first are queued, as many as it has places. -/
theorem Offers.pending_eq (h : room.Offers after lines) {entry : Entry}
    (he : entry ∈ room.roster.entries) :
    after.roster.pending entry.outbox = room.roster.pending entry.outbox ++
      (lines entry).take (room.roster.free entry.outbox) := by
  have hafter := h.active entry he
  cases hbox : room.roster.outboxes[entry.outbox]? with
  | none =>
    rw [hbox, Option.map_none] at hafter
    simp [Roster.pending, Roster.free, hbox, hafter]
  | some outbox =>
    rw [hbox, Option.map_some] at hafter
    simp [Roster.pending, Roster.free, hbox, hafter, Outbox.pending_pushAll_free]

theorem Offers.queues_iff (h : room.Offers after lines) {entry : Entry}
    (he : entry ∈ room.roster.entries) {line : String} :
    room.Queues after entry line ↔
      line ∈ (lines entry).take (room.roster.free entry.outbox) := by
  constructor
  · rintro ⟨added, hadded, hline⟩
    rw [h.pending_eq he] at hadded
    rwa [List.append_cancel_left hadded]
  · exact fun hline => ⟨_, h.pending_eq he, hline⟩

section

variable {text : String}

theorem queues_message_iff
    (h : room.Offers after (directLines sender target.username text))
    (htarget : target ∈ room.roster.entries) :
    room.Queues after target (Reply.directFrom sender.username text).line ↔
      0 < room.roster.free target.outbox := by
  have hlines : directLines sender target.username text target =
      [] ++ (Reply.directFrom sender.username text).line ::
        if target = sender then [(Reply.directTo target.username text).line] else [] := by
    rw [directLines, if_pos rfl]
    rfl
  rw [h.queues_iff htarget, hlines]
  exact mem_take_append_cons List.not_mem_nil _ _

/-- The confirmation comes after the message, if both are for one session. -/
theorem queues_confirmation_iff (hw : room.roster.WellFormed)
    (h : room.Offers after (directLines sender target.username text))
    (hsender : sender ∈ room.roster.entries) (htarget : target ∈ room.roster.entries) :
    room.Queues after sender (Reply.directTo target.username text).line ↔
      (if target = sender then 1 else 0) < room.roster.free sender.outbox := by
  have hname : sender.username = target.username ↔ target = sender :=
    (hw.username_inj hsender htarget).trans eq_comm
  rw [h.queues_iff hsender, directLines, if_pos rfl]
  by_cases hself : target = sender
  · rw [if_pos (hname.2 hself), if_pos hself]
    have hother : (Reply.directTo target.username text).line ∉
        [(Reply.directFrom sender.username text).line] := by
      rw [List.mem_singleton]
      exact (Reply.line_directFrom_ne_directTo _ _ _ _).symm
    exact mem_take_append_cons hother [] _
  · rw [if_neg (mt hname.1 hself), if_neg hself]
    exact mem_take_append_cons List.not_mem_nil [] _

end

/-! ## What is reported -/

variable [LogDevice δ] {line : String}

/-- A direct message to somebody active is reported as one, and nothing else is. -/
theorem routed_direct_iff_active (h : room.roster.Owned) (hsender : sender ∈ room.roster.entries)
    (recipient : String) :
    (room.route sender.id sender.username line).1 = .direct recipient ↔
      (∃ text, Command.parse line = .ok (some (.direct recipient text))) ∧
        ∃ target ∈ room.roster.entries, target.username = recipient := by
  constructor
  · intro hrouted
    obtain ⟨text, hparse⟩ := parse_of_routed_direct hrouted
    refine ⟨⟨text, hparse⟩, ?_⟩
    simp only [route, hparse, routeDirect] at hrouted
    cases hfind : room.roster.find? recipient with
    | none =>
      rw [hfind] at hrouted
      cases hrouted
    | some id =>
      obtain ⟨target, hentry, hname⟩ := h.wellFormed.find?_eq_some_iff.1 hfind
      exact ⟨target, (h.wellFormed.entryOf?_eq_some_iff.1 hentry).1, hname⟩
  · rintro ⟨⟨text, hparse⟩, hactive⟩
    exact (offers_direct h hsender hparse hactive).1

/-- **A direct message is reported, queued or not**, in every room that is reached. It is reported
as one to its recipient exactly if the line asks for it and somebody of that name is active. It is
queued exactly if the recipient's outbox has a place, and the sender is shown its confirmation
exactly if the sender's own outbox has one, after the message if both are for the sender. So what the
sender is shown can be the confirmation of a message that was dropped, and exactly then: the message
is for another session, which has no place left, while the sender has. -/
theorem reported_queued_or_not (limit : Option Nat) (groups : GroupTable) (capacity : Nat) (log : δ)
    {room : Room δ} (hreach : (Room.new limit groups capacity log).Reachable room)
    {sender : Entry} (hsender : sender ∈ room.roster.entries) (line : String) :
    let routed := (room.route sender.id sender.username line).1
    let after := (room.route sender.id sender.username line).2
    (∀ recipient, routed = .direct recipient ↔
      (∃ text, Command.parse line = .ok (some (.direct recipient text))) ∧
        ∃ target ∈ room.roster.entries, target.username = recipient) ∧
    ∀ recipient text, Command.parse line = .ok (some (.direct recipient text)) →
      ∀ target ∈ room.roster.entries, target.username = recipient →
        let message := (Reply.directFrom sender.username text).line
        let confirmation := (Reply.directTo recipient text).line
        (room.Queues after target message ↔ 0 < room.roster.free target.outbox) ∧
        (room.Queues after sender confirmation ↔
          (if target = sender then 1 else 0) < room.roster.free sender.outbox) ∧
        (room.Queues after sender confirmation ∧ ¬ room.Queues after target message ↔
          target ≠ sender ∧ room.roster.free target.outbox = 0 ∧
            0 < room.roster.free sender.outbox) := by
  have howned : room.roster.Owned := hreach.owned (.empty limit)
  refine ⟨routed_direct_iff_active howned hsender, ?_⟩
  rintro _ text hparse target htarget rfl
  have hoffers := (offers_direct howned hsender hparse ⟨target, htarget, rfl⟩).2.1
  have hmessage := queues_message_iff hoffers htarget
  have hconfirmation := queues_confirmation_iff howned.wellFormed hoffers hsender htarget
  refine ⟨hmessage, hconfirmation, ?_⟩
  rw [hmessage, hconfirmation]
  by_cases hself : target = sender
  · rw [if_pos hself, hself]
    constructor
    · rintro ⟨htwo, hnone⟩
      omega
    · rintro ⟨hother, -⟩
      exact absurd rfl hother
  · rw [if_neg hself]
    constructor
    · rintro ⟨hone, hnone⟩
      exact ⟨hself, by omega, hone⟩
    · rintro ⟨-, hnone, hone⟩
      exact ⟨hone, by omega⟩

/-- Bob writes to Ann, whose outbox is full, and to Carl, whose is not. -/
theorem reported_queued_or_not_bob :
    let start : Room MemoryLog := .new none ⟨[]⟩ 0 { clock := ⟨2024, 5, 1, 12, 0, 0⟩ }
    let room := start.run [.enter ⟨1⟩ "ann" 3, .joined ⟨1⟩ "ann", .enter ⟨2⟩ "bob" 9,
      .joined ⟨2⟩ "bob", .route ⟨2⟩ "bob" "hello", .enter ⟨3⟩ "carl" 9, .joined ⟨3⟩ "carl"]
    let toAnn := room.route ⟨2⟩ "bob" "PRIVMSG ann hi"
    let toCarl := room.route ⟨2⟩ "bob" "PRIVMSG carl hi"
    (toAnn.1 = .direct "ann" ∧ room.Queues toAnn.2 ⟨⟨2⟩, "bob", 1⟩ "(DM to ann): hi" ∧
      ¬ room.Queues toAnn.2 ⟨⟨1⟩, "ann", 0⟩ "(DM from bob): hi") ∧
    toCarl.1 = .direct "carl" ∧ room.Queues toCarl.2 ⟨⟨2⟩, "bob", 1⟩ "(DM to carl): hi" ∧
      room.Queues toCarl.2 ⟨⟨3⟩, "carl", 2⟩ "(DM from bob): hi" := by
  intro start room toAnn toCarl
  have hreach : start.Reachable room := Reachable.start.run _
  have hann : (⟨⟨1⟩, "ann", 0⟩ : Entry) ∈ room.roster.entries := by decide +kernel
  have hbob : (⟨⟨2⟩, "bob", 1⟩ : Entry) ∈ room.roster.entries := by decide +kernel
  have hcarl : (⟨⟨3⟩, "carl", 2⟩ : Entry) ∈ room.roster.entries := by decide +kernel
  have hfree : room.roster.free 0 = 0 ∧ room.roster.free 1 = 6 ∧ room.roster.free 2 = 8 := by
    decide +kernel
  have hparseAnn : Command.parse "PRIVMSG ann hi" = .ok (some (.direct "ann" "hi")) := by
    decide +kernel
  have hparseCarl : Command.parse "PRIVMSG carl hi" = .ok (some (.direct "carl" "hi")) := by
    decide +kernel
  obtain ⟨hroutedAnn, hqueuedAnn⟩ :=
    reported_queued_or_not none ⟨[]⟩ 0 start.log hreach hbob "PRIVMSG ann hi"
  obtain ⟨hroutedCarl, hqueuedCarl⟩ :=
    reported_queued_or_not none ⟨[]⟩ 0 start.log hreach hbob "PRIVMSG carl hi"
  obtain ⟨-, -, hdropped⟩ := hqueuedAnn "ann" "hi" hparseAnn _ hann rfl
  obtain ⟨hmessage, hconfirmation, -⟩ := hqueuedCarl "carl" "hi" hparseCarl _ hcarl rfl
  refine ⟨⟨(hroutedAnn "ann").2 ⟨⟨_, hparseAnn⟩, _, hann, rfl⟩, hdropped.2 ⟨by decide, ?_, ?_⟩⟩,
    (hroutedCarl "carl").2 ⟨⟨_, hparseCarl⟩, _, hcarl, rfl⟩, hconfirmation.2 ?_, hmessage.2 ?_⟩
  · exact hfree.1
  · rw [hfree.2.1]
    decide
  · rw [hfree.2.1]
    decide
  · rw [hfree.2.2]
    decide

/-- Ann's outbox holds the three lines it was made for. Bob's message to her is dropped, and Bob is
told that it went to her. -/
theorem dropped_message_confirmed_ann :
    let start : Room MemoryLog := .new none ⟨[]⟩ 0 { clock := ⟨2024, 5, 1, 12, 0, 0⟩ }
    let room := start.run [.enter ⟨1⟩ "ann" start.greetingLength, .joined ⟨1⟩ "ann",
      .enter ⟨2⟩ "bob" Outbox.defaultCapacity, .joined ⟨2⟩ "bob", .route ⟨2⟩ "bob" "hello"]
    let direct := room.route ⟨2⟩ "bob" "PRIVMSG ann hi"
    start.Reachable room ∧
      room.roster.entries = [⟨⟨1⟩, "ann", 0⟩, ⟨⟨2⟩, "bob", 1⟩] ∧
      direct.1 = .direct "ann" ∧
      room.roster.pending 0 =
        ["Welcome, ann!", "System: bob has joined the chat.", "bob: hello"] ∧
      direct.2.roster.pending 0 = room.roster.pending 0 ∧
      direct.2.roster.pending 1 = ["Welcome, bob!", "bob: hello", "(DM to ann): hi"] := by
  intro start room direct
  exact ⟨Reachable.start.run _, by decide +kernel, by decide +kernel, by decide +kernel,
    by decide +kernel, by decide +kernel⟩

end Room

end ChatRoom
