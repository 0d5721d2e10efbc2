import ChatRoom.Proofs.AllowList
import ChatRoom.Proofs.Command
import ChatRoom.Proofs.Groups.Loading
import ChatRoom.Proofs.Room.PrivateRouting

/-!
# Which loaded names can be addressed

The allow-list and the groups are loaded by lines, a command is read by words. So a name that was
loaded can be addressed exactly if it has no space: a command to such a name is read back
(`Command.parse_line`), and one to a name with a space asks for the word in front of it
(`Command.parse_line_spaced`), which is another name. What is addressed gets there as far as there
is room in the outboxes (`Room.Offers`).
-/

namespace ChatRoom

open Text

variable {text word rest : String}

/-! ## Names with spaces -/

theorem Text.IsTrimmed.word_ne_empty (h : IsTrimmed (word ++ " " ++ rest)) : word ≠ "" := by
  rintro rfl
  have hblank : isBlank ' ' = false := h.begins ' ' (by simp)
  exact absurd hblank (by decide)

namespace Command

/-- A name with a space is read up to there, and the rest of it goes to the text. -/
theorem parse_line_spaced (kind : MalformedCommand) (hword : ' ' ∉ word.toList) (hne : word ≠ "")
    (htext : text ≠ "") (hends : EndsSolid text) :
    parse (kind.command (word ++ " " ++ rest) text).line =
      .ok (some (kind.command word (rest ++ " " ++ text))) := by
  have hline : (kind.command (word ++ " " ++ rest) text).line =
      (kind.command word (rest ++ " " ++ text)).line := by
    simp only [MalformedCommand.line_command, String.append_assoc]
  rw [hline]
  exact parse_line kind hne hword (by simp) ((endsSolid_append _ htext).2 hends)

/-- A command is read with the target it was written with exactly if that has no space. -/
theorem parse_line_iff (kind : MalformedCommand) {target : String} (htarget : target ≠ "")
    (htext : text ≠ "") (hends : EndsSolid text) :
    (∃ text', parse (kind.command target text).line = .ok (some (kind.command target text'))) ↔
      ' ' ∉ target.toList := by
  constructor
  · rintro ⟨text', hparse⟩
    exact ((parse_eq_command_iff kind).1 hparse).isWord
  · intro hword
    exact ⟨text, parse_line kind htarget hword htext hends⟩

end Command

namespace Room

variable {δ : Type} [LogDevice δ] {room : Room δ} {id : ConnectionId} {line name : String}

/-! ## What was routed -/

theorem parse_of_routed_direct {sender recipient : String}
    (h : (room.route id sender line).1 = .direct recipient) :
    ∃ text, Command.parse line = .ok (some (.direct recipient text)) := by
  unfold route at h
  split at h
  · cases h
  · cases h
  · cases h
  · rename_i recipient' text hparse
    unfold routeDirect at h
    split at h
    · cases h
    · cases h
      exact ⟨text, hparse⟩
  · unfold routeGroup at h
    split at h <;> cases h

theorem parse_of_routed_group {sender : String} {count : Nat}
    (h : (room.route id sender line).1 = .group name count) :
    ∃ text, Command.parse line = .ok (some (.group name text)) := by
  unfold route at h
  split at h
  · cases h
  · cases h
  · cases h
  · unfold routeDirect at h
    split at h <;> cases h
  · rename_i name' text hparse
    unfold routeGroup at h
    split at h
    · cases h
    · rename_i group hgroup
      have hname := GroupTable.name_of_get? hgroup
      cases h
      exact ⟨text, hname ▸ hparse⟩

section

variable {sender target : Entry}

/-! ## Users -/

theorem routed_direct_iff (h : room.roster.Owned) (hsender : sender ∈ room.roster.entries)
    (htarget : target ∈ room.roster.entries) (hne : target.username ≠ "") (htext : text ≠ "")
    (hends : EndsSolid text) :
    (room.route sender.id sender.username (Command.direct target.username text).line).1 =
      .direct target.username ↔ ' ' ∉ target.username.toList := by
  constructor
  · intro hrouted
    exact (Command.parse_line_iff .direct hne htext hends).1 (parse_of_routed_direct hrouted)
  · intro hword
    have hparse := Command.parse_line .direct hne hword htext hends
    exact (offers_direct h hsender hparse ⟨target, htarget, rfl⟩).1

/-- A direct message is offered to the session that has the name. -/
theorem offers_addressed (h : room.roster.Owned) (hsender : sender ∈ room.roster.entries)
    (htarget : target ∈ room.roster.entries) (hne : target.username ≠ "")
    (hword : ' ' ∉ target.username.toList) (htext : text ≠ "") (hends : EndsSolid text) :
    let after := (room.route sender.id sender.username
      (Command.direct target.username text).line).2
    room.Offers after (directLines sender target.username text) ∧
      (room.roster.canReach target.id = true →
        (Reply.directFrom sender.username text).line ∈ after.roster.pending target.outbox) := by
  intro after
  have hparse : Command.parse (Command.direct target.username text).line =
      .ok (some (.direct target.username text)) :=
    Command.parse_line .direct hne hword htext hends
  have hoffers : room.Offers after (directLines sender target.username text) :=
    (offers_direct h hsender hparse ⟨target, htarget, rfl⟩).2.1
  refine ⟨hoffers, fun hreach => ?_⟩
  have hfirst : directLines sender target.username text target =
      (Reply.directFrom sender.username text).line ::
        if target = sender then [(Reply.directTo target.username text).line] else [] := by
    rw [directLines, if_pos rfl]
    rfl
  exact hoffers.mem_pending h.wellFormed htarget hreach hfirst

/-! ## Groups -/

theorem routed_group_iff (h : room.roster.Owned) (hsender : sender ∈ room.roster.entries)
    {group : Group} (hgroup : room.groups.get? name = some group) (hmembers : group.members.Nodup)
    (hne : name ≠ "") (htext : text ≠ "") (hends : EndsSolid text) :
    (∃ count, (room.route sender.id sender.username (Command.group name text).line).1 =
      .group name count) ↔ ' ' ∉ name.toList := by
  constructor
  · rintro ⟨count, hrouted⟩
    exact (Command.parse_line_iff .group hne htext hends).1 (parse_of_routed_group hrouted)
  · intro hword
    have hparse := Command.parse_line .group hne hword htext hends
    exact ⟨_, (offers_group h hsender hparse hgroup hmembers).1⟩

/-- A message to a group is offered to its members, and those are counted that it is queued for. -/
theorem offers_members (h : room.roster.Owned) (hsender : sender ∈ room.roster.entries)
    {group : Group} (hgroup : room.groups.get? name = some group) (hmembers : group.members.Nodup)
    (hne : name ≠ "") (hword : ' ' ∉ name.toList) (htext : text ≠ "") (hends : EndsSolid text) :
    let routed := room.route sender.id sender.username (Command.group name text).line
    room.Offers routed.2 (groupLines sender name group.members text) ∧
      routed.1 = .group name (room.roster.entries.countP fun entry =>
        room.roster.canReach entry.id ∧ entry ≠ sender ∧ entry.username ∈ group.members) ∧
      ∀ entry ∈ room.roster.entries, entry ≠ sender → entry.username ∈ group.members →
        room.roster.canReach entry.id = true →
          (Reply.groupFrom name sender.username text).line ∈
            routed.2.roster.pending entry.outbox := by
  intro routed
  have hparse : Command.parse (Command.group name text).line = .ok (some (.group name text)) :=
    Command.parse_line .group hne hword htext hends
  have hoffers : room.Offers routed.2 (groupLines sender name group.members text) :=
    (offers_group h hsender hparse hgroup hmembers).2.1
  refine ⟨hoffers, (offers_group h hsender hparse hgroup hmembers).1,
    fun entry he hother hmember hreach => ?_⟩
  have hfirst : groupLines sender name group.members text entry =
      [(Reply.groupFrom name sender.username text).line] := by
    rw [groupLines, if_neg hother, if_pos hmember]
  exact hoffers.mem_pending h.wellFormed he hreach hfirst

end

/-! ## Names that were loaded -/

/-- **Loaded names without spaces are addressed**, in every room that is reached with the groups of
any file, for the users on the list of any file. A direct message to such a user goes to that user,
and a message to such a group to its members, exactly if the name has no space. Then the message is
queued wherever there is room, its sender is offered a confirmation, and nobody else gets anything.
If the name has a space, the message is for what stands in front of it. -/
theorem loaded_names_are_addressed (limits : SessionLimits) (listText groupsText : String)
    (limit : Option Nat) (capacity : Nat) (log : δ) {room : Room δ}
    (hreach : (Room.new limit (.parse limits groupsText) capacity log).Reachable room)
    {sender : Entry} (hsender : sender ∈ room.roster.entries) {text : String} (htext : text ≠ "")
    (hends : EndsSolid text) :
    (∀ target ∈ room.roster.entries, target.username ∈ AllowList.parse limits listText →
      let line := (Command.direct target.username text).line
      let routed := room.route sender.id sender.username line
      (routed.1 = .direct target.username ↔ ' ' ∉ target.username.toList) ∧
      (' ' ∉ target.username.toList →
        room.Offers routed.2 (directLines sender target.username text) ∧
        (room.roster.canReach target.id = true →
          (Reply.directFrom sender.username text).line ∈
            routed.2.roster.pending target.outbox)) ∧
      ∀ word rest, target.username = word ++ " " ++ rest → ' ' ∉ word.toList →
        Command.parse line = .ok (some (.direct word (rest ++ " " ++ text)))) ∧
    ∀ name group, (GroupTable.parse limits groupsText).get? name = some group →
      let line := (Command.group name text).line
      let routed := room.route sender.id sender.username line
      ((∃ count, routed.1 = .group name count) ↔ ' ' ∉ name.toList) ∧
      (' ' ∉ name.toList →
        room.Offers routed.2 (groupLines sender name group.members text) ∧
        routed.1 = .group name (room.roster.entries.countP fun entry =>
          room.roster.canReach entry.id ∧ entry ≠ sender ∧ entry.username ∈ group.members) ∧
        ∀ entry ∈ room.roster.entries, entry ≠ sender → entry.username ∈ group.members →
          room.roster.canReach entry.id = true →
            (Reply.groupFrom name sender.username text).line ∈
              routed.2.roster.pending entry.outbox) ∧
      ∀ word rest, name = word ++ " " ++ rest → ' ' ∉ word.toList →
        Command.parse line = .ok (some (.group word (rest ++ " " ++ text))) := by
  have howned : room.roster.Owned := hreach.owned (.empty limit)
  have hgroups : room.groups = .parse limits groupsText := hreach.groups_eq
  refine ⟨fun target htarget hlisted => ?_, fun name group hgroup => ?_⟩
  · have hkept := AllowList.isKept_of_mem hlisted
    refine ⟨routed_direct_iff howned hsender htarget hkept.ne_empty htext hends,
      fun hword => offers_addressed howned hsender htarget hkept.ne_empty hword htext hends,
      fun word rest hname hword => ?_⟩
    have hne : word ≠ "" := (hname ▸ hkept.isTrimmed).word_ne_empty
    rw [hname]
    exact Command.parse_line_spaced .direct hword hne htext hends
  · obtain ⟨hmem, rfl⟩ := (GroupTable.isBuilt_parse limits groupsText).get?_eq_some_iff.1 hgroup
    have hloaded := GroupTable.isLoaded_of_mem hmem
    rw [← hgroups] at hgroup
    refine ⟨routed_group_iff howned hsender hgroup hloaded.nodup hloaded.name_ne_empty htext hends,
      fun hword => offers_members howned hsender hgroup hloaded.nodup hloaded.name_ne_empty hword
        htext hends,
      fun word rest hname hword => ?_⟩
    have hne : word ≠ "" := (hname ▸ hloaded.isTrimmed).word_ne_empty
    rw [hname]
    exact Command.parse_line_spaced .group hword hne htext hends

/-- Bob writes to Ann, and to a team that both are in. -/
theorem loaded_names_are_addressed_ann_bob :
    let limits : SessionLimits := {}
    let start : Room MemoryLog :=
      .new none (.parse limits "team:bob,ann") 2 { clock := ⟨2024, 5, 1, 12, 0, 0⟩ }
    let room := start.run [.enter ⟨1⟩ "ann" 9, .enter ⟨2⟩ "bob" 9, .drain 0, .drain 1]
    (room.route ⟨2⟩ "bob" "PRIVMSG ann hi").1 = .direct "ann" ∧
      "(DM from bob): hi" ∈ (room.route ⟨2⟩ "bob" "PRIVMSG ann hi").2.roster.pending 0 ∧
      "(#team from bob): hi" ∈ (room.route ⟨2⟩ "bob" "GROUPMSG team hi").2.roster.pending 0 := by
  intro limits start room
  have hreach : start.Reachable room := Reachable.start.run _
  have hann : (⟨⟨1⟩, "ann", 0⟩ : Entry) ∈ room.roster.entries := by decide +kernel
  have hbob : (⟨⟨2⟩, "bob", 1⟩ : Entry) ∈ room.roster.entries := by decide +kernel
  have hlisted : "ann" ∈ AllowList.parse limits "ann\nbob" := by decide +kernel
  have hteam : (GroupTable.parse limits "team:bob,ann").get? "team" =
      some ⟨"team", ["bob", "ann"]⟩ := by decide +kernel
  have hroom : room.roster.canReach ⟨1⟩ = true := by decide +kernel
  have htext : "hi" ≠ "" := by decide
  obtain ⟨husers, hgroups⟩ := loaded_names_are_addressed limits "ann\nbob" "team:bob,ann" none 2
    start.log hreach hbob htext (by decide)
  obtain ⟨hrouted, hoffered, -⟩ := husers _ hann hlisted
  obtain ⟨-, hshared, -⟩ := hgroups "team" _ hteam
  have hdirect : "PRIVMSG ann hi" = (Command.direct "ann" "hi").line := by decide
  have hgroup : "GROUPMSG team hi" = (Command.group "team" "hi").line := by decide
  have hdm : "(DM from bob): hi" = (Reply.directFrom "bob" "hi").line := by decide
  have hgm : "(#team from bob): hi" = (Reply.groupFrom "team" "bob" "hi").line := by decide
  rw [hdirect, hgroup, hdm, hgm]
  have hgot := (hshared (by decide)).2.2 _ hann (by decide) (by decide) hroom
  exact ⟨hrouted.2 (by decide), (hoffered (by decide)).2 hroom, hgot⟩

/-- A message to the user `ann lee` goes to the user `ann`, and one to the group `my team` to nobody,
though both names were loaded. One to Carl is lost, since his outbox is full. -/
theorem loaded_name_missed_ann_lee :
    let limits : SessionLimits := {}
    let start : Room MemoryLog :=
      .new none (.parse limits "my team:ann") 2 { clock := ⟨2024, 5, 1, 12, 0, 0⟩ }
    let room := start.run [.enter ⟨1⟩ "ann" 9, .enter ⟨2⟩ "ann lee" 9, .enter ⟨3⟩ "bob" 9,
      .drain 0, .drain 1, .drain 2, .enter ⟨4⟩ "carl" 1]
    let direct := room.route ⟨3⟩ "bob" "PRIVMSG ann lee hi"
    let group := room.route ⟨3⟩ "bob" "GROUPMSG my team hi"
    let late := room.route ⟨3⟩ "bob" "PRIVMSG carl hi"
    start.Reachable room ∧
      (AllowList.parse limits "ann\nann lee\nbob\ncarl").names =
        ["ann", "ann lee", "bob", "carl"] ∧
      room.roster.entries.map (·.username) = ["ann", "ann lee", "bob", "carl"] ∧
      direct.1 = .direct "ann" ∧
      direct.2.roster.outboxes.map (·.pending) =
        [["(DM from bob): lee hi"], [], ["(DM to ann): lee hi"], ["Welcome, carl!"]] ∧
      start.groups.get? "my team" = some ⟨"my team", ["ann"]⟩ ∧
      group.1 = .rejected ∧
      group.2.roster.outboxes.map (·.pending) =
        [[], [], ["System: Group '#my' not found."], ["Welcome, carl!"]] ∧
      late.2.roster.pending 3 = ["Welcome, carl!"] := by
  intro limits start room direct group late
  exact ⟨Reachable.start.run _, by decide +kernel, by decide +kernel, by decide +kernel,
    by decide +kernel, by decide +kernel, by decide +kernel, by decide +kernel, by decide +kernel⟩

end Room

end ChatRoom
