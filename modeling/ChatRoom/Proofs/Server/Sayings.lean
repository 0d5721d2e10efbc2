import ChatRoom.Proofs.Groups.Loading
import ChatRoom.Proofs.Message
import ChatRoom.Proofs.Server.Lines

/-!
# Reading what a server says

If users have plain names, everything a server says is plain, whatever it hears: what it repeats of
a command to a user or a group is one word, and no group that was loaded has a colon in its name
(`noColon_load`). So its lines, the history and the log can all be read (`no_line_ambiguous`).
-/

namespace ChatRoom

open Text

/-! ## Reading the log -/

/-- What an entry of the log says behind the time. -/
def readLogged? (entry : String) : Option Saying :=
  (after? "] ".toList (entry.toList.dropWhile (· != ']'))).bind fun line => read? (.ofList line)

/-- A time has no bracket in it. -/
theorem readLogged?_stamped (time : Timestamp) (line : String) :
    readLogged? (Log.stamped time line) = read? line := by
  have hentry : (Log.stamped time line).toList =
      ("[".toList ++ time.text.toList) ++ ("] ".toList ++ line.toList) := by
    simp only [Log.stamped, String.toList_append, List.append_assoc]
  have hfront : ∀ c ∈ "[".toList ++ time.text.toList, (c != ']') = true := by
    rw [List.forall_mem_append]
    have hbracket : ∀ c ∈ "[".toList, (c != ']') = true := List.forall_mem_singleton.2 rfl
    refine ⟨hbracket, forall_mem_text (fun c hc => bne_iff_ne.2 ?_) rfl rfl rfl time⟩
    rintro rfl
    exact absurd hc (by decide)
  have hdrop : (Log.stamped time line).toList.dropWhile (· != ']') = "] ".toList ++ line.toList := by
    rw [hentry, List.dropWhile_append_of_pos hfront]
    rfl
  rw [readLogged?, hdrop, after?_append, Option.bind_some, String.ofList_toList]

theorem readLogged?_of_forall₂ {lines entries : List String}
    (h : List.Forall₂ (fun line entry => ∃ time, entry = Log.stamped time line) lines entries) :
    entries.map readLogged? = lines.map read? := by
  induction h with
  | nil => rfl
  | cons hentry _ ih =>
    obtain ⟨time, rfl⟩ := hentry
    rw [List.map_cons, List.map_cons, readLogged?_stamped, ih]

/-! ## Plain names -/

/-- A user of this name is told apart from the chat itself, and is named by one word. -/
structure IsPlainName (username : String) : Prop where
  isWord : ' ' ∉ username.toList
  ne_system : username ≠ "System"

/-- No name that leads to a group has a colon in it. -/
def GroupTable.NoColon (table : GroupTable) : Prop :=
  ∀ name, (table.get? name).isSome → ':' ∉ name.toList

namespace GroupTable

theorem noColon_of_forall {table : GroupTable}
    (h : ∀ group ∈ table.groups, ':' ∉ group.name.toList) : table.NoColon := by
  intro name hname
  obtain ⟨group, hgroup⟩ := Option.isSome_iff_exists.1 hname
  obtain rfl := name_of_get? hgroup
  exact h group (List.mem_of_find?_eq_some hgroup)

theorem noColon_parse (limits : SessionLimits) (text : String) : (parse limits text).NoColon :=
  noColon_of_forall fun _ hmem => (isLoaded_of_mem hmem).noColon

theorem noColon_load (limits : SessionLimits) (file : FileContent) :
    (load limits file).NoColon := by
  unfold load
  split
  · exact noColon_parse limits _
  · exact noColon_of_forall fun _ hmem => absurd hmem List.not_mem_nil

end GroupTable

/-! ## Plain sayings -/

/-- Lines that are fixed, or that say something that can be read. -/
def plainVocabulary : Vocabulary where
  said line := IsFixed line ∨ ∃ saying : Saying, saying.IsPlain ∧ saying.line = line
  named username := IsPlainName username ∧ IsLine username
  heard := IsLine
  kept event := event.IsPlain ∧ IsLine event.line

theorem said_reply (reply : Reply) (h : reply.IsPlain) : plainVocabulary.said reply.line :=
  .inr ⟨.reply reply, h, rfl⟩

theorem said_event (event : Event) (h : event.IsPlain) : plainVocabulary.said event.line :=
  .inr ⟨.event event, h, rfl⟩

theorem isClosed_plainVocabulary {groups : GroupTable} (hgroups : groups.NoColon) :
    plainVocabulary.IsClosed groups where
  historyStart := .inl (.inl (by simp))
  historyEnd := .inl (.inl (by simp))
  malformed malformed := said_reply (.malformed malformed) trivial
  welcome {username} _ := said_reply (.welcome username) trivial
  joined hu := ⟨trivial, isLine_joined hu.2⟩
  left hu := ⟨trivial, isLine_left hu.2⟩
  told he := by
    rw [he.2.endsPlain.dropTerminators]
    exact ⟨said_event _ he.1, said_event _ he.1⟩
  global hs hl hc :=
    ⟨⟨hs.1.isWord, hs.1.ne_system⟩, (isClosed_lineVocabulary groups).global hs.2 hl hc⟩
  direct {sender line recipient text} hs hl hc := by
    have hword : ' ' ∉ recipient.toList := (Command.parse_direct hc).isWord
    have hline := ((isClosed_lineVocabulary groups).direct hs.2 hl hc).1
    exact ⟨⟨⟨hs.1.isWord, hword⟩, hline⟩,
      said_reply (.directFrom sender text) hs.1.isWord,
      said_reply (.directTo recipient text) hword,
      said_reply (.userNotFound recipient) trivial⟩
  groupNotFound {_ name _} _ _ := said_reply (.groupNotFound name) trivial
  group {sender line name text} hs hl hc hname := by
    have hword : ' ' ∉ name.toList := (Command.parse_group hc).isWord
    have hline := ((isClosed_lineVocabulary groups).group hs.2 hl hc hname).1
    exact ⟨⟨⟨hword, hs.1.isWord⟩, hline⟩,
      said_reply (.groupFrom name sender text)
        ⟨⟨hword, hgroups name hname⟩, hs.1.isWord⟩,
      said_reply (.groupTo name text) hword⟩

theorem isServed_plainVocabulary : plainVocabulary.IsServed where
  request := .inl (.inl List.mem_cons_self)
  rejection rejection _ hl := .inl (.inr ⟨rejection, hl⟩)
  heard h := h

/-- The groups of a server have no colons in their names if those that it was given have none. -/
theorem Plan.SetsUp.noColon {δ : Type} {plan : Plan} {host : Host δ} {server : Server δ}
    (h : plan.SetsUp host server) (hgroups : ∀ table ∈ plan.groups, table.NoColon) :
    server.room.groups.NoColon := by
  rw [h.groups]
  cases hplan : plan.groups with
  | none => exact GroupTable.noColon_load _ _
  | some table => exact hgroups table hplan

namespace Server

theorem IsNew.plain {δ : Type} {server : Server δ} (h : server.IsNew)
    (hnames : ∀ username ∈ server.allowList, IsPlainName username)
    (hgroups : server.room.groups.NoColon) : server.Says plainVocabulary :=
  h.speaks (isClosed_plainVocabulary hgroups) fun _ username hl hcheck =>
    ⟨hnames username (AllowList.check_eq_ok.1 hcheck).2.2.2, isLine_of_check hcheck hl⟩

/-- **No line is ambiguous.** If the names that are read as words have no space in them, no group of
a delivered message has a colon in its name, and nobody who writes to everybody is called `System`,
then what is said is read back from its line, whatever its text. So no two replies or events have
one line, and none has a fixed one. A text or a file with groups has none with a colon in its name.

If the names on the allow-list of a server are plain, and the groups that it was given have no
colons, then every line that any client is sent is a fixed one or can be read; the history reads as
the last events on record, and a log whose device works as the events on record. -/
theorem no_line_ambiguous :
    (∀ saying : Saying, saying.IsPlain →
      read? saying.line = some saying ∧
      (∀ other : Saying, other.IsPlain → (saying.line = other.line ↔ saying = other)) ∧
      ¬ IsFixed saying.line ∧ ∀ rejection : Rejection, saying.line ≠ rejection.text) ∧
    (∀ limits text, (GroupTable.parse limits text).NoColon) ∧
    ∀ (δ : Type) [LogDevice δ] (plan : Plan) (host : Host δ) (start : Server δ),
      plan.start host = .ok start →
      (∀ username ∈ start.allowList, IsPlainName username) →
      (∀ table ∈ plan.groups, table.NoColon) →
      ∀ events : List NetworkEvent,
        let server := start.run events
        let record := start.recorded events
        (∀ c ∈ server.connections, ∀ line ∈ c.sent, (IsFixed line ∧ read? line = none) ∨
          ∃ saying : Saying, saying.IsPlain ∧ saying.line = line ∧ read? line = some saying) ∧
        (∀ r ∈ record, r.event.IsPlain) ∧
        server.room.history.lines.map read? =
          (record.map fun r => some (.event r.event)).rtake server.room.history.capacity ∧
        ∀ written works, LogDevice.Works written works → works start.room.log →
          ∃ entries : List String,
            written server.room.log = written start.room.log ++ LineStream.writeAll entries ∧
            entries.map readLogged? = record.map fun r => some (.event r.event) := by
  refine ⟨fun saying hsaying => ?_, GroupTable.noColon_parse, ?_⟩
  · refine ⟨Saying.read?_line hsaying, fun other hother => Saying.line_inj hsaying hother,
      Saying.not_isFixed hsaying, fun rejection hline => ?_⟩
    have hread := Saying.read?_line hsaying
    rw [hline, read?_rejection] at hread
    cases hread
  · intro δ _ plan host start hstart hnames hgroups events server record
    have hsetup := Plan.setsUp_of_start hstart
    have hnew : start.IsNew := hsetup.isNew
    have hplain := hnew.plain hnames (hsetup.noColon hgroups)
    obtain ⟨hserver, hrecord⟩ := hplain.run isServed_plainVocabulary hnew.keepsNoLines events
    have hread : (record.map (·.event.line)).map read? =
        record.map fun r => some (.event r.event) := by
      rw [List.map_map]
      exact List.map_congr_left fun r hr => read?_event (hrecord r hr).1
    refine ⟨fun c hc line hl => ?_, fun r hr => (hrecord r hr).1, ?_,
      fun written works hworks hw => ?_⟩
    · rcases (hserver.connections c hc).sent line hl with hfixed | ⟨saying, hplain, rfl⟩
      · exact .inl ⟨hfixed, read?_of_isFixed hfixed⟩
      · exact .inr ⟨saying, hplain, rfl, Saying.read?_line hplain⟩
    · have hhistory : server.room.history.lines =
          (record.map (·.event.line)).rtake server.room.history.capacity :=
        history_run_new hnew fun r hr => (hrecord r hr).2
      rw [hhistory, ← hread]
      simp only [List.rtake, List.map_drop, List.length_map]
    · have hlines : ∀ line ∈ record.map (·.event.line), EndsPlain line := by
        intro line hl
        obtain ⟨r, hr, rfl⟩ := List.mem_map.1 hl
        exact (hrecord r hr).2.endsPlain
      obtain ⟨entries, hentries, hwritten⟩ := hworks.written_foldl_note hlines hw
      refine ⟨entries, ?_, ?_⟩
      · rw [(room_run_recorded hnew.keepsNoLines events).2]
        exact hwritten
      · rw [← hread]
        exact readLogged?_of_forall₂ hentries

/-- Bob sends a text that looks like a message to everybody in a message to Ann, and one that looks
like a message of the chat to their group. -/
theorem no_line_ambiguous_ann_bob :
    let plan : Plan := {
      allowList := some ⟨["ann", "bob"]⟩
      groups := some ⟨[⟨"team", ["ann", "bob"]⟩]⟩ }
    let host := Host.inMemory { clock := ⟨2024, 5, 1, 12, 0, 0⟩, pace := some 7 }
    let peer : Arrival := .peer (.v4 #v[127, 0, 0, 1] 4000)
    let events : List NetworkEvent := [.accepts .tcp peer, .accepts .tcp peer,
      .wire ⟨1⟩ (.bytes (Utf8.encode "ann\n")), .wire ⟨2⟩ (.bytes (Utf8.encode "bob\n")),
      .wire ⟨2⟩ (.bytes (Utf8.encode "PRIVMSG ann from ann): hi\n")),
      .wire ⟨2⟩ (.bytes (Utf8.encode "GROUPMSG team ann has left the chat.\n"))]
    ∃ start, plan.start host = .ok start ∧
      (start.run events).connections.head?.map Connection.sent =
        some ["REQ_USERNAME", "Welcome, ann!", "System: bob has joined the chat.",
          "(DM from bob): from ann): hi", "(#team from bob): ann has left the chat."] ∧
      (∀ c ∈ (start.run events).connections, ∀ line ∈ c.sent, (IsFixed line ∧ read? line = none) ∨
        ∃ saying : Saying, saying.IsPlain ∧ saying.line = line ∧ read? line = some saying) ∧
      ∃ entries : List String,
        (start.run events).room.log.written = LineStream.writeAll entries ∧
        entries.map readLogged? =
          (start.recorded events).map fun r => some (.event r.event) := by
  intro plan host peer events
  have hstart : plan.start host = .ok _ := rfl
  have hnames : ∀ username ∈ (["ann", "bob"] : List String), IsPlainName username := by
    simp only [List.forall_mem_cons]
    exact ⟨⟨by decide, by decide⟩, ⟨by decide, by decide⟩, fun _ h => absurd h List.not_mem_nil⟩
  have hgroups : ∀ table ∈ plan.groups, table.NoColon := by
    rintro table ⟨⟩
    exact GroupTable.noColon_of_forall (by decide)
  obtain ⟨hsent, -, -, hlog⟩ :=
    no_line_ambiguous.2.2 MemoryLog plan host _ hstart hnames hgroups events
  obtain ⟨entries, hwritten, hentries⟩ := hlog _ _ MemoryLog.works ⟨rfl, rfl, by decide⟩
  exact ⟨_, hstart, by decide +kernel, hsent, entries, hwritten, hentries⟩

end Server

end ChatRoom
