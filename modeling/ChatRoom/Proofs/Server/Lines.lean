import ChatRoom.Proofs.Log.Entries
import ChatRoom.Proofs.Room.Lines
import ChatRoom.Proofs.Server.Vocabulary

/-!
# No line injection

A server says nothing but lines, to anybody, whatever it hears (`invariant_clean`): nothing but lines
comes in, names are parts of lines, and lines are a closed vocabulary. `no_line_injection` says what
follows for the bytes that clients receive and for the log.
-/

namespace ChatRoom

open Text

namespace Server

variable {δ : Type}

/-! ## Servers that say lines -/

theorem isLine_usernameRequest : IsLine usernameRequest := by decide

theorem isLine_rejection (rejection : Rejection) : ∀ line ∈ rejection.lines, IsLine line := by
  cases rejection <;> decide

theorem isServed_lineVocabulary : lineVocabulary.IsServed where
  request := isLine_usernameRequest
  rejection := isLine_rejection
  heard h := h

/-- A name that is accepted is a part of the line it was given in. -/
theorem isLine_of_check {list : AllowList} {limits : SessionLimits} {line username : String}
    (h : list.check limits line = .ok username) (hl : IsLine line) : IsLine username :=
  (AllowList.check_eq_ok.1 h).1 ▸ hl.of_subset (trim_subset line)

theorem IsNew.clean {server : Server δ} (h : server.IsNew) : server.Says lineVocabulary :=
  h.speaks (isClosed_lineVocabulary _) fun _ _ hl hcheck => isLine_of_check hcheck hl

variable [LogDevice δ]

/-- **Lines only**: whatever comes in, a server that says lines keeps doing so. -/
theorem invariant_clean : Invariant fun (server : Server δ) ts =>
    server.Says lineVocabulary ∧ ∀ turn ∈ ts, turn.Says lineVocabulary :=
  invariant_vocabulary isServed_lineVocabulary

/-! ## What is seen of it -/

theorem history_run_new {server : Server δ} (h : server.IsNew) {events : List NetworkEvent}
    (hlines : ∀ r ∈ server.recorded events, IsLine r.event.line) :
    (server.run events).room.history.lines =
      ((server.recorded events).map (·.event.line)).rtake
        (server.run events).room.history.capacity := by
  obtain ⟨limit, groups, capacity, log, hroom⟩ := h.room
  have hempty : server.room.history.lines = [] := by rw [hroom]; rfl
  have hplain : ((server.recorded events).map (·.event.line)).map dropTerminators =
      (server.recorded events).map (·.event.line) := by
    rw [List.map_map]
    exact List.map_congr_left fun r hr => (hlines r hr).endsPlain.dropTerminators
  rw [(room_run_recorded h.keepsNoLines events).1, History.capacity_foldl_append,
    History.lines_foldl_append _ _ (by simp [hempty]), hempty, hplain, List.nil_append]

/-- **No line injection.** Every line that a client is sent, and every event on record, is one line:
it holds neither a carriage return nor a line feed. So the bytes that a client receives on a plain
connection, cut at line feeds, are the lines it was sent; a frame holds one line and one line feed;
and the log, if its device works, grows by one line for each event. -/
theorem no_line_injection {plan : Plan} {host : Host δ} {start : Server δ}
    (hstart : plan.start host = .ok start) (events : List NetworkEvent) :
    let server := start.run events
    let record := start.recorded events
    ((∀ c ∈ server.connections, ∀ line ∈ c.sent, IsLine line) ∧
      (∀ turn ∈ start.turns events, ∀ box, ∀ line ∈ turn.room.roster.pending box, IsLine line) ∧
      IsLine usernameRequest ∧ ∀ rejection : Rejection, ∀ line ∈ rejection.lines, IsLine line) ∧
    ((∀ r ∈ record, IsLine r.event.line) ∧
      server.room.history.lines =
        (record.map (·.event.line)).rtake server.room.history.capacity ∧
      server.room.log =
        (record.map (·.event.line)).foldl (fun log line => Log.note line log) start.room.log) ∧
    (∀ c ∈ server.connections,
      (LineStream.writeAll c.sent).splitOn LineStream.lf = c.sent.map Utf8.encode ++ [[]] ∧
      ∀ line ∈ c.sent, Frame.write line = .text [Utf8.encode line ++ [LineStream.lf]] ∧
        LineStream.lf ∉ Utf8.encode line ∧ LineStream.cr ∉ Utf8.encode line) ∧
    (∀ r ∈ record, ∀ time,
      Utf8.encode (Log.entry time r.event.line) =
        LineStream.write (Log.stamped time r.event.line) ∧
      IsLine (Log.stamped time r.event.line)) ∧
    ∀ written works, LogDevice.Works written works → works start.room.log →
      ∃ entries : List String,
        List.Forall₂ (fun r entry => ∃ time, entry = Log.stamped time r.event.line)
          record entries ∧
        written server.room.log = written start.room.log ++ LineStream.writeAll entries ∧
        (LineStream.writeAll entries).splitOn LineStream.lf =
          entries.map Utf8.encode ++ [[]] := by
  intro server record
  have hnew : start.IsNew := Plan.isNew_of_start hstart
  obtain ⟨hclean, hturns⟩ := invariant_clean.run
    ⟨hnew.clean, fun turn ht => absurd ht List.not_mem_nil⟩ hnew.keepsNoLines events
  have hsent : ∀ c ∈ server.connections, ∀ line ∈ c.sent, IsLine line :=
    fun c hc => (hclean.connections c hc).sent
  have hrecord : ∀ r ∈ record, IsLine r.event.line := by
    intro r hr
    obtain ⟨turn, ht, hr⟩ := List.mem_flatMap.1 hr
    exact (hturns turn ht).records r hr
  have hlog := (room_run_recorded hnew.keepsNoLines events).2
  refine ⟨⟨hsent, fun turn ht => (hturns turn ht).pending, isLine_usernameRequest,
    isLine_rejection⟩, ⟨hrecord, history_run_new hnew hrecord, hlog⟩, fun c hc => ?_,
    fun r hr time => ?_, fun written works hworks hw => ?_⟩
  · refine ⟨LineStream.splitOn_writeAll (hsent c hc), fun line hl => ?_⟩
    exact ⟨Frame.write_eq line, Utf8.isLine_iff.1 (hsent c hc line hl)⟩
  · exact ⟨Log.entry_eq time (hrecord r hr).endsPlain, Log.isLine_stamped time (hrecord r hr)⟩
  · have hplain : ∀ line ∈ record.map (·.event.line), EndsPlain line := by
      intro line hl
      obtain ⟨r, hr, rfl⟩ := List.mem_map.1 hl
      exact (hrecord r hr).endsPlain
    obtain ⟨entries, hentries, hwritten⟩ := hworks.written_foldl_note hplain hw
    rw [List.forall₂_map_left_iff] at hentries
    have hstamped : ∀ entry ∈ entries, IsLine entry := by
      intro entry he
      obtain ⟨r, hr, time, rfl⟩ := exists_mem_of_forall₂ hentries he
      exact Log.isLine_stamped time (hrecord r hr)
    exact ⟨entries, hentries, hlog ▸ hwritten, LineStream.splitOn_writeAll hstamped⟩

/-- Ann sends a group message with a line feed in it, and Bob a frame with a carriage return. -/
theorem no_line_injection_ann_bob :
    let plan : Plan := {
      settings := { webSocketAddress := some "127.0.0.1:8081" }
      allowList := some ⟨["ann", "bob"]⟩
      groups := some ⟨[⟨"a\nb", ["ann", "bob"]⟩]⟩ }
    let host := Host.inMemory { clock := ⟨2024, 5, 1, 12, 0, 0⟩, pace := some 7 }
    let peer : Arrival := .peer (.v4 #v[127, 0, 0, 1] 4000)
    let events : List NetworkEvent := [.accepts .tcp peer, .accepts .webSocket peer,
      .wire ⟨1⟩ (.bytes (Utf8.encode "ann\nhel")),
      .wire ⟨2⟩ (.frame (.text [Utf8.encode "bob"])),
      .wire ⟨1⟩ (.bytes (Utf8.encode "lo\r\nGROUPMSG a\nb hi\n")),
      .wire ⟨2⟩ (.frame (.text [Utf8.encode "x\ry"]))]
    ∃ start, plan.start host = .ok start ∧
      (start.run events).connections.map Connection.sent =
        [["REQ_USERNAME", "Welcome, ann!", "System: bob has joined the chat.", "ann: hello",
            "System: Invalid GM format. Use: GROUPMSG <group> <message>", "ann: b hi",
            "System: bob has left the chat."],
          ["REQ_USERNAME", "Welcome, bob!", "--- Recent Chat History ---",
            "System: ann has joined the chat.", "--- End of History ---", "ann: hello",
            "ann: b hi"]] ∧
      (∀ c ∈ (start.run events).connections, ∀ line ∈ c.sent, IsLine line) ∧
      ∃ entries : List String, List.Forall₂
          (fun r entry => ∃ time, entry = Log.stamped time r.event.line)
          (start.recorded events) entries ∧
        (start.run events).room.log.written = LineStream.writeAll entries := by
  intro plan host peer events
  have hstart : plan.start host = .ok _ := rfl
  refine ⟨_, hstart, by decide +kernel, ?_⟩
  obtain ⟨⟨hsent, -⟩, -, -, -, hlog⟩ := no_line_injection hstart events
  obtain ⟨entries, hentries, hwritten, -⟩ :=
    hlog _ _ MemoryLog.works ⟨rfl, rfl, by decide⟩
  exact ⟨hsent, entries, hentries, hwritten⟩

end Server

end ChatRoom
