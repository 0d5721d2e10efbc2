import ChatRoom.Proofs.Server.Login
import ChatRoom.Proofs.Server.Plain
import ChatRoom.Proofs.Wire.Carriers

/-!
# Carriers do not matter

Clients that only connect, send lines and end (`ClientStep`) are served alike whatever their
connections run over: every step shows the same `Report`.

No connection is ever in the middle of a line or gone (`Carries`), so the same is heard over both
carriers, and forgetting them commutes with every step (`Carries.plain_step`). A report does not
tell carriers (`report_plain`), so a run shows what it would show if all connections were plain
(`Carries.reports_eq`).
-/

namespace ChatRoom

open Text

/-! ## Scripts -/

/-- What a client does that connects, sends lines and ends, and nothing else. -/
inductive ClientStep where
  | connect (address : Address)
  | send (id : ConnectionId) (line : String)
  | close (id : ConnectionId)
  deriving DecidableEq

namespace ClientStep

/-- What a step is on the network, where connections run over the carriers that `via` has for them
and the next connection gets the number `next`. -/
def event (via : ConnectionId → Carrier) (next : Nat) : ClientStep → NetworkEvent
  | connect address => .accepts (via ⟨next⟩) (.peer address)
  | send id line => .wire id ((via id).lineEvent line)
  | close id => .wire id (via id).closeEvent

/-- The number that the next connection gets after a step. -/
def next : ClientStep → Nat → Nat
  | connect _, n => n + 1
  | send .., n | close _, n => n

/-- What a script is on the network. -/
def events (via : ConnectionId → Carrier) : Nat → List ClientStep → List NetworkEvent
  | _, [] => []
  | next, step :: script => step.event via next :: events via (step.next next) script

/-- A step in which what is sent, if anything, is one line. -/
def IsClean : ClientStep → Prop
  | send _ line => IsLine line
  | connect _ | close _ => True

instance : DecidablePred IsClean
  | send _ line => inferInstanceAs (Decidable (IsLine line))
  | connect _ | close _ => .isTrue trivial

theorem length_events (via : ConnectionId → Carrier) (n : Nat) (script : List ClientStep) :
    (events via n script).length = script.length := by
  induction script generalizing n with
  | nil => rfl
  | cons step script ih => exact congrArg (· + 1) (ih (step.next n))

theorem events_append (via : ConnectionId → Carrier) (n : Nat) (before after : List ClientStep) :
    ∃ m, events via n (before ++ after) = events via n before ++ events via m after := by
  induction before generalizing n with
  | nil => exact ⟨n, rfl⟩
  | cons step before ih =>
    obtain ⟨m, hm⟩ := ih (step.next n)
    exact ⟨m, congrArg (step.event via n :: ·) hm⟩

end ClientStep

/-! ## Reports -/

/-- What clients and log see of a step. -/
structure Report (δ : Type) where
  /-- The lines that each connection is sent in the step. -/
  lines : List (ConnectionId × List String)
  /-- The connections that end in the step. -/
  ended : List ConnectionId
  /-- The log after the step. -/
  log : δ
  deriving DecidableEq

namespace Server

variable {δ : Type}

/-- What a connection has been sent. -/
def sentTo (server : Server δ) (id : ConnectionId) : List String :=
  ((server.connection? id).map (·.sent)).getD []

/-- Whether a connection is no longer served. -/
def isOver (server : Server δ) (id : ConnectionId) : Bool :=
  (server.connection? id).any (!·.isOpen)

/-- What is seen of a step that leads from one server to another. -/
def report (before after : Server δ) : Report δ where
  lines := after.connections.map fun c => (c.id, c.sent.drop (before.sentTo c.id).length)
  ended := (after.connections.filter fun c => !c.isOpen && !before.isOver c.id).map (·.id)
  log := after.room.log

/-- What is seen of a run, step by step. -/
def reports [LogDevice δ] (server : Server δ) : List NetworkEvent → List (Report δ)
  | [] => []
  | event :: events => server.report (server.step event) :: (server.step event).reports events

theorem sentTo_plain (server : Server δ) (id : ConnectionId) :
    server.plain.sentTo id = server.sentTo id := by
  rw [sentTo, connection?_plain, Option.map_map, sentTo]
  rfl

theorem isOver_plain (server : Server δ) (id : ConnectionId) :
    server.plain.isOver id = server.isOver id := by
  rw [isOver, connection?_plain, Option.any_map, isOver]
  rfl

/-- A report does not tell carriers. -/
theorem report_plain (before after : Server δ) :
    before.plain.report after.plain = before.report after := by
  have hconnections : after.plain.connections = after.connections.map Connection.plain := rfl
  simp only [report, hconnections, List.map_map, List.filter_map, Function.comp_def,
    Connection.id_plain, Connection.isOpen_plain, Connection.sent_plain, sentTo_plain, isOver_plain]
  rfl

end Server

/-! ## Connections and their carriers -/

namespace Connection.RunsOver

variable {c : Connection} {carrier : Carrier}

theorem plain (h : c.RunsOver carrier) : c.plain.RunsOver .tcp := ⟨rfl, h.unread, h.isReachable⟩

theorem send (h : c.RunsOver carrier) (lines : List String) : (c.send lines).RunsOver carrier := by
  unfold Connection.send
  split
  · exact ⟨h.carrier_eq, h.unread, h.isReachable⟩
  · exact h

theorem collect (h : c.RunsOver carrier) (roster : Roster) :
    (c.collect roster).RunsOver carrier := by
  unfold Connection.collect
  split
  · exact h.send _
  · exact h

theorem hangUp (h : c.RunsOver carrier) : c.hangUp.RunsOver carrier :=
  ⟨h.carrier_eq, h.unread, h.isReachable⟩

end Connection.RunsOver

namespace Server

variable {δ : Type} {server : Server δ} {via : ConnectionId → Carrier}

/-- Both listeners are up, and each connection runs over the carrier that `via` has for it. -/
structure Carries (via : ConnectionId → Carrier) (server : Server δ) : Prop where
  runsOver : ∀ c ∈ server.connections, c.RunsOver (via c.id)
  isListening : ∀ carrier, server.isListening carrier = true

theorem Carries.connection? (h : server.Carries via) {id : ConnectionId} {c : Connection}
    (hc : server.connection? id = some c) : c.RunsOver (via id) := by
  have hrun := h.runsOver c (List.mem_of_find?_eq_some hc)
  rwa [id_of_connection? hc] at hrun

theorem Carries.accept (h : server.Carries via) (address : Address) :
    (server.accept (via ⟨server.nextId⟩) address).Carries via where
  runsOver d hd := by
    have hnew : (server.newcomer (via ⟨server.nextId⟩) address).RunsOver (via ⟨server.nextId⟩) :=
      ⟨rfl, rfl, rfl⟩
    rcases mem_accept hd with hd | hd | hd
    · exact h.runsOver d hd
    · have hid : d.id = ⟨server.nextId⟩ := hd ▸ id_send _ _
      rw [hid, hd]
      exact (hnew.send _).hangUp
    · have hid : d.id = ⟨server.nextId⟩ := hd ▸ id_send _ _
      rw [hid, hd]
      exact Connection.RunsOver.send ⟨rfl, rfl, rfl⟩ _
  isListening := h.isListening

theorem Carries.update (h : server.Carries via) {c : Connection} (hc : c.RunsOver (via c.id)) :
    (server.update c).Carries via where
  runsOver d hd := by
    rcases mem_update hd with rfl | ⟨hd, -⟩
    · exact hc
    · exact h.runsOver d hd
  isListening := h.isListening

variable [LogDevice δ]

theorem Turn.runsOver_after {turn : Turn δ} {carrier : Carrier}
    (h : turn.connection.RunsOver carrier) : turn.after.RunsOver carrier := by
  have hr := turn.receives
  generalize turn.after = c, turn.moves = steps at hr
  cases hr with
  | turnedAway lines hstate hlines => exact (h.send lines).hangUp
  | welcomed line username hstate hline hcheck hadmits =>
    exact ⟨h.carrier_eq, h.unread, h.isReachable⟩
  | routed sender line hstate husername hline => exact h
  | parted hstate => exact h.hangUp

theorem Carries.next {turn : Turn δ} (h : turn.server.Carries via) (hs : turn.Served) :
    turn.next.Carries via where
  runsOver d hd := by
    obtain ⟨e, he, rfl⟩ := turn.mem_next hd
    rw [id_collect]
    rcases he with rfl | ⟨he, -⟩
    · rw [turn.id_after]
      exact (Turn.runsOver_after (h.runsOver _ hs.mem)).collect _
    · exact (h.runsOver e he).collect _
  isListening := h.isListening

/-- What is heard is all that comes of an event that leaves nothing unread. -/
theorem Carries.wire_eq (h : server.Carries via) {id : ConnectionId} {c : Connection}
    (hc : server.connection? id = some c) (hopen : c.isOpen = true) {event : WireEvent}
    (hstays : (event != .vanishes) = true) {incoming : List Incoming}
    (hheard : c.hear server.lineLength event = (incoming, [])) :
    server.wire id event = incoming.foldl (handle id) (server.update c) := by
  have hsame : { c with unread := [], isReachable := c.isReachable && true } = c := by
    rw [Bool.and_true, ← (h.connection? hc).unread]
  unfold Server.wire
  rw [hc]
  dsimp only
  rw [if_pos hopen, hheard, hstays]
  dsimp only
  rw [hsame]

theorem Carries.wire (h : server.Carries via) {id : ConnectionId} {event : WireEvent}
    (hstays : (event != .vanishes) = true)
    (hheard : ∀ c, server.connection? id = some c →
      ∃ incoming, c.hear server.lineLength event = (incoming, [])) :
    (server.wire id event).Carries via := by
  cases hc : server.connection? id with
  | none =>
    rw [Server.wire, hc]
    exact h
  | some c =>
    cases hopen : c.isOpen with
    | false =>
      have hsame : server.wire id event = server := by simp [Server.wire, hc, hopen]
      rwa [hsame]
    | true =>
      obtain ⟨incoming, hincoming⟩ := hheard c hc
      have hrun : c.RunsOver (via c.id) := h.runsOver c (List.mem_of_find?_eq_some hc)
      rw [h.wire_eq hc hopen hstays hincoming]
      exact handle_all_induction (fun turn hs _ ht => ht.next hs) (h.update hrun) incoming

/-! ## Steps -/

variable {action : ClientStep}

theorem Carries.step (h : server.Carries via) (haction : action.IsClean) :
    (server.step (action.event via server.nextId)).Carries via := by
  cases action with
  | connect address =>
    rw [ClientStep.event, Server.step, if_pos (h.isListening _)]
    exact h.accept address
  | send id line =>
    refine h.wire ((via id).lineEvent_stays line) fun c hc => ?_
    exact ⟨_, (h.connection? hc).hear_line server.lineLength haction⟩
  | close id =>
    refine h.wire (via id).closeEvent_stays fun c hc => ?_
    exact ⟨_, (h.connection? hc).hear_close server.lineLength⟩

/-- **Forgetting carriers commutes with every step** of a client. -/
theorem Carries.plain_step (h : server.Carries via) (haction : action.IsClean) :
    (server.step (action.event via server.nextId)).plain =
      server.plain.step (action.event (fun _ => .tcp) server.nextId) := by
  cases action with
  | connect address =>
    have hlistens : server.plain.isListening .tcp = true := h.isListening .tcp
    rw [ClientStep.event, Server.step, if_pos (h.isListening _)]
    rw [ClientStep.event, Server.step, if_pos hlistens]
    exact plain_accept server _ address
  | send id line =>
    refine plain_wire (fun c hc => ?_) ?_
    · have hrun := h.connection? hc
      rw [hrun.hear_line _ haction, hrun.plain.hear_line _ haction]
    · rw [Carrier.lineEvent_stays, Carrier.lineEvent_stays]
  | close id =>
    refine plain_wire (fun c hc => ?_) ?_
    · have hrun := h.connection? hc
      rw [hrun.hear_close, hrun.plain.hear_close]
    · rw [Carrier.closeEvent_stays, Carrier.closeEvent_stays]

theorem nextId_wire (server : Server δ) (id : ConnectionId) (event : WireEvent) :
    (server.wire id event).nextId = server.nextId :=
  kept_wire Server.nextId (fun _ _ _ => rfl) server id event

theorem Carries.nextId_step (h : server.Carries via) (action : ClientStep) :
    (server.step (action.event via server.nextId)).nextId = action.next server.nextId := by
  cases action with
  | connect address =>
    rw [ClientStep.event, Server.step, if_pos (h.isListening _)]
    rfl
  | send id line => exact nextId_wire server id _
  | close id => exact nextId_wire server id _

/-! ## Runs -/

variable {script : List ClientStep}

/-- A run shows what it would show if all its connections were plain. -/
theorem Carries.reports_eq (h : server.Carries via)
    (hscript : ∀ action ∈ script, action.IsClean) :
    server.reports (ClientStep.events via server.nextId script) =
      server.plain.reports (ClientStep.events (fun _ => .tcp) server.nextId script) := by
  induction script generalizing server with
  | nil => rfl
  | cons action script ih =>
    obtain ⟨haction, hrest⟩ := List.forall_mem_cons.1 hscript
    have hreports := ih (h.step haction) hrest
    rw [h.nextId_step, h.plain_step haction] at hreports
    rw [ClientStep.events, ClientStep.events, reports, reports, hreports, ← h.plain_step haction,
      report_plain]

/-- A script leads a server whose connections run over their carriers to one of that kind. -/
theorem Carries.run (h : server.Carries via) (hscript : ∀ action ∈ script, action.IsClean) :
    (server.run (ClientStep.events via server.nextId script)).Carries via := by
  induction script generalizing server with
  | nil => exact h
  | cons action script ih =>
    obtain ⟨haction, hrest⟩ := List.forall_mem_cons.1 hscript
    have hrun := ih (h.step haction) hrest
    rw [h.nextId_step] at hrun
    exact hrun

theorem getElem?_reports (server : Server δ) (before after : List NetworkEvent)
    (event : NetworkEvent) :
    (server.reports (before ++ event :: after))[before.length]? =
      some ((server.run before).report ((server.run before).step event)) := by
  induction before generalizing server with
  | nil => rfl
  | cons first before ih => exact ih (server.step first)

/-! ## Names that are too long -/

/-- The connection was asked for a name and has not answered yet. -/
def Awaits (server : Server δ) (id : ConnectionId) : Prop :=
  ∃ c ∈ server.connection? id, c.isOpen = true ∧ c.session.state = .awaitingUsername

instance (server : Server δ) (id : ConnectionId) : Decidable (server.Awaits id) :=
  Option.decidableExistsMem (server.connection? id)

omit [LogDevice δ] in
theorem mem_lines_report {before after : Server δ} {id : ConnectionId} {c d : Connection}
    (hc : before.connection? id = some c) (hd : after.connection? id = some d)
    {lines : List String} (hsent : d.sent = c.sent ++ lines) :
    (id, lines) ∈ (before.report after).lines := by
  refine List.mem_map.2 ⟨d, List.mem_of_find?_eq_some hd, ?_⟩
  rw [id_of_connection? hd, sentTo, hc, hsent]
  simp

omit [LogDevice δ] in
theorem mem_ended_report {before after : Server δ} {id : ConnectionId} {c d : Connection}
    (hc : before.connection? id = some c) (hopen : c.isOpen = true)
    (hd : after.connection? id = some d) (hclosed : d.isOpen = false) :
    id ∈ (before.report after).ended := by
  have hid : d.id = id := id_of_connection? hd
  refine List.mem_map.2 ⟨d, List.mem_filter.2 ⟨List.mem_of_find?_eq_some hd, ?_⟩, hid⟩
  rw [hclosed, isOver, hid, hc, Option.any_some, hopen]
  rfl

/-- What is too long for a line is too long for a name, and is answered so. -/
theorem Carries.refuses_too_long (h : server.Carries via) (hquiet : server.Quiet)
    {id : ConnectionId} {c : Connection} (hc : server.connection? id = some c)
    (hopen : c.isOpen = true) (hstate : c.session.state = .awaitingUsername) {line : String}
    (hline : IsLine line) (hlong : server.lineLength < line.utf8ByteSize) :
    ∃ d, (server.step (.wire id ((via id).lineEvent line))).connection? id = some d ∧
      d.isOpen = false ∧ d.sent = c.sent ++ Rejection.usernameTooLong.lines := by
  have hrun : c.RunsOver (via id) := h.connection? hc
  obtain rfl : c.id = id := id_of_connection? hc
  have hheard := hrun.hear_line server.lineLength hline
  rw [Incoming.ofLine, if_pos hlong] at hheard
  -- the line is handled in a server that is quiet still, so only its sender is told
  have hupdated : (server.update c).Quiet := by
    have hq := hquiet.hear hc c.unread (c.isReachable && true)
    rwa [Bool.and_true] at hq
  have hfound : (server.update c).connection? c.id = some c := by
    rw [connection?_update, hc, Option.map_some, if_pos rfl]
  let turn : Turn δ := ⟨server.update c, c, .failed (.lineTooLong server.lineLength)⟩
  have hends : turn.Ends Rejection.usernameTooLong.lines := by
    apply hupdated.ends ⟨hfound, hopen⟩
    · simp only [turn, receive, hstate]
      rfl
    · simp only [turn, Turn.moves, Server.moves, hstate]
  have hturn : (server.update c).turn? c.id turn.incoming = some turn := by
    simp only [turn?, hfound, hopen, if_true, turn]
  have hstep : server.wire c.id ((via c.id).lineEvent line) = turn.next := by
    rw [h.wire_eq hc hopen (Carrier.lineEvent_stays _ _) hheard, List.foldl_cons, List.foldl_nil,
      handle_eq, hturn]
  obtain ⟨d, hd, hclosed, hsent⟩ := hends.own
  rw [if_pos hrun.isReachable] at hsent
  exact ⟨d, by rwa [Server.step, hstep], hclosed, hsent⟩

omit [LogDevice δ] in
theorem carries_of_start {plan : Plan} {host : Host δ} (h : plan.SetsUp host server)
    (hlistens : plan.settings.webSocketAddress.isSome = true) (via : ConnectionId → Carrier) :
    server.Carries via where
  runsOver c hc := by
    rw [h.isNew.connections] at hc
    cases hc
  isListening carrier := by rw [h.listening, hlistens, Bool.or_true]

/-- **Carriers do not matter.** Whichever clients of a script change from plain to WebSocket or
back, every step sends each connection the same lines, ends the same connections, and leaves the
same log. A line that is too long is an answer to the request for a name like any other: it is a
name that is too long. -/
theorem carriers_indifferent {plan : Plan} {host : Host δ} {start : Server δ}
    (hstart : plan.start host = .ok start)
    (hlistens : plan.settings.webSocketAddress.isSome = true) (via via' : ConnectionId → Carrier)
    {script : List ClientStep} (hscript : ∀ action ∈ script, action.IsClean) :
    start.reports (ClientStep.events via start.nextId script) =
        start.reports (ClientStep.events via' start.nextId script) ∧
      ∀ before id line after, script = before ++ .send id line :: after →
        (start.run (ClientStep.events via start.nextId before)).Awaits id →
        plan.settings.lineLength < line.utf8ByteSize →
        ∃ report, (start.reports (ClientStep.events via start.nextId script))[before.length]? =
            some report ∧
          (id, ["BAD_USERNAME", "Username too long."]) ∈ report.lines ∧ id ∈ report.ended := by
  have hsetup := Plan.setsUp_of_start hstart
  have hcarries (via : ConnectionId → Carrier) : start.Carries via :=
    carries_of_start hsetup hlistens via
  refine ⟨?_, ?_⟩
  · rw [(hcarries via).reports_eq hscript, (hcarries via').reports_eq hscript]
  · rintro before id line after rfl ⟨c, hc, hopen, hstate⟩ hlong
    have hline : IsLine line := hscript (.send id line) (by simp)
    have hbefore : ∀ action ∈ before, action.IsClean :=
      fun action ha => hscript action (List.mem_append_left _ ha)
    have hkeeps := hsetup.isNew.keepsNoLines
    have hrun := (hcarries via).run hbefore
    have hquiet := invariant_quiet.run hsetup.quiet hkeeps
      (ClientStep.events via start.nextId before)
    have hlength := ((invariant_sameSetup start).run (.refl start) hkeeps
      (ClientStep.events via start.nextId before)).lineLength.trans hsetup.lineLength
    obtain ⟨next, hevents⟩ := ClientStep.events_append via start.nextId before
      (.send id line :: after)
    obtain ⟨d, hd, hclosed, hsent⟩ :=
      hrun.refuses_too_long hquiet hc hopen hstate hline (hlength.symm ▸ hlong)
    rw [hevents, ClientStep.events, ← ClientStep.length_events via start.nextId before]
    exact ⟨_, getElem?_reports _ _ _ _, mem_lines_report hc hd hsent,
      mem_ended_report hc hopen hd hclosed⟩

/-- Where lines have at most ten bytes: Ann's name is given again over the other carrier, a name is
too long, and Bob sends an empty line and later one that is too long. -/
theorem carriers_indifferent_ann_bob :
    let plan : Plan := {
      settings := { webSocketAddress := some "127.0.0.1:8081", lineLength := 10 }
      allowList := some ⟨["ann", "bob"]⟩ }
    let host := Host.inMemory { clock := ⟨2024, 5, 1, 12, 0, 0⟩ }
    let peer : Address := .v4 #v[127, 0, 0, 1] 4000
    let via (id : ConnectionId) : Carrier := if id.value % 2 = 0 then .webSocket else .tcp
    let via' (id : ConnectionId) : Carrier := if id.value % 2 = 0 then .tcp else .webSocket
    let before : List ClientStep := [.connect peer, .connect peer, .send ⟨1⟩ "ann",
      .send ⟨2⟩ "ann", .connect peer]
    let script := before ++ [.send ⟨3⟩ "maximiliana", .connect peer, .send ⟨4⟩ "bob",
      .send ⟨4⟩ "", .send ⟨1⟩ "0123456789", .send ⟨4⟩ "01234567890", .close ⟨1⟩]
    let shown : List (List (ConnectionId × List String) × List ConnectionId) := [
      ([(⟨1⟩, ["REQ_USERNAME"])], []),
      ([(⟨2⟩, ["REQ_USERNAME"])], []),
      ([(⟨1⟩, ["Welcome, ann!"])], []),
      ([(⟨2⟩, ["BAD_USERNAME", "Username already in use."])], [⟨2⟩]),
      ([(⟨3⟩, ["REQ_USERNAME"])], []),
      ([(⟨3⟩, ["BAD_USERNAME", "Username too long."])], [⟨3⟩]),
      ([(⟨4⟩, ["REQ_USERNAME"])], []),
      ([(⟨1⟩, ["System: bob has joined the chat."]),
        (⟨4⟩, ["Welcome, bob!", "--- Recent Chat History ---", "System: ann has joined the chat.",
          "--- End of History ---"])], []),
      ([], []),
      ([(⟨1⟩, ["ann: 0123456789"]), (⟨4⟩, ["ann: 0123456789"])], []),
      ([(⟨1⟩, ["System: bob has left the chat."])], [⟨4⟩]),
      ([], [⟨1⟩])]
    ∃ start, plan.start host = .ok start ∧ start.nextId = 1 ∧
      start.reports (ClientStep.events via 1 script) =
        start.reports (ClientStep.events via' 1 script) ∧
      (start.reports (ClientStep.events via 1 script)).map
          (fun report => (report.lines.filter (·.2 ≠ []), report.ended)) = shown ∧
      ∃ report, (start.reports (ClientStep.events via 1 script))[5]? = some report ∧
        (⟨3⟩, ["BAD_USERNAME", "Username too long."]) ∈ report.lines ∧ ⟨3⟩ ∈ report.ended := by
  intro plan host peer via via' before script shown
  obtain ⟨start, hstart, hnext, hawaits, hshown⟩ : ∃ start, plan.start host = .ok start ∧
      start.nextId = 1 ∧ (start.run (ClientStep.events via 1 before)).Awaits ⟨3⟩ ∧
      (start.reports (ClientStep.events via 1 script)).map
          (fun report => (report.lines.filter (·.2 ≠ []), report.ended)) = shown :=
    ⟨_, rfl, rfl, by decide +kernel, by decide +kernel⟩
  have hscript : ∀ action ∈ script, action.IsClean := by decide
  obtain ⟨hsame, htooLong⟩ := carriers_indifferent hstart rfl via via' hscript
  rw [hnext] at hsame htooLong
  have hlong : plan.settings.lineLength < "maximiliana".utf8ByteSize := by decide
  exact ⟨start, hstart, hnext, hsame, hshown, htooLong before ⟨3⟩ "maximiliana" _ rfl hawaits hlong⟩

end Server

end ChatRoom
