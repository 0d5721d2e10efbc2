import ChatRoom.Proofs.Roster.Losses
import ChatRoom.Proofs.Room.Reachable
import ChatRoom.Proofs.Server.Login
import ChatRoom.Proofs.Settings.Numbers

/-!
# The greeting of a newcomer

A newcomer's greeting is offered to its outbox line by line, and whether a line was queued is not
looked at. No line is lost (`Room.GreetsWhole`): the history never outgrows its capacity, and an
outbox is made for a full history between its markers, after the welcome. The length of a greeting
can be computed in 64 bits, whatever a settings document assigns.
-/

namespace ChatRoom

namespace Room

variable {δ : Type} {room : Room δ}

/-- Whoever is let in with a new outbox of this capacity has its whole greeting queued there. -/
def GreetsWhole (room : Room δ) (capacity : Nat) : Prop :=
  ∀ id username, room.roster.Admits username → ∃ queued roster,
    (room.roster.openOutbox capacity).2.register id username (room.roster.openOutbox capacity).1
      (room.greeting username) = .ok (queued, roster) ∧
    queued = List.replicate (room.greeting username).length true ∧
    roster.outboxes[(room.roster.openOutbox capacity).1]? =
      some ⟨max capacity 1, room.greeting username, true⟩

theorem greetsWhole {capacity : Nat} (hshown : room.history.lines.length ≤ room.history.capacity)
    (hroomy : room.greetingLength ≤ capacity) : room.GreetsWhole capacity := by
  intro id username ha
  have hfits : (room.greeting username).length ≤ max capacity 1 := by
    have hlength := length_greeting_le hshown username
    omega
  have hbox : (room.roster.openOutbox capacity).2.outboxes[
      (room.roster.openOutbox capacity).1]? = some (.ofCapacity capacity) := by
    simp [Roster.openOutbox]
  refine ⟨_, _, Roster.register_of_admits (admits_openOutbox.2 ha), ?_, ?_⟩
  · rw [Roster.offerEach_same_fst hbox, List.eq_replicate_iff]
    refine ⟨by simp, fun queued hq => ?_⟩
    obtain ⟨k, hk, rfl⟩ := List.mem_map.1 hq
    have hlt := List.mem_range.1 hk
    simp only [Outbox.ofCapacity, List.length_nil, Bool.true_and]
    exact decide_eq_true (by omega)
  · have hlines (box : OutboxId) :
        Offer.linesFor box ((room.greeting username).map (⟨box, ·⟩)) = room.greeting username := by
      simp [Offer.linesFor, List.filter_map, Function.comp_def]
    have hempty : (Outbox.ofCapacity capacity).pending.length + (room.greeting username).length ≤
        (Outbox.ofCapacity capacity).capacity := by
      simpa [Outbox.ofCapacity] using hfits
    dsimp only
    rw [Roster.getElem?_outboxes_offerEach, hbox, hlines, Option.map_some,
      Outbox.pushAll_of_room rfl hempty]
    rfl

end Room

namespace Server

variable {δ : Type} [LogDevice δ] {turn : Turn δ} {rs : List Record}

/-- Who enters in a turn is let in, and welcomed. -/
theorem Turn.welcomes_of_enter (hc : turn.server.Consistent rs) (hq : turn.server.Quiet)
    (hs : turn.Served) {id : ConnectionId} {username : String} {capacity : Nat}
    (henter : .enter id username capacity ∈ turn.moves) :
    id = turn.connection.id ∧ capacity = turn.server.outboxCapacity ∧
      turn.server.room.roster.Admits username ∧ turn.Welcomes username := by
  have h := turn.receives
  generalize turn.after = next, hmoves : turn.moves = steps at h henter
  cases h with
  | turnedAway lines hstate hlines => cases henter
  | welcomed line name hstate hline hcheck hadmits =>
    obtain ⟨rfl, rfl, rfl⟩ : id = turn.connection.id ∧ username = name ∧
        capacity = turn.server.outboxCapacity := by simpa using henter
    have hfits : ¬ Outbox.maxCapacity < turn.server.outboxCapacity := by
      intro hlarge
      rw [(Turn.receive_line hstate hline).2, loginMoves, if_pos hlarge] at hmoves
      cases hmoves
    exact ⟨rfl, rfl, hadmits, Turn.welcomes hc hq hs hfits hstate hline hcheck hadmits⟩
  | routed sender line hstate husername hline => simp at henter
  | parted hstate =>
    unfold Room.departure at henter
    split at henter
    · cases henter
    · simp at henter

/-- **The greeting is whole.** For every settings document, the length of a greeting fits in 64 bits
and in the outboxes of the server that is set up by it. In every room that is reached, between the
halves of arrivals and departures too, whoever is let in has every line of its greeting queued. So
it is after every run of the server, and whoever enters in a turn is sent all of it, or has all of
it waiting while its peer takes nothing. -/
theorem greeting_is_whole {document : String} {plan : Plan}
    (hdocument : Settings.parse document = .ok plan.settings) {host : Host δ} {start : Server δ}
    (hstart : plan.start host = .ok start) :
    (start.room.greetingLength = plan.settings.historyLines + 3 ∧
      plan.settings.historyLines + 3 < UInt64.size ∧
      start.outboxCapacity =
        max plan.settings.outboxCapacity (plan.settings.historyLines + 3)) ∧
    (∀ room, start.room.Reachable room → room.GreetsWhole start.outboxCapacity) ∧
    ∀ events, (start.run events).room.GreetsWhole start.outboxCapacity ∧
      ∀ turn ∈ start.turns events, ∀ id username capacity,
        .enter id username capacity ∈ turn.moves →
          id = turn.connection.id ∧ capacity = start.outboxCapacity ∧
          turn.server.room.roster.Admits username ∧
          turn.server.room.GreetsWhole capacity ∧ turn.Welcomes username := by
  have hsetup := Plan.setsUp_of_start hstart
  have hquiet := hsetup.quiet
  have hlength : start.room.greetingLength = plan.settings.historyLines + 3 :=
    congrArg (· + 3) hsetup.capacity
  have hlt : plan.settings.historyLines < 2 ^ 63 :=
    Settings.lt_of_parse hdocument _ (by simp [Settings.numbers])
  have hwhole {server : Server δ} (hq : server.Quiet) (hsame : start.SameSetup server) :
      server.room.GreetsWhole start.outboxCapacity := by
    rw [← hsame.outboxCapacity]
    exact Room.greetsWhole hq.shown hq.roomy
  refine ⟨⟨hlength, by rw [UInt64.size]; omega, hsetup.outboxCapacity⟩, fun room hroom => ?_,
    fun events => ⟨?_, fun turn hturn id username capacity henter => ?_⟩⟩
  · refine Room.greetsWhole (hroom.length_lines_le hquiet.shown) ?_
    rw [Room.greetingLength, hroom.capacity_eq]
    exact hquiet.roomy
  · obtain ⟨hconversing, hsame⟩ := run_setup hstart events
    exact hwhole hconversing.quiet hsame
  · obtain ⟨before, after, hts⟩ := List.append_of_mem hturn
    obtain ⟨⟨hconversing, hsame⟩, hs⟩ :=
      (invariant_conversing.and (invariant_sameSetup start)).atTurn
        ⟨conversing_of_start hstart, .refl start⟩ hsetup.isNew.keepsNoLines hts
    obtain ⟨hid, hcapacity, hadmits, hwelcomes⟩ :=
      Turn.welcomes_of_enter hconversing.consistent hconversing.quiet hs henter
    rw [hsame.outboxCapacity] at hcapacity
    exact ⟨hid, hcapacity, hadmits, hcapacity ▸ hwhole hconversing.quiet hsame, hwelcomes⟩

/-- Outboxes are to hold nothing, and the history one line. Bob, who comes when it is full, is sent
the four lines of the longest greeting there is. -/
theorem greeting_is_whole_ann_bob :
    let document := "history_lines = 1\noutbound_queue_len = 0\n"
    let plan : Plan := {
      settings := { historyLines := 1, outboxCapacity := 0 }
      allowList := some ⟨["ann", "bob"]⟩ }
    let host := Host.inMemory { clock := ⟨2024, 5, 1, 12, 0, 0⟩ }
    let peer : Arrival := .peer (.v4 #v[127, 0, 0, 1] 4000)
    let events : List NetworkEvent := [.accepts .tcp peer, .accepts .tcp peer,
      .wire ⟨1⟩ (.bytes (Utf8.encode "ann\nhi\n")), .wire ⟨2⟩ (.bytes (Utf8.encode "bob\n"))]
    Settings.parse document = .ok plan.settings ∧ ∃ start, plan.start host = .ok start ∧
      (start.run events).room.GreetsWhole 4 ∧
      ∃ turn ∈ start.turns events, turn.Welcomes "bob" ∧ turn.server.room.greeting "bob" =
        ["Welcome, bob!", "--- Recent Chat History ---", "ann: hi", "--- End of History ---"] := by
  intro document plan host peer events
  have hdocument : Settings.parse document = .ok plan.settings := by decide +kernel
  obtain ⟨start, hstart, hcapacity, hbob⟩ : ∃ start, plan.start host = .ok start ∧
      start.outboxCapacity = 4 ∧
      (firstTurn? ⟨2⟩ (start.turns events)).map
          (fun t => (t.moves, t.server.room.greeting "bob")) =
        some ([.enter ⟨2⟩ "bob" 4, .joined ⟨2⟩ "bob"],
          ["Welcome, bob!", "--- Recent Chat History ---", "ann: hi", "--- End of History ---"]) :=
    ⟨_, rfl, rfl, by decide +kernel⟩
  obtain ⟨turn, hfirst, hboth⟩ := Option.map_eq_some_iff.1 hbob
  obtain ⟨hmoves, hgreeting⟩ := Prod.mk.inj hboth
  have hturn : turn ∈ start.turns events := List.mem_of_find?_eq_some hfirst
  obtain ⟨-, -, hruns⟩ := greeting_is_whole hdocument hstart
  obtain ⟨hwhole, hturns⟩ := hruns events
  have henter : .enter ⟨2⟩ "bob" 4 ∈ turn.moves := hmoves ▸ List.mem_cons_self
  obtain ⟨-, -, -, -, hwelcomes⟩ := hturns turn hturn _ _ _ henter
  exact ⟨hdocument, start, hstart, hcapacity ▸ hwhole, turn, hturn, hwelcomes, hgreeting⟩

end Server

end ChatRoom
