import ChatRoom.Proofs.Room.Outboxes
import ChatRoom.Proofs.Server.Presence

/-!
# Between turns

Between turns nothing waits for those who take what they are sent, nobody shares an outbox, and a
newcomer's has room for its greeting (`Quiet`). So a turn in which the room does not change says
nothing to anybody but its own connection (`Quiet.next_of_room_eq`), one that welcomes a newcomer
queues the whole greeting (`Quiet.pending_welcomed`), and what it queues for whoever was welcomed
before is live (`Furnished.exists_waiting`).

Whoever takes nothing keeps what waits for it until it does (`Furnished.waiting_deliver`).
-/

namespace ChatRoom

namespace Server

variable {δ : Type} {server : Server δ} {c : Connection}

/-! ## Connections -/

@[simp] theorem outbox_send (c : Connection) (lines : List String) :
    (c.send lines).outbox = c.outbox := by
  unfold Connection.send
  split <;> rfl

@[simp] theorem outbox_collect (c : Connection) (roster : Roster) :
    (c.collect roster).outbox = c.outbox := by
  unfold Connection.collect
  split <;> simp

@[simp] theorem isTaking_send (c : Connection) (lines : List String) :
    (c.send lines).isTaking = c.isTaking := by
  unfold Connection.send
  split <;> rfl

@[simp] theorem isTaking_collect (c : Connection) (roster : Roster) :
    (c.collect roster).isTaking = c.isTaking := by
  unfold Connection.collect
  split <;> simp

theorem sent_send (c : Connection) (lines : List String) :
    (c.send lines).sent = c.sent ++ if c.isReachable then lines else [] := by
  unfold Connection.send
  split <;> simp

/-- What waits for a peer is sent if it is there and takes it. -/
theorem sent_collect (c : Connection) (roster : Roster) :
    (c.collect roster).sent =
      c.sent ++ if c.isReachable ∧ c.isTaking then c.waiting roster else [] := by
  unfold Connection.collect
  split
  · rename_i htaking
    rw [sent_send]
    simp only [htaking, and_true]
  · rename_i htaking
    rw [if_neg fun h => htaking h.2, List.append_nil]

@[simp] theorem isReachable_send (c : Connection) (lines : List String) :
    (c.send lines).isReachable = c.isReachable := by
  unfold Connection.send
  split <;> rfl

theorem waiting_of_outbox (roster : Roster) {d : Connection} (h : d.outbox = c.outbox) :
    d.waiting roster = c.waiting roster := by
  rw [Connection.waiting, Connection.waiting, h]

theorem waiting_eq_nil (h : c.outbox = none) (roster : Roster) : c.waiting roster = [] := by
  rw [Connection.waiting, h]

theorem emptied?_eq_some_iff {box : OutboxId} :
    c.emptied? = some box ↔ c.isTaking = true ∧ c.outbox = some box := by
  cases h : c.isTaking <;> simp [Connection.emptied?, h]

/-! ## Outboxes -/

/-- Whoever has an outbox has it for itself, and a new one has room for a greeting. -/
structure Furnished (server : Server δ) : Prop where
  boxesOpen : server.room.BoxesOpen
  opened : ∀ c ∈ server.connections, ∀ box ∈ c.outbox, box < server.room.roster.outboxes.length
  own : ∀ c ∈ server.connections, ∀ d ∈ server.connections, ∀ box ∈ c.outbox, box ∈ d.outbox →
    c = d
  shown : server.room.history.lines.length ≤ server.room.history.capacity
  roomy : server.room.greetingLength ≤ server.outboxCapacity

/-- Nothing waits for those who take what they are sent. -/
structure Quiet (server : Server δ) : Prop extends Furnished server where
  empty : ∀ c ∈ server.connections, c.isTaking = true → c.waiting server.room.roster = []

namespace Furnished

/-- A connection may be put in the place of one that has the same outbox. -/
theorem update (h : server.Furnished) (hc : c ∈ server.connections) {d : Connection}
    (hid : d.id = c.id) (houtbox : d.outbox = c.outbox) : (server.update d).Furnished where
  boxesOpen := h.boxesOpen
  opened e he box hbox := by
    rcases mem_update he with rfl | ⟨he, -⟩
    · exact h.opened c hc box (houtbox ▸ hbox)
    · exact h.opened e he box hbox
  own e he f hf box hbox hbox' := by
    have hown : ∀ g ∈ server.connections, g.id ≠ d.id → box ∈ g.outbox → box ∉ d.outbox := by
      intro g hg hne hg' hd'
      exact hne (h.own g hg c hc box hg' (houtbox ▸ hd') ▸ hid.symm)
    rcases mem_update he with rfl | ⟨hmem, hne⟩ <;>
      rcases mem_update hf with rfl | ⟨hmem', hne'⟩
    · rfl
    · exact absurd hbox (hown f hmem' hne' hbox')
    · exact absurd hbox' (hown e hmem hne hbox)
    · exact h.own e hmem f hmem' box hbox hbox'
  shown := h.shown
  roomy := h.roomy

/-- What has been sent does not wait any more; what is not taken still does. -/
theorem waiting_deliver (h : server.Furnished) (hc : c ∈ server.connections) :
    (c.collect server.room.roster).waiting server.deliver.room.roster =
      if c.isTaking then [] else c.waiting server.room.roster := by
  rw [waiting_of_outbox _ (outbox_collect c _), Connection.waiting, Connection.waiting]
  cases hbox : c.outbox with
  | none => simp
  | some box =>
    have hemptied : box ∈ server.connections.filterMap (·.emptied?) ↔ c.isTaking = true := by
      rw [List.mem_filterMap]
      constructor
      · rintro ⟨d, hd, hdbox⟩
        obtain ⟨htaking, hdbox⟩ := emptied?_eq_some_iff.1 hdbox
        rwa [h.own c hc d hd box hbox hdbox]
      · exact fun htaking => ⟨c, hc, emptied?_eq_some_iff.2 ⟨htaking, hbox⟩⟩
    have hroster : server.deliver.room.roster =
        server.room.roster.drainAll (server.connections.filterMap (·.emptied?)) := rfl
    dsimp only
    rw [hroster, Roster.pending_drainAll]
    exact if_congr hemptied rfl rfl

theorem deliver (h : server.Furnished) : server.deliver.Quiet where
  boxesOpen entry he := by
    have hlength : server.deliver.room.roster.outboxes.length =
        server.room.roster.outboxes.length := List.length_mapIdx
    exact hlength ▸ h.boxesOpen entry he
  opened d hd box hbox := by
    have hlength : server.deliver.room.roster.outboxes.length =
        server.room.roster.outboxes.length := List.length_mapIdx
    obtain ⟨c, hc, rfl⟩ := mem_deliver hd
    rw [outbox_collect] at hbox
    exact hlength ▸ h.opened c hc box hbox
  own d hd e he box hbox hbox' := by
    obtain ⟨c, hc, rfl⟩ := mem_deliver hd
    obtain ⟨f, hf, rfl⟩ := mem_deliver he
    rw [outbox_collect] at hbox hbox'
    rw [h.own c hc f hf box hbox hbox']
  shown := h.shown
  roomy := h.roomy
  empty d hd htaking := by
    obtain ⟨c, hc, rfl⟩ := mem_deliver hd
    rw [isTaking_collect] at htaking
    rw [h.waiting_deliver hc, if_pos htaking]

end Furnished

/-- Where nothing waits that would be taken, nothing is sent. -/
theorem deliver_eq_self
    (h : ∀ c ∈ server.connections, c.isTaking = true → c.waiting server.room.roster = []) :
    server.deliver = server := by
  have hconnections : server.connections.map (·.collect server.room.roster) =
      server.connections := by
    refine (List.map_congr_left fun c hc => ?_).trans (List.map_id _)
    rw [Connection.collect]
    split
    · rename_i htaking
      rw [h c hc htaking, send_nil, id]
    · rfl
  have hroster : server.room.roster.drainAll (server.connections.filterMap (·.emptied?)) =
      server.room.roster := by
    refine Roster.drainAll_eq_self fun box hbox => ?_
    obtain ⟨c, hc, hemptied⟩ := List.mem_filterMap.1 hbox
    obtain ⟨htaking, houtbox⟩ := emptied?_eq_some_iff.1 hemptied
    have hempty := h c hc htaking
    rwa [Connection.waiting, houtbox] at hempty
  rw [deliver, hconnections, hroster]

namespace Quiet

/-- When a connection is all that changes, there is nothing to send to any. -/
theorem deliver_update (h : server.Quiet) (hc : c ∈ server.connections) {d : Connection}
    (houtbox : d.outbox = c.outbox) (htaking : d.isTaking = c.isTaking) :
    (server.update d).deliver = server.update d := by
  refine deliver_eq_self fun e he => ?_
  rcases mem_update he with rfl | ⟨he, -⟩
  · rw [htaking, waiting_of_outbox _ houtbox]
    exact h.empty c hc
  · exact h.empty e he

theorem hear (h : server.Quiet) (hc : server.connection? c.id = some c) (unread : List UInt8)
    (isReachable : Bool) : (server.update { c with unread, isReachable }).Quiet where
  toFurnished := h.update (List.mem_of_find?_eq_some hc) rfl rfl
  empty d hd := by
    rcases mem_update hd with rfl | ⟨hd, -⟩
    · exact h.empty c (List.mem_of_find?_eq_some hc)
    · exact h.empty d hd

theorem pace (h : server.Quiet) (hc : server.connection? c.id = some c) (isTaking : Bool) :
    (server.update { c with isTaking }).deliver.Quiet := by
  have hupdate : (server.update { c with isTaking }).Furnished :=
    h.update (List.mem_of_find?_eq_some hc) rfl rfl
  exact hupdate.deliver

theorem outbox_of_mem_accept {carrier : Carrier} {address : Address}
    (hc : c ∈ (server.accept carrier address).connections) :
    c ∈ server.connections ∨ c.outbox = none := by
  rcases mem_accept hc with hc | rfl | rfl
  · exact .inl hc
  · exact .inr (outbox_send _ _)
  · exact .inr (outbox_send _ _)

theorem accept (h : server.Quiet) (carrier : Carrier) (address : Address) :
    (server.accept carrier address).Quiet where
  boxesOpen := h.boxesOpen
  opened c hc box hbox := by
    rcases outbox_of_mem_accept hc with hc | hnone
    · exact h.opened c hc box hbox
    · rw [hnone] at hbox
      cases hbox
  own c hc d hd box hbox hbox' := by
    rcases outbox_of_mem_accept hc with hc | hnone
    · rcases outbox_of_mem_accept hd with hd | hnone
      · exact h.own c hc d hd box hbox hbox'
      · rw [hnone] at hbox'
        cases hbox'
    · rw [hnone] at hbox
      cases hbox
  shown := h.shown
  roomy := h.roomy
  empty c hc htaking := by
    rcases outbox_of_mem_accept hc with hc | hnone
    · exact h.empty c hc htaking
    · exact waiting_eq_nil hnone _

end Quiet

/-! ## Turns -/

variable [LogDevice δ] {turn : Turn δ}

theorem Turn.isTaking_after (turn : Turn δ) : turn.after.isTaking = turn.connection.isTaking :=
  turn.kept_after _ isTaking_send fun _ _ _ _ _ => rfl

/-- A newcomer gets a new outbox; nobody else changes the one they have. -/
theorem Turn.outbox_after (turn : Turn δ) :
    turn.after.outbox = turn.connection.outbox ∨
      turn.after.outbox = some turn.server.room.roster.outboxes.length ∧
        turn.server.room.roster.outboxes.length < turn.room.roster.outboxes.length := by
  have h := turn.receives
  rw [turn.room_eq]
  generalize turn.after = c, turn.moves = steps at h
  cases h with
  | turnedAway lines hstate hlines => exact .inl (outbox_send _ _)
  | welcomed line username hstate hline hcheck hadmits =>
    refine .inr ⟨rfl, ?_⟩
    rw [Room.run_cons, Room.run_cons, Room.run_nil]
    refine Room.boxOpen_step ?_ _
    rw [Room.length_outboxes_step, Room.length_opened, Room.arrival?, if_pos hadmits]
    exact Nat.lt_succ_self _
  | routed sender line hstate husername hline => exact .inl rfl
  | parted hstate => exact .inl rfl

/-- No client takes anything while something is handled. -/
theorem Turn.drain_notMem (turn : Turn δ) (box : OutboxId) : .drain box ∉ turn.moves := by
  have h := turn.receives
  generalize turn.after = c, turn.moves = steps at h
  cases h with
  | turnedAway lines hstate hlines => exact List.not_mem_nil
  | welcomed line username hstate hline hcheck hadmits => simp
  | routed sender line hstate husername hline => simp
  | parted hstate =>
    unfold Room.departure
    split
    · exact List.not_mem_nil
    · simp

namespace Furnished

theorem handled (h : turn.server.Furnished) (hs : turn.Served) : turn.handled.Furnished := by
  have hlength : turn.server.room.roster.outboxes.length ≤ turn.room.roster.outboxes.length := by
    rw [turn.room_eq]
    exact Room.length_outboxes_run_le _ _
  have hhistory : turn.handled.room.history = (turn.server.room.run turn.moves).history := by
    rw [← turn.room_eq]
    rfl
  have hafter : ∀ c ∈ turn.server.connections, ∀ box ∈ c.outbox, box ∈ turn.after.outbox →
      c = turn.connection := by
    intro c hc box hbox hbox'
    rcases turn.outbox_after with hsame | ⟨hnew, -⟩
    · exact h.own c hc _ hs.mem box hbox (hsame ▸ hbox')
    · rw [hnew, Option.mem_some] at hbox'
      exact absurd (h.opened c hc box hbox) (hbox' ▸ Nat.lt_irrefl _)
  refine ⟨?_, fun c hc box hbox => ?_, fun c hc d hd box hbox hbox' => ?_, ?_, ?_⟩
  · have hopen : turn.room.BoxesOpen := turn.room_eq ▸ h.boxesOpen.run turn.moves
    exact hopen
  · rcases turn.mem_handled hc with rfl | ⟨hc, -⟩
    · rcases turn.outbox_after with hsame | ⟨hnew, hlt⟩
      · exact Nat.lt_of_lt_of_le (h.opened _ hs.mem box (hsame ▸ hbox)) hlength
      · rw [hnew, Option.mem_some] at hbox
        exact hbox ▸ hlt
    · exact Nat.lt_of_lt_of_le (h.opened c hc box hbox) hlength
  · rcases turn.mem_handled hc with rfl | ⟨hc, hne⟩
    · rcases turn.mem_handled hd with rfl | ⟨hd, hne⟩
      · rfl
      · rw [hafter d hd box hbox' hbox, turn.id_after] at hne
        exact absurd rfl hne
    · rcases turn.mem_handled hd with rfl | ⟨hd, -⟩
      · rw [hafter c hc box hbox hbox', turn.id_after] at hne
        exact absurd rfl hne
      · exact h.own c hc d hd box hbox hbox'
  · rw [hhistory]
    exact Room.length_history_run_le h.shown turn.moves
  · rw [Room.greetingLength, hhistory, Room.capacity_history_run]
    exact h.roomy

/-- What a turn queues for a connection that had its outbox before is live. -/
theorem exists_waiting (h : turn.server.Furnished) (hc : c ∈ turn.server.connections) :
    ∃ live, c.waiting turn.room.roster = c.waiting turn.server.room.roster ++ live ∧
      ∀ line ∈ live, ∃ n : Notice, n.IsLive ∧ n.line = line := by
  rw [turn.room_eq, Connection.waiting, Connection.waiting]
  cases hbox : c.outbox with
  | none => exact ⟨[], rfl, fun line hl => absurd hl List.not_mem_nil⟩
  | some box => exact Room.exists_pending_run (h.opened c hc box hbox) (turn.drain_notMem box)

end Furnished

theorem Quiet.next (h : turn.server.Quiet) (hs : turn.Served) : turn.next.Quiet :=
  (h.handled hs).deliver

/-- A newcomer's outbox holds its greeting. -/
theorem Quiet.pending_welcomed (h : turn.server.Quiet) (hw : turn.server.room.roster.WellFormed)
    {username : String} (ha : turn.server.room.roster.Admits username)
    (hmoves : turn.moves = [.enter turn.connection.id username turn.server.outboxCapacity,
      .joined turn.connection.id username]) :
    turn.room.roster.pending turn.server.room.roster.outboxes.length =
      turn.server.room.greeting username := by
  have hfits : (turn.server.room.greeting username).length ≤ turn.server.outboxCapacity :=
    Nat.le_trans (Room.length_greeting_le h.shown username) h.roomy
  rw [turn.room_eq, hmoves]
  exact Room.pending_arrival hw h.boxesOpen ha hfits

/-- **A turn in which the room does not change** changes its own connection, and nothing else. -/
theorem Quiet.next_of_room_eq (h : turn.server.Quiet) (hs : turn.Served)
    (hroom : turn.room = turn.server.room) : turn.next = turn.server.update turn.after := by
  have houtbox : turn.after.outbox = turn.connection.outbox := by
    rcases turn.outbox_after with hsame | ⟨-, hlt⟩
    · exact hsame
    · rw [hroom] at hlt
      exact absurd hlt (Nat.lt_irrefl _)
  rw [Turn.next, Turn.handled, hroom]
  exact h.deliver_update hs.mem houtbox turn.isTaking_after

theorem invariant_quiet : Invariant fun (server : Server δ) _ => server.Quiet where
  listeners _ _ _ _ h := ⟨⟨h.boxesOpen, h.opened, h.own, h.shown, h.roomy⟩, h.empty⟩
  accept _ _ carrier address h := h.accept carrier address
  hear _ _ _ unread _ hc h := h.hear hc unread _
  pace _ _ _ isTaking hc h := h.pace hc isTaking
  turn _ _ hs _ h := h.next hs

end Server

theorem Plan.SetsUp.quiet {δ : Type} {plan : Plan} {host : Host δ} {server : Server δ}
    (h : plan.SetsUp host server) : server.Quiet := by
  obtain ⟨limit, groups, capacity, log, hroom⟩ := h.isNew.room
  have hcapacity : server.room.history.capacity = plan.settings.historyLines := h.capacity
  have hnobody : ∀ c, c ∉ server.connections := by
    rw [h.isNew.connections]
    exact fun c => List.not_mem_nil
  refine ⟨⟨?_, fun c hc => absurd hc (hnobody c), fun c hc => absurd hc (hnobody c), ?_, ?_⟩,
    fun c hc => absurd hc (hnobody c)⟩
  · rw [hroom]
    exact fun entry he => absurd he List.not_mem_nil
  · rw [hroom]
    exact Nat.zero_le _
  · rw [Room.greetingLength, hcapacity, h.outboxCapacity]
    exact Nat.le_max_right _ _

end ChatRoom
