import ChatRoom.Proofs.Room.View
import ChatRoom.Proofs.Room.Vocabulary

/-!
# What waits in the outboxes

A newcomer's outbox takes its whole greeting (`pending_arrival`), and what a run adds to an outbox
that was there before is live (`exists_pending_run`).
-/

namespace ChatRoom

namespace Roster

variable {roster : Roster} {boxes : List OutboxId}

theorem pending_drainAll (roster : Roster) (boxes : List OutboxId) (box : OutboxId) :
    (roster.drainAll boxes).pending box = if box ∈ boxes then [] else roster.pending box := by
  rw [pending, pending, drainAll, List.getElem?_mapIdx]
  cases roster.outboxes[box]? with
  | none => simp
  | some outbox => by_cases hmem : box ∈ boxes <;> simp [hmem, Outbox.drained]

theorem drainAll_eq_self (h : ∀ box ∈ boxes, roster.pending box = []) :
    roster.drainAll boxes = roster := by
  have hsame : (roster.outboxes.mapIdx fun box outbox =>
      if box ∈ boxes then outbox.drained else outbox) = roster.outboxes := by
    refine List.ext_getElem? fun box => ?_
    rw [List.getElem?_mapIdx]
    cases hbox : roster.outboxes[box]? with
    | none => rfl
    | some outbox =>
      rw [Option.map_some]
      split
      · rename_i hmem
        have hempty := h box hmem
        rw [pending, hbox] at hempty
        rw [Outbox.drained, ← hempty]
      · rfl
  rw [drainAll, hsame]

end Roster

namespace Room

variable {δ : Type} {room : Room δ} {id : ConnectionId} {username : String} {box : OutboxId}

theorem length_greeting_le (h : room.history.lines.length ≤ room.history.capacity)
    (username : String) : (room.greeting username).length ≤ room.greetingLength := by
  unfold greeting greetingLength History.replay
  split
  · simp
  · simp only [List.length_cons, List.length_append, List.length_nil]
    omega

/-- A notice for an outbox that was there before is live. -/
theorem isLive_of_deliveries {s : RoomStep} {d : Delivery} (hd : d ∈ room.deliveries s)
    (hbox : d.box < room.roster.outboxes.length) : d.notice.IsLive := by
  rcases mem_deliveries hd with hnew | ⟨n, other, hto, hlive⟩
  · exact absurd hnew (Nat.ne_of_lt hbox)
  · exact (mem_noticeTo hto).1 ▸ hlive

variable [LogDevice δ]

theorem exists_pending_step (h : box < room.roster.outboxes.length) {s : RoomStep}
    (hs : s ≠ .drain box) :
    ∃ live, (room.step s).roster.pending box = room.roster.pending box ++ live ∧
      ∀ line ∈ live, ∃ n : Notice, n.IsLive ∧ n.line = line := by
  have hbox : room.roster.outboxes[box]? = some room.roster.outboxes[box] :=
    List.getElem?_eq_getElem h
  generalize room.roster.outboxes[box] = outbox at hbox
  have hafter : (room.step s).roster.outboxes[box]? = some
      (outbox.pushAll ((Delivery.noticesFor box (room.deliveries s)).map Notice.line)) := by
    rw [getElem?_outboxes_step, if_neg hs, getElem?_opened hbox, Option.map_some]
  refine ⟨((Delivery.noticesFor box (room.deliveries s)).map Notice.line).take outbox.free, ?_,
    fun line hl => ?_⟩
  · rw [pending_eq hafter, pending_eq hbox, Outbox.pending_pushAll_free]
  · obtain ⟨n, hn, rfl⟩ := List.mem_map.1 (List.mem_of_mem_take hl)
    obtain ⟨d, hd, hdbox, rfl⟩ := Delivery.mem_of_mem_noticesFor hn
    exact ⟨d.notice, isLive_of_deliveries hd (hdbox ▸ h), rfl⟩

theorem length_outboxes_run_le (room : Room δ) (steps : List RoomStep) :
    room.roster.outboxes.length ≤ (room.run steps).roster.outboxes.length := by
  induction steps generalizing room with
  | nil => exact Nat.le_refl _
  | cons s steps ih =>
    refine Nat.le_trans ?_ (ih (room.step s))
    rw [length_outboxes_step, length_opened]
    exact Nat.le_add_right _ _

/-- What a run adds to an outbox that was there before, and that it does not drain, is live. -/
theorem exists_pending_run (h : box < room.roster.outboxes.length) {steps : List RoomStep}
    (hsteps : .drain box ∉ steps) :
    ∃ live, (room.run steps).roster.pending box = room.roster.pending box ++ live ∧
      ∀ line ∈ live, ∃ n : Notice, n.IsLive ∧ n.line = line := by
  induction steps generalizing room with
  | nil => exact ⟨[], (List.append_nil _).symm, fun line hl => absurd hl List.not_mem_nil⟩
  | cons s steps ih =>
    obtain ⟨first, hfirst, hlive⟩ :=
      exists_pending_step h fun hs => hsteps (hs ▸ List.mem_cons_self)
    obtain ⟨rest, hrest, hlive'⟩ :=
      ih (boxOpen_step h s) fun hm => hsteps (List.mem_cons_of_mem s hm)
    refine ⟨first ++ rest, ?_, fun line hl => ?_⟩
    · rw [run_cons, hrest, hfirst, List.append_assoc]
    · exact (List.mem_append.1 hl).elim (hlive line) (hlive' line)

/-- The outbox of a newcomer holds its greeting, and nothing else. -/
theorem pending_arrival (hw : room.roster.WellFormed) (hopen : room.BoxesOpen)
    (ha : room.roster.Admits username) {capacity : Nat}
    (hfits : (room.greeting username).length ≤ capacity) :
    (room.run [.enter id username capacity, .joined id username]).roster.pending
      room.roster.outboxes.length = room.greeting username := by
  have hseated :
      (room.step (.enter id username capacity)).Seated id room.roster.outboxes.length :=
    .of_enter hw hopen ha
  have hopened : (room.opened (.enter id username capacity)).outboxes[
      room.roster.outboxes.length]? = some (.ofCapacity capacity) := by
    simp [opened, ha, Roster.openOutbox]
  have hgreeting : (Delivery.noticesFor room.roster.outboxes.length
      (room.deliveries (.enter id username capacity))).map Notice.line =
        room.greeting username := by
    rw [deliveries, if_pos ha, Delivery.noticesFor_map, map_line_greetingOf]
  have hentered : (room.step (.enter id username capacity)).roster.outboxes[
      room.roster.outboxes.length]? =
        some ((Outbox.ofCapacity capacity).pushAll (room.greeting username)) := by
    rw [getElem?_outboxes_step, if_neg (by simp), hopened, hgreeting, Option.map_some]
  have hjoined : Delivery.noticesFor room.roster.outboxes.length
      ((room.step (.enter id username capacity)).deliveries (.joined id username)) = [] := by
    rw [deliveries, hseated.noticesFor_noticeAll, if_pos rfl]
  have hafter : (room.run [.enter id username capacity, .joined id username]).roster.outboxes[
      room.roster.outboxes.length]? =
        some ((Outbox.ofCapacity capacity).pushAll (room.greeting username)) := by
    rw [run_cons, run_cons, run_nil, getElem?_outboxes_step, if_neg (by simp), hjoined,
      getElem?_opened hentered, Option.map_some]
    rfl
  have hroom : (Outbox.ofCapacity capacity).capacity -
      (Outbox.ofCapacity capacity).pending.length = max capacity 1 := Nat.sub_zero _
  rw [pending_eq hafter, Outbox.pending_pushAll rfl, hroom, List.take_of_length_le (by omega)]
  rfl

end Room

end ChatRoom
