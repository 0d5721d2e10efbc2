import ChatRoom.Proofs.Room.Requests

/-!
# The rooms that are reached

A room changes by single steps and by whole requests, in any order (`Room.Reachable`): between the
two halves of an arrival or a departure anything else may happen. Neither a step nor a request asks
more of the roster than requests can, so in every room that is reached no two sessions share an
outbox (`Reachable.owned`). The groups are those of the beginning, and the history stays within its
capacity.
-/

namespace ChatRoom

namespace Room

variable {δ : Type} [LogDevice δ]

/-- The rooms that come of `start`, by steps and requests in any order. -/
inductive Reachable (start : Room δ) : Room δ → Prop
  | start : start.Reachable start
  | step {room : Room δ} (s : RoomStep) : start.Reachable room → start.Reachable (room.step s)
  | serve {room : Room δ} (request : RoomRequest) :
      start.Reachable room → start.Reachable (room.serve request).2

variable {start room : Room δ}

theorem Reachable.run (h : start.Reachable room) (steps : List RoomStep) :
    start.Reachable (room.run steps) := by
  induction steps generalizing room with
  | nil => exact h
  | cons s steps ih => exact ih (h.step s)

theorem step_route (room : Room δ) (id : ConnectionId) (sender line : String) :
    room.step (.route id sender line) = (room.route id sender line).2 := rfl

/-! ## The roster -/

/-- A step asks nothing else of the roster than requests can. -/
theorem exists_asked_step (room : Room δ) (s : RoomStep) :
    ∃ requests, (room.step s).roster = room.roster.askedAll requests := by
  cases s with
  | enter id username capacity =>
    by_cases h : room.roster.Admits username
    · refine ⟨[.register id username capacity true (room.greeting username)], ?_⟩
      rw [Roster.askedAll_cons, Roster.askedAll_nil, Roster.asked,
        Roster.enrol_of_admits h id capacity true]
      simp only [step, enter]
      rw [Roster.register_of_admits (admits_openOutbox.2 h)]
      rfl
    · rw [step_enter_of_not_admits h]
      exact ⟨[], rfl⟩
  | joined id username =>
    exact ⟨[.broadcast (Event.joined username).line (some id)], rfl⟩
  | leave id => exact ⟨[.unregister id], rfl⟩
  | left id username => exact ⟨[.broadcast (Event.left username).line none], rfl⟩
  | route id sender line =>
    rw [step_route]
    exact room.exists_asked_route id sender line
  | drain box => exact ⟨[.drain box], rfl⟩

theorem owned_step (h : room.roster.Owned) (s : RoomStep) : (room.step s).roster.Owned := by
  obtain ⟨requests, he⟩ := room.exists_asked_step s
  rw [he]
  exact h.askedAll requests

theorem Reachable.owned (h : start.Reachable room) (hstart : start.roster.Owned) :
    room.roster.Owned := by
  induction h with
  | start => exact hstart
  | step s _ ih => exact owned_step ih s
  | serve request _ ih => exact owned_serve ih request

/-! ## Groups and history -/

theorem groups_serve (request : RoomRequest) : (room.serve request).2.groups = room.groups := by
  cases request with
  | arrive id username capacity reader =>
    rw [serve_arrive]
    cases room.roster.enrol id username capacity reader (room.greeting username) <;> rfl
  | depart id =>
    have hdepart : (room.serve (.depart id)).2 = room.run (room.departure id) := depart_eq
    rw [hdepart, groups_run]
  | route id sender line =>
    rw [serve_route, ← step_route, groups_step]
  | drain box => rfl
  | abandon box => rfl

/-- The groups of a room stay. -/
theorem Reachable.groups_eq (h : start.Reachable room) : room.groups = start.groups := by
  induction h with
  | start => rfl
  | step s _ ih => exact (groups_step s).trans ih
  | serve request _ ih => exact (groups_serve request).trans ih

theorem Reachable.capacity_eq (h : start.Reachable room) :
    room.history.capacity = start.history.capacity := by
  induction h with
  | start => rfl
  | step s _ ih => rw [history_step, History.capacity_foldl_append, ih]
  | serve request _ ih => rw [(kept_serve request).1, History.capacity_foldl_append, ih]

theorem Reachable.length_lines_le (h : start.Reachable room)
    (hstart : start.history.lines.length ≤ start.history.capacity) :
    room.history.lines.length ≤ room.history.capacity := by
  induction h with
  | start => exact hstart
  | step s _ ih =>
    rw [history_step, History.capacity_foldl_append]
    exact History.length_foldl_append_le ih _
  | serve request _ ih =>
    rw [(kept_serve request).1, History.capacity_foldl_append]
    exact History.length_foldl_append_le ih _

end Room

end ChatRoom
