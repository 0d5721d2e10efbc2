import ChatRoom.Proofs.Room.Steps

/-!
# What the history holds

The last `capacity` events on record, each as it is: the line of a recorded event ends in no
terminator (`endsPlain_of_record?`), so there is none to drop, and dropping the oldest line each
time leaves the same as dropping them all at the end (`lines_foldl_append`).
-/

namespace ChatRoom

open Text

/-! ## Appending -/

theorem rtake_rtake_append {α : Type} (n : Nat) (l m : List α) :
    (l.rtake n ++ m).rtake n = (l ++ m).rtake n := by
  rw [List.rtake_eq_reverse_take_reverse, List.rtake_eq_reverse_take_reverse,
    List.rtake_eq_reverse_take_reverse, List.reverse_append, List.reverse_append,
    List.reverse_reverse, List.take_append, List.take_append, List.take_take,
    Nat.min_eq_left (Nat.sub_le _ _)]

theorem History.lines_foldl_append (history : History) (lines : List String)
    (h : history.lines.rtake history.capacity = history.lines) :
    (lines.foldl History.append history).lines =
      (history.lines ++ lines.map dropTerminators).rtake history.capacity := by
  induction lines generalizing history with
  | nil => simp [h]
  | cons line lines ih =>
    have happend : (history.append line).lines =
        (history.lines ++ [dropTerminators line]).rtake history.capacity := rfl
    rw [List.foldl_cons, ih _ (by simpa [happend] using rtake_rtake_append _ _ []), happend,
      History.capacity_append, rtake_rtake_append]
    simp

@[simp] theorem History.capacity_foldl_append (history : History) (lines : List String) :
    (lines.foldl History.append history).capacity = history.capacity := by
  induction lines generalizing history with
  | nil => rfl
  | cons line lines ih => rw [List.foldl_cons, ih, History.capacity_append]

theorem History.length_foldl_append_le {history : History}
    (h : history.lines.length ≤ history.capacity) (lines : List String) :
    (lines.foldl History.append history).lines.length ≤ history.capacity := by
  induction lines generalizing history with
  | nil => exact h
  | cons line lines ih => exact ih (history.length_append_le line)

/-! ## Events on record -/

namespace Room

variable {δ : Type} {room : Room δ}

theorem endsPlain_of_commandEvent? {sender line : String} {c : Command} {event : Event}
    (hc : Command.parse line = .ok (some c)) (he : room.commandEvent? sender c = some event) :
    EndsPlain event.line := by
  cases c with
  | global text =>
    cases he
    obtain ⟨htext, hne⟩ := Command.parse_global hc
    exact (endsPlain_append _ hne).2 (htext ▸ endsPlain_dropTerminators line)
  | direct recipient text =>
    obtain ⟨_, -, rfl⟩ := Option.map_eq_some_iff.1 he
    obtain ⟨hline, -, hne, -⟩ := Command.parse_direct hc
    exact (endsPlain_append _ hne).2 (Command.endsPlain_of_line hline hne)
  | group name text =>
    obtain ⟨_, -, rfl⟩ := Option.map_eq_some_iff.1 he
    obtain ⟨hline, -, hne, -⟩ := Command.parse_group hc
    exact (endsPlain_append _ hne).2 (Command.endsPlain_of_line hline hne)

theorem endsPlain_of_record? {s : RoomStep} {r : Record} (h : room.record? s = some r) :
    EndsPlain r.event.line := by
  obtain ⟨username, -, he⟩ | ⟨username, -, he⟩ | ⟨sender, line, c, -, hc, he⟩ := record?_eq_some h
  · rw [he]
    exact (endsPlain_append _ (by decide)).2 (by decide)
  · rw [he]
    exact (endsPlain_append _ (by decide)).2 (by decide)
  · exact endsPlain_of_commandEvent? hc he

variable [LogDevice δ]

theorem endsPlain_of_mem_recorded {steps : List RoomStep} {r : Record}
    (h : r ∈ room.recorded steps) : EndsPlain r.event.line := by
  induction steps generalizing room with
  | nil => cases h
  | cons s steps ih =>
    rcases List.mem_append.1 h with h | h
    · exact endsPlain_of_record? (Option.mem_toList.1 h)
    · exact ih h

@[simp] theorem capacity_history_run (room : Room δ) (steps : List RoomStep) :
    (room.run steps).history.capacity = room.history.capacity := by
  rw [history_run, History.capacity_foldl_append]

theorem length_history_run_le (h : room.history.lines.length ≤ room.history.capacity)
    (steps : List RoomStep) :
    (room.run steps).history.lines.length ≤ (room.run steps).history.capacity := by
  rw [capacity_history_run, history_run]
  exact History.length_foldl_append_le h _

/-- **The history** of a room that began without one holds the last events on record. -/
theorem lines_history_run (hempty : room.history.lines = []) (steps : List RoomStep) :
    (room.run steps).history.lines =
      ((room.recorded steps).map (·.event.line)).rtake room.history.capacity := by
  have hplain : (room.recorded steps).map (dropTerminators ·.event.line) =
      (room.recorded steps).map (·.event.line) :=
    List.map_congr_left fun r hr => (endsPlain_of_mem_recorded hr).dropTerminators
  rw [history_run, History.lines_foldl_append _ _ (by simp [hempty]), hempty, List.map_map,
    List.nil_append]
  exact congrArg (List.rtake · _) hplain

end Room

end ChatRoom
