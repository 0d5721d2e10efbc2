import ChatRoom.Proofs.Roster.Likeness
import ChatRoom.Proofs.Room.Sinks

/-!
# Rooms that differ in some lines

Two rooms are alike (`Room.Alike`) if they are the same but for lines in the history that may stand
for each other (`kept`), for lines in outboxes that may (`seen`), and for their logs. Whatever is
asked of both is answered alike and leaves them alike (`Alike.act`), as long as the outbox of a
newcomer may show what the history may hold.
-/

namespace ChatRoom

open Text

/-- Histories that hold lines that may stand for each other. -/
structure History.Alike (kept : String → String → Prop) (history other : History) : Prop where
  capacity : history.capacity = other.capacity
  lines : List.Forall₂ (Matches kept) history.lines other.lines

namespace History

variable {kept : String → String → Prop} {history other : History}

theorem Alike.refl (history : History) : history.Alike kept history :=
  ⟨rfl, forall₂_matches_refl _⟩

theorem Alike.append (h : history.Alike kept other) {line twin : String}
    (hl : Matches kept (dropTerminators line) (dropTerminators twin)) :
    (history.append line).Alike kept (other.append twin) := by
  have hlines : List.Forall₂ (Matches kept) (history.lines ++ [dropTerminators line])
      (other.lines ++ [dropTerminators twin]) := List.rel_append h.lines (.cons hl .nil)
  refine ⟨h.capacity, ?_⟩
  simp only [History.append]
  rw [h.capacity, hlines.length_eq]
  exact List.forall₂_drop _ hlines

theorem Alike.replay (h : history.Alike kept other) :
    List.Forall₂ (Matches kept) history.replay other.replay := by
  unfold History.replay
  by_cases hnil : history.lines = []
  · have hlen := h.lines.length_eq
    rw [hnil, List.length_nil, eq_comm, List.length_eq_zero_iff] at hlen
    rw [if_pos hnil, if_pos hlen]
    exact .nil
  · have hother : other.lines ≠ [] := by
      intro ho
      have hlen := h.lines.length_eq
      rw [ho, List.length_nil, List.length_eq_zero_iff] at hlen
      exact hnil hlen
    rw [if_neg hnil, if_neg hother]
    exact .cons (.refl _) (List.rel_append h.lines (.cons (.refl _) .nil))

end History

namespace Room

variable {δ : Type}

structure Alike (seen : OutboxId → String → String → Prop) (kept : String → String → Prop)
    (room other : Room δ) : Prop where
  roster : room.roster.Alike seen other.roster
  groups : room.groups = other.groups
  history : room.history.Alike kept other.history

variable {seen : OutboxId → String → String → Prop} {kept : String → String → Prop}
  {room other : Room δ}

theorem Alike.refl (room : Room δ) : room.Alike seen kept room :=
  ⟨.refl _, rfl, .refl _⟩

theorem Alike.withRoster (h : room.Alike seen kept other) {roster twin : Roster}
    (hroster : roster.Alike seen twin) :
    Alike seen kept { room with roster } { other with roster := twin } :=
  ⟨hroster, h.groups, h.history⟩

theorem Alike.tell (h : room.Alike seen kept other) {id : ConnectionId} {reply twin : Reply}
    (hl : ∀ entry, room.roster.entryOf? id = some entry →
      Matches (seen entry.outbox) reply.line twin.line) :
    (room.tell id reply).Alike seen kept (other.tell id twin) :=
  h.withRoster (h.roster.send hl).2

theorem Alike.greeting (h : room.Alike seen kept other) (username : String) :
    List.Forall₂ (Matches kept) (room.greeting username) (other.greeting username) :=
  .cons (.refl _) h.history.replay

variable [LogDevice δ]

theorem Alike.keep (h : room.Alike seen kept other) {event twin : Event}
    (hl : Matches kept (dropTerminators event.line) (dropTerminators twin.line)) :
    (room.keep event).Alike seen kept (other.keep twin) :=
  ⟨h.roster, h.groups, h.history.append hl⟩

theorem Alike.record (h : room.Alike seen kept other) (event : Event)
    (except : Option ConnectionId) :
    (room.record event except).1 = (other.record event except).1 ∧
      (room.record event except).2.Alike seen kept (other.record event except).2 := by
  obtain ⟨hcount, hroster⟩ := h.roster.broadcast event.line except
  exact ⟨hcount, (h.withRoster hroster).keep (.refl _)⟩

theorem Alike.routeDirect (h : room.Alike seen kept other) (id : ConnectionId)
    (sender recipient text : String) :
    (room.routeDirect id sender recipient text).1 =
        (other.routeDirect id sender recipient text).1 ∧
      (room.routeDirect id sender recipient text).2.Alike seen kept
        (other.routeDirect id sender recipient text).2 := by
  unfold Room.routeDirect
  rw [← h.roster.find?]
  cases room.roster.find? recipient with
  | none => exact ⟨rfl, h.tell fun _ _ => .refl _⟩
  | some recipientId =>
    exact ⟨rfl, ((h.tell fun _ _ => .refl _).tell fun _ _ => .refl _).keep (.refl _)⟩

theorem Alike.routeGroup (h : room.Alike seen kept other) (id : ConnectionId)
    (sender name text : String) :
    (room.routeGroup id sender name text).1 = (other.routeGroup id sender name text).1 ∧
      (room.routeGroup id sender name text).2.Alike seen kept
        (other.routeGroup id sender name text).2 := by
  have hfind : room.roster.find? = other.roster.find? := funext h.roster.find?
  have hget : room.groups.get? name = other.groups.get? name := by rw [h.groups]
  unfold Room.routeGroup
  rw [← hget, ← hfind]
  cases room.groups.get? name with
  | none => exact ⟨rfl, h.tell fun _ _ => .refl _⟩
  | some group =>
    have hl : ∀ member ∈ (group.members.filterMap room.roster.find?).filter (· ≠ id), ∀ entry,
        room.roster.entryOf? member = some entry → Matches (seen entry.outbox)
          (Reply.groupFrom group.name sender text).line
          (Reply.groupFrom group.name sender text).line := fun _ _ _ _ => .refl _
    obtain ⟨hcount, hroster⟩ := Roster.Alike.sendEach hl h.roster
    have hafter := h.withRoster hroster
    exact ⟨congrArg (Routed.group group.name) hcount,
      (hafter.tell fun _ _ => .refl _).keep (.refl _)⟩

/-- **The same line** is routed alike. -/
theorem Alike.route (h : room.Alike seen kept other) (id : ConnectionId) (sender line : String) :
    (room.route id sender line).1 = (other.route id sender line).1 ∧
      (room.route id sender line).2.Alike seen kept (other.route id sender line).2 := by
  unfold Room.route
  cases Command.parse line with
  | error malformed => exact ⟨rfl, h.tell fun _ _ => .refl _⟩
  | ok command =>
    cases command with
    | none => exact ⟨rfl, h⟩
    | some command =>
      cases command with
      | global text =>
        obtain ⟨hcount, hrecord⟩ := h.record (.global sender text) none
        exact ⟨congrArg Routed.global hcount, hrecord⟩
      | direct recipient text => exact h.routeDirect id sender recipient text
      | group name text => exact h.routeGroup id sender name text

/-- **An arrival** is answered alike. -/
theorem Alike.arrive (h : room.Alike seen kept other) (id : ConnectionId) (username : String)
    {box : OutboxId} (hbox : ∀ line twin, kept line twin → seen box line twin) :
    (room.act (.arrive id username box)).1 = (other.act (.arrive id username box)).1 ∧
      (room.act (.arrive id username box)).2.Alike seen kept
        (other.act (.arrive id username box)).2 := by
  have hgreeting := (h.greeting username).imp fun _ _ hl => hl.imp_right (hbox _ _)
  rw [act_arrive, act_arrive, enter, enter]
  rcases h.roster.register hgreeting with ⟨e, hr, ho⟩ | ⟨queued, after, after', hr, ho, halike⟩
  · rw [hr, ho]
    exact ⟨rfl, h⟩
  · rw [hr, ho]
    exact ⟨rfl, ((h.withRoster halike).record _ _).2⟩

/-- **A departure** is answered alike. -/
theorem Alike.depart (h : room.Alike seen kept other) (id : ConnectionId) :
    (room.act (.depart id)).1 = (other.act (.depart id)).1 ∧
      (room.act (.depart id)).2.Alike seen kept (other.act (.depart id)).2 := by
  obtain ⟨hname, hroster⟩ := h.roster.unregister id
  rw [act_depart, act_depart, leave, leave]
  generalize room.roster.unregister id = left at hname hroster
  generalize other.roster.unregister id = left' at hname hroster
  obtain ⟨username, roster⟩ := left
  obtain ⟨username', roster'⟩ := left'
  obtain rfl : username = username' := hname
  cases username with
  | none => exact ⟨rfl, h⟩
  | some username => exact ⟨rfl, ((h.withRoster hroster).record _ _).2⟩

end Room

end ChatRoom
