import ChatRoom.Log.Memory
import ChatRoom.Proofs.Record
import ChatRoom.Proofs.Room.View

/-!
# Arrivals and departures that interleave

An arrival changes the roster first and is announced in a second step, and so is a departure.
`Along MayCome` says in which orders the steps of any number of them come: a second half is due once
its first half is done (`begun`), and comes once.

A name is free again before its departure is announced, so somebody may enter under a name whose
departure is due (`Clashes`). As long as nobody does, it is known of every name how it stands
(`Stands`): joins and departures alternate on record, and no session is told that it has left. When
somebody does, two announcements are due for one name, and either order of them is wrong
(`Doomed`): the name joins twice on record, or the newcomer is told that it has left.
-/

namespace ChatRoom

/-! ## Announcements -/

namespace RoomStep

/-- The join or the departure that a step announces. -/
def announcement? : RoomStep → Option Event
  | .joined _ username => some (.joined username)
  | .left _ username => some (.left username)
  | .enter .. | .leave _ | .route .. | .drain _ => none

def Announces (s : RoomStep) (username : String) : Prop :=
  s.announcement? = some (.joined username) ∨ s.announcement? = some (.left username)

instance (s : RoomStep) (username : String) : Decidable (s.Announces username) :=
  inferInstanceAs (Decidable (_ ∨ _))

def isRoute : RoomStep → Bool
  | .route .. => true
  | _ => false

variable {s : RoomStep} {username name : String} {id : ConnectionId}

@[simp] theorem announces_joined : (joined id name).Announces username ↔ name = username := by
  simp [Announces, announcement?]

@[simp] theorem announces_left : (left id name).Announces username ↔ name = username := by
  simp [Announces, announcement?]

@[simp] theorem not_announces_enter {capacity : Nat} :
    ¬ (enter id name capacity).Announces username := by
  simp [Announces, announcement?]

@[simp] theorem not_announces_leave : ¬ (leave id).Announces username := by
  simp [Announces, announcement?]

@[simp] theorem not_announces_route {line : String} :
    ¬ (route id name line).Announces username := by
  simp [Announces, announcement?]

@[simp] theorem not_announces_drain {box : OutboxId} : ¬ (drain box).Announces username := by
  simp [Announces, announcement?]

theorem announcement?_eq_joined (h : s.announcement? = some (.joined username)) :
    ∃ id, s = .joined id username := by
  cases s with
  | joined id name =>
    cases h
    exact ⟨id, rfl⟩
  | _ => cases h

theorem announcement?_eq_left (h : s.announcement? = some (.left username)) :
    ∃ id, s = .left id username := by
  cases s with
  | left id name =>
    cases h
    exact ⟨id, rfl⟩
  | _ => cases h

end RoomStep

/-- Of several steps those that announce a join or a departure of this name. -/
def announcements (username : String) (steps : List RoomStep) : List RoomStep :=
  steps.filter (·.Announces username)

theorem mem_announcements {username : String} {steps : List RoomStep} {s : RoomStep} :
    s ∈ announcements username steps ↔ s ∈ steps ∧ s.Announces username := by
  simp [announcements]

theorem announcements_append (username : String) (steps more : List RoomStep) :
    announcements username (steps ++ more) =
      announcements username steps ++ announcements username more :=
  List.filter_append _ _

theorem announcements_erase (username : String) (steps : List RoomStep) (s : RoomStep) :
    announcements username (steps.erase s) = (announcements username steps).erase s :=
  List.erase_filter.symm

/-! ## Announced lines -/

theorem Event.line_left_inj {username other : String}
    (h : (Event.left username).line = (Event.left other).line) : username = other := by
  have hfront : "System: " ++ username = "System: " ++ other := (String.append_left_inj _).1 h
  exact (String.append_right_inj _).1 hfront

/-- The two lines end differently. -/
theorem Event.line_joined_ne_left (username other : String) :
    (Event.joined username).line ≠ (Event.left other).line := by
  intro h
  have hjoined : (Event.joined username).line.toList =
      ("System: " ++ username ++ " has joine").toList ++ "d the chat.".toList := by
    rw [← String.toList_append, String.append_assoc]
    rfl
  have hleft : (Event.left other).line.toList =
      ("System: " ++ other ++ " has lef").toList ++ "t the chat.".toList := by
    rw [← String.toList_append, String.append_assoc]
    rfl
  have hlength : "d the chat.".toList.length = "t the chat.".toList.length := by decide
  rw [h, hleft] at hjoined
  have hends : "t the chat.".toList = "d the chat.".toList :=
    (List.append_inj' hjoined hlength.symm).2
  exact absurd hends (by decide)

namespace Room

variable {δ : Type}

/-! ## Orders of steps -/

/-- What is due after a step: the second half of the arrival or the departure that it begins. -/
def begun (room : Room δ) : RoomStep → List RoomStep
  | .enter id username _ => if room.roster.Admits username then [.joined id username] else []
  | .leave id => (room.roster.entryOf? id).toList.map fun entry => .left id entry.username
  | .joined .. | .left .. | .route .. | .drain _ => []

def dueAfter (room : Room δ) (due : List RoomStep) (s : RoomStep) : List RoomStep :=
  due.erase s ++ room.begun s

/-- What may come next. A connection enters while it is not active, it leaves when its arrival has
been announced, and of the second halves those come that are due. -/
def MayCome (room : Room δ) (due : List RoomStep) : RoomStep → Prop
  | .enter id _ _ => ∀ entry ∈ room.roster.entries, entry.id ≠ id
  | .leave id => ∀ entry ∈ room.roster.entries, entry.id = id → .joined id entry.username ∉ due
  | .joined id username => .joined id username ∈ due
  | .left id username => .left id username ∈ due
  | .route .. | .drain _ => True

/-- Somebody enters under a name whose departure is due. -/
def Clashes (room : Room δ) (due : List RoomStep) : RoomStep → Prop
  | .enter _ username _ =>
    room.roster.Admits username ∧ ∃ s ∈ due, s.announcement? = some (.left username)
  | _ => False

/-- An active session is told that its own name has left, and not by a message. -/
def TellsOwnDeparture (room : Room δ) (s : RoomStep) : Prop :=
  s.isRoute = false ∧ ∃ entry ∈ room.roster.entries, ∃ d ∈ room.deliveries s,
    d.box = entry.outbox ∧ d.notice.line = (Event.left entry.username).line

instance decidableMayCome (room : Room δ) (due : List RoomStep) :
    (s : RoomStep) → Decidable (room.MayCome due s)
  | .enter _ _ _ => inferInstanceAs (Decidable (∀ entry ∈ room.roster.entries, _))
  | .leave _ => inferInstanceAs (Decidable (∀ entry ∈ room.roster.entries, _ → _))
  | .joined .. | .left .. => inferInstanceAs (Decidable (_ ∈ due))
  | .route .. | .drain _ => inferInstanceAs (Decidable True)

instance decidableClashes (room : Room δ) (due : List RoomStep) :
    (s : RoomStep) → Decidable (room.Clashes due s)
  | .enter .. => inferInstanceAs (Decidable (_ ∧ ∃ s ∈ due, _))
  | .leave _ | .joined .. | .left .. | .route .. | .drain _ => inferInstanceAs (Decidable False)

instance (room : Room δ) (s : RoomStep) : Decidable (room.TellsOwnDeparture s) :=
  inferInstanceAs
    (Decidable (_ ∧ ∃ entry ∈ room.roster.entries, ∃ d ∈ room.deliveries s, _))

variable {room : Room δ} {due : List RoomStep} {rs : List Record} {username : String}
  {id : ConnectionId} {s : RoomStep}

theorem announcements_dueAfter :
    announcements username (room.dueAfter due s) =
      (announcements username due).erase s ++ announcements username (room.begun s) := by
  rw [dueAfter, announcements_append, announcements_erase]

theorem mem_dueAfter_of_ne {t : RoomStep} (ht : t ∈ due) (hne : t ≠ s) :
    t ∈ room.dueAfter due s :=
  List.mem_append_left _ ((List.mem_erase_of_ne hne).2 ht)

section Runs

variable [LogDevice δ]

/-- What holds at every step of a run, of the room, of what is due and of the step. -/
def Along (P : Room δ → List RoomStep → RoomStep → Prop) (room : Room δ) (due : List RoomStep) :
    List RoomStep → Prop
  | [] => True
  | s :: steps => P room due s ∧ (room.step s).Along P (room.dueAfter due s) steps

/-- What is due at the end of a run. -/
def dueAfterAll (room : Room δ) (due : List RoomStep) : List RoomStep → List RoomStep
  | [] => due
  | s :: steps => (room.step s).dueAfterAll (room.dueAfter due s) steps

instance decidableAlong (P : Room δ → List RoomStep → RoomStep → Prop)
    [∀ room due s, Decidable (P room due s)] (room : Room δ) (due : List RoomStep) :
    (steps : List RoomStep) → Decidable (room.Along P due steps)
  | [] => inferInstanceAs (Decidable True)
  | s :: steps =>
    have := decidableAlong P (room.step s) (room.dueAfter due s) steps
    inferInstanceAs (Decidable (_ ∧ _))

end Runs

/-! ## How a name stands -/

/-- How a name stands: whether a session has it, what is due about it, and whether it is present on
record. -/
inductive Stands (room : Room δ) (due : List RoomStep) (rs : List Record) (username : String) :
    Prop
  | away (hfree : ∀ entry ∈ room.roster.entries, entry.username ≠ username)
      (hdue : announcements username due = []) (hrecord : ¬ IsPresent username rs)
  | arriving (entry : Entry) (hentry : entry ∈ room.roster.entries)
      (hname : entry.username = username)
      (hdue : announcements username due = [.joined entry.id username])
      (hrecord : ¬ IsPresent username rs)
  | active (entry : Entry) (hentry : entry ∈ room.roster.entries)
      (hname : entry.username = username)
      (hdue : announcements username due = []) (hrecord : IsPresent username rs)
  | departing (id : ConnectionId) (hfree : ∀ entry ∈ room.roster.entries, entry.username ≠ username)
      (hdue : announcements username due = [.left id username])
      (hrecord : IsPresent username rs)

/-- A join or a departure goes on record when it is announced. -/
theorem announcement?_of_record? {r : Record} (h : room.record? s = some r)
    (hpresence : r.event.isPresence = true) : s.announcement? = some r.event := by
  obtain ⟨name, rfl, he⟩ | ⟨name, rfl, he⟩ | ⟨sender, line, c, -, -, he⟩ := record?_eq_some h
  · rw [he]
    rfl
  · rw [he]
    rfl
  · rw [(commandEvent?_eq_some he).1] at hpresence
    cases hpresence

/-- Only an announcement of a name changes whether it is present. -/
theorem isPresent_record? (hs : ¬ s.Announces username) :
    IsPresent username (rs ++ (room.record? s).toList) ↔ IsPresent username rs := by
  cases hr : room.record? s with
  | none => rw [Option.toList_none, List.append_nil]
  | some r =>
    have hpresence := announcement?_of_record? hr
    refine isPresent_snoc_of_ne (fun he => hs (.inl ?_)) (fun he => hs (.inr ?_))
    · rw [hpresence (by rw [he]; rfl), he]
    · rw [hpresence (by rw [he]; rfl), he]

namespace Stands

theorem arriving_of_mem (h : room.Stands due rs username) (hs : .joined id username ∈ due) :
    ∃ entry ∈ room.roster.entries, entry.id = id ∧ entry.username = username ∧
      announcements username due = [.joined id username] ∧ ¬ IsPresent username rs := by
  have hmem : .joined id username ∈ announcements username due :=
    mem_announcements.2 ⟨hs, .inl rfl⟩
  cases h with
  | away _ hdue _ => simp [hdue] at hmem
  | arriving entry hentry hname hdue hrecord =>
    obtain rfl : id = entry.id := by simpa [hdue] using hmem
    exact ⟨entry, hentry, rfl, hname, hdue, hrecord⟩
  | active _ _ _ hdue _ => simp [hdue] at hmem
  | departing _ _ hdue _ => simp [hdue] at hmem

theorem departing_of_mem (h : room.Stands due rs username) (hs : .left id username ∈ due) :
    (∀ entry ∈ room.roster.entries, entry.username ≠ username) ∧
      announcements username due = [.left id username] ∧ IsPresent username rs := by
  have hmem : .left id username ∈ announcements username due :=
    mem_announcements.2 ⟨hs, .inr rfl⟩
  cases h with
  | away _ hdue _ => simp [hdue] at hmem
  | arriving _ _ _ hdue _ => simp [hdue] at hmem
  | active _ _ _ hdue _ => simp [hdue] at hmem
  | departing other hfree hdue hrecord =>
    obtain rfl : id = other := by simpa [hdue] using hmem
    exact ⟨hfree, hdue, hrecord⟩

variable [LogDevice δ]

/-- A step that has nothing to do with a name leaves it as it stands. -/
theorem frame (h : room.Stands due rs username)
    (hentries : ∀ entry, entry.username = username →
      (entry ∈ room.entriesAfter s ↔ entry ∈ room.roster.entries))
    (hbegun : announcements username (room.begun s) = []) (hs : ¬ s.Announces username) :
    (room.step s).Stands (room.dueAfter due s) (rs ++ (room.record? s).toList) username := by
  have hsame : announcements username (room.dueAfter due s) = announcements username due := by
    have hmem : s ∉ announcements username due := fun hm => hs (mem_announcements.1 hm).2
    rw [announcements_dueAfter, hbegun, List.append_nil, List.erase_of_not_mem hmem]
  have hfree : (∀ entry ∈ room.roster.entries, entry.username ≠ username) →
      ∀ entry ∈ (room.step s).roster.entries, entry.username ≠ username := by
    intro hfree entry he hname
    rw [entries_step] at he
    exact hfree entry ((hentries entry hname).1 he) hname
  have hstays : ∀ entry ∈ room.roster.entries, entry.username = username →
      entry ∈ (room.step s).roster.entries := by
    intro entry he hname
    rw [entries_step]
    exact (hentries entry hname).2 he
  have hrecord : IsPresent username (rs ++ (room.record? s).toList) ↔ IsPresent username rs :=
    isPresent_record? hs
  cases h with
  | away hnone hdue hnot =>
    exact .away (hfree hnone) (hsame.trans hdue) (mt hrecord.1 hnot)
  | arriving entry he hname hdue hnot =>
    exact .arriving entry (hstays entry he hname) hname (hsame.trans hdue) (mt hrecord.1 hnot)
  | active entry he hname hdue hpresent =>
    exact .active entry (hstays entry he hname) hname (hsame.trans hdue) (hrecord.2 hpresent)
  | departing id hnone hdue hpresent =>
    exact .departing id (hfree hnone) (hsame.trans hdue) (hrecord.2 hpresent)

theorem enter {capacity : Nat} (h : room.Stands due rs username)
    (ha : room.roster.Admits username)
    (hclash : ¬ room.Clashes due (.enter id username capacity)) :
    (room.step (.enter id username capacity)).Stands
      (room.dueAfter due (.enter id username capacity)) rs username := by
  cases h with
  | away hfree hdue hnot =>
    have hnew : ⟨id, username, room.roster.outboxes.length⟩ ∈
        (room.step (.enter id username capacity)).roster.entries := by
      rw [entries_step, entriesAfter, if_pos ha]
      exact List.mem_append_right _ (List.mem_singleton_self _)
    refine .arriving _ hnew rfl ?_ hnot
    rw [announcements_dueAfter, hdue, begun, if_pos ha]
    simp [announcements]
  | arriving entry hentry hname _ _ => exact absurd hname (ha.free entry hentry)
  | active entry hentry hname _ _ => exact absurd hname (ha.free entry hentry)
  | departing other _ hdue _ =>
    have hleft : .left other username ∈ announcements username due := by simp [hdue]
    exact absurd ⟨ha, _, (mem_announcements.1 hleft).1, rfl⟩ hclash

theorem joined (h : room.Stands due rs username) (hs : .joined id username ∈ due) :
    (room.step (.joined id username)).Stands (room.dueAfter due (.joined id username))
      (rs ++ [⟨id, .joined username⟩]) username := by
  obtain ⟨entry, hentry, -, hname, hdue, -⟩ := h.arriving_of_mem hs
  refine .active entry ?_ hname ?_ (isPresent_joined rfl)
  · rw [entries_step]
    exact hentry
  · rw [announcements_dueAfter, hdue, List.erase_cons_head]
    rfl

theorem leave (h : room.Stands due rs username) (hw : room.roster.WellFormed) {entry : Entry}
    (hentry : entry ∈ room.roster.entries) (hname : entry.username = username)
    (hcome : room.MayCome due (.leave entry.id)) :
    (room.step (.leave entry.id)).Stands (room.dueAfter due (.leave entry.id)) rs username := by
  have hnot : .joined entry.id username ∉ due := hname ▸ hcome entry hentry rfl
  have hsame : ∀ other ∈ room.roster.entries, other.username = username → other = entry :=
    fun other ho hn => (hw.username_inj ho hentry).1 (hn.trans hname.symm)
  cases h with
  | away hfree _ _ => exact absurd hname (hfree entry hentry)
  | arriving other ho hn hdue _ =>
    have hjoined : .joined other.id username ∈ announcements username due := by simp [hdue]
    rw [hsame other ho hn] at hjoined
    exact absurd (mem_announcements.1 hjoined).1 hnot
  | active other ho hn hdue hpresent =>
    refine .departing entry.id (fun next hm hu => ?_) ?_ hpresent
    · rw [entries_step] at hm
      obtain ⟨hm, hid⟩ := List.mem_filter.1 hm
      exact of_decide_eq_true hid (congrArg Entry.id (hsame next hm hu))
    · have hbegun : room.begun (.leave entry.id) = [.left entry.id username] := by
        rw [begun, hw.entryOf?_eq_some_iff.2 ⟨hentry, rfl⟩, ← hname]
        rfl
      rw [announcements_dueAfter, hdue, hbegun]
      simp [announcements]
  | departing _ hfree _ _ => exact absurd hname (hfree entry hentry)

theorem left (h : room.Stands due rs username) (hs : .left id username ∈ due) :
    (room.step (.left id username)).Stands (room.dueAfter due (.left id username))
      (rs ++ [⟨id, .left username⟩]) username := by
  obtain ⟨hfree, hdue, -⟩ := h.departing_of_mem hs
  refine .away ?_ ?_ (not_isPresent_left rfl)
  · rw [entries_step]
    exact hfree
  · rw [announcements_dueAfter, hdue, List.erase_cons_head]
    rfl

/-- **One step**: unless somebody enters under a name whose departure is due, a step leaves every
name standing in one of the four ways. -/
theorem step (h : room.Stands due rs username) (hw : room.roster.WellFormed)
    (hcome : room.MayCome due s) (hclash : ¬ room.Clashes due s) :
    (room.step s).Stands (room.dueAfter due s) (rs ++ (room.record? s).toList) username := by
  cases s with
  | enter id name capacity =>
    by_cases ha : room.roster.Admits name
    · by_cases hname : name = username
      · subst hname
        rw [record?, Option.toList_none, List.append_nil]
        exact h.enter ha hclash
      · have hall : room.roster.entries.filter (·.id ≠ id) = room.roster.entries :=
          List.filter_eq_self.2 fun entry he => decide_eq_true (hcome entry he)
        refine h.frame (fun entry hu => ?_) ?_ (by simp)
        · rw [entriesAfter, if_pos ha, hall, List.mem_append, List.mem_singleton]
          refine or_iff_left ?_
          rintro rfl
          exact hname hu
        · simp [begun, ha, announcements, hname]
    · refine h.frame (fun entry _ => ?_) ?_ (by simp)
      · rw [entriesAfter, if_neg ha]
      · rw [begun, if_neg ha]
        rfl
  | joined id name =>
    by_cases hname : name = username
    · subst hname
      exact h.joined hcome
    · exact h.frame (fun _ _ => Iff.rfl) rfl
        (by simpa using hname)
  | leave id =>
    cases he : room.roster.entryOf? id with
    | none =>
      have hgone : ∀ entry ∈ room.roster.entries, entry.id ≠ id := fun entry hm hid => by
        rw [hw.entryOf?_eq_some_iff.2 ⟨hm, hid⟩] at he
        cases he
      refine h.frame (fun entry _ => ?_) (by simp [begun, he, announcements]) (by simp)
      rw [entriesAfter, List.mem_filter]
      exact and_iff_left_of_imp fun hm => decide_eq_true (hgone entry hm)
    | some entry =>
      obtain ⟨hentry, rfl⟩ := hw.entryOf?_eq_some_iff.1 he
      by_cases hname : entry.username = username
      · rw [record?, Option.toList_none, List.append_nil]
        exact h.leave hw hentry hname hcome
      · refine h.frame (fun other hu => ?_) (by simp [begun, he, announcements, hname]) (by simp)
        rw [entriesAfter, List.mem_filter]
        refine and_iff_left_of_imp fun hm => decide_eq_true fun hid => ?_
        exact hname ((hw.id_inj hm hentry).1 hid ▸ hu)
  | left id name =>
    by_cases hname : name = username
    · subst hname
      exact h.left hcome
    · exact h.frame (fun _ _ => Iff.rfl) rfl
        (by simpa using hname)
  | route id sender line =>
    exact h.frame (fun _ _ => Iff.rfl) rfl (by simp)
  | drain box =>
    exact h.frame (fun _ _ => Iff.rfl) rfl (by simp)

end Stands

/-! ## While nobody takes a name too early -/

/-- Joins and departures of a name that alternate on record alternate after a step. -/
theorem alternate_step (h : room.Stands due rs username) (hcome : room.MayCome due s)
    (hrs : ∀ i e, (presences username rs)[i]? = some e → e = alternating username i) :
    ∀ i e, (presences username (rs ++ (room.record? s).toList))[i]? = some e →
      e = alternating username i := by
  cases hr : room.record? s with
  | none => simpa using hrs
  | some r =>
    have hpresence := announcement?_of_record? hr
    refine alternate_snoc hrs (fun he => ?_) (fun he => ?_)
    · rw [he] at hpresence
      obtain ⟨id, rfl⟩ := RoomStep.announcement?_eq_joined (hpresence rfl)
      obtain ⟨-, -, -, -, -, hnot⟩ := h.arriving_of_mem hcome
      exact hnot
    · rw [he] at hpresence
      obtain ⟨id, rfl⟩ := RoomStep.announcement?_eq_left (hpresence rfl)
      exact (h.departing_of_mem hcome).2.2

/-- A departure is announced when nobody has the name. -/
theorem not_tellsOwnDeparture (hopen : room.BoxesOpen)
    (h : ∀ username, room.Stands due rs username) (hcome : room.MayCome due s) :
    ¬ room.TellsOwnDeparture s := by
  rintro ⟨hroute, entry, hentry, d, hd, hbox, hline⟩
  cases s with
  | enter id name capacity =>
    -- the greeting is in an outbox that nobody else has
    simp only [deliveries] at hd
    split at hd
    · obtain ⟨n, -, rfl⟩ := List.mem_map.1 hd
      exact Nat.ne_of_lt (hopen entry hentry) hbox.symm
    · cases hd
  | joined id name =>
    obtain ⟨other, hd⟩ := mem_noticeAll hd
    rw [(mem_noticeTo hd).1] at hline
    exact Event.line_joined_ne_left _ _ hline
  | leave id => cases hd
  | left id name =>
    obtain ⟨other, hd⟩ := mem_noticeAll hd
    rw [(mem_noticeTo hd).1] at hline
    exact ((h name).departing_of_mem hcome).1 entry hentry (Event.line_left_inj hline).symm
  | route id sender line => cases hroute
  | drain box => cases hd

variable [LogDevice δ]

/-- If nobody takes a name too early, joins and departures alternate on record, and nobody is told
of its own departure. -/
theorem orderly_run (hw : room.roster.WellFormed) (hopen : room.BoxesOpen) {steps : List RoomStep}
    (h : ∀ username, room.Stands due rs username)
    (hrs : ∀ username i e, (presences username rs)[i]? = some e → e = alternating username i)
    (hcome : room.Along MayCome due steps)
    (hclash : room.Along (fun room due s => ¬ room.Clashes due s) due steps) :
    (∀ username i e, (presences username (rs ++ room.recorded steps))[i]? = some e →
      e = alternating username i) ∧
    room.Along (fun room _ s => ¬ room.TellsOwnDeparture s) due steps := by
  induction steps generalizing room due rs with
  | nil =>
    refine ⟨?_, trivial⟩
    rw [recorded, List.append_nil]
    exact hrs
  | cons s steps ih =>
    have hnext := fun username => (h username).step hw hcome.1 hclash.1
    have hrs' := fun username => alternate_step (h username) hcome.1 (hrs username)
    obtain ⟨halternate, hsilent⟩ :=
      ih (wellFormed_step hw s) (hopen.step s) hnext hrs' hcome.2 hclash.2
    rw [List.append_assoc] at halternate
    exact ⟨halternate, not_tellsOwnDeparture hopen h hcome.1, hsilent⟩

/-! ## When somebody does -/

/-- Somebody entered under a name whose departure is due, and both are still to be announced. -/
structure Doomed (room : Room δ) (due : List RoomStep) (rs : List Record) (username : String) :
    Prop where
  entered : ∃ entry ∈ room.roster.entries, entry.username = username ∧
    .joined entry.id username ∈ due
  departure : ∃ id, .left id username ∈ due
  present : IsPresent username rs

namespace Doomed

theorem step (h : room.Doomed due rs username) (hcome : room.MayCome due s)
    (hs : ¬ s.Announces username) :
    (room.step s).Doomed (room.dueAfter due s) (rs ++ (room.record? s).toList) username := by
  obtain ⟨⟨entry, hentry, hname, hjoined⟩, ⟨id, hleft⟩, hpresent⟩ := h
  have hstays : entry ∈ (room.step s).roster.entries := by
    rw [entries_step]
    cases s with
    | enter other name capacity =>
      simp only [entriesAfter]
      split
      · refine List.mem_append_left _ (List.mem_filter.2 ⟨hentry, ?_⟩)
        exact decide_eq_true (hcome entry hentry)
      · exact hentry
    | leave other =>
      refine List.mem_filter.2 ⟨hentry, decide_eq_true ?_⟩
      rintro rfl
      exact hcome entry hentry rfl (hname ▸ hjoined)
    | _ => exact hentry
  refine ⟨⟨entry, hstays, hname, mem_dueAfter_of_ne hjoined ?_⟩, ⟨id, mem_dueAfter_of_ne hleft ?_⟩,
    (isPresent_record? hs).2 hpresent⟩
  · rintro rfl
    simp at hs
  · rintro rfl
    simp at hs

omit [LogDevice δ] in
theorem tells (h : room.Doomed due rs username) (hw : room.roster.WellFormed) (id : ConnectionId) :
    room.TellsOwnDeparture (.left id username) := by
  obtain ⟨entry, hentry, hname, -⟩ := h.entered
  refine ⟨rfl, entry, hentry, ⟨entry.outbox, .event (.left username)⟩, ?_, rfl, by rw [hname]; rfl⟩
  refine List.mem_flatMap.2 ⟨entry.id, by simpa using ⟨entry, hentry, rfl⟩, ?_⟩
  rw [noticeTo, hw.entryOf?_eq_some_iff.2 ⟨hentry, rfl⟩]
  exact List.mem_singleton_self _

/-- Of the two announcements one comes first: a join of a name that is present, or a departure that
the newcomer is told of. -/
theorem disorderly (h : room.Doomed due rs username) (hw : room.roster.WellFormed)
    {steps : List RoomStep} (hcome : room.Along MayCome due steps)
    (hdone : room.dueAfterAll due steps = [])
    (halternate : ∀ i e, (presences username (rs ++ room.recorded steps))[i]? = some e →
      e = alternating username i) :
    ¬ room.Along (fun room _ s => ¬ room.TellsOwnDeparture s) due steps := by
  induction steps generalizing room due rs with
  | nil =>
    obtain ⟨id, hleft⟩ := h.departure
    rw [dueAfterAll] at hdone
    simp [hdone] at hleft
  | cons s steps ih =>
    rintro ⟨hs, hsilent⟩
    by_cases hannounces : s.Announces username
    · rcases hannounces with hjoined | hleft
      · obtain ⟨id, rfl⟩ := RoomStep.announcement?_eq_joined hjoined
        exact not_alternate_of_rejoined h.present rfl _ halternate
      · obtain ⟨id, rfl⟩ := RoomStep.announcement?_eq_left hleft
        exact hs (h.tells hw id)
    · rw [recorded, ← List.append_assoc] at halternate
      exact ih (h.step hcome.1 hannounces) (wellFormed_step hw s) hcome.2 hdone halternate hsilent

end Doomed

/-- Whoever enters under a name whose departure is due finds it present on record. -/
theorem Stands.doomed (h : room.Stands due rs username) {capacity : Nat}
    (hclash : room.Clashes due (.enter id username capacity)) :
    (room.step (.enter id username capacity)).Doomed
      (room.dueAfter due (.enter id username capacity)) rs username := by
  obtain ⟨ha, t, ht, hleft⟩ := hclash
  obtain ⟨other, rfl⟩ := RoomStep.announcement?_eq_left hleft
  refine ⟨⟨⟨id, username, room.roster.outboxes.length⟩, ?_, rfl, ?_⟩,
    ⟨other, mem_dueAfter_of_ne ht (by simp)⟩, (h.departing_of_mem ht).2.2⟩
  · rw [entries_step, entriesAfter, if_pos ha]
    exact List.mem_append_right _ (List.mem_singleton_self _)
  · rw [dueAfter, begun, if_pos ha]
    exact List.mem_append_right _ (List.mem_singleton_self _)

/-- In an orderly run that leaves nothing due, nobody takes a name too early. -/
theorem no_clash_of_orderly (hw : room.roster.WellFormed) {steps : List RoomStep}
    (h : ∀ username, room.Stands due rs username) (hcome : room.Along MayCome due steps)
    (hdone : room.dueAfterAll due steps = [])
    (halternate : ∀ username i e, (presences username (rs ++ room.recorded steps))[i]? = some e →
      e = alternating username i)
    (hsilent : room.Along (fun room _ s => ¬ room.TellsOwnDeparture s) due steps) :
    room.Along (fun room due s => ¬ room.Clashes due s) due steps := by
  induction steps generalizing room due rs with
  | nil => trivial
  | cons s steps ih =>
    rw [recorded, ← List.append_assoc] at halternate
    have hclash : ¬ room.Clashes due s := by
      intro hclash
      cases s with
      | enter id name capacity =>
        have hdoomed := (h name).doomed hclash
        rw [record?, Option.toList_none, List.append_nil] at halternate
        exact hdoomed.disorderly (wellFormed_step hw _) hcome.2 hdone (halternate name) hsilent.2
      | _ => exact hclash
    exact ⟨hclash, ih (wellFormed_step hw s) (fun name => (h name).step hw hcome.1 hclash) hcome.2
      hdone halternate hsilent.2⟩

/-! ## Rooms from the beginning -/

/-- Joins and departures of every name alternate on record, beginning with a join, and no active
session is told that its own name has left. -/
structure Orderly (start : Room δ) (steps : List RoomStep) : Prop where
  alternate : ∀ username i e, (presences username (start.recorded steps))[i]? = some e →
    e = alternating username i
  silent : start.Along (fun room _ s => ¬ room.TellsOwnDeparture s) [] steps

/-- **Interleaved arrivals and departures.** Whatever the order of their steps, the history has the
last events on record. The run is orderly if nobody enters under a name whose departure is still to
be announced; and if nothing is left to be announced in the end, it is orderly only then. -/
theorem orderly_unless_clash (limit : Option Nat) (groups : GroupTable) (capacity : Nat) (log : δ)
    {steps : List RoomStep} (hcome : (Room.new limit groups capacity log).Along MayCome [] steps) :
    let start := Room.new limit groups capacity log
    let noClash := start.Along (fun room due s => ¬ room.Clashes due s) [] steps
    (start.run steps).history.lines =
        ((start.recorded steps).map (·.event.line)).rtake capacity ∧
      (noClash → start.Orderly steps) ∧
      (start.dueAfterAll [] steps = [] → start.Orderly steps → noClash) := by
  intro start noClash
  have hw : start.roster.WellFormed := .empty limit
  have hopen : start.BoxesOpen := fun entry he => absurd he List.not_mem_nil
  have hstands : ∀ username, start.Stands [] [] username := fun username =>
    .away (fun entry he => absurd he List.not_mem_nil) rfl (by simp [IsPresent, presences])
  refine ⟨lines_history_run rfl steps, fun hclash => ?_, fun hdone h => ?_⟩
  · obtain ⟨halternate, hsilent⟩ :=
      orderly_run hw hopen hstands (by simp [presences]) hcome hclash
    exact ⟨halternate, hsilent⟩
  · exact no_clash_of_orderly hw hstands hcome hdone h.alternate h.silent

/-- Ann and Bob come and go at one time, and Ann is back before Bob's departure is announced. -/
theorem orderly_unless_clash_ann_bob :
    let start : Room MemoryLog := .new none .empty 3 { clock := ⟨2024, 5, 1, 12, 0, 0⟩ }
    let steps : List RoomStep := [.enter ⟨1⟩ "ann" 9, .enter ⟨2⟩ "bob" 9, .joined ⟨2⟩ "bob",
      .joined ⟨1⟩ "ann", .leave ⟨1⟩, .leave ⟨2⟩, .left ⟨1⟩ "ann", .enter ⟨3⟩ "ann" 9,
      .left ⟨2⟩ "bob", .joined ⟨3⟩ "ann"]
    start.Along MayCome [] steps ∧ start.Along (fun room due s => ¬ room.Clashes due s) [] steps ∧
      start.Orderly steps ∧
      presences "ann" (start.recorded steps) = [.joined "ann", .left "ann", .joined "ann"] ∧
      (start.run steps).history.lines = ["System: ann has left the chat.",
        "System: bob has left the chat.", "System: ann has joined the chat."] := by
  intro start steps
  have hcome : start.Along MayCome [] steps := by decide +kernel
  have hclash : start.Along (fun room due s => ¬ room.Clashes due s) [] steps := by decide +kernel
  obtain ⟨-, horderly, -⟩ := orderly_unless_clash none .empty 3 _ hcome
  exact ⟨hcome, hclash, horderly hclash, by decide +kernel, by decide +kernel⟩

/-- Ann leaves and is back before her departure is announced: on record she joins twice, and in the
end she is told that she has left. -/
theorem back_before_announced :
    let start : Room MemoryLog := .new none .empty 20 { clock := ⟨2024, 5, 1, 12, 0, 0⟩ }
    let steps : List RoomStep := [.enter ⟨1⟩ "ann" 9, .joined ⟨1⟩ "ann", .leave ⟨1⟩,
      .enter ⟨2⟩ "ann" 9, .joined ⟨2⟩ "ann", .left ⟨1⟩ "ann"]
    start.Along MayCome [] steps ∧ start.dueAfterAll [] steps = [] ∧ ¬ start.Orderly steps ∧
      ¬ start.Along (fun room _ s => ¬ room.TellsOwnDeparture s) [] steps ∧
      (start.run steps).history.lines = ["System: ann has joined the chat.",
        "System: ann has joined the chat.", "System: ann has left the chat."] ∧
      (start.run steps).roster.find? "ann" = some ⟨2⟩ ∧
      (start.run steps).roster.pending 1 = ["Welcome, ann!", "--- Recent Chat History ---",
        "System: ann has joined the chat.", "--- End of History ---",
        "System: ann has left the chat."] := by
  intro start steps
  have hpresences : presences "ann" (start.recorded steps) =
      [.joined "ann", .joined "ann", .left "ann"] := by decide +kernel
  refine ⟨by decide +kernel, by decide +kernel, fun horderly => ?_, by decide +kernel,
    by decide +kernel, by decide +kernel, by decide +kernel⟩
  have htwice := horderly.alternate "ann" 1 (.joined "ann") (by rw [hpresences]; rfl)
  cases htwice

end Room

end ChatRoom
