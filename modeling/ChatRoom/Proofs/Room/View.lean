import ChatRoom.Log.Memory
import ChatRoom.Proofs.Room.History

/-!
# What a session sees of the chat

A session that enters a room has an outbox of its own (`Seated`) until it leaves, and no session has
that outbox afterwards (`Vacant`). So of the notices of a run (`Room.delivered`) its outbox is for
exactly the greeting, and then exactly those events that are put on record before it leaves
(`Seated.run`), and nothing later (`Vacant.noticesFor_delivered`). An outbox that never overflows
holds all that is for it (`queued_eq`).

`exactly_once_view` puts these together with `lines_history_run`: a newcomer is shown each event in
the replay, or live, or not at all, and never twice.
-/

namespace ChatRoom

/-- In a list without repetitions an element is found once. -/
theorem flatMap_ite_eq {α β : Type} [DecidableEq α] {l : List α} (h : l.Nodup) (a : α) (b : β) :
    (l.flatMap fun x => if x = a then [b] else []) = if a ∈ l then [b] else [] := by
  induction l with
  | nil => rfl
  | cons x l ih =>
    obtain ⟨hx, hl⟩ := List.nodup_cons.1 h
    rw [List.flatMap_cons, ih hl]
    by_cases hxa : x = a
    · subst hxa; simp [hx]
    · simp [hxa, Ne.symm hxa]

/-! ## Notices for one outbox -/

/-- The event that a notice tells of as it happens. -/
def Notice.event? : Notice → Option Event
  | event e => some e
  | _ => none

/-- A notice of what happens, not of what was there before: neither the welcome nor a line of the
history. -/
def Notice.IsLive : Notice → Prop
  | reply (.welcome _) | replay _ => False
  | reply _ | event _ => True

/-- Whether a session that is active when this is recorded is told of it: joins but its own,
departures, and messages to everybody. -/
def Record.isToldTo (id : ConnectionId) : Record → Bool
  | ⟨source, .joined _⟩ => source ≠ id
  | ⟨_, .left _⟩ | ⟨_, .global ..⟩ => true
  | ⟨_, .direct ..⟩ | ⟨_, .group ..⟩ => false

namespace Delivery

variable {box : OutboxId}

theorem noticesFor_append (ds es : List Delivery) :
    noticesFor box (ds ++ es) = noticesFor box ds ++ noticesFor box es := by
  simp [noticesFor]

theorem noticesFor_flatMap {α : Type} (f : α → List Delivery) (l : List α) :
    noticesFor box (l.flatMap f) = l.flatMap fun a => noticesFor box (f a) := by
  induction l with
  | nil => rfl
  | cons a l ih => rw [List.flatMap_cons, noticesFor_append, ih, List.flatMap_cons]

theorem noticesFor_eq_nil {ds : List Delivery} (h : ∀ d ∈ ds, d.box ≠ box) :
    noticesFor box ds = [] := by
  simpa [noticesFor] using h

/-- An outbox that is new to the notices is for all of them. -/
theorem noticesFor_map (ns : List Notice) : noticesFor box (ns.map (⟨box, ·⟩)) = ns := by
  simp [noticesFor, List.filter_map, Function.comp_def]

end Delivery

namespace Room

variable {δ : Type} {room : Room δ} {id : ConnectionId} {box : OutboxId}

/-! ## Outboxes along a run -/

/-- There is room in an outbox for what a step offers to it. -/
def HasRoom (room : Room δ) (box : OutboxId) (s : RoomStep) : Prop :=
  ∀ outbox ∈ (room.opened s).outboxes[box]?,
    outbox.pending.length + (Delivery.noticesFor box (room.deliveries s)).length ≤ outbox.capacity

instance (s : RoomStep) : Decidable (room.HasRoom box s) :=
  inferInstanceAs (Decidable (∀ outbox ∈ _, _))

theorem pending_eq {roster : Roster} {outbox : Outbox} (h : roster.outboxes[box]? = some outbox) :
    roster.pending box = outbox.pending := by
  rw [Roster.pending, h]

theorem getElem?_opened {outbox : Outbox} (h : room.roster.outboxes[box]? = some outbox)
    (s : RoomStep) : (room.opened s).outboxes[box]? = some outbox := by
  have hlt : box < room.roster.outboxes.length := (List.getElem?_eq_some_iff.1 h).1
  cases s with
  | enter id username capacity =>
    simp only [opened]
    split
    · simpa [Roster.openOutbox, List.getElem?_append_left hlt] using h
    · exact h
  | _ => exact h

/-- The session that a step puts on the roster. -/
def arrival? (room : Room δ) : RoomStep → Option ConnectionId
  | .enter id username _ => if room.roster.Admits username then some id else none
  | _ => none

section Runs

variable [LogDevice δ]

/-- An outbox never has to take a line that it has no room for. -/
def NeverOverflows (box : OutboxId) (room : Room δ) : List RoomStep → Prop
  | [] => True
  | s :: steps => room.HasRoom box s ∧ (room.step s).NeverOverflows box steps

instance decidableNeverOverflows (box : OutboxId) (room : Room δ) :
    (steps : List RoomStep) → Decidable (room.NeverOverflows box steps)
  | [] => inferInstanceAs (Decidable True)
  | s :: steps =>
    have := decidableNeverOverflows box (room.step s) steps
    inferInstanceAs (Decidable (_ ∧ _))

/-- The lines that readers take out of an outbox during a run. -/
def taken (box : OutboxId) (room : Room δ) : List RoomStep → List String
  | [] => []
  | s :: steps =>
    (if s = .drain box then room.roster.pending box else []) ++ (room.step s).taken box steps

/-- Every line that is in an outbox at some time of a run: those taken, and those that still wait at
its end. -/
def queued (box : OutboxId) (room : Room δ) (steps : List RoomStep) : List String :=
  room.taken box steps ++ (room.run steps).roster.pending box

/-- The sessions that a run puts on the roster, in order. -/
def arrivals (room : Room δ) : List RoomStep → List ConnectionId
  | [] => []
  | s :: steps => (room.arrival? s).toList ++ (room.step s).arrivals steps

theorem queued_cons (s : RoomStep) (steps : List RoomStep) :
    room.queued box (s :: steps) =
      (if s = .drain box then room.roster.pending box else []) ++
        (room.step s).queued box steps :=
  List.append_assoc _ _ _

theorem arrivals_append (steps more : List RoomStep) :
    room.arrivals (steps ++ more) = room.arrivals steps ++ (room.run steps).arrivals more := by
  induction steps generalizing room with
  | nil => rfl
  | cons s steps ih => simp only [List.cons_append, arrivals, ih, List.append_assoc]; rfl

/-- With room for them, an outbox takes all notices for it. -/
theorem outbox_step {outbox : Outbox} {s : RoomStep}
    (hbox : (room.opened s).outboxes[box]? = some outbox) (hreader : outbox.hasReader = true)
    (hroom : room.HasRoom box s) (hs : s ≠ .drain box) :
    ∃ next, (room.step s).roster.outboxes[box]? = some next ∧ next.hasReader = true ∧
      next.pending =
        outbox.pending ++ (Delivery.noticesFor box (room.deliveries s)).map Notice.line := by
  have hle := hroom outbox hbox
  refine ⟨_, by rw [getElem?_outboxes_step, if_neg hs, hbox, Option.map_some], ?_, ?_⟩
  · rw [Outbox.hasReader_pushAll, hreader]
  · rw [Outbox.pending_pushAll hreader, List.take_of_length_le (by rw [List.length_map]; omega)]

/-- **Nothing is lost** of what is offered to an outbox that never overflows. -/
theorem queued_eq {outbox : Outbox} {steps : List RoomStep}
    (hbox : room.roster.outboxes[box]? = some outbox) (hreader : outbox.hasReader = true)
    (hroom : room.NeverOverflows box steps) :
    room.queued box steps =
      outbox.pending ++ (Delivery.noticesFor box (room.delivered steps)).map Notice.line := by
  induction steps generalizing room outbox with
  | nil =>
    have hnil : (Delivery.noticesFor box (room.delivered [])) = [] := rfl
    rw [hnil, List.map_nil, List.append_nil, ← pending_eq hbox]
    rfl
  | cons s steps ih =>
    obtain ⟨hs, hrest⟩ := hroom
    rw [queued_cons, delivered, Delivery.noticesFor_append, List.map_append]
    by_cases hd : s = .drain box
    · have hnext : (room.step s).roster.outboxes[box]? = some outbox.drained := by
        rw [getElem?_outboxes_step, if_pos hd, hbox, Option.map_some]
      subst hd
      rw [if_pos rfl, ih hnext hreader hrest, pending_eq hbox]
      rfl
    · obtain ⟨next, hnext, hreader', hpending⟩ :=
        outbox_step (getElem?_opened hbox s) hreader hs hd
      rw [if_neg hd, ih hnext hreader' hrest, hpending, List.nil_append, List.append_assoc]

end Runs

/-! ## A session and its outbox -/

/-- The outboxes of the active sessions have been opened. -/
def BoxesOpen (room : Room δ) : Prop :=
  ∀ entry ∈ room.roster.entries, entry.outbox < room.roster.outboxes.length

/-- A session is active, and it alone has this outbox. -/
structure Seated (room : Room δ) (id : ConnectionId) (box : OutboxId) : Prop where
  wellFormed : room.roster.WellFormed
  boxOpen : box < room.roster.outboxes.length
  active : id ∈ room.roster.entries.map (·.id)
  seat : ∀ entry ∈ room.roster.entries, entry.outbox = box ↔ entry.id = id

/-- No session has this outbox, and none will. -/
structure Vacant (room : Room δ) (box : OutboxId) : Prop where
  boxOpen : box < room.roster.outboxes.length
  empty : ∀ entry ∈ room.roster.entries, entry.outbox ≠ box

/-- A private command is answered by replies only. -/
theorem mem_commandDeliveries {sender : String} {c : Command} {d : Delivery}
    (h : d ∈ room.commandDeliveries id sender c) :
    (∃ text, c = .global text ∧ d ∈ room.noticeAll (.global sender text) none) ∨
      ∃ reply other, d ∈ room.noticeTo (.reply reply) other ∧ Notice.IsLive (.reply reply) := by
  cases c with
  | global text => exact .inl ⟨text, rfl, h⟩
  | direct recipient text =>
    simp only [commandDeliveries] at h
    split at h
    · exact .inr ⟨_, _, h, trivial⟩
    · rcases List.mem_append.1 h with h | h
      · exact .inr ⟨_, _, h, trivial⟩
      · exact .inr ⟨_, _, h, trivial⟩
  | group name text =>
    simp only [commandDeliveries] at h
    split at h
    · exact .inr ⟨_, _, h, trivial⟩
    · rcases List.mem_append.1 h with h | h
      · obtain ⟨other, -, h⟩ := List.mem_flatMap.1 h
        exact .inr ⟨_, other, h, trivial⟩
      · exact .inr ⟨_, _, h, trivial⟩

/-- A step greets a newcomer, in a new outbox, or tells active sessions what is live. -/
theorem mem_deliveries {s : RoomStep} {d : Delivery} (h : d ∈ room.deliveries s) :
    (d.box = room.roster.outboxes.length) ∨
      ∃ n other, d ∈ room.noticeTo n other ∧ n.IsLive := by
  cases s with
  | enter id username capacity =>
    simp only [deliveries] at h
    split at h
    · obtain ⟨n, -, rfl⟩ := List.mem_map.1 h
      exact .inl rfl
    · cases h
  | joined id username =>
    obtain ⟨other, hd⟩ := mem_noticeAll h
    exact .inr ⟨_, other, hd, trivial⟩
  | left id username =>
    obtain ⟨other, hd⟩ := mem_noticeAll h
    exact .inr ⟨_, other, hd, trivial⟩
  | leave id => cases h
  | drain box => cases h
  | route id sender line =>
    simp only [deliveries] at h
    split at h
    · exact .inr ⟨_, _, h, trivial⟩
    · cases h
    · rcases mem_commandDeliveries h with ⟨text, -, h⟩ | ⟨reply, other, hd, hlive⟩
      · obtain ⟨other, hd⟩ := mem_noticeAll h
        exact .inr ⟨_, other, hd, trivial⟩
      · exact .inr ⟨_, other, hd, hlive⟩

/-! ## While the session is active -/

namespace Seated

variable (h : room.Seated id box)
include h

theorem noticesFor_noticeTo (n : Notice) (other : ConnectionId) :
    Delivery.noticesFor box (room.noticeTo n other) = if other = id then [n] else [] := by
  by_cases ho : other = id
  · obtain ⟨entry, hm, hid⟩ := List.mem_map.1 h.active
    have hentry : room.roster.entryOf? other = some entry :=
      h.wellFormed.entryOf?_eq_some_iff.2 ⟨hm, hid.trans ho.symm⟩
    have hbox : entry.outbox = box := (h.seat entry hm).2 hid
    rw [if_pos ho]
    simp [noticeTo, hentry, Delivery.noticesFor, hbox]
  · rw [if_neg ho]
    refine Delivery.noticesFor_eq_nil fun d hd hb => ho ?_
    obtain ⟨-, entry, hm, hid, hbox⟩ := mem_noticeTo hd
    rw [← hid, (h.seat entry hm).1 (hbox.trans hb)]

theorem noticesFor_noticeAll (e : Event) (except : Option ConnectionId) :
    Delivery.noticesFor box (room.noticeAll e except) =
      if some id = except then [] else [.event e] := by
  have hids : ((room.roster.entries.map (·.id)).filter (some · ≠ except)).Nodup :=
    h.wellFormed.ids.filter _
  have hmem : id ∈ (room.roster.entries.map (·.id)).filter (some · ≠ except) ↔
      ¬ some id = except := by
    rw [List.mem_filter]
    simp [h.active]
  rw [noticeAll, Delivery.noticesFor_flatMap]
  simp only [h.noticesFor_noticeTo]
  generalize (room.roster.entries.map (·.id)).filter (some · ≠ except) = ids at hids hmem
  have honce := flatMap_ite_eq hids id (Notice.event e)
  by_cases he : some id = except
  · rw [honce, if_neg (fun hi => hmem.1 hi he), if_pos he]
  · rw [honce, if_pos (hmem.2 he), if_neg he]

/-- **What a step tells the session** is the event it puts on record, if the session is to be told
of it, beside replies. -/
theorem events_deliveries (s : RoomStep) :
    (Delivery.noticesFor box (room.deliveries s)).filterMap Notice.event? =
      ((room.record? s).toList.filter (Record.isToldTo id)).map (·.event) := by
  have hreplies : ∀ ds : List Delivery,
      (∀ d ∈ ds, ∃ reply other, d ∈ room.noticeTo (.reply reply) other) →
      (Delivery.noticesFor box ds).filterMap Notice.event? = [] := by
    intro ds hds
    refine List.filterMap_eq_nil_iff.2 fun n hn => ?_
    obtain ⟨d, hd, -, rfl⟩ := Delivery.mem_of_mem_noticesFor hn
    obtain ⟨reply, other, hd⟩ := hds d hd
    rw [(mem_noticeTo hd).1]
    rfl
  cases s with
  | enter other username capacity =>
    have hnil :
        Delivery.noticesFor box (room.deliveries (.enter other username capacity)) = [] := by
      simp only [deliveries]
      split
      · refine Delivery.noticesFor_eq_nil fun d hd => ?_
        obtain ⟨n, -, rfl⟩ := List.mem_map.1 hd
        exact Nat.ne_of_gt h.boxOpen
      · rfl
    rw [hnil]
    rfl
  | joined source username =>
    simp only [deliveries, h.noticesFor_noticeAll, record?, Option.toList_some, Option.some.injEq]
    by_cases hs : id = source
    · simp [hs, Record.isToldTo]
    · simp [hs, Ne.symm hs, Record.isToldTo, Notice.event?]
  | left source username =>
    simp only [deliveries, h.noticesFor_noticeAll, reduceCtorEq, if_false]
    rfl
  | leave other => rfl
  | drain other => rfl
  | route source sender line =>
    simp only [deliveries, record?]
    cases hc : Command.parse line with
    | error malformed => exact hreplies _ fun d hd => ⟨_, _, hd⟩
    | ok command =>
      cases command with
      | none => rfl
      | some c =>
        cases c with
        | global text =>
          simp only [commandDeliveries, h.noticesFor_noticeAll, reduceCtorEq, if_false]
          rfl
        | direct recipient text =>
          have hnone := hreplies (room.commandDeliveries source sender (.direct recipient text))
            fun d hd => by
              obtain ⟨_, hg, -⟩ | ⟨reply, other, hto, -⟩ := mem_commandDeliveries hd
              · cases hg
              · exact ⟨reply, other, hto⟩
          simp only [hnone, commandEvent?]
          cases room.roster.find? recipient <;> rfl
        | group name text =>
          have hnone := hreplies (room.commandDeliveries source sender (.group name text))
            fun d hd => by
              obtain ⟨_, hg, -⟩ | ⟨reply, other, hto, -⟩ := mem_commandDeliveries hd
              · cases hg
              · exact ⟨reply, other, hto⟩
          simp only [hnone, commandEvent?]
          cases room.groups.get? name <;> rfl

theorem replay_not_mem (s : RoomStep) (line : String) :
    .replay line ∉ Delivery.noticesFor box (room.deliveries s) := by
  intro hn
  obtain ⟨d, hd, hbox, hline⟩ := Delivery.mem_of_mem_noticesFor hn
  rcases mem_deliveries hd with hnew | ⟨n, other, hto, hlive⟩
  · exact Nat.ne_of_lt h.boxOpen (hbox.symm.trans hnew)
  · rw [← (mem_noticeTo hto).1, hline] at hlive
    exact hlive

end Seated

/-! ## Steps -/

theorem length_opened (s : RoomStep) :
    (room.opened s).outboxes.length =
      room.roster.outboxes.length + (room.arrival? s).toList.length := by
  cases s with
  | enter id username capacity =>
    simp only [opened, arrival?]
    split <;> simp [Roster.openOutbox]
  | _ => rfl

/-- An entry is there already, or is that of a newcomer with a new outbox. -/
theorem mem_entriesAfter {s : RoomStep} {entry : Entry} (h : entry ∈ room.entriesAfter s) :
    entry ∈ room.roster.entries ∨
      room.arrival? s = some entry.id ∧ entry.outbox = room.roster.outboxes.length := by
  cases s with
  | enter id username capacity =>
    simp only [entriesAfter] at h
    split at h
    · rename_i ha
      rcases List.mem_append.1 h with h | h
      · exact .inl (List.mem_of_mem_filter h)
      · cases List.mem_singleton.1 h
        exact .inr ⟨if_pos ha, rfl⟩
    · exact .inl h
  | leave id => exact .inl (List.mem_of_mem_filter h)
  | _ => exact .inl h

variable [LogDevice δ]

theorem length_outboxes_step (s : RoomStep) :
    (room.step s).roster.outboxes.length = (room.opened s).outboxes.length := by
  rw [roster_step]
  cases s with
  | drain box => simp [rosterAfter, Roster.drain, opened]
  | _ =>
    simp only [rosterAfter]
    exact Roster.length_outboxes_offerEach _

theorem boxOpen_step (h : box < room.roster.outboxes.length) (s : RoomStep) :
    box < (room.step s).roster.outboxes.length := by
  rw [length_outboxes_step, length_opened]
  exact Nat.lt_of_lt_of_le h (Nat.le_add_right _ _)

theorem BoxesOpen.step (h : room.BoxesOpen) (s : RoomStep) : (room.step s).BoxesOpen := by
  intro entry he
  rw [entries_step] at he
  rw [length_outboxes_step, length_opened]
  rcases mem_entriesAfter he with he | ⟨ha, hbox⟩
  · exact Nat.lt_of_lt_of_le (h entry he) (Nat.le_add_right _ _)
  · rw [ha, hbox]
    exact Nat.lt_succ_self _

theorem BoxesOpen.run (h : room.BoxesOpen) (steps : List RoomStep) :
    (room.run steps).BoxesOpen := by
  induction steps generalizing room with
  | nil => exact h
  | cons s steps ih => exact ih (h.step s)

/-- A newcomer has the outbox that was opened for it. -/
theorem Seated.of_enter {username : String} {capacity : Nat} (hw : room.roster.WellFormed)
    (hopen : room.BoxesOpen) (ha : room.roster.Admits username) :
    (room.step (.enter id username capacity)).Seated id room.roster.outboxes.length where
  wellFormed := wellFormed_step hw _
  boxOpen := by
    rw [length_outboxes_step, length_opened, arrival?, if_pos ha]
    exact Nat.lt_succ_self _
  active := by simp [entries_step, entriesAfter, ha]
  seat entry he := by
    rw [entries_step, entriesAfter, if_pos ha, List.mem_append, List.mem_filter,
      List.mem_singleton] at he
    rcases he with ⟨hm, hne⟩ | rfl
    · have hlt := hopen entry hm
      have hid : entry.id ≠ id := by simpa using hne
      exact ⟨fun hb => absurd hb (Nat.ne_of_lt hlt), fun hi => absurd hi hid⟩
    · exact ⟨fun _ => rfl, fun _ => rfl⟩

/-- The session keeps its outbox until it leaves or enters again. -/
theorem Seated.step (h : room.Seated id box) {s : RoomStep} (hleave : s ≠ .leave id)
    (hfresh : room.arrival? s ≠ some id) : (room.step s).Seated id box where
  wellFormed := wellFormed_step h.wellFormed s
  boxOpen := boxOpen_step h.boxOpen s
  active := by
    obtain ⟨entry, hm, hid⟩ := List.mem_map.1 h.active
    rw [entries_step]
    refine List.mem_map.2 ⟨entry, ?_, hid⟩
    cases s with
    | enter other username capacity =>
      simp only [entriesAfter, arrival?] at hfresh ⊢
      split
      · rename_i ha
        have hne : id ≠ other := by simpa [ha, eq_comm] using hfresh
        simp [hm, hid, hne]
      · exact hm
    | leave other =>
      have hne : id ≠ other := by rintro rfl; exact hleave rfl
      simp [entriesAfter, hm, hid, hne]
    | _ => exact hm
  seat entry he := by
    rw [entries_step] at he
    rcases mem_entriesAfter he with he | ⟨ha, hbox⟩
    · exact h.seat entry he
    · refine ⟨fun hb => absurd (hb.symm.trans hbox) (Nat.ne_of_lt h.boxOpen), fun hi => ?_⟩
      exact absurd (hi ▸ ha) hfresh

theorem Seated.leave (h : room.Seated id box) : (room.step (.leave id)).Vacant box where
  boxOpen := boxOpen_step h.boxOpen _
  empty entry he := by
    rw [entries_step, entriesAfter, List.mem_filter] at he
    have hid : entry.id ≠ id := by simpa using he.2
    exact fun hb => hid ((h.seat entry he.1).1 hb)

theorem Vacant.step (h : room.Vacant box) (s : RoomStep) : (room.step s).Vacant box where
  boxOpen := boxOpen_step h.boxOpen s
  empty entry he := by
    rw [entries_step] at he
    rcases mem_entriesAfter he with he | ⟨-, hbox⟩
    · exact h.empty entry he
    · rw [hbox]
      exact Nat.ne_of_gt h.boxOpen

/-! ## Runs -/

theorem Vacant.noticesFor_delivered (h : room.Vacant box) (steps : List RoomStep) :
    Delivery.noticesFor box (room.delivered steps) = [] := by
  induction steps generalizing room with
  | nil => rfl
  | cons s steps ih =>
    have hs : Delivery.noticesFor box (room.deliveries s) = [] := by
      refine Delivery.noticesFor_eq_nil fun d hd hb => ?_
      rcases mem_deliveries hd with hnew | ⟨n, other, hto, -⟩
      · exact Nat.ne_of_lt h.boxOpen (hb.symm.trans hnew)
      · obtain ⟨-, entry, hm, -, hbox⟩ := mem_noticeTo hto
        exact h.empty entry hm (hbox.trans hb)
    rw [delivered, Delivery.noticesFor_append, hs, ih (h.step s)]
    rfl

/-- **While it stays**, a session is told exactly the events on record that it is to be told. -/
theorem Seated.run (h : room.Seated id box) {stay : List RoomStep}
    (hstay : ∀ s ∈ stay, s ≠ .leave id) (hfresh : id ∉ room.arrivals stay) :
    (room.run stay).Seated id box ∧
      (Delivery.noticesFor box (room.delivered stay)).filterMap Notice.event? =
        ((room.recorded stay).filter (Record.isToldTo id)).map (·.event) ∧
      ∀ line, .replay line ∉ Delivery.noticesFor box (room.delivered stay) := by
  induction stay generalizing room with
  | nil => exact ⟨h, rfl, fun line => List.not_mem_nil⟩
  | cons s stay ih =>
    rw [arrivals, List.mem_append, not_or, Option.mem_toList] at hfresh
    have hs := h.step (hstay s List.mem_cons_self) hfresh.1
    obtain ⟨hrun, hevents, hreplay⟩ :=
      ih hs (fun t ht => hstay t (List.mem_cons_of_mem _ ht)) hfresh.2
    rw [delivered, recorded, Delivery.noticesFor_append, List.filterMap_append,
      h.events_deliveries, hevents, List.filter_append, List.map_append]
    refine ⟨hrun, rfl, fun line hm => ?_⟩
    rcases List.mem_append.1 hm with hm | hm
    · exact h.replay_not_mem s line hm
    · exact hreplay line hm

/-- After it entered, a session is told what it is to be told while it stays, and no more. -/
theorem Seated.view (h : room.Seated id box) {after : List RoomStep}
    (hfresh : id ∉ room.arrivals after) :
    (Delivery.noticesFor box (room.delivered after)).filterMap Notice.event? =
        ((room.recorded (after.takeWhile (· ≠ .leave id))).filter (Record.isToldTo id)).map
          (·.event) ∧
      ∀ line, .replay line ∉ Delivery.noticesFor box (room.delivered after) := by
  have hsplit := List.takeWhile_append_dropWhile (p := (· ≠ .leave id)) (l := after)
  generalize hstay : after.takeWhile (· ≠ .leave id) = stay at hsplit ⊢
  have hstays : ∀ s ∈ stay, s ≠ .leave id := by
    intro s hs
    rw [← hstay] at hs
    have hp := List.mem_takeWhile_imp hs
    exact of_decide_eq_true hp
  rw [← hsplit, arrivals_append, List.mem_append, not_or] at hfresh
  obtain ⟨hrun, hevents, hreplay⟩ := h.run hstays hfresh.1
  have hlive : Delivery.noticesFor box (room.delivered after) =
      Delivery.noticesFor box (room.delivered stay) := by
    rw [← hsplit, delivered_append, Delivery.noticesFor_append]
    cases hrest : after.dropWhile (· ≠ .leave id) with
    | nil => exact List.append_nil _
    | cons s rest =>
      have hs : s = .leave id := by
        have hne : after.dropWhile (· ≠ .leave id) ≠ [] := hrest ▸ List.cons_ne_nil s rest
        have hhead := List.head_dropWhile_not _ hne
        simp only [hrest, List.head_cons] at hhead
        exact not_not.1 (of_decide_eq_false hhead)
      have hlate := hrun.leave.noticesFor_delivered rest
      rw [hs, delivered, Delivery.noticesFor_append, hlate]
      exact List.append_nil _
  rw [hlive]
  exact ⟨hevents, hreplay⟩

/-- A newcomer's outbox holds its greeting, and then what is live. -/
theorem queued_enter {username : String} {capacity : Nat} {after : List RoomStep}
    (ha : room.roster.Admits username)
    (hroom : room.NeverOverflows room.roster.outboxes.length
      (.enter id username capacity :: after)) :
    room.queued room.roster.outboxes.length (.enter id username capacity :: after) =
      (room.greetingOf username).map Notice.line ++
        (Delivery.noticesFor room.roster.outboxes.length
          ((room.step (.enter id username capacity)).delivered after)).map Notice.line := by
  have hbox : (room.opened (.enter id username capacity)).outboxes[room.roster.outboxes.length]? =
      some (.ofCapacity capacity) := by
    simp [opened, ha, Roster.openOutbox]
  have hgreeting : Delivery.noticesFor room.roster.outboxes.length
      (room.deliveries (.enter id username capacity)) = room.greetingOf username := by
    rw [deliveries, if_pos ha, Delivery.noticesFor_map]
  obtain ⟨next, hnext, hreader, hpending⟩ := outbox_step hbox rfl hroom.1 (by simp)
  rw [queued_cons, queued_eq hnext hreader hroom.2, hpending, hgreeting]
  rfl

/-! ## The view of a newcomer -/

theorem rtake_map {α β : Type} (f : α → β) (n : Nat) (l : List α) :
    (l.map f).rtake n = (l.rtake n).map f := by
  rw [List.rtake, List.rtake, List.length_map, List.map_drop]

/-- **Each event once**: a newcomer is queued its greeting, with the last events on record before it
entered, and then live what is on record until it leaves. The steps of the room come in any order;
no session enters twice, and the outbox of the newcomer never overflows.

The last part cuts the record in four: what the history had dropped when the newcomer entered, what
it is shown of it, what happens while it stays, and what happens later. -/
theorem exactly_once_view {start room : Room δ} {limit : Option Nat} {groups : GroupTable}
    {capacity boxCapacity : Nat} {log : δ} {before after : List RoomStep} {username : String}
    (hstart : start = .new limit groups capacity log)
    (hbefore : room = start.run before)
    (hfresh : (start.arrivals (before ++ .enter id username boxCapacity :: after)).Nodup)
    (hadmits : room.roster.Admits username)
    (hroom : room.NeverOverflows room.roster.outboxes.length
      (.enter id username boxCapacity :: after)) :
    let box := room.roster.outboxes.length
    let entered := room.step (.enter id username boxCapacity)
    let stay := after.takeWhile (· ≠ .leave id)
    let late := after.dropWhile (· ≠ .leave id)
    let dropped := (start.recorded before).rdrop capacity
    let shown := (start.recorded before).rtake capacity
    let live := Delivery.noticesFor box (entered.delivered after)
    room.queued box (.enter id username boxCapacity :: after) =
      (Reply.welcome username).line ::
        (if shown = [] then [] else historyStart :: shown.map (·.event.line) ++ [historyEnd]) ++
        live.map Notice.line ∧
    live.filterMap Notice.event? =
      ((entered.recorded stay).filter (Record.isToldTo id)).map (·.event) ∧
    (∀ line, .replay line ∉ live) ∧
    start.recorded (before ++ .enter id username boxCapacity :: after) =
      dropped ++ shown ++ entered.recorded stay ++ (entered.run stay).recorded late := by
  intro box entered stay late dropped shown live
  have hw : room.roster.WellFormed := by
    rw [hbefore, hstart]
    exact wellFormed_run (.empty limit) before
  have hopen : room.BoxesOpen := by
    have hnew : start.BoxesOpen := by
      rw [hstart]
      exact fun entry he => absurd he List.not_mem_nil
    exact hbefore ▸ hnew.run before
  have hseated : entered.Seated id box := .of_enter hw hopen hadmits
  have hafter : id ∉ entered.arrivals after := by
    have harrival : room.arrival? (.enter id username boxCapacity) = some id := if_pos hadmits
    rw [arrivals_append, ← hbefore, arrivals, harrival, List.nodup_append] at hfresh
    exact (List.nodup_cons.1 hfresh.2.1).1
  have hhistory : room.history.lines = shown.map (·.event.line) := by
    have hcapacity : start.history.capacity = capacity := by rw [hstart]; rfl
    rw [hbefore, lines_history_run (by rw [hstart]; rfl), hcapacity, rtake_map]
  have hgreeting : (room.greetingOf username).map Notice.line = (Reply.welcome username).line ::
      if shown = [] then [] else historyStart :: shown.map (·.event.line) ++ [historyEnd] := by
    have hline : Notice.line ∘ Notice.replay = fun line => line := rfl
    rw [greetingOf, List.map_cons, List.map_map, hline, List.map_id', History.replay, hhistory]
    simp only [List.map_eq_nil_iff]
    rfl
  obtain ⟨hevents, hreplay⟩ := hseated.view hafter
  refine ⟨?_, hevents, hreplay, ?_⟩
  · rw [queued_enter hadmits hroom, hgreeting]
  · have hsplit := List.takeWhile_append_dropWhile (p := (· ≠ .leave id)) (l := after)
    have hbefore' : dropped ++ shown = start.recorded before := List.take_append_drop _ _
    rw [recorded_append, ← hbefore, recorded, hbefore', List.append_assoc]
    congr 1
    rw [← recorded_append]
    exact congrArg entered.recorded hsplit.symm

/-- Bob enters while Ann talks, and leaves before she has finished. -/
theorem exactly_once_view_bob :
    let start : Room MemoryLog := .new none .empty 2 { clock := ⟨2024, 5, 1, 12, 0, 0⟩ }
    let before : List RoomStep := [.enter ⟨1⟩ "ann" 8, .joined ⟨1⟩ "ann", .route ⟨1⟩ "ann" "one",
      .route ⟨1⟩ "ann" "two"]
    let room := start.run before
    let after : List RoomStep := [.route ⟨1⟩ "ann" "three", .joined ⟨2⟩ "bob", .drain 1,
      .route ⟨1⟩ "ann" "PRIVMSG bob psst", .leave ⟨2⟩, .route ⟨1⟩ "ann" "four", .left ⟨2⟩ "bob"]
    (start.arrivals (before ++ .enter ⟨2⟩ "bob" 8 :: after)).Nodup ∧
    room.roster.Admits "bob" ∧
    room.NeverOverflows room.roster.outboxes.length (.enter ⟨2⟩ "bob" 8 :: after) ∧
    room.queued room.roster.outboxes.length (.enter ⟨2⟩ "bob" 8 :: after) =
      ["Welcome, bob!", "--- Recent Chat History ---", "ann: one", "ann: two",
        "--- End of History ---", "ann: three", "(DM from ann): psst"] := by
  intro start before room after
  have hfresh : (start.arrivals (before ++ .enter ⟨2⟩ "bob" 8 :: after)).Nodup := by
    decide +kernel
  have hadmits : room.roster.Admits "bob" := by decide +kernel
  have hroom : room.NeverOverflows room.roster.outboxes.length
      (.enter ⟨2⟩ "bob" 8 :: after) := by decide +kernel
  obtain ⟨hqueued, -⟩ := exactly_once_view rfl rfl hfresh hadmits hroom
  exact ⟨hfresh, hadmits, hroom, hqueued.trans (by decide +kernel)⟩

end Room

end ChatRoom
