import ChatRoom.Proofs.Keyed
import ChatRoom.Proofs.Roster.Offers

/-!
# One entry for each name

A roster starts empty and changes by what is asked of it (`RosterStep`). Whatever is asked, no two
entries have one id or one username and the limit is kept: `Roster.WellFormed`, which every step
keeps (`WellFormed.step`) and so every run (`WellFormed.run`). Only arrivals need an argument: they
are accepted under the condition `Admits` alone (`register_of_admits`, `register_of_taken`,
`register_of_full`).

Of a well-formed roster no answer depends on the order of its entries
(`WellFormed.find?_perm`, `WellFormed.broadcast_perm`).
-/

namespace ChatRoom

/-- What can be asked of a roster, and what readers do to its outboxes. -/
inductive RosterStep where
  | openOutbox (capacity : Nat)
  | register (id : ConnectionId) (username : String) (box : OutboxId) (greeting : List String)
  | unregister (id : ConnectionId)
  | send (id : ConnectionId) (line : String)
  | broadcast (line : String) (except : Option ConnectionId)
  | drain (box : OutboxId)
  | abandon (box : OutboxId)
  deriving DecidableEq

namespace Roster

/-- The roster after a step; a refused arrival leaves it as it is. -/
def step (roster : Roster) : RosterStep → Roster
  | .openOutbox capacity => (roster.openOutbox capacity).2
  | .register id username box greeting =>
    match roster.register id username box greeting with
    | .ok (_, roster) => roster
    | .error _ => roster
  | .unregister id => (roster.unregister id).2
  | .send id line => (roster.send id line).2
  | .broadcast line except => (roster.broadcast line except).2
  | .drain box => (roster.drain box).2
  | .abandon box => roster.abandon box

/-- The roster after several steps. -/
def run (roster : Roster) (steps : List RosterStep) : Roster := steps.foldl step roster

/-! ## Arrivals -/

/-- The name is free and there is room for one more. -/
structure Admits (roster : Roster) (username : String) : Prop where
  free : ∀ entry ∈ roster.entries, entry.username ≠ username
  room : ∀ max, roster.limit = some max → roster.size < max

variable {roster : Roster} {id : ConnectionId} {username : String} {box : OutboxId}
  {greeting : List String}

theorem any_username : roster.entries.any (·.username = username) = true ↔
    ∃ entry ∈ roster.entries, entry.username = username := by
  simp

theorem isFull_eq_false_iff :
    roster.isFull = false ↔ ∀ max, roster.limit = some max → roster.size < max := by
  unfold isFull
  cases roster.limit <;> simp

theorem admits_iff :
    roster.Admits username ↔
      roster.entries.any (·.username = username) = false ∧ roster.isFull = false := by
  rw [isFull_eq_false_iff, Bool.eq_false_iff, Ne, any_username, not_exists]
  exact ⟨fun h => ⟨fun entry he => h.free entry he.1 he.2, h.room⟩,
    fun h => ⟨fun entry he hu => h.1 entry ⟨he, hu⟩, h.2⟩⟩

instance : Decidable (roster.Admits username) := decidable_of_iff _ admits_iff.symm

theorem register_of_admits (h : roster.Admits username) :
    roster.register id username box greeting =
      .ok ((roster.offerEach (greeting.map (⟨box, ·⟩))).1,
        { (roster.offerEach (greeting.map (⟨box, ·⟩))).2 with
          entries := roster.entries.filter (·.id ≠ id) ++ [⟨id, username, box⟩] }) := by
  obtain ⟨hfree, hroom⟩ := admits_iff.1 h
  unfold register
  rw [hfree, if_neg Bool.false_ne_true, hroom, offerAll_eq]
  simp only [entries_offerEach]
  cases roster.limit <;> rfl

theorem register_of_taken (h : ∃ entry ∈ roster.entries, entry.username = username) :
    roster.register id username box greeting = .error (.usernameInUse username) := by
  unfold register
  rw [if_pos (any_username.2 h)]

theorem register_of_full {max : Nat} (hfree : ∀ entry ∈ roster.entries, entry.username ≠ username)
    (hlimit : roster.limit = some max) (hfull : max ≤ roster.size) :
    roster.register id username box greeting = .error (.serverFull max) := by
  have hany : roster.entries.any (·.username = username) = false := by
    simpa using hfree
  have hf : roster.isFull = true := by simpa [isFull, hlimit] using hfull
  unfold register
  rw [hany, if_neg Bool.false_ne_true, hlimit, hf]

/-- An arrival is accepted, or refused for one of two reasons of which a taken name comes first. -/
theorem admits_or (roster : Roster) (username : String) :
    roster.Admits username ∨ (∃ entry ∈ roster.entries, entry.username = username) ∨
      (∀ entry ∈ roster.entries, entry.username ≠ username) ∧
        ∃ max, roster.limit = some max ∧ max ≤ roster.size := by
  by_cases htaken : ∃ entry ∈ roster.entries, entry.username = username
  · exact .inr (.inl htaken)
  · have hfree : ∀ entry ∈ roster.entries, entry.username ≠ username :=
      fun entry he hu => htaken ⟨entry, he, hu⟩
    by_cases hroom : ∀ max, roster.limit = some max → roster.size < max
    · exact .inl ⟨hfree, hroom⟩
    · obtain ⟨max, hroom⟩ := not_forall.1 hroom
      obtain ⟨hlimit, hle⟩ := Classical.not_imp.1 hroom
      exact .inr (.inr ⟨hfree, max, hlimit, Nat.le_of_not_lt hle⟩)

theorem register_eq_ok_iff :
    (∃ outcome, roster.register id username box greeting = .ok outcome) ↔
      roster.Admits username := by
  refine ⟨fun ⟨outcome, h⟩ => ?_, fun h => ⟨_, register_of_admits h⟩⟩
  rcases roster.admits_or username with ha | ht | ⟨hfree, max, hlimit, hle⟩
  · exact ha
  · rw [register_of_taken ht] at h; cases h
  · rw [register_of_full hfree hlimit hle] at h; cases h

theorem register_eq_usernameInUse_iff :
    roster.register id username box greeting = .error (.usernameInUse username) ↔
      ∃ entry ∈ roster.entries, entry.username = username := by
  refine ⟨fun h => ?_, register_of_taken⟩
  rcases roster.admits_or username with ha | ht | ⟨hfree, max, hlimit, hle⟩
  · rw [register_of_admits ha] at h; cases h
  · exact ht
  · rw [register_of_full hfree hlimit hle] at h; cases h

theorem register_eq_serverFull_iff {max : Nat} :
    roster.register id username box greeting = .error (.serverFull max) ↔
      (∀ entry ∈ roster.entries, entry.username ≠ username) ∧
        roster.limit = some max ∧ max ≤ roster.size := by
  refine ⟨fun h => ?_, fun ⟨hfree, hlimit, hle⟩ => register_of_full hfree hlimit hle⟩
  rcases roster.admits_or username with ha | ht | ⟨hfree, max', hlimit, hle⟩
  · rw [register_of_admits ha] at h; cases h
  · rw [register_of_taken ht] at h; cases h
  · rw [register_of_full hfree hlimit hle] at h
    cases h
    exact ⟨hfree, hlimit, hle⟩

/-! ## The invariant -/

/-- What holds of a roster at all times. -/
structure WellFormed (roster : Roster) : Prop where
  ids : (roster.entries.map (·.id)).Nodup
  usernames : (roster.entries.map (·.username)).Nodup
  limited : ∀ max, roster.limit = some max → roster.size ≤ max

/-- Only the entries and the limit matter. -/
theorem WellFormed.congr {other : Roster} (h : roster.WellFormed)
    (hentries : other.entries = roster.entries) (hlimit : other.limit = roster.limit) :
    other.WellFormed := by
  refine ⟨hentries ▸ h.ids, hentries ▸ h.usernames, fun max hm => ?_⟩
  rw [size, hentries]
  exact h.limited max (hlimit ▸ hm)

theorem WellFormed.empty (limit : Option Nat) : WellFormed { limit } :=
  ⟨List.nodup_nil, List.nodup_nil, fun _ _ => Nat.zero_le _⟩

/-- An arrival under an id that is on the roster already takes the place of the former entry. -/
theorem WellFormed.arrive (h : roster.WellFormed) (entry : Entry)
    (ha : roster.Admits entry.username) :
    WellFormed { roster with
      entries := roster.entries.filter (·.id ≠ entry.id) ++ [entry] } where
  ids := by
    rw [List.map_append, List.nodup_append]
    refine ⟨h.ids.sublist (List.filter_sublist.map _), List.nodup_singleton _, ?_⟩
    simp only [List.mem_map, List.mem_filter, List.map_cons, List.map_nil, List.mem_singleton]
    rintro _ ⟨other, ⟨-, hne⟩, rfl⟩ _ rfl
    simpa using hne
  usernames := by
    rw [List.map_append, List.nodup_append]
    refine ⟨h.usernames.sublist (List.filter_sublist.map _), List.nodup_singleton _, ?_⟩
    simp only [List.mem_map, List.mem_filter, List.map_cons, List.map_nil, List.mem_singleton]
    rintro _ ⟨other, ⟨hm, -⟩, rfl⟩ _ rfl
    exact ha.free other hm
  limited max hm := by
    have hlt := ha.room max hm
    have hle : (roster.entries.filter (·.id ≠ entry.id)).length ≤ roster.size :=
      List.filter_sublist.length_le
    simp only [size, List.length_append, List.length_singleton] at hlt hle ⊢
    omega

theorem WellFormed.leave (h : roster.WellFormed) (id : ConnectionId) :
    WellFormed { roster with entries := roster.entries.filter (·.id ≠ id) } where
  ids := h.ids.sublist (List.filter_sublist.map _)
  usernames := h.usernames.sublist (List.filter_sublist.map _)
  limited max hm := Nat.le_trans List.filter_sublist.length_le (h.limited max hm)

/-- Sessions are told apart by their connections. -/
theorem WellFormed.id_inj (h : roster.WellFormed) {entry other : Entry}
    (he : entry ∈ roster.entries) (ho : other ∈ roster.entries) :
    entry.id = other.id ↔ entry = other :=
  ⟨List.inj_on_of_nodup_map h.ids he ho, congrArg Entry.id⟩

/-- Sessions are told apart by their names. -/
theorem WellFormed.username_inj (h : roster.WellFormed) {entry other : Entry}
    (he : entry ∈ roster.entries) (ho : other ∈ roster.entries) :
    entry.username = other.username ↔ entry = other :=
  ⟨List.inj_on_of_nodup_map h.usernames he ho, congrArg Entry.username⟩

theorem entries_send (line : String) :
    (roster.send id line).2.entries = roster.entries ∧
      (roster.send id line).2.limit = roster.limit := by
  rw [(roster.send_eq id line).2]
  exact ⟨entries_offerEach _, limit_offerEach _⟩

theorem entries_broadcast (line : String) (except : Option ConnectionId) :
    (roster.broadcast line except).2.entries = roster.entries ∧
      (roster.broadcast line except).2.limit = roster.limit := by
  rw [broadcast, sendEach_eq]
  exact ⟨entries_offerEach _, limit_offerEach _⟩

theorem WellFormed.step (h : roster.WellFormed) (step : RosterStep) :
    (roster.step step).WellFormed := by
  cases step with
  | openOutbox capacity => exact h.congr rfl rfl
  | register id username box greeting =>
    simp only [Roster.step]
    split
    · rename_i hr
      have ha := register_eq_ok_iff.1 ⟨_, hr⟩
      rw [register_of_admits ha] at hr
      cases hr
      have hw := h.arrive ⟨id, username, box⟩ ha
      exact hw.congr rfl (limit_offerEach _)
    · exact h
  | unregister id => exact h.leave id
  | send id line => exact h.congr (entries_send line).1 (entries_send line).2
  | broadcast line except =>
    exact h.congr (entries_broadcast line except).1 (entries_broadcast line except).2
  | drain box => exact h.congr rfl rfl
  | abandon box => exact h.congr rfl rfl

theorem WellFormed.run (h : roster.WellFormed) (steps : List RosterStep) :
    (roster.run steps).WellFormed := by
  induction steps generalizing roster with
  | nil => exact h
  | cons step steps ih => exact ih (h.step step)

@[simp] theorem limit_step (step : RosterStep) : (roster.step step).limit = roster.limit := by
  cases step with
  | register id username box greeting =>
    simp only [Roster.step]
    split
    · rename_i hr
      rw [register_of_admits (register_eq_ok_iff.1 ⟨_, hr⟩)] at hr
      cases hr
      exact limit_offerEach _
    · rfl
  | send id line => exact (entries_send line).2
  | broadcast line except => exact (entries_broadcast line except).2
  | _ => rfl

theorem limit_run (roster : Roster) (steps : List RosterStep) :
    (roster.run steps).limit = roster.limit := by
  induction steps generalizing roster with
  | nil => rfl
  | cons step steps ih => exact (ih (roster.step step)).trans (limit_step step)

/-! ## Answers without an order -/

theorem WellFormed.entryOf?_eq_some_iff (h : roster.WellFormed) {entry : Entry} :
    roster.entryOf? id = some entry ↔ entry ∈ roster.entries ∧ entry.id = id :=
  find?_key_eq_some_iff h.ids

theorem WellFormed.find?_eq_some_iff (h : roster.WellFormed) :
    roster.find? username = some id ↔
      ∃ entry, roster.entryOf? id = some entry ∧ entry.username = username := by
  simp only [find?, Option.map_eq_some_iff, find?_key_eq_some_iff h.usernames,
    h.entryOf?_eq_some_iff]
  constructor
  · rintro ⟨entry, ⟨hm, hu⟩, hid⟩
    exact ⟨entry, ⟨hm, hid⟩, hu⟩
  · rintro ⟨entry, ⟨hm, hid⟩, hu⟩
    exact ⟨entry, ⟨hm, hu⟩, hid⟩

section Order

variable {entries : List Entry}

theorem WellFormed.find?_perm (h : roster.WellFormed) (hp : entries.Perm roster.entries)
    (username : String) : { roster with entries }.find? username = roster.find? username :=
  congrArg (Option.map Entry.id) (find?_key_perm h.usernames hp username)

theorem WellFormed.offersTo_perm (h : roster.WellFormed) (hp : entries.Perm roster.entries) :
    { roster with entries }.offersTo = roster.offersTo := by
  funext line id
  have hentry : { roster with entries }.entryOf? id = roster.entryOf? id :=
    find?_key_perm h.ids hp id
  rw [offersTo, hentry, offersTo]

/-- The outboxes do not depend on the entries. -/
theorem offerEach_entries (roster : Roster) (entries : List Entry) (os : List Offer) :
    ({ roster with entries }.offerEach os).1 = (roster.offerEach os).1 ∧
      ({ roster with entries }.offerEach os).2 = { (roster.offerEach os).2 with entries } := by
  induction os generalizing roster with
  | nil => exact ⟨rfl, rfl⟩
  | cons o os ih =>
    have hfst : ({ roster with entries }.offer o.box o.line).1 = (roster.offer o.box o.line).1 := by
      rw [offer_fst, offer_fst]
    have hsnd : ({ roster with entries }.offer o.box o.line).2 =
        { (roster.offer o.box o.line).2 with entries } :=
      ext_outboxes (by simp) (by simp) fun i => by simp only [getElem?_offer]
    obtain ⟨h1, h2⟩ := ih (roster.offer o.box o.line).2
    simp only [offerEach_cons, hfst, hsnd, h1, h2, and_self]

/-- A broadcast counts and fills the same outboxes in whatever order it goes through the entries. -/
theorem WellFormed.broadcast_perm (h : roster.WellFormed) (hp : entries.Perm roster.entries)
    (line : String) (except : Option ConnectionId) :
    ({ roster with entries }.broadcast line except).1 = (roster.broadcast line except).1 ∧
      ({ roster with entries }.broadcast line except).2.outboxes =
        (roster.broadcast line except).2.outboxes := by
  have hids := ((hp.map (·.id)).filter (some · ≠ except)).flatMap_right (roster.offersTo line)
  have hline : ∀ o ∈ ((entries.map (·.id)).filter (some · ≠ except)).flatMap
      (roster.offersTo line), o.line = line := by
    intro o ho
    obtain ⟨id, -, ho⟩ := List.mem_flatMap.1 ho
    obtain ⟨entry, -, rfl⟩ := List.mem_map.1 ho
    rfl
  obtain ⟨hcount, hroster⟩ := roster.offerEach_perm hids hline
  obtain ⟨h1, h2⟩ := roster.offerEach_entries entries
    (((entries.map (·.id)).filter (some · ≠ except)).flatMap (roster.offersTo line))
  simp only [broadcast, sendEach_eq, h.offersTo_perm hp, h1, h2, hcount, hroster, and_self]

end Order

/-- **Names are unique, the limit is kept, and no order shows**: whatever was asked of a roster that
was empty at first, and in whatever order `entries` its entries are gone through. An arrival is
accepted exactly if its name is free and there is room, and a taken name is reported first. -/
theorem unique_bounded_unordered (limit : Option Nat) (steps : List RosterStep) :
    let roster := Roster.run { limit } steps
    (roster.entries.map (·.username)).Nodup ∧
    (∀ max, limit = some max → roster.size ≤ max) ∧
    (∀ username id, roster.find? username = some id ↔
      ∃ entry, roster.entryOf? id = some entry ∧ entry.username = username) ∧
    (∀ entries, entries.Perm roster.entries →
      (∀ username, { roster with entries }.find? username = roster.find? username) ∧
      ∀ line except,
        ({ roster with entries }.broadcast line except).1 = (roster.broadcast line except).1 ∧
        ({ roster with entries }.broadcast line except).2.outboxes =
          (roster.broadcast line except).2.outboxes) ∧
    ∀ id username box greeting,
      ((∃ outcome, roster.register id username box greeting = .ok outcome) ↔
        (∀ entry ∈ roster.entries, entry.username ≠ username) ∧
          ∀ max, limit = some max → roster.size < max) ∧
      (roster.register id username box greeting = .error (.usernameInUse username) ↔
        ∃ entry ∈ roster.entries, entry.username = username) ∧
      ∀ max, roster.register id username box greeting = .error (.serverFull max) ↔
        (∀ entry ∈ roster.entries, entry.username ≠ username) ∧
          limit = some max ∧ max ≤ roster.size := by
  intro roster
  have h : roster.WellFormed := (WellFormed.empty limit).run steps
  have hlimit : roster.limit = limit := limit_run _ steps
  refine ⟨h.usernames, fun max hm => h.limited max (hlimit.trans hm),
    fun username id => h.find?_eq_some_iff, fun entries hp =>
      ⟨h.find?_perm hp, h.broadcast_perm hp⟩, fun id username box greeting =>
      ⟨?_, register_eq_usernameInUse_iff, fun max => ?_⟩⟩
  · rw [register_eq_ok_iff, ← hlimit]
    exact ⟨fun ha => ⟨ha.free, ha.room⟩, fun ⟨hfree, hroom⟩ => ⟨hfree, hroom⟩⟩
  · rw [register_eq_serverFull_iff, hlimit]

end Roster

end ChatRoom
