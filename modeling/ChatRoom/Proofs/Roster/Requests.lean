import ChatRoom.Proofs.Roster.Uniqueness

/-!
# Requests

What a roster is asked by the rest of the chat (`Request`): each session that is to be registered
brings an outbox of its own. A request brings an outbox, makes its offers, changes the entries and
lets readers act (`asked_eq`); what it does to the entries and to each outbox is read off that.

No two sessions share an outbox and none is overfull (`Owned`), whatever is asked
(`Owned.asked`, `Owned.askedAll`).
-/

namespace ChatRoom

/-- What is asked of a roster, and what readers do. A session that is to be registered brings an
outbox of its own, whose reader may be gone already. -/
inductive Request where
  | register (id : ConnectionId) (username : String) (capacity : Nat) (reader : Bool)
    (greeting : List String)
  | unregister (id : ConnectionId)
  | send (id : ConnectionId) (line : String)
  | broadcast (line : String) (except : Option ConnectionId)
  /-- A reader takes what waits in its outbox. -/
  | drain (box : OutboxId)
  /-- A reader goes away. -/
  | abandon (box : OutboxId)
  deriving DecidableEq

/-- The outbox that a request brings. -/
def Request.outbox? : Request → Option Outbox
  | .register _ _ capacity reader _ => some ⟨max capacity 1, [], reader⟩
  | _ => none

namespace Roster

/-! ## Requests -/

/-- The roster with one more outbox. -/
def withOutbox (roster : Roster) (capacity : Nat) (reader : Bool) : Roster :=
  if reader then (roster.openOutbox capacity).2
  else (roster.openOutbox capacity).2.abandon roster.outboxes.length

/-- The answer to a session that is to be registered. -/
def enrol (roster : Roster) (id : ConnectionId) (username : String) (capacity : Nat)
    (reader : Bool) (greeting : List String) : Except SessionError (List Bool × Roster) :=
  (roster.withOutbox capacity reader).register id username roster.outboxes.length greeting

/-- The roster after a request. -/
def asked (roster : Roster) : Request → Roster
  | .register id username capacity reader greeting =>
    match roster.enrol id username capacity reader greeting with
    | .ok (_, roster) => roster
    | .error _ => roster.withOutbox capacity reader
  | .unregister id => roster.step (.unregister id)
  | .send id line => roster.step (.send id line)
  | .broadcast line except => roster.step (.broadcast line except)
  | .drain box => roster.step (.drain box)
  | .abandon box => roster.step (.abandon box)

/-- The roster after several requests. -/
def askedAll (roster : Roster) (requests : List Request) : Roster := requests.foldl asked roster

variable {roster : Roster} {box : OutboxId}

@[simp] theorem askedAll_nil : roster.askedAll [] = roster := rfl

@[simp] theorem askedAll_cons (request : Request) (requests : List Request) :
    roster.askedAll (request :: requests) = (roster.asked request).askedAll requests := rfl

theorem askedAll_append (requests more : List Request) :
    roster.askedAll (requests ++ more) = (roster.askedAll requests).askedAll more :=
  List.foldl_append

/-- To send a line to several sessions is to send it to each of them. -/
theorem sendEach_eq_askedAll (roster : Roster) (line : String) (ids : List ConnectionId) :
    (roster.sendEach line ids).2 = roster.askedAll (ids.map (.send · line)) := by
  induction ids generalizing roster with
  | nil => rfl
  | cons id ids ih => exact ih (roster.send id line).2

@[simp] theorem entries_withOutbox (capacity : Nat) (reader : Bool) :
    (roster.withOutbox capacity reader).entries = roster.entries := by
  cases reader <;> rfl

@[simp] theorem limit_withOutbox (capacity : Nat) (reader : Bool) :
    (roster.withOutbox capacity reader).limit = roster.limit := by
  cases reader <;> rfl

@[simp] theorem outboxes_withOutbox (capacity : Nat) (reader : Bool) :
    (roster.withOutbox capacity reader).outboxes =
      roster.outboxes ++ [⟨max capacity 1, [], reader⟩] := by
  cases reader with
  | true => rfl
  | false =>
    refine List.ext_getElem? fun i => ?_
    simp only [withOutbox, openOutbox, abandon, Bool.false_eq_true, if_false, List.getElem?_modify]
    by_cases hi : roster.outboxes.length = i
    · subst hi; simp [Outbox.ofCapacity, Outbox.abandoned]
    · simp only [hi, if_false, List.getElem?_append]
      split
      · exact id_map _
      · have hlt : 1 ≤ i - roster.outboxes.length := by omega
        rw [List.getElem?_eq_none hlt, List.getElem?_eq_none hlt]
        rfl

/-! ## What a request does -/

/-- The offers that a request makes. -/
def offers (roster : Roster) : Request → List Offer
  | .register _ username _ _ greeting =>
    if roster.Admits username then greeting.map (⟨roster.outboxes.length, ·⟩) else []
  | .send id line => roster.offersTo line id
  | .broadcast line except =>
    ((roster.entries.map (·.id)).filter (some · ≠ except)).flatMap (roster.offersTo line)
  | .unregister _ | .drain _ | .abandon _ => []

/-- The roster once it has the outbox that a request brings. -/
def hosting (roster : Roster) : Request → Roster
  | .register _ _ capacity reader _ => roster.withOutbox capacity reader
  | _ => roster

/-- The entries after a request. -/
def entriesAfter (roster : Roster) : Request → List Entry
  | .register id username _ _ _ =>
    if roster.Admits username then
      roster.entries.filter (·.id ≠ id) ++ [⟨id, username, roster.outboxes.length⟩]
    else roster.entries
  | .unregister id => roster.entries.filter (·.id ≠ id)
  | _ => roster.entries

theorem admits_withOutbox {username : String} (capacity : Nat) (reader : Bool) :
    (roster.withOutbox capacity reader).Admits username ↔ roster.Admits username := by
  rw [admits_iff, admits_iff, isFull, size, limit_withOutbox, entries_withOutbox]
  rfl

theorem enrol_of_admits {username : String} (h : roster.Admits username) (id : ConnectionId)
    (capacity : Nat) (reader : Bool) (greeting : List String) :
    roster.enrol id username capacity reader greeting =
      .ok (((roster.withOutbox capacity reader).offerEach
          (greeting.map (⟨roster.outboxes.length, ·⟩))).1,
        { ((roster.withOutbox capacity reader).offerEach
            (greeting.map (⟨roster.outboxes.length, ·⟩))).2 with
          entries := roster.entries.filter (·.id ≠ id) ++
            [⟨id, username, roster.outboxes.length⟩] }) := by
  rw [enrol, register_of_admits ((admits_withOutbox _ _).2 h), entries_withOutbox]

theorem enrol_of_not_admits {username : String} (h : ¬ roster.Admits username) (id : ConnectionId)
    (capacity : Nat) (reader : Bool) (greeting : List String) :
    ∃ error, roster.enrol id username capacity reader greeting = .error error := by
  cases he : roster.enrol id username capacity reader greeting with
  | error error => exact ⟨error, rfl⟩
  | ok outcome => exact absurd ((admits_withOutbox _ _).1 (register_eq_ok_iff.1 ⟨_, he⟩)) h

/-- What readers do. -/
def read (roster : Roster) : Request → Roster
  | .drain box => (roster.drain box).2
  | .abandon box => roster.abandon box
  | _ => roster

theorem offerEach_with_entries (os : List Offer) :
    (roster.offerEach os).2 = { (roster.offerEach os).2 with entries := roster.entries } :=
  ext_outboxes rfl (entries_offerEach os) fun _ => rfl

/-- A request brings an outbox, makes its offers, changes the entries and lets readers act. -/
theorem asked_eq (request : Request) :
    roster.asked request =
      { ((roster.hosting request).offerEach (roster.offers request)).2 with
        entries := roster.entriesAfter request }.read request := by
  cases request with
  | register id username capacity reader greeting =>
    simp only [asked, entriesAfter, offers, hosting, read]
    by_cases ha : roster.Admits username
    · simp only [roster.enrol_of_admits ha id capacity reader greeting, if_pos ha]
    · obtain ⟨error, he⟩ := roster.enrol_of_not_admits ha id capacity reader greeting
      simp only [he, if_neg ha, offerEach_nil]
      rw [← roster.entries_withOutbox capacity reader]
  | unregister id => rfl
  | send id line => exact (roster.send_eq id line).2.trans (offerEach_with_entries _)
  | broadcast line except =>
    simp only [asked, step, broadcast, sendEach_eq]
    exact offerEach_with_entries _
  | drain box => rfl
  | abandon box => rfl

theorem entries_asked (request : Request) :
    (roster.asked request).entries = roster.entriesAfter request := by
  rw [asked_eq]
  cases request <;> rfl

theorem limit_hosting (request : Request) : (roster.hosting request).limit = roster.limit := by
  cases request with
  | register => exact limit_withOutbox _ _
  | _ => rfl

theorem limit_asked (request : Request) : (roster.asked request).limit = roster.limit := by
  have h : ((roster.hosting request).offerEach (roster.offers request)).2.limit = roster.limit :=
    (limit_offerEach _).trans (limit_hosting request)
  rw [asked_eq]
  cases request <;> exact h

theorem outboxes_hosting (request : Request) :
    (roster.hosting request).outboxes = roster.outboxes ++ request.outbox?.toList := by
  cases request with
  | register => exact outboxes_withOutbox _ _
  | _ => exact (List.append_nil _).symm

/-- Nothing waits in a new outbox. -/
theorem pending_hosting (request : Request) :
    (roster.hosting request).pending box = roster.pending box := by
  rw [pending, outboxes_hosting, pending]
  rcases Nat.lt_or_ge box roster.outboxes.length with h | h
  · rw [List.getElem?_append_left h]
  · rw [List.getElem?_append_right h, List.getElem?_eq_none h]
    cases request with
    | register => cases box - roster.outboxes.length <;> rfl
    | _ => rfl

theorem length_outboxes_asked (request : Request) :
    (roster.asked request).outboxes.length =
      roster.outboxes.length + request.outbox?.toList.length := by
  rw [← List.length_append, ← outboxes_hosting,
    ← length_outboxes_offerEach (roster.offers request), asked_eq]
  cases request <;> simp [read, drain, abandon]

theorem length_outboxes_le_askedAll (requests : List Request) :
    roster.outboxes.length ≤ (roster.askedAll requests).outboxes.length := by
  induction requests generalizing roster with
  | nil => exact Nat.le_refl _
  | cons request requests ih =>
    have hstep := roster.length_outboxes_asked request
    exact Nat.le_trans (by omega) ih

/-- A property that an outbox keeps, whatever is queued in it and whatever its reader does. -/
structure Kept (P : Outbox → Prop) : Prop where
  push : ∀ outbox line, P outbox → P (outbox.push line)
  drained : ∀ outbox, P outbox → P outbox.drained
  abandoned : ∀ outbox, P outbox → P outbox.abandoned

theorem Kept.asked {P : Outbox → Prop} (hP : Kept P) {request : Request} {outbox : Outbox}
    (h : (roster.hosting request).outboxes[box]? = some outbox) (ho : P outbox) :
    ∃ outbox, (roster.asked request).outboxes[box]? = some outbox ∧ P outbox := by
  have hpush : ∀ lines outbox, P outbox → P (outbox.pushAll lines) := by
    intro lines
    induction lines with
    | nil => exact fun _ h => h
    | cons line lines ih => exact fun outbox h => ih _ (hP.push outbox line h)
  obtain ⟨sent, hsent, hs⟩ : ∃ outbox,
      ((roster.hosting request).offerEach (roster.offers request)).2.outboxes[box]? =
        some outbox ∧ P outbox := by
    rw [getElem?_outboxes_offerEach, h]
    exact ⟨_, rfl, hpush _ _ ho⟩
  rw [asked_eq]
  cases request with
  | drain b =>
    simp only [read, drain, List.getElem?_modify, hsent]
    by_cases hb : b = box <;> simp [hb, hs, hP.drained]
  | abandon b =>
    simp only [read, abandon, List.getElem?_modify, hsent]
    by_cases hb : b = box <;> simp [hb, hs, hP.abandoned]
  | register | unregister | send | broadcast => exact ⟨sent, hsent, hs⟩

theorem kept_bounded : Kept fun outbox => outbox.pending.length ≤ outbox.capacity where
  push _ line h := Outbox.length_push_le h line
  drained _ _ := Nat.zero_le _
  abandoned _ _ := Nat.zero_le _

theorem kept_capacity (capacity : Nat) : Kept fun outbox => outbox.capacity = capacity where
  push _ line h := (Outbox.capacity_push line).trans h
  drained _ h := h
  abandoned _ h := h

/-- A reader that has gone does not come back. -/
theorem kept_unread : Kept fun outbox => outbox.hasReader = false where
  push _ line h := (Outbox.hasReader_push line).trans h
  drained _ h := h
  abandoned _ _ := rfl

/-! ## The invariant -/

/-- No two sessions share an outbox, and none is overfull. -/
structure Owned (roster : Roster) : Prop where
  wellFormed : roster.WellFormed
  boxes : (roster.entries.map (·.outbox)).Nodup
  opened : ∀ entry ∈ roster.entries, entry.outbox < roster.outboxes.length
  bounded : ∀ outbox ∈ roster.outboxes, outbox.pending.length ≤ outbox.capacity

theorem Owned.empty (limit : Option Nat) : Owned { limit } :=
  ⟨.empty limit, List.nodup_nil, by simp, by simp⟩

/-- Sessions are told apart by their outboxes. -/
theorem Owned.outbox_inj (h : roster.Owned) {entry other : Entry}
    (he : entry ∈ roster.entries) (ho : other ∈ roster.entries) :
    entry.outbox = other.outbox ↔ entry = other :=
  ⟨List.inj_on_of_nodup_map h.boxes he ho, congrArg Entry.outbox⟩

/-- An entry after a request was there before it, or has the outbox that the request brings. -/
theorem mem_entriesAfter {request : Request} {entry : Entry}
    (h : entry ∈ roster.entriesAfter request) :
    entry ∈ roster.entries ∨
      entry.outbox = roster.outboxes.length ∧ request.outbox?.isSome = true := by
  cases request with
  | register id username capacity reader greeting =>
    simp only [entriesAfter] at h
    split at h
    · rcases List.mem_append.1 h with h | h
      · exact .inl (List.mem_of_mem_filter h)
      · exact .inr ⟨by simp [List.mem_singleton.1 h], rfl⟩
    · exact .inl h
  | unregister id => exact .inl (List.mem_of_mem_filter h)
  | _ => exact .inl h

theorem WellFormed.asked (h : roster.WellFormed) (request : Request) :
    (roster.asked request).WellFormed := by
  have hw : WellFormed { roster with entries := roster.entriesAfter request } := by
    cases request with
    | register id username capacity reader greeting =>
      simp only [entriesAfter]
      split
      · rename_i ha
        exact h.arrive ⟨id, username, roster.outboxes.length⟩ ha
      · exact h
    | unregister id => exact h.leave id
    | _ => exact h
  exact hw.congr (entries_asked request) (limit_asked request)

theorem Owned.asked (h : roster.Owned) (request : Request) : (roster.asked request).Owned where
  wellFormed := h.wellFormed.asked request
  boxes := by
    rw [entries_asked]
    cases request with
    | register id username capacity reader greeting =>
      simp only [entriesAfter]
      split
      · rw [List.map_append, List.nodup_append]
        refine ⟨h.boxes.sublist (List.filter_sublist.map _), List.nodup_singleton _, ?_⟩
        -- the new outbox has the number of none that was there
        simp only [List.mem_map, List.mem_filter, List.map_cons, List.map_nil, List.mem_singleton]
        rintro _ ⟨entry, ⟨hm, -⟩, rfl⟩ _ rfl
        exact Nat.ne_of_lt (h.opened entry hm)
      · exact h.boxes
    | unregister id => exact h.boxes.sublist (List.filter_sublist.map _)
    | _ => exact h.boxes
  opened entry he := by
    rw [length_outboxes_asked]
    rcases mem_entriesAfter (entries_asked request ▸ he) with he | ⟨he, hsome⟩
    · exact Nat.lt_add_right _ (h.opened entry he)
    · obtain ⟨outbox, ho⟩ := Option.isSome_iff_exists.1 hsome
      simp [he, ho]
  bounded outbox ho := by
    obtain ⟨box, ho⟩ := List.mem_iff_getElem?.1 ho
    have hlt : box < (roster.hosting request).outboxes.length := by
      rw [outboxes_hosting, List.length_append, ← length_outboxes_asked]
      exact (List.getElem?_eq_some_iff.1 ho).1
    obtain ⟨before, hb⟩ : ∃ before, (roster.hosting request).outboxes[box]? = some before :=
      ⟨_, List.getElem?_eq_getElem hlt⟩
    have hle : before.pending.length ≤ before.capacity := by
      have hm := List.mem_of_getElem? hb
      rw [outboxes_hosting, List.mem_append] at hm
      rcases hm with hm | hm
      · exact h.bounded before hm
      · cases request with
        | register => simp [List.mem_singleton.1 hm]
        | _ => cases hm
    obtain ⟨after, ha, hafter⟩ := kept_bounded.asked hb hle
    rw [ho] at ha
    cases ha
    exact hafter

theorem Owned.askedAll (h : roster.Owned) (requests : List Request) :
    (roster.askedAll requests).Owned := by
  induction requests generalizing roster with
  | nil => exact h
  | cons request requests ih => exact ih (h.asked request)

/-- The outboxes are those that the requests have brought, each of its own capacity. -/
theorem capacities_asked (request : Request) :
    (roster.asked request).outboxes.map (·.capacity) =
      roster.outboxes.map (·.capacity) ++ request.outbox?.toList.map (·.capacity) := by
  rw [← List.map_append, ← outboxes_hosting]
  refine List.ext_getElem? fun box => ?_
  rw [List.getElem?_map, List.getElem?_map]
  cases hb : (roster.hosting request).outboxes[box]? with
  | none =>
    have hle : (roster.asked request).outboxes.length ≤ box := by
      rw [length_outboxes_asked, ← List.length_append, ← outboxes_hosting]
      exact List.getElem?_eq_none_iff.1 hb
    rw [List.getElem?_eq_none hle]
  | some before =>
    obtain ⟨after, ha, hcapacity⟩ := (kept_capacity before.capacity).asked hb rfl
    rw [ha, Option.map_some, hcapacity, Option.map_some]

theorem capacities_askedAll (requests : List Request) :
    (roster.askedAll requests).outboxes.map (·.capacity) =
      roster.outboxes.map (·.capacity) ++
        (requests.filterMap Request.outbox?).map (·.capacity) := by
  induction requests generalizing roster with
  | nil => simp
  | cons request requests ih =>
    rw [askedAll_cons, ih, capacities_asked, List.filterMap_cons, List.append_assoc]
    cases request.outbox? <;> rfl

end Roster

end ChatRoom
