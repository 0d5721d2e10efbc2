import ChatRoom.Proofs.Roster.Requests
import Mathlib.Data.List.Count

/-!
# Nothing is lost but what is reported lost

A roster tells of every attempt to queue a line whether it was queued (`Roster.attempts`). What
readers have taken out of an outbox, followed by what still waits in it, is exactly what was
reported as queued, in order (`Owned.takenAll_append_pending`).

An attempt succeeds exactly if its outbox has a reader and room (`tried_of_nodup`), and a broadcast
counts the outboxes that grew (`count_grown`). An outbox that no session has gets nothing more
(`Closed.askedAll`).
-/

namespace ChatRoom

/-- An attempt to queue a line, and whether it is reported as queued. -/
structure Attempt where
  box : OutboxId
  line : String
  queued : Bool
  deriving DecidableEq

/-- The lines that are reported as queued in one outbox, in order. -/
def Attempt.linesFor (box : OutboxId) (attempts : List Attempt) : List String :=
  (attempts.filter fun a => a.box = box ∧ a.queued = true).map (·.line)

theorem Attempt.linesFor_eq_nil {box : OutboxId} {attempts : List Attempt}
    (h : ∀ a ∈ attempts, a.box ≠ box) : Attempt.linesFor box attempts = [] := by
  rw [linesFor, List.filter_eq_nil_iff.2, List.map_nil]
  intro a ha
  simp [h a ha]

namespace Roster

/-! ## What is reported, and what is taken -/

/-- The attempts of a request, with what is reported of them: a greeting is answered line by line,
a line for one session by yes or no. A broadcast is answered by a count only; its attempts are those
of sending the line to each session. -/
def attempts (roster : Roster) : Request → List Attempt
  | .register id username capacity reader greeting =>
    match roster.enrol id username capacity reader greeting with
    | .ok (queued, _) => greeting.zipWith (⟨roster.outboxes.length, ·, ·⟩) queued
    | .error _ => []
  | .send id line =>
    (roster.entryOf? id).toList.map fun entry => ⟨entry.outbox, line, (roster.send id line).1⟩
  | .broadcast line except =>
    (roster.entries.filter (some ·.id ≠ except)).map fun entry =>
      ⟨entry.outbox, line, (roster.send entry.id line).1⟩
  | .unregister _ | .drain _ | .abandon _ => []

/-- The lines that the reader of an outbox takes out of it. -/
def taken (roster : Roster) (box : OutboxId) (request : Request) : List String :=
  if request = .drain box then (roster.drain box).1 else []

/-- The lines that are taken out of an outbox, one request after the other. -/
def takenAll (roster : Roster) (box : OutboxId) : List Request → List String
  | [] => []
  | request :: requests =>
    roster.taken box request ++ (roster.asked request).takenAll box requests

/-- The lines that are reported as queued in an outbox, one request after the other. -/
def reported (roster : Roster) (box : OutboxId) : List Request → List String
  | [] => []
  | request :: requests =>
    Attempt.linesFor box (roster.attempts request) ++ (roster.asked request).reported box requests

/-- There is somebody to read this outbox. -/
def hasReader (roster : Roster) (box : OutboxId) : Bool :=
  (roster.outboxes[box]?.map Outbox.hasReader).getD false

/-- There is a reader and room for one more line. -/
def hasRoom (roster : Roster) (box : OutboxId) : Bool :=
  (roster.outboxes[box]?.map Outbox.accepts).getD false

/-- The reader of an outbox is told that nothing will come any more: nothing waits, and no session
can send to it. -/
def HasEnded (roster : Roster) (box : OutboxId) : Prop :=
  roster.pending box = [] ∧ roster.isConnected box = false

instance (roster : Roster) (box : OutboxId) : Decidable (roster.HasEnded box) :=
  inferInstanceAs (Decidable (_ ∧ _))

variable {roster : Roster} {box : OutboxId}

theorem hasRoom_eq_true_iff :
    roster.hasRoom box = true ↔ ∃ outbox, roster.outboxes[box]? = some outbox ∧
      outbox.hasReader = true ∧ outbox.pending.length < outbox.capacity := by
  unfold hasRoom
  cases roster.outboxes[box]? <;> simp [Outbox.accepts]

/-! ## The attempts of offers -/

/-- Offers, as attempts. -/
def tried (roster : Roster) (os : List Offer) : List Attempt :=
  os.zipWith (fun o queued => ⟨o.box, o.line, queued⟩) (roster.offerEach os).1

@[simp] theorem tried_nil : roster.tried [] = [] := rfl

theorem tried_cons (o : Offer) (os : List Offer) :
    roster.tried (o :: os) = ⟨o.box, o.line, (roster.offer o.box o.line).1⟩ ::
      (roster.offer o.box o.line).2.tried os := rfl

theorem pending_offer (b : OutboxId) (line : String) :
    (roster.offer b line).2.pending box = roster.pending box ++
      Attempt.linesFor box [⟨b, line, (roster.offer b line).1⟩] := by
  rw [pending, getElem?_offer, offer_fst, pending]
  by_cases hb : box = b
  · subst hb
    cases ho : roster.outboxes[box]? with
    | none => simp [Attempt.linesFor]
    | some outbox =>
      cases ha : outbox.accepts <;> simp [Attempt.linesFor, Outbox.pending_push, ha]
  · rw [if_neg hb, Attempt.linesFor_eq_nil (by simp [Ne.symm hb]), List.append_nil]

/-- What offers add to an outbox is what is reported of them. -/
theorem pending_offerEach (os : List Offer) :
    (roster.offerEach os).2.pending box =
      roster.pending box ++ Attempt.linesFor box (roster.tried os) := by
  induction os generalizing roster with
  | nil => simp [Attempt.linesFor]
  | cons o os ih =>
    rw [offerEach_cons, ih, pending_offer, tried_cons, List.append_assoc]
    simp only [Attempt.linesFor, ← List.map_append, ← List.filter_append, List.singleton_append]

theorem count_tried (os : List Offer) :
    (roster.offerEach os).1.count true = (roster.tried os).countP (·.queued) := by
  induction os generalizing roster with
  | nil => rfl
  | cons o os ih =>
    rw [offerEach_cons, tried_cons, List.count_cons, List.countP_cons, ih]
    simp

theorem hasRoom_offer_of_ne {b : OutboxId} (h : box ≠ b) (line : String) :
    (roster.offer b line).2.hasRoom box = roster.hasRoom box := by
  rw [hasRoom, getElem?_offer, if_neg h, hasRoom]

/-- One line for each of several outboxes is queued where there is a reader and room. -/
theorem tried_of_nodup {os : List Offer} (h : (os.map (·.box)).Nodup) :
    roster.tried os = os.map fun o => ⟨o.box, o.line, roster.hasRoom o.box⟩ := by
  induction os generalizing roster with
  | nil => rfl
  | cons o os ih =>
    obtain ⟨ho, hos⟩ := List.nodup_cons.1 h
    rw [tried_cons, ih hos, List.map_cons, offer_fst, ← hasRoom]
    refine congrArg _ (List.map_congr_left fun p hp => ?_)
    rw [hasRoom_offer_of_ne fun he => ho (List.mem_map.2 ⟨p, hp, he⟩)]

/-- Of several lines for one outbox those are queued that it has room for, from the front. -/
theorem offerEach_same_fst {outbox : Outbox} (h : roster.outboxes[box]? = some outbox)
    (lines : List String) :
    (roster.offerEach (lines.map (⟨box, ·⟩))).1 = (List.range lines.length).map fun k =>
      outbox.hasReader && decide (outbox.pending.length + k < outbox.capacity) := by
  induction lines generalizing roster outbox with
  | nil => rfl
  | cons line lines ih =>
    have hnext : (roster.offer box line).2.outboxes[box]? = some (outbox.push line) := by
      rw [getElem?_offer, if_pos rfl, h, Option.map_some]
    rw [List.map_cons, offerEach_cons, ih hnext, List.length_cons, List.range_succ_eq_map,
      List.map_cons, List.map_map, offer_fst, h]
    refine congrArg₂ List.cons rfl (List.map_congr_left fun k _ => ?_)
    rw [Outbox.hasReader_push, Outbox.capacity_push, Outbox.pending_push]
    cases hr : outbox.hasReader with
    | false => rfl
    | true =>
      cases ha : outbox.accepts with
      | true => simp; omega
      | false =>
        -- once it is full, it stays full
        have hfull : outbox.capacity ≤ outbox.pending.length := by
          simpa [Outbox.accepts, hr] using ha
        simp; omega

theorem pending_read (request : Request) :
    (roster.read request).pending box =
      if request = .drain box ∨ request = .abandon box then [] else roster.pending box := by
  have hmodify : ∀ (b : OutboxId) (f : Outbox → Outbox), (∀ outbox, (f outbox).pending = []) →
      { roster with outboxes := roster.outboxes.modify b f }.pending box =
        if b = box then [] else roster.pending box := by
    intro b f hf
    simp only [pending, List.getElem?_modify]
    by_cases hb : b = box
    · simp only [hb, if_true]
      cases roster.outboxes[box]? <;> simp [hf]
    · cases roster.outboxes[box]? <;> simp [hb]
  cases request with
  | drain b => simpa [read, drain] using hmodify b Outbox.drained fun _ => rfl
  | abandon b => simpa [read, abandon] using hmodify b Outbox.abandoned fun _ => rfl
  | register | unregister | send | broadcast => exact (if_neg (by simp)).symm

/-- What waits in an outbox is what waited there and what was tried with success, unless its reader
acts. -/
theorem pending_asked_tried (request : Request) :
    (roster.asked request).pending box =
      if request = .drain box ∨ request = .abandon box then []
      else roster.pending box ++
        Attempt.linesFor box ((roster.hosting request).tried (roster.offers request)) := by
  rw [asked_eq, pending_read, ← roster.pending_hosting request, ← pending_offerEach]
  rfl

/-! ## Conservation -/

theorem send_fst (id : ConnectionId) (line : String) :
    (roster.send id line).1 = ((roster.entryOf? id).map (roster.hasRoom ·.outbox)).getD false := by
  unfold send
  cases roster.entryOf? id with
  | none => rfl
  | some entry => exact offer_fst _ _

/-- A broadcast offers its line to each session but one. -/
theorem WellFormed.offers_broadcast (h : roster.WellFormed) (line : String)
    (except : Option ConnectionId) :
    roster.offers (.broadcast line except) =
      (roster.entries.filter (some ·.id ≠ except)).map fun entry => ⟨entry.outbox, line⟩ := by
  simp only [offers, List.filter_map, List.flatMap_map]
  rw [List.map_eq_flatMap]
  refine List.flatMap_congr fun entry he => ?_
  have hm : roster.entryOf? entry.id = some entry :=
    h.entryOf?_eq_some_iff.2 ⟨List.mem_of_mem_filter he, rfl⟩
  rw [offersTo, hm]
  rfl

/-- What is reported of a request is what becomes of its offers. -/
theorem Owned.attempts_eq (h : roster.Owned) (request : Request) :
    roster.attempts request = (roster.hosting request).tried (roster.offers request) := by
  cases request with
  | register id username capacity reader greeting =>
    simp only [attempts, offers, hosting]
    by_cases ha : roster.Admits username
    · rw [roster.enrol_of_admits ha id capacity reader greeting, if_pos ha, tried,
        List.zipWith_map_left]
    · obtain ⟨error, he⟩ := roster.enrol_of_not_admits ha id capacity reader greeting
      rw [he, if_neg ha, tried_nil]
  | send id line =>
    simp only [attempts, offers, hosting, offersTo, send_fst]
    cases roster.entryOf? id with
    | none => rfl
    | some entry =>
      rw [Option.toList_some, List.map_singleton, List.map_singleton, tried_cons, offer_fst]
      rfl
  | broadcast line except =>
    have hnodup : ((roster.entries.filter (some ·.id ≠ except)).map (·.outbox)).Nodup :=
      h.boxes.sublist (List.filter_sublist.map _)
    rw [h.wellFormed.offers_broadcast, tried_of_nodup (by rwa [List.map_map]), List.map_map]
    refine List.map_congr_left fun entry he => ?_
    have hm : roster.entryOf? entry.id = some entry :=
      h.wellFormed.entryOf?_eq_some_iff.2 ⟨List.mem_of_mem_filter he, rfl⟩
    rw [send_fst, hm]
    rfl
  | _ => rfl

theorem Owned.pending_asked (h : roster.Owned) (request : Request) (box : OutboxId) :
    (roster.asked request).pending box =
      if request = .drain box ∨ request = .abandon box then []
      else roster.pending box ++ Attempt.linesFor box (roster.attempts request) := by
  rw [pending_asked_tried, h.attempts_eq]

/-- The reader of an outbox has gone. -/
def Unread (roster : Roster) (box : OutboxId) : Prop :=
  roster.outboxes[box]?.map Outbox.hasReader = some false

theorem not_unread (h : roster.hasReader box = true) : ¬ roster.Unread box := by
  intro hu
  rw [hasReader, hu] at h
  cases h

theorem Unread.asked (h : roster.Unread box) (request : Request) :
    (roster.asked request).Unread box := by
  obtain ⟨outbox, ho, hr⟩ := Option.map_eq_some_iff.1 h
  have hh : (roster.hosting request).outboxes[box]? = some outbox := by
    rw [outboxes_hosting, List.getElem?_append_left (List.getElem?_eq_some_iff.1 ho).1, ho]
  exact Option.map_eq_some_iff.2 (kept_unread.asked hh hr)

theorem Unread.askedAll (h : roster.Unread box) (requests : List Request) :
    (roster.askedAll requests).Unread box := by
  induction requests generalizing roster with
  | nil => exact h
  | cons request requests ih => exact ih (h.asked request)

/-- Unless its reader has gone, what is taken out of an outbox and what waits in it is what waited
and what is reported. -/
theorem Owned.taken_append_pending (h : roster.Owned) {request : Request}
    (hread : ¬ (roster.asked request).Unread box) :
    roster.taken box request ++ (roster.asked request).pending box =
      roster.pending box ++ Attempt.linesFor box (roster.attempts request) := by
  rw [h.pending_asked, taken]
  by_cases hd : request = .drain box
  · subst hd
    simp [attempts, Attempt.linesFor, drain]
  · by_cases ha : request = .abandon box
    · subst ha
      cases ho : roster.outboxes[box]? with
      | none => simp [attempts, Attempt.linesFor, pending, ho]
      | some outbox =>
        refine absurd ?_ hread
        show (roster.outboxes.modify box Outbox.abandoned)[box]?.map Outbox.hasReader = some false
        simp [ho, Outbox.abandoned]
    · rw [if_neg hd, if_neg (by simp [hd, ha]), List.nil_append]

/-- **Conservation**: as long as an outbox has a reader, what was taken out of it and what waits in
it is what was reported as queued. -/
theorem Owned.takenAll_append_pending (h : roster.Owned) {requests : List Request}
    (hread : ¬ (roster.askedAll requests).Unread box) :
    roster.takenAll box requests ++ (roster.askedAll requests).pending box =
      roster.pending box ++ roster.reported box requests := by
  induction requests generalizing roster with
  | nil => simp [takenAll, reported]
  | cons request requests ih =>
    -- a reader that is there at the end was there all along
    have hnow : ¬ (roster.asked request).Unread box := fun hu => hread (hu.askedAll requests)
    have hstep := h.taken_append_pending hnow
    rw [takenAll, reported, askedAll_cons, List.append_assoc, ih (h.asked request) hread,
      ← List.append_assoc, hstep, List.append_assoc]

/-! ## What a broadcast counts -/

theorem length_pending_lt_iff {os : List Offer} :
    (roster.pending box).length < ((roster.offerEach os).2.pending box).length ↔
      ∃ a ∈ roster.tried os, a.queued = true ∧ a.box = box := by
  rw [pending_offerEach, List.length_append, Attempt.linesFor, List.length_map]
  rw [Nat.lt_add_right_iff_pos, List.length_pos_iff_exists_mem]
  simp only [List.mem_filter, decide_eq_true_eq]
  exact ⟨fun ⟨a, hm, hb, hq⟩ => ⟨a, hm, hq, hb⟩, fun ⟨a, hm, hq, hb⟩ => ⟨a, hm, hb, hq⟩⟩

/-- One line for each of several outboxes is queued as often as there are outboxes that grow. -/
theorem count_grown {os : List Offer} (h : (os.map (·.box)).Nodup)
    (hopened : ∀ o ∈ os, o.box < roster.outboxes.length) :
    (roster.offerEach os).1.count true = (List.range roster.outboxes.length).countP fun box =>
      (roster.pending box).length < ((roster.offerEach os).2.pending box).length := by
  have hboxes : (roster.tried os).map (·.box) = os.map (·.box) := by
    rw [tried_of_nodup h, List.map_map]
    rfl
  -- both lists name the outboxes that grow, each of them once
  have hperm : (((roster.tried os).filter (·.queued)).map (·.box)).Perm
      ((List.range roster.outboxes.length).filter fun box =>
        (roster.pending box).length < ((roster.offerEach os).2.pending box).length) := by
    refine (List.perm_ext_iff_of_nodup ?_ (List.nodup_range.filter _)).2 fun box => ?_
    · exact (hboxes ▸ h).sublist (List.filter_sublist.map _)
    · simp only [List.mem_map, List.mem_filter, List.mem_range, decide_eq_true_eq,
        length_pending_lt_iff]
      constructor
      · rintro ⟨a, ⟨hm, hq⟩, rfl⟩
        refine ⟨?_, a, hm, hq, rfl⟩
        obtain ⟨o, ho, hob⟩ := List.mem_map.1 (hboxes ▸ List.mem_map_of_mem hm)
        exact hob ▸ hopened o ho
      · rintro ⟨-, a, hm, hq, hb⟩
        exact ⟨a, ⟨hm, hq⟩, hb⟩
  rw [count_tried, List.countP_eq_length_filter, List.countP_eq_length_filter, ← hperm.length_eq,
    List.length_map]

/-! ## Outboxes without a session -/

/-- No session has this outbox any more. -/
structure Closed (roster : Roster) (box : OutboxId) : Prop where
  opened : box < roster.outboxes.length
  left : ∀ entry ∈ roster.entries, entry.outbox ≠ box

theorem Closed.asked (h : roster.Closed box) (request : Request) :
    (roster.asked request).Closed box where
  opened := by
    rw [length_outboxes_asked]
    exact Nat.lt_add_right _ h.opened
  left entry he := by
    rcases mem_entriesAfter (entries_asked request ▸ he) with he | ⟨he, -⟩
    · exact h.left entry he
    · exact he ▸ Nat.ne_of_gt h.opened

/-- Lines are queued for sessions, and for the one that is being greeted. -/
theorem box_of_mem_attempts {request : Request} {a : Attempt} (h : a ∈ roster.attempts request) :
    a.box = roster.outboxes.length ∨ ∃ entry ∈ roster.entries, entry.outbox = a.box := by
  cases request with
  | register id username capacity reader greeting =>
    simp only [attempts] at h
    split at h
    · obtain ⟨i, hi⟩ := List.mem_iff_getElem?.1 h
      obtain ⟨line, queued, -, -, rfl⟩ := List.getElem?_zipWith_eq_some.1 hi
      exact .inl rfl
    · cases h
  | send id line =>
    obtain ⟨entry, he, rfl⟩ := List.mem_map.1 h
    exact .inr ⟨entry, List.mem_of_find?_eq_some (Option.mem_toList.1 he), rfl⟩
  | broadcast line except =>
    obtain ⟨entry, he, rfl⟩ := List.mem_map.1 h
    exact .inr ⟨entry, List.mem_of_mem_filter he, rfl⟩
  | _ => cases h

theorem Closed.linesFor_attempts (h : roster.Closed box) (request : Request) :
    Attempt.linesFor box (roster.attempts request) = [] := by
  refine Attempt.linesFor_eq_nil fun a ha he => ?_
  rcases box_of_mem_attempts ha with hb | ⟨entry, hm, hb⟩
  · exact Nat.ne_of_lt h.opened (he.symm.trans hb)
  · exact h.left entry hm (hb.trans he)

/-- Whatever is asked, nothing more is queued in the outbox, and what waits in it stays until its
reader acts. -/
theorem Closed.askedAll (h : roster.Closed box) (ho : roster.Owned) (requests : List Request) :
    (roster.askedAll requests).Closed box ∧ roster.reported box requests = [] ∧
      ((roster.askedAll requests).pending box = roster.pending box ∨
        (roster.askedAll requests).pending box = []) := by
  induction requests generalizing roster with
  | nil => exact ⟨h, rfl, .inl rfl⟩
  | cons request requests ih =>
    obtain ⟨hclosed, hreported, hpending⟩ := ih (h.asked request) (ho.asked request)
    refine ⟨hclosed, ?_, ?_⟩
    · rw [reported, h.linesFor_attempts, hreported, List.append_nil]
    · rw [ho.pending_asked, h.linesFor_attempts, List.append_nil] at hpending
      rcases hpending with hp | hp
      · rw [askedAll_cons, hp]
        split
        · exact .inr rfl
        · exact .inl rfl
      · exact .inr hp

theorem Closed.isConnected_eq (h : roster.Closed box) : roster.isConnected box = false := by
  simpa [isConnected] using h.left

theorem Closed.hasEnded_iff (h : roster.Closed box) :
    roster.HasEnded box ↔ roster.pending box = [] := by
  simp [HasEnded, h.isConnected_eq]

/-- The outbox of a session that leaves is closed, and so is that of one whose entry is replaced. -/
theorem Owned.closed_of_gone (h : roster.Owned) {entry : Entry} (he : entry ∈ roster.entries)
    {request : Request} (hgone : entry ∉ roster.entriesAfter request) :
    (roster.asked request).Closed entry.outbox where
  opened := by
    rw [length_outboxes_asked]
    exact Nat.lt_add_right _ (h.opened entry he)
  left other hm hb := by
    rw [entries_asked] at hm
    rcases mem_entriesAfter hm with hm' | ⟨hm', -⟩
    · exact hgone ((h.outbox_inj hm' he).1 hb ▸ hm)
    · exact Nat.ne_of_lt (h.opened entry he) (hb.symm.trans hm')

/-! ## Everything that can be asked -/

theorem send_eq_true_iff (id : ConnectionId) (line : String) :
    (roster.send id line).1 = true ↔ ∃ entry outbox, roster.entryOf? id = some entry ∧
      roster.outboxes[entry.outbox]? = some outbox ∧ outbox.hasReader = true ∧
        outbox.pending.length < outbox.capacity := by
  rw [send_fst]
  cases roster.entryOf? id with
  | none => simp
  | some entry => simp [hasRoom_eq_true_iff]

/-- A greeting is queued as far as there is room for it, if the session is admitted. -/
theorem enrol_spec (roster : Roster) (id : ConnectionId) (username : String) (capacity : Nat)
    (reader : Bool) (greeting : List String) :
    match roster.enrol id username capacity reader greeting with
    | .ok (queued, _) => roster.Admits username ∧
        queued = (List.range greeting.length).map fun k => reader && decide (k < max capacity 1)
    | .error _ => ¬ roster.Admits username := by
  by_cases ha : roster.Admits username
  · have hbox : (roster.withOutbox capacity reader).outboxes[roster.outboxes.length]? =
        some ⟨max capacity 1, [], reader⟩ := by
      rw [outboxes_withOutbox]
      simp
    rw [roster.enrol_of_admits ha]
    refine ⟨ha, (offerEach_same_fst hbox greeting).trans ?_⟩
    simp only [List.length_nil, Nat.zero_add]
  · obtain ⟨error, he⟩ := roster.enrol_of_not_admits ha id capacity reader greeting
    rw [he]
    exact ha

theorem Owned.broadcast_fst (h : roster.Owned) (line : String) (except : Option ConnectionId) :
    (roster.broadcast line except).1 =
        (roster.attempts (.broadcast line except)).countP (·.queued) ∧
      (roster.broadcast line except).1 =
        (List.range roster.outboxes.length).countP fun box => (roster.pending box).length <
          ((roster.broadcast line except).2.pending box).length := by
  have hoffers := h.wellFormed.offers_broadcast line except
  have hbroadcast : roster.broadcast line except =
      ((roster.offerEach (roster.offers (.broadcast line except))).1.count true,
        (roster.offerEach (roster.offers (.broadcast line except))).2) := by
    rw [broadcast, sendEach_eq]
    rfl
  rw [hbroadcast]
  refine ⟨by rw [h.attempts_eq, count_tried]; rfl, count_grown ?_ fun o ho => ?_⟩
  · rw [hoffers, List.map_map]
    exact h.boxes.sublist (List.filter_sublist.map _)
  · rw [hoffers] at ho
    obtain ⟨entry, he, rfl⟩ := List.mem_map.1 ho
    exact h.opened entry (List.mem_of_mem_filter he)

/-- **Only what is reported is lost**, whatever was asked of a roster that was empty at first. No
outbox is overfull; as long as it has a reader, the reader gets what was reported as queued, in that
order. A line is queued exactly if there is a reader and room for it, a broadcast counts the
outboxes that grew, and no session leaves because a line was lost. An outbox that no session has
gets nothing more, and once it is empty, its reader is told that it has ended. -/
theorem only_reported_lost (limit : Option Nat) (requests : List Request) :
    let roster := askedAll { limit } requests
    (roster.outboxes.map (·.capacity) = (requests.filterMap Request.outbox?).map (·.capacity) ∧
      ∀ outbox ∈ roster.outboxes, outbox.pending.length ≤ outbox.capacity) ∧
    (∀ box, roster.hasReader box = true →
      takenAll { limit } box requests ++ roster.pending box = reported { limit } box requests) ∧
    (∀ id line, (roster.send id line).1 = true ↔ ∃ entry outbox,
      roster.entryOf? id = some entry ∧ roster.outboxes[entry.outbox]? = some outbox ∧
        outbox.hasReader = true ∧ outbox.pending.length < outbox.capacity) ∧
    (∀ id username capacity reader greeting,
      match roster.enrol id username capacity reader greeting with
      | .ok (queued, _) => roster.Admits username ∧
          queued = (List.range greeting.length).map fun k => reader && decide (k < max capacity 1)
      | .error _ => ¬ roster.Admits username) ∧
    (∀ line except,
      (roster.broadcast line except).1 =
        (roster.attempts (.broadcast line except)).countP (·.queued) ∧
      (roster.broadcast line except).1 =
        (List.range roster.outboxes.length).countP fun box => (roster.pending box).length <
          ((roster.broadcast line except).2.pending box).length) ∧
    (∀ request, (roster.asked request).entries = roster.entriesAfter request) ∧
    (∀ entry ∈ roster.entries, ∀ request, entry ∉ (roster.asked request).entries →
      (roster.asked request).Closed entry.outbox) ∧
    ∀ box, roster.Closed box → ∀ later,
      roster.reported box later = [] ∧
      ((roster.askedAll later).pending box = roster.pending box ∨
        (roster.askedAll later).pending box = []) ∧
      ((roster.askedAll later).HasEnded box ↔ (roster.askedAll later).pending box = []) ∧
      ((roster.askedAll later).drain box).2.HasEnded box := by
  intro roster
  have h : roster.Owned := (Owned.empty limit).askedAll requests
  refine ⟨⟨capacities_askedAll requests, h.bounded⟩, fun box hread => ?_, send_eq_true_iff,
    roster.enrol_spec, h.broadcast_fst, entries_asked, fun entry he request hgone => ?_,
    fun box hclosed later => ?_⟩
  · exact (Owned.empty limit).takenAll_append_pending (not_unread hread)
  · exact h.closed_of_gone he (entries_asked request ▸ hgone)
  · obtain ⟨hlater, hreported, hpending⟩ := hclosed.askedAll h later
    refine ⟨hreported, hpending, hlater.hasEnded_iff, ?_⟩
    have hdrained := hlater.asked (.drain box)
    refine hdrained.hasEnded_iff.2 ?_
    rw [(h.askedAll later).pending_asked, if_pos (.inl rfl)]

/-- A greeting of two lines for an outbox of one line: the second is lost and the session stays. -/
example : let roster := asked {} (.register ⟨1⟩ "ann" 0 true ["hello", "ann"])
    roster.entries = [⟨⟨1⟩, "ann", 0⟩] ∧ roster.pending 0 = ["hello"] ∧
      (roster.send ⟨1⟩ "again").1 = false := by
  decide

end Roster

end ChatRoom
