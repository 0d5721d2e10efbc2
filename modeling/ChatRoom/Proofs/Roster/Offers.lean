import ChatRoom.Roster
import Mathlib.Data.List.Basic

/-!
# Offers

Whatever the roster sends, it offers lines to outboxes, one after the other: `offerEach`. Greeting,
sending to one session and broadcasting are offers (`offerAll_eq`, `send_eq`, `sendEach_eq`); what
follows of all of them is said of offers once.

* `getElem?_outboxes_offerEach`: an outbox is pushed the lines that are for it, in order, and
  nothing else.
* `Outbox.pending_pushAll`: it then holds as many of them as it had room for, from the front.
* `offerEach_perm`: offers of one line may be made in any order.
-/

namespace ChatRoom

/-- A line on its way into an outbox. -/
structure Offer where
  box : OutboxId
  line : String
  deriving DecidableEq

/-- The lines among `offers` that are for one outbox. -/
def Offer.linesFor (box : OutboxId) (offers : List Offer) : List String :=
  (offers.filter (·.box = box)).map (·.line)

/-! ## Several lines for one outbox -/

namespace Outbox

/-- Queues several lines, those that are accepted. -/
def pushAll (outbox : Outbox) (lines : List String) : Outbox := lines.foldl push outbox

variable {outbox : Outbox}

@[simp] theorem pushAll_nil : outbox.pushAll [] = outbox := rfl

@[simp] theorem pushAll_cons (line : String) (lines : List String) :
    outbox.pushAll (line :: lines) = (outbox.push line).pushAll lines := rfl

@[simp] theorem hasReader_push (line : String) :
    (outbox.push line).hasReader = outbox.hasReader := by
  unfold push
  split <;> rfl

@[simp] theorem capacity_push (line : String) : (outbox.push line).capacity = outbox.capacity := by
  unfold push
  split <;> rfl

@[simp] theorem hasReader_pushAll (lines : List String) :
    (outbox.pushAll lines).hasReader = outbox.hasReader := by
  induction lines generalizing outbox with
  | nil => rfl
  | cons line lines ih => simp [ih]

theorem pending_push (line : String) :
    (outbox.push line).pending = outbox.pending ++ if outbox.accepts then [line] else [] := by
  unfold push
  split <;> simp [*]

/-- An outbox with a reader takes as many lines as it has room for, from the front. -/
theorem pending_pushAll (h : outbox.hasReader = true) (lines : List String) :
    (outbox.pushAll lines).pending =
      outbox.pending ++ lines.take (outbox.capacity - outbox.pending.length) := by
  induction lines generalizing outbox with
  | nil => simp
  | cons line lines ih =>
    rw [pushAll_cons, ih (by simpa using h), pending_push, capacity_push]
    cases ha : outbox.accepts with
    | true =>
      have hlt : outbox.pending.length < outbox.capacity := by
        simpa [accepts, h] using ha
      obtain ⟨n, hn⟩ : ∃ n, outbox.capacity - outbox.pending.length = n + 1 :=
        ⟨outbox.capacity - outbox.pending.length - 1, by omega⟩
      have hn' : outbox.capacity - (outbox.pending.length + 1) = n := by omega
      simp [hn, hn']
    | false =>
      have hle : outbox.capacity ≤ outbox.pending.length := by
        simpa [accepts, h] using ha
      simp [Nat.sub_eq_zero_of_le hle]

/-- How many more lines the outbox takes: none, once its reader is gone. -/
def free (outbox : Outbox) : Nat :=
  if outbox.hasReader then outbox.capacity - outbox.pending.length else 0

theorem pushAll_of_no_reader (h : outbox.hasReader = false) (lines : List String) :
    outbox.pushAll lines = outbox := by
  induction lines with
  | nil => rfl
  | cons line lines ih =>
    have hrefuses : outbox.accepts = false := by rw [accepts, h, Bool.false_and]
    rw [pushAll_cons, push_of_not_accepts hrefuses, ih]

/-- Of several lines an outbox takes the first, as many as it has places. -/
theorem pending_pushAll_free (outbox : Outbox) (lines : List String) :
    (outbox.pushAll lines).pending = outbox.pending ++ lines.take outbox.free := by
  cases hreader : outbox.hasReader with
  | true => rw [pending_pushAll hreader, free, if_pos hreader]
  | false =>
    have hnone : outbox.free = 0 := if_neg (by rw [hreader]; decide)
    rw [pushAll_of_no_reader hreader, hnone, List.take_zero, List.append_nil]

/-- An outbox with a reader and room for several lines takes all of them. -/
theorem pushAll_of_room (hreader : outbox.hasReader = true) {lines : List String}
    (hroom : outbox.pending.length + lines.length ≤ outbox.capacity) :
    outbox.pushAll lines = { outbox with pending := outbox.pending ++ lines } := by
  induction lines generalizing outbox with
  | nil => simp
  | cons line lines ih =>
    rw [List.length_cons] at hroom
    have haccepts : outbox.accepts = true := by
      simp only [accepts, hreader, Bool.true_and, decide_eq_true_eq]
      omega
    rw [pushAll_cons, push_of_accepts haccepts, List.append_cons _ line lines]
    apply ih
    · exact hreader
    · simp only [List.length_append, List.length_singleton]
      omega

end Outbox

namespace Roster

/-- Queues each line in its outbox, in order, and says of each whether it was queued. -/
def offerEach (roster : Roster) : List Offer → List Bool × Roster
  | [] => ([], roster)
  | o :: os =>
    let (queued, roster) := roster.offer o.box o.line
    let (rest, roster) := roster.offerEach os
    (queued :: rest, roster)

variable {roster : Roster}

/-! ## One offer -/

@[simp] theorem entries_offer (box : OutboxId) (line : String) :
    (roster.offer box line).2.entries = roster.entries := by
  unfold offer
  split <;> rfl

@[simp] theorem limit_offer (box : OutboxId) (line : String) :
    (roster.offer box line).2.limit = roster.limit := by
  unfold offer
  split <;> rfl

/-- An offer does to its outbox what `Outbox.push` does, and nothing to any other. -/
theorem getElem?_offer (box other : OutboxId) (line : String) :
    (roster.offer box line).2.outboxes[other]? =
      if other = box then roster.outboxes[box]?.map (·.push line) else roster.outboxes[other]? := by
  unfold offer
  split
  · rename_i h
    by_cases hb : other = box <;> simp [hb, h]
  · rename_i outbox h
    have hlt : box < roster.outboxes.length := (List.getElem?_eq_some_iff.1 h).1
    by_cases hb : other = box
    · subst hb; simp [(List.getElem?_eq_some_iff.1 h).2, hlt]
    · simp [List.getElem?_set_ne (Ne.symm hb), hb]

theorem offer_fst (box : OutboxId) (line : String) :
    (roster.offer box line).1 = (roster.outboxes[box]?.map Outbox.accepts).getD false := by
  unfold offer
  split <;> simp [*]

@[simp] theorem length_outboxes_offer (box : OutboxId) (line : String) :
    (roster.offer box line).2.outboxes.length = roster.outboxes.length := by
  unfold offer
  split <;> simp

/-! ## Several offers -/

@[simp] theorem offerEach_nil : roster.offerEach [] = ([], roster) := rfl

theorem offerEach_cons (o : Offer) (os : List Offer) :
    roster.offerEach (o :: os) =
      ((roster.offer o.box o.line).1 :: ((roster.offer o.box o.line).2.offerEach os).1,
        ((roster.offer o.box o.line).2.offerEach os).2) := rfl

theorem offerEach_append (os ps : List Offer) :
    roster.offerEach (os ++ ps) =
      ((roster.offerEach os).1 ++ ((roster.offerEach os).2.offerEach ps).1,
        ((roster.offerEach os).2.offerEach ps).2) := by
  induction os generalizing roster with
  | nil => rfl
  | cons o os ih => simp only [List.cons_append, offerEach_cons, ih]

@[simp] theorem entries_offerEach (os : List Offer) :
    (roster.offerEach os).2.entries = roster.entries := by
  induction os generalizing roster with
  | nil => rfl
  | cons o os ih => simp [offerEach_cons, ih]

@[simp] theorem limit_offerEach (os : List Offer) :
    (roster.offerEach os).2.limit = roster.limit := by
  induction os generalizing roster with
  | nil => rfl
  | cons o os ih => simp [offerEach_cons, ih]

@[simp] theorem length_outboxes_offerEach (os : List Offer) :
    (roster.offerEach os).2.outboxes.length = roster.outboxes.length := by
  induction os generalizing roster with
  | nil => rfl
  | cons o os ih => simp [offerEach_cons, ih]

/-- Each outbox is pushed the lines that are for it, and nothing else. -/
theorem getElem?_outboxes_offerEach (os : List Offer) (box : OutboxId) :
    (roster.offerEach os).2.outboxes[box]? =
      roster.outboxes[box]?.map (·.pushAll (Offer.linesFor box os)) := by
  induction os generalizing roster with
  | nil => simp [Offer.linesFor]
  | cons o os ih =>
    rw [offerEach_cons, ih, getElem?_offer]
    by_cases hb : box = o.box
    · subst hb
      simp [Offer.linesFor, Function.comp_def]
    · simp [Offer.linesFor, hb, Ne.symm hb]

/-- Two rosters with one limit and the same entries are equal if their outboxes are. -/
theorem ext_outboxes {roster other : Roster} (hlimit : roster.limit = other.limit)
    (hentries : roster.entries = other.entries)
    (hboxes : ∀ i : Nat, roster.outboxes[i]? = other.outboxes[i]?) : roster = other := by
  cases roster
  cases other
  cases hlimit
  cases hentries
  cases List.ext_getElem? hboxes
  rfl

/-- Offers to different outboxes do not depend on each other. -/
theorem offer_comm (roster : Roster) {b c : OutboxId} (h : b ≠ c) (l m : String) :
    ((roster.offer b l).2.offer c m).1 = (roster.offer c m).1 ∧
      ((roster.offer b l).2.offer c m).2 = ((roster.offer c m).2.offer b l).2 := by
  refine ⟨by rw [offer_fst, offer_fst, getElem?_offer, if_neg h.symm], ?_⟩
  refine ext_outboxes (by simp) (by simp) fun i => ?_
  simp only [getElem?_offer]
  by_cases hb : i = b
  · subst hb; simp [h]
  · by_cases hc : i = c
    · subst hc; simp [h.symm]
    · simp [hb, hc]

/-- Offers of one line may be made in any order. -/
theorem offerEach_perm (roster : Roster) {os ps : List Offer} (hp : os.Perm ps) {line : String}
    (hline : ∀ o ∈ os, o.line = line) :
    (roster.offerEach os).1.count true = (roster.offerEach ps).1.count true ∧
      (roster.offerEach os).2 = (roster.offerEach ps).2 := by
  induction hp generalizing roster with
  | nil => exact ⟨rfl, rfl⟩
  | cons o _ ih =>
    obtain ⟨hcount, hroster⟩ := ih (roster.offer o.box o.line).2
      fun p hp => hline p (List.mem_cons_of_mem _ hp)
    simp only [offerEach_cons, List.count_cons]
    exact ⟨by rw [hcount], hroster⟩
  | swap o p os =>
    have ho : o.line = p.line := by
      rw [hline o (by simp), hline p (by simp)]
    by_cases hb : o.box = p.box
    · have : o = p := by
        cases o; cases p; simp_all
      subst this
      exact ⟨rfl, rfl⟩
    · obtain ⟨h1, h2⟩ := roster.offer_comm hb o.line p.line
      obtain ⟨h3, -⟩ := roster.offer_comm (Ne.symm hb) p.line o.line
      simp only [offerEach_cons, h1, h2, h3, List.count_cons]
      exact ⟨by omega, trivial⟩
  | trans hp _ ih₁ ih₂ =>
    obtain ⟨h1, h2⟩ := ih₁ roster hline
    obtain ⟨h3, h4⟩ := ih₂ roster fun p hq => hline p (hp.mem_iff.2 hq)
    exact ⟨h1.trans h3, h2.trans h4⟩

/-! ## What is sent, as offers -/

theorem offerAll_eq (box : OutboxId) (lines : List String) :
    roster.offerAll box lines = roster.offerEach (lines.map (⟨box, ·⟩)) := by
  induction lines generalizing roster with
  | nil => rfl
  | cons line lines ih => simp only [offerAll, List.map_cons, offerEach_cons, ih]

/-- The offer that sending a line to a session makes, if the session is active. -/
def offersTo (roster : Roster) (line : String) (id : ConnectionId) : List Offer :=
  (roster.entryOf? id).toList.map fun entry => ⟨entry.outbox, line⟩

theorem send_eq (id : ConnectionId) (line : String) :
    (roster.send id line).1.toNat = (roster.offerEach (roster.offersTo line id)).1.count true ∧
      (roster.send id line).2 = (roster.offerEach (roster.offersTo line id)).2 := by
  unfold send offersTo
  cases roster.entryOf? id with
  | none => exact ⟨rfl, rfl⟩
  | some entry =>
    simp only [Option.toList_some, List.map_cons, List.map_nil, offerEach_cons, offerEach_nil]
    exact ⟨by cases (roster.offer entry.outbox line).1 <;> rfl, trivial⟩

theorem offersTo_congr {other : Roster} (h : other.entries = roster.entries) :
    other.offersTo = roster.offersTo := by
  funext line id
  simp only [offersTo, entryOf?, h]

theorem sendEach_eq (line : String) (ids : List ConnectionId) :
    roster.sendEach line ids =
      ((roster.offerEach (ids.flatMap (roster.offersTo line))).1.count true,
        (roster.offerEach (ids.flatMap (roster.offersTo line))).2) := by
  induction ids generalizing roster with
  | nil => rfl
  | cons id ids ih =>
    obtain ⟨hcount, hroster⟩ := roster.send_eq id line
    simp only [sendEach, List.flatMap_cons, offerEach_append, List.count_append]
    rw [ih, hroster, offersTo_congr (entries_offerEach _), hcount, Nat.add_comm]

@[simp] theorem entries_sendEach (line : String) (ids : List ConnectionId) :
    (roster.sendEach line ids).2.entries = roster.entries := by
  rw [sendEach_eq]
  exact entries_offerEach _

end Roster

end ChatRoom
