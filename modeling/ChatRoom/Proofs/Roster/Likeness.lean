import ChatRoom.Proofs.Roster.Requests
import Mathlib.Data.List.Forall2

/-!
# Rosters that differ in some lines

Two rosters are alike (`Roster.Alike`) if they have the same entries and the same outboxes, but that
in place of a line in one outbox there may be another in the other, as `seen` allows. How long the
lines are, or what they say, has no part in what is accepted: whatever is sent through both, with
lines that may stand for each other, is answered alike, and leaves rosters that are alike
(`Alike.offerEach`).
-/

namespace ChatRoom

/-- Two lines that are the same, or may stand for each other. -/
def Matches (R : String → String → Prop) (line other : String) : Prop := line = other ∨ R line other

theorem Matches.refl {R : String → String → Prop} (line : String) : Matches R line line := .inl rfl

theorem forall₂_matches_refl {R : String → String → Prop} (lines : List String) :
    List.Forall₂ (Matches R) lines lines :=
  List.forall₂_same.2 fun line _ => .refl line

/-- If no two lines may stand for each other, they are the same. -/
theorem eq_of_forall₂_matches {R : String → String → Prop} (hR : ∀ line other, ¬ R line other)
    {lines others : List String} (h : List.Forall₂ (Matches R) lines others) : lines = others := by
  rw [← List.forall₂_eq_eq_eq]
  exact h.imp fun line other hl => hl.resolve_right (hR line other)

namespace Outbox

/-- Outboxes that hold lines that may stand for each other. -/
structure Alike (R : String → String → Prop) (outbox other : Outbox) : Prop where
  capacity : outbox.capacity = other.capacity
  hasReader : outbox.hasReader = other.hasReader
  pending : List.Forall₂ (Matches R) outbox.pending other.pending

variable {R : String → String → Prop} {outbox other : Outbox}

theorem Alike.refl (outbox : Outbox) : outbox.Alike R outbox :=
  ⟨rfl, rfl, forall₂_matches_refl _⟩

theorem Alike.eq (h : outbox.Alike R other) (hR : ∀ line twin, ¬ R line twin) :
    outbox = other := by
  obtain ⟨hcapacity, hreader, hpending⟩ := h
  cases outbox
  cases other
  cases hcapacity
  cases hreader
  cases eq_of_forall₂_matches hR hpending
  rfl

theorem Alike.accepts (h : outbox.Alike R other) : outbox.accepts = other.accepts := by
  rw [Outbox.accepts, Outbox.accepts, h.capacity, h.hasReader, h.pending.length_eq]

theorem Alike.push (h : outbox.Alike R other) {line twin : String} (hl : Matches R line twin) :
    (outbox.push line).Alike R (other.push twin) := by
  cases ha : outbox.accepts with
  | false => rwa [push_of_not_accepts ha, push_of_not_accepts (h.accepts ▸ ha)]
  | true =>
    rw [push_of_accepts ha, push_of_accepts (h.accepts ▸ ha)]
    exact ⟨h.capacity, h.hasReader, List.rel_append h.pending (.cons hl .nil)⟩

theorem Alike.drained (h : outbox.Alike R other) : outbox.drained.Alike R other.drained :=
  ⟨h.capacity, h.hasReader, .nil⟩

theorem Alike.abandoned (h : outbox.Alike R other) : outbox.abandoned.Alike R other.abandoned :=
  ⟨h.capacity, rfl, .nil⟩

end Outbox

namespace Roster

/-- Rosters that are the same but for lines that may stand for each other, in each outbox those
that `seen` allows there. -/
structure Alike (seen : OutboxId → String → String → Prop) (roster other : Roster) : Prop where
  limit : roster.limit = other.limit
  entries : roster.entries = other.entries
  outboxes : ∀ box : OutboxId,
    roster.outboxes[box]? = none ∧ other.outboxes[box]? = none ∨
      ∃ outbox twin, roster.outboxes[box]? = some outbox ∧ other.outboxes[box]? = some twin ∧
        outbox.Alike (seen box) twin

variable {seen : OutboxId → String → String → Prop} {roster other : Roster}

theorem Alike.refl (roster : Roster) : roster.Alike seen roster := by
  refine ⟨rfl, rfl, fun box => ?_⟩
  cases roster.outboxes[box]? with
  | none => exact .inl ⟨rfl, rfl⟩
  | some outbox => exact .inr ⟨outbox, outbox, rfl, rfl, .refl outbox⟩

/-! ## What they answer -/

section Answers

variable (h : roster.Alike seen other)
include h

theorem Alike.length_outboxes : roster.outboxes.length = other.outboxes.length := by
  refine Nat.le_antisymm (Nat.le_of_not_lt fun hlt => ?_) (Nat.le_of_not_lt fun hlt => ?_)
  · rcases h.outboxes other.outboxes.length with ⟨hn, -⟩ | ⟨_, _, -, hs, -⟩
    · exact absurd hlt (Nat.not_lt.2 (List.getElem?_eq_none_iff.1 hn))
    · exact absurd (List.getElem?_eq_some_iff.1 hs).1 (Nat.lt_irrefl _)
  · rcases h.outboxes roster.outboxes.length with ⟨-, hn⟩ | ⟨_, _, hs, -, -⟩
    · exact absurd hlt (Nat.not_lt.2 (List.getElem?_eq_none_iff.1 hn))
    · exact absurd (List.getElem?_eq_some_iff.1 hs).1 (Nat.lt_irrefl _)

theorem Alike.entryOf? (id : ConnectionId) : roster.entryOf? id = other.entryOf? id := by
  rw [Roster.entryOf?, h.entries, Roster.entryOf?]

theorem Alike.find? (username : String) : roster.find? username = other.find? username := by
  rw [Roster.find?, h.entries, Roster.find?]

theorem Alike.admits_iff {username : String} : roster.Admits username ↔ other.Admits username := by
  rw [Roster.admits_iff, Roster.admits_iff, isFull, isFull, size, size, h.limit, h.entries]

theorem Alike.pending (box : OutboxId) :
    List.Forall₂ (Matches (seen box)) (roster.pending box) (other.pending box) := by
  unfold Roster.pending
  rcases h.outboxes box with ⟨hr, ho⟩ | ⟨outbox, twin, hr, ho, halike⟩
  · rw [hr, ho]
    exact .nil
  · rw [hr, ho]
    exact halike.pending

/-! ## What is done to both -/

/-- One and the same change of an outbox leaves it alike. -/
theorem Alike.modify {f g : Outbox → Outbox} {box : OutboxId}
    (hfg : ∀ outbox twin, outbox.Alike (seen box) twin → (f outbox).Alike (seen box) (g twin)) :
    Alike seen { roster with outboxes := roster.outboxes.modify box f }
      { other with outboxes := other.outboxes.modify box g } := by
  refine ⟨h.limit, h.entries, fun b => ?_⟩
  simp only [List.getElem?_modify]
  rcases h.outboxes b with ⟨hr, ho⟩ | ⟨outbox, twin, hr, ho, halike⟩
  · exact .inl ⟨by rw [hr]; rfl, by rw [ho]; rfl⟩
  · by_cases hb : box = b
    · subst hb
      exact .inr ⟨f outbox, g twin, by simp [hr], by simp [ho], hfg outbox twin halike⟩
    · exact .inr ⟨outbox, twin, by simp [hr, hb], by simp [ho, hb], halike⟩

theorem Alike.drain (box : OutboxId) : (roster.drain box).2.Alike seen (other.drain box).2 :=
  h.modify fun _ _ ho => ho.drained

theorem Alike.abandon (box : OutboxId) : (roster.abandon box).Alike seen (other.abandon box) :=
  h.modify fun _ _ ho => ho.abandoned

theorem Alike.withEntries (entries : List Entry) :
    Alike seen { roster with entries } { other with entries } :=
  ⟨h.limit, rfl, h.outboxes⟩

theorem Alike.withOutbox (capacity : Nat) (reader : Bool) :
    (roster.withOutbox capacity reader).Alike seen (other.withOutbox capacity reader) := by
  refine ⟨by simp [h.limit], by simp [h.entries], fun box => ?_⟩
  rw [outboxes_withOutbox, outboxes_withOutbox]
  rcases Nat.lt_or_ge box roster.outboxes.length with hlt | hge
  · rw [List.getElem?_append_left hlt, List.getElem?_append_left (h.length_outboxes ▸ hlt)]
    exact h.outboxes box
  · rw [List.getElem?_append_right hge, List.getElem?_append_right (h.length_outboxes ▸ hge),
      h.length_outboxes]
    cases [(⟨max capacity 1, [], reader⟩ : Outbox)][box - other.outboxes.length]? with
    | none => exact .inl ⟨rfl, rfl⟩
    | some outbox => exact .inr ⟨outbox, outbox, rfl, rfl, .refl outbox⟩

theorem Alike.offer {box : OutboxId} {line twin : String} (hl : Matches (seen box) line twin) :
    (roster.offer box line).1 = (other.offer box twin).1 ∧
      (roster.offer box line).2.Alike seen (other.offer box twin).2 := by
  refine ⟨?_, by simp [h.limit], by simp [h.entries], fun b => ?_⟩
  · rw [offer_fst, offer_fst]
    rcases h.outboxes box with ⟨hr, ho⟩ | ⟨outbox, twin, hr, ho, halike⟩
    · rw [hr, ho]
    · rw [hr, ho, Option.map_some, Option.map_some, halike.accepts]
  · rw [getElem?_offer, getElem?_offer]
    by_cases hb : b = box
    · subst hb
      rw [if_pos rfl, if_pos rfl]
      rcases h.outboxes b with ⟨hr, ho⟩ | ⟨outbox, other, hr, ho, halike⟩
      · exact .inl ⟨by rw [hr]; rfl, by rw [ho]; rfl⟩
      · exact .inr ⟨_, _, by rw [hr]; rfl, by rw [ho]; rfl, halike.push hl⟩
    · rw [if_neg hb, if_neg hb]
      exact h.outboxes b

omit h in
/-- **Offers** of lines that may stand for each other are answered alike. -/
theorem Alike.offerEach {os ps : List Offer}
    (hos : List.Forall₂ (fun o p => o.box = p.box ∧ Matches (seen o.box) o.line p.line) os ps)
    (h : roster.Alike seen other) :
    (roster.offerEach os).1 = (other.offerEach ps).1 ∧
      (roster.offerEach os).2.Alike seen (other.offerEach ps).2 := by
  induction hos generalizing roster other with
  | nil => exact ⟨rfl, h⟩
  | @cons o p os ps hop _ ih =>
    obtain ⟨box, line⟩ := o
    obtain ⟨box', twin⟩ := p
    obtain ⟨rfl, hl⟩ : box = box' ∧ Matches (seen box) line twin := hop
    obtain ⟨hfst, hsnd⟩ := h.offer hl
    obtain ⟨hrest, hafter⟩ := ih hsnd
    rw [offerEach_cons, offerEach_cons]
    exact ⟨congrArg₂ List.cons hfst hrest, hafter⟩

theorem Alike.send {id : ConnectionId} {line twin : String}
    (hl : ∀ entry, roster.entryOf? id = some entry → Matches (seen entry.outbox) line twin) :
    (roster.send id line).1 = (other.send id twin).1 ∧
      (roster.send id line).2.Alike seen (other.send id twin).2 := by
  unfold Roster.send
  rw [← h.entryOf?]
  cases he : roster.entryOf? id with
  | none => exact ⟨rfl, h⟩
  | some entry => exact h.offer (hl entry he)

omit h in
theorem Alike.sendEach {ids : List ConnectionId} {line twin : String}
    (hl : ∀ id ∈ ids, ∀ entry, roster.entryOf? id = some entry →
      Matches (seen entry.outbox) line twin)
    (h : roster.Alike seen other) :
    (roster.sendEach line ids).1 = (other.sendEach twin ids).1 ∧
      (roster.sendEach line ids).2.Alike seen (other.sendEach twin ids).2 := by
  induction ids generalizing roster other with
  | nil => exact ⟨rfl, h⟩
  | cons id ids ih =>
    obtain ⟨hfst, hsnd⟩ := h.send (hl id List.mem_cons_self)
    -- sending changes no entries, so the rest is sent to the same outboxes
    have hentry : ∀ id', (roster.send id line).2.entryOf? id' = roster.entryOf? id' := by
      intro id'
      rw [Roster.entryOf?, (entries_send line).1, Roster.entryOf?]
    obtain ⟨hrest, hafter⟩ := ih
      (fun id' hm entry he => hl id' (List.mem_cons_of_mem _ hm) entry (hentry id' ▸ he)) hsnd
    simp only [Roster.sendEach, hfst, hrest]
    exact ⟨trivial, hafter⟩

theorem Alike.broadcast (line : String) (except : Option ConnectionId) :
    (roster.broadcast line except).1 = (other.broadcast line except).1 ∧
      (roster.broadcast line except).2.Alike seen (other.broadcast line except).2 := by
  unfold Roster.broadcast
  rw [← h.entries]
  exact Alike.sendEach (fun _ _ _ _ => .refl line) h

theorem Alike.unregister (id : ConnectionId) :
    (roster.unregister id).1 = (other.unregister id).1 ∧
      (roster.unregister id).2.Alike seen (other.unregister id).2 := by
  refine ⟨by rw [Roster.unregister, h.entryOf?, Roster.unregister], ?_⟩
  rw [Roster.unregister, Roster.unregister, ← h.entries]
  exact h.withEntries _

/-- **An arrival** is decided by names and the limit, not by its greeting. -/
theorem Alike.register {id : ConnectionId} {username : String} {box : OutboxId}
    {greeting twin : List String} (hg : List.Forall₂ (Matches (seen box)) greeting twin) :
    (∃ error, roster.register id username box greeting = .error error ∧
      other.register id username box twin = .error error) ∨
    ∃ queued after after', roster.register id username box greeting = .ok (queued, after) ∧
      other.register id username box twin = .ok (queued, after') ∧ after.Alike seen after' := by
  rcases roster.admits_or username with ha | ht | ⟨hfree, max, hlimit, hfull⟩
  · have hoffers : List.Forall₂ (fun o p : Offer => o.box = p.box ∧
        Matches (seen o.box) o.line p.line) (greeting.map (⟨box, ·⟩)) (twin.map (⟨box, ·⟩)) := by
      rw [List.forall₂_map_left_iff, List.forall₂_map_right_iff]
      exact hg.imp fun _ _ hl => ⟨rfl, hl⟩
    obtain ⟨hfst, hsnd⟩ := Alike.offerEach hoffers h
    refine .inr ⟨_, _, _, register_of_admits ha, ?_, hsnd.withEntries _⟩
    rw [register_of_admits (h.admits_iff.1 ha), ← hfst, ← h.entries]
  · refine .inl ⟨_, register_of_taken ht, register_of_taken ?_⟩
    rwa [← h.entries]
  · refine .inl ⟨_, register_of_full hfree hlimit hfull, register_of_full ?_ ?_ ?_⟩
    · rwa [← h.entries]
    · rw [← h.limit, hlimit]
    · rwa [size, ← h.entries]

end Answers

end Roster

end ChatRoom
