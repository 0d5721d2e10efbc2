import ChatRoom.Text
import Mathlib.Data.List.DropRight

/-!
# Lines

What the operations on texts do to line terminators. A part of a line is a line
(`IsLine.of_subset`), and so is what is put together from lines (`isLine_append`); a text that ends
in none has no terminators to drop (`EndsPlain.dropTerminators`).
-/

namespace ChatRoom.Text

variable {s t : String}

/-! ## One line -/

@[simp] theorem isLine_append : IsLine (s ++ t) ↔ IsLine s ∧ IsLine t := by
  simp only [IsLine, String.toList_append, List.mem_append]
  exact ⟨fun h => ⟨fun c hc => h c (.inl hc), fun c hc => h c (.inr hc)⟩,
    fun h c hc => hc.elim (h.1 c) (h.2 c)⟩

theorem IsLine.of_subset (h : IsLine t) (hs : s.toList ⊆ t.toList) : IsLine s :=
  fun c hc => h c (hs hc)

theorem dropTrailing_eq_rdropWhile (p : Char → Bool) (cs : List Char) :
    dropTrailing p cs = cs.rdropWhile p := rfl

theorem dropTrailing_subset (p : Char → Bool) (cs : List Char) : dropTrailing p cs ⊆ cs :=
  (List.rdropWhile_prefix p cs).subset

/-- Dropping a tail leaves the front that does not end in a character of the class, with nothing but
such characters behind it. -/
theorem dropTrailing_eq_iff {p : Char → Bool} {cs front : List Char} :
    dropTrailing p cs = front ↔
      (∀ c ∈ front.getLast?, p c = false) ∧
        ∃ tail, cs = front ++ tail ∧ ∀ c ∈ tail, p c = true := by
  constructor
  · rintro rfl
    refine ⟨fun c hc => ?_, dropTrailing_append p cs⟩
    rw [dropTrailing_eq_rdropWhile] at hc
    have hne : cs.rdropWhile p ≠ [] := by
      intro hnil
      simp [hnil] at hc
    rw [List.getLast?_eq_some_getLast hne] at hc
    cases hc
    simpa using List.rdropWhile_last_not p cs hne
  · rintro ⟨hlast, tail, rfl, htail⟩
    have hdrop : ∀ c ∈ tail.reverse, p c = true := fun c hc => htail c (List.mem_reverse.1 hc)
    have hkeep : front.rdropWhile p = front := List.rdropWhile_eq_self_iff.2 fun hne => by
      simp [hlast _ (List.getLast?_eq_some_getLast hne)]
    rw [dropTrailing, List.reverse_append, List.dropWhile_append_of_pos hdrop]
    exact hkeep

theorem trim_subset (s : String) : (trim s).toList ⊆ s.toList := by
  rw [toList_trim]
  exact fun c hc => (List.dropWhile_sublist _).subset (dropTrailing_subset _ _ hc)

theorem dropTerminators_subset (s : String) : (dropTerminators s).toList ⊆ s.toList := by
  rw [toList_dropTerminators]
  exact dropTrailing_subset _ _

/-- A text of terminators only is blank. -/
theorem trim_eq_empty_of_dropTerminators (h : dropTerminators s = "") : trim s = "" := by
  rw [← String.toList_eq_nil_iff, toList_dropTerminators, dropTrailing_eq_rdropWhile,
    List.rdropWhile_eq_nil_iff] at h
  have hblank : s.toList.dropWhile isBlank = [] :=
    List.dropWhile_eq_nil_iff.2 fun c hc => isBlank_of_isTerminator (h c hc)
  rw [← String.toList_eq_nil_iff, toList_trim, hblank]
  rfl

/-! ## The end of a text -/

/-- The text does not end in a line terminator. -/
def EndsPlain (s : String) : Prop := ∀ c ∈ s.toList.getLast?, isTerminator c = false

instance (s : String) : Decidable (EndsPlain s) := Option.decidableForallMem s.toList.getLast?

theorem IsLine.endsPlain (h : IsLine s) : EndsPlain s :=
  fun c hc => h c (List.mem_of_getLast? hc)

theorem EndsPlain.dropTerminators (h : EndsPlain s) : dropTerminators s = s := by
  rw [← String.toList_inj, toList_dropTerminators, dropTrailing_eq_iff]
  exact ⟨h, [], by simp, by simp⟩

theorem endsPlain_dropTerminators (s : String) : EndsPlain (Text.dropTerminators s) := by
  unfold EndsPlain
  rw [toList_dropTerminators]
  exact (dropTrailing_eq_iff.1 rfl).1

/-- A text of line terminators only. -/
def OnlyTerminators (s : String) : Prop := ∀ c ∈ s.toList, isTerminator c = true

instance (s : String) : Decidable (OnlyTerminators s) := List.decidableBAll _ s.toList

/-- Dropping the terminators leaves the text that does not end in one, with nothing but terminators
behind it. -/
theorem dropTerminators_eq_iff :
    Text.dropTerminators s = t ↔
      EndsPlain t ∧ ∃ tail, s = t ++ tail ∧ OnlyTerminators tail := by
  rw [← String.toList_inj, toList_dropTerminators, dropTrailing_eq_iff]
  refine and_congr_right fun _ => ⟨?_, ?_⟩
  · rintro ⟨tail, htail, h⟩
    exact ⟨.ofList tail, by simp [← String.toList_inj, htail],
      by rwa [OnlyTerminators, String.toList_ofList]⟩
  · rintro ⟨tail, rfl, h⟩
    exact ⟨tail.toList, String.toList_append, h⟩

theorem endsPlain_trim (s : String) : EndsPlain (trim s) := by
  intro c hc
  rw [toList_trim] at hc
  have hblank : isBlank c = false := (dropTrailing_eq_iff.1 rfl).1 c hc
  exact Bool.eq_false_iff.2 fun ht => by simp [isBlank_of_isTerminator ht] at hblank

/-- Only the end of a text matters, if there is one. -/
theorem endsPlain_append (s : String) (hne : t ≠ "") : EndsPlain (s ++ t) ↔ EndsPlain t := by
  unfold EndsPlain
  rw [String.toList_append, List.getLast?_append_of_ne_nil _ (by simpa using hne)]

end ChatRoom.Text
