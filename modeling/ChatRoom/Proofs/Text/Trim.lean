import ChatRoom.Proofs.Text.Lines

/-!
# Trimming

Trimming cuts a text in three: blanks, a part without a blank at either end, and blanks again
(`trim_eq_iff`). Only one cut is like that, so blanks around a text make no difference
(`trim_padded`), and a text without them is as it was (`IsTrimmed.trim_eq`).
-/

namespace ChatRoom.Text

variable {s t : String}

/-- A text of blanks only. -/
def IsPadding (s : String) : Prop := ∀ c ∈ s.toList, isBlank c = true

instance (s : String) : Decidable (IsPadding s) := List.decidableBAll _ s.toList

/-- The text does not begin with a blank. -/
def BeginsSolid (s : String) : Prop := ∀ c ∈ s.toList.head?, isBlank c = false

instance (s : String) : Decidable (BeginsSolid s) := Option.decidableForallMem s.toList.head?

/-- The text does not end in a blank. -/
def EndsSolid (s : String) : Prop := ∀ c ∈ s.toList.getLast?, isBlank c = false

instance (s : String) : Decidable (EndsSolid s) := Option.decidableForallMem s.toList.getLast?

/-- There is nothing to trim. -/
structure IsTrimmed (s : String) : Prop where
  begins : BeginsSolid s
  ends : EndsSolid s

@[simp] theorem isPadding_append : IsPadding (s ++ t) ↔ IsPadding s ∧ IsPadding t := by
  simp only [IsPadding, String.toList_append, List.forall_mem_append]

/-- Only the end of a text matters, if there is one. -/
theorem endsSolid_append (s : String) (hne : t ≠ "") : EndsSolid (s ++ t) ↔ EndsSolid t := by
  unfold EndsSolid
  rw [String.toList_append, List.getLast?_append_of_ne_nil _ (by simpa using hne)]

/-- **What trimming is**: the part of a text that has no blank at either end, with only blanks in
front of it and behind it. -/
theorem trim_eq_iff :
    trim s = t ↔ IsTrimmed t ∧
      ∃ before after, s = before ++ t ++ after ∧ IsPadding before ∧ IsPadding after := by
  constructor
  · rintro rfl
    obtain ⟨tail, htail, hblank⟩ := dropTrailing_append isBlank (s.toList.dropWhile isBlank)
    have hbefore : ∀ c ∈ s.toList.takeWhile isBlank, isBlank c = true :=
      fun c hc => List.mem_takeWhile_imp hc
    refine ⟨⟨fun c hc => ?_, ?_⟩, .ofList (s.toList.takeWhile isBlank), .ofList tail, ?_, ?_, ?_⟩
    · rw [toList_trim] at hc
      have hhead : (s.toList.dropWhile isBlank).head? = some c := by
        rw [htail, List.head?_append, hc, Option.some_or]
      simpa [hhead] using List.head?_dropWhile_not isBlank s.toList
    · unfold EndsSolid
      rw [toList_trim]
      exact (dropTrailing_eq_iff.1 rfl).1
    · rw [← String.toList_inj]
      simp only [String.toList_append, String.toList_ofList, toList_trim, List.append_assoc]
      rw [← htail, List.takeWhile_append_dropWhile]
    · rwa [IsPadding, String.toList_ofList]
    · rwa [IsPadding, String.toList_ofList]
  · rintro ⟨htrimmed, before, after, rfl, hbefore, hafter⟩
    rw [← String.toList_inj, toList_trim, String.toList_append, String.toList_append,
      List.append_assoc, List.dropWhile_append_of_pos hbefore, dropTrailing_eq_iff]
    refine ⟨htrimmed.ends, ?_⟩
    cases ht : t.toList with
    | nil => exact ⟨[], by simp [List.dropWhile_eq_nil_iff.2 hafter], by simp⟩
    | cons c cs =>
      have hc : isBlank c = false := htrimmed.begins c (by simp [ht])
      exact ⟨after.toList, by simp [hc], hafter⟩

theorem isTrimmed_trim (s : String) : IsTrimmed (trim s) := (trim_eq_iff.1 rfl).1

theorem IsTrimmed.trim_eq (h : IsTrimmed s) : trim s = s :=
  trim_eq_iff.2 ⟨h, "", "", by simp, by simp [IsPadding], by simp [IsPadding]⟩

/-- Blanks around a text make no difference. -/
theorem trim_padded {before after : String} (hbefore : IsPadding before)
    (hafter : IsPadding after) (s : String) : trim (before ++ s ++ after) = trim s := by
  obtain ⟨htrimmed, front, back, hs, hfront, hback⟩ := trim_eq_iff.1 (rfl : trim s = trim s)
  refine trim_eq_iff.2 ⟨htrimmed, before ++ front, back ++ after, ?_, ?_, ?_⟩
  · conv_lhs => rw [hs]
    simp only [String.append_assoc]
  · exact isPadding_append.2 ⟨hbefore, hfront⟩
  · exact isPadding_append.2 ⟨hback, hafter⟩

end ChatRoom.Text
