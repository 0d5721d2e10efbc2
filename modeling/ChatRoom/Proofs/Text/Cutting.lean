import ChatRoom.Proofs.Text.Trim

/-!
# Cutting

A text is cut at a character in one way: into parts that do not have it and, joined by it, are the
text (`IsCut`, `existsUnique_isCut`). `pieces` cuts like that (`isCut_iff`), so the entries of a list
file are what its lines trim to (`IsCut.entries_eq`), and lines that are written one after the other
are read back (`entries_unlines`).
-/

namespace ChatRoom.Text

variable {sep : Char} {text : String} {parts : List String}

/-- The parts of a text between the occurrences of a character. -/
structure IsCut (sep : Char) (text : String) (parts : List String) : Prop where
  ne_nil : parts ≠ []
  joined : text = (String.singleton sep).intercalate parts
  apart : ∀ part ∈ parts, sep ∉ part.toList

theorem notMem_of_mem_pieces {cs piece : List Char} (h : piece ∈ pieces sep cs) : sep ∉ piece := by
  induction cs generalizing piece with
  | nil =>
    rw [pieces, List.mem_singleton] at h
    simp [h]
  | cons c cs ih =>
    obtain ⟨first, rest, hcut⟩ := List.exists_cons_of_ne_nil (pieces_ne_nil sep cs)
    rw [hcut] at ih
    rw [pieces, hcut] at h
    split at h
    · rcases List.mem_cons.1 h with rfl | h
      · exact List.not_mem_nil
      · exact ih h
    · rename_i hc
      rcases List.mem_cons.1 h with rfl | h
      · rw [List.mem_cons, not_or]
        exact ⟨Ne.symm hc, ih List.mem_cons_self⟩
      · exact ih (List.mem_cons_of_mem _ h)

theorem pieces_eq_splitOn (sep : Char) (cs : List Char) : pieces sep cs = cs.splitOn sep := by
  have hjoined : [sep].intercalate (pieces sep cs) = cs := flatten_pieces sep cs
  calc pieces sep cs
    _ = ([sep].intercalate (pieces sep cs)).splitOn sep :=
      (List.splitOn_intercalate sep (fun _ => notMem_of_mem_pieces) (pieces_ne_nil sep cs)).symm
    _ = cs.splitOn sep := by rw [hjoined]

/-- **One cut**: it is what `pieces` finds. -/
theorem isCut_iff : IsCut sep text parts ↔ pieces sep text.toList = parts.map String.toList := by
  have hjoin : text = (String.singleton sep).intercalate parts ↔
      text.toList = [sep].intercalate (parts.map String.toList) := by
    rw [← String.toList_inj, String.toList_intercalate, String.toList_singleton]
  constructor
  · rintro ⟨hne, hjoined, hapart⟩
    rw [hjoin.1 hjoined, pieces_eq_splitOn]
    refine List.splitOn_intercalate sep (fun l hl => ?_) (by simpa using hne)
    obtain ⟨part, hp, rfl⟩ := List.mem_map.1 hl
    exact hapart part hp
  · intro h
    refine ⟨?_, ?_, fun part hp => ?_⟩
    · rintro rfl
      exact pieces_ne_nil sep text.toList h
    · rw [hjoin, ← h]
      exact (flatten_pieces sep text.toList).symm
    · exact notMem_of_mem_pieces (h ▸ List.mem_map_of_mem hp)

theorem existsUnique_isCut (sep : Char) (text : String) : ∃! parts, IsCut sep text parts := by
  have hsame : ∀ l : List (List Char), (l.map String.ofList).map String.toList = l := fun l => by
    simp [Function.comp_def]
  refine ⟨(pieces sep text.toList).map .ofList, isCut_iff.2 (hsame _).symm, fun parts h => ?_⟩
  rw [isCut_iff.1 h]
  simp [Function.comp_def]

/-- The parts hold every character of the text but the one it is cut at. -/
theorem IsCut.mem_iff (h : IsCut sep text parts) {c : Char} (hc : c ≠ sep) :
    c ∈ text.toList ↔ ∃ part ∈ parts, c ∈ part.toList := by
  rw [h.joined]
  clear h
  induction parts with
  | nil => simp
  | cons first rest ih =>
    by_cases hrest : rest = []
    · simp [hrest]
    · rw [String.intercalate_cons_of_ne_nil hrest]
      have hsep : c ∉ (String.singleton sep).toList := by simp [hc]
      simp only [String.toList_append, List.mem_append, List.mem_cons, exists_eq_or_imp, hsep,
        or_false, ih]

/-! ## Lines -/

/-- The lines of a text, each ended by a line feed. -/
def unlines : List String → String
  | [] => ""
  | line :: lines => line ++ "\n" ++ unlines lines

theorem IsCut.entries_eq {lines : List String} (h : IsCut '\n' text lines) :
    entries text = (lines.map trim).filter (· ≠ "") := by
  rw [entries, isCut_iff.1 h, List.map_map]
  simp [Function.comp_def]

/-- Lines that are written are cut where they end, and nothing follows the last. -/
theorem isCut_unlines {lines : List String} (h : ∀ line ∈ lines, '\n' ∉ line.toList) :
    IsCut '\n' (unlines lines) (lines ++ [""]) := by
  refine ⟨by simp, ?_, fun line hl => ?_⟩
  · induction lines with
    | nil => rfl
    | cons line lines ih =>
      rw [unlines, ih fun l hl => h l (List.mem_cons_of_mem _ hl), List.cons_append,
        String.intercalate_cons_of_ne_nil (by simp)]
      rfl
  · rcases List.mem_append.1 hl with hl | hl
    · exact h line hl
    · rw [List.mem_singleton.1 hl]
      decide

/-- Entries that are written are read back. -/
theorem entries_unlines {lines : List String} (hlines : ∀ line ∈ lines, '\n' ∉ line.toList)
    (htrimmed : ∀ line ∈ lines, IsTrimmed line) (hne : ∀ line ∈ lines, line ≠ "") :
    entries (unlines lines) = lines := by
  have hmap : lines.map trim = lines :=
    (List.map_congr_left fun line hl => (htrimmed line hl).trim_eq).trans (List.map_id _)
  have hblank : trim "" = "" := by decide
  rw [(isCut_unlines hlines).entries_eq, List.map_append, hmap, List.map_singleton, hblank,
    List.filter_append, List.filter_eq_self.2 (by simpa using hne)]
  exact List.append_nil _

end ChatRoom.Text
