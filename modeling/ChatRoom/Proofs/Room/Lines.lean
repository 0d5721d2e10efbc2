import ChatRoom.Proofs.Room.Vocabulary

/-!
# Lines in a room

A room that only hears lines says only lines: lines are a closed vocabulary
(`isClosed_lineVocabulary`). What a command repeats is a part of its line, and a group has the name
that was asked for, so no name in the table of groups is ever said that no client could send.
-/

namespace ChatRoom

open Text

variable {username sender line : String}

/-! ## Words of a line -/

theorem Command.isLine_private {raw front target text : String} (h : IsLine raw)
    (hline : trim raw = front ++ " " ++ target ++ " " ++ text) : IsLine target ∧ IsLine text := by
  have htrim : IsLine (trim raw) := h.of_subset (trim_subset raw)
  rw [hline] at htrim
  simp only [isLine_append] at htrim
  exact ⟨htrim.1.1.2, htrim.2⟩

theorem Command.isLine_direct {raw recipient text : String} (h : IsLine raw)
    (hc : parse raw = .ok (some (.direct recipient text))) : IsLine recipient ∧ IsLine text :=
  isLine_private h (parse_direct hc).1

theorem Command.isLine_group {raw name text : String} (h : IsLine raw)
    (hc : parse raw = .ok (some (.group name text))) : IsLine name ∧ IsLine text :=
  isLine_private h (parse_group hc).1

theorem Command.isLine_global {raw text : String} (h : IsLine raw)
    (hc : parse raw = .ok (some (.global text))) : IsLine text :=
  (parse_global hc).1 ▸ h.of_subset (dropTerminators_subset raw)

/-! ## The wording -/

theorem isLine_joined (h : IsLine username) : IsLine (Event.joined username).line := by
  show IsLine (_ ++ username ++ _)
  simp only [isLine_append, h, and_true]
  decide

theorem isLine_left (h : IsLine username) : IsLine (Event.left username).line := by
  show IsLine (_ ++ username ++ _)
  simp only [isLine_append, h, and_true]
  decide

theorem isLine_global {text : String} (hs : IsLine sender) (ht : IsLine text) :
    IsLine (Event.global sender text).line := by
  show IsLine (sender ++ _ ++ text)
  simp only [isLine_append, hs, ht, and_true]
  decide

/-- Everything is a line. -/
def lineVocabulary : Vocabulary where
  said := IsLine
  named := IsLine
  heard := IsLine
  kept event := IsLine event.line

/-- **Lines are made of lines.** -/
theorem isClosed_lineVocabulary (groups : GroupTable) : lineVocabulary.IsClosed groups where
  historyStart := show IsLine historyStart by decide
  historyEnd := show IsLine historyEnd by decide
  malformed malformed := by
    show IsLine (Reply.malformed malformed).line
    cases malformed <;> decide
  welcome {username} hu := by
    have hu : IsLine username := hu
    show IsLine (_ ++ username ++ _)
    simp only [isLine_append, hu, and_true]
    decide
  joined hu := isLine_joined hu
  left hu := isLine_left hu
  told he := ⟨he, he.of_subset (dropTerminators_subset _)⟩
  global hs hl hc := isLine_global hs (Command.isLine_global hl hc)
  direct {sender line recipient text} hs hl hc := by
    have hs : IsLine sender := hs
    obtain ⟨hr, ht⟩ := Command.isLine_direct hl hc
    show IsLine (_ ++ sender ++ _ ++ recipient ++ _ ++ text) ∧ IsLine (_ ++ sender ++ _ ++ text) ∧
      IsLine (_ ++ recipient ++ _ ++ text) ∧ IsLine (_ ++ recipient ++ _)
    simp only [isLine_append, hs, hr, ht, and_true]
    decide
  groupNotFound {line name text} hl hc := by
    obtain ⟨hn, -⟩ := Command.isLine_group hl hc
    show IsLine (_ ++ name ++ _)
    simp only [isLine_append, hn, and_true]
    decide
  group {sender line name text} hs hl hc _ := by
    have hs : IsLine sender := hs
    obtain ⟨hn, ht⟩ := Command.isLine_group hl hc
    show IsLine (_ ++ name ++ _ ++ sender ++ _ ++ text) ∧
      IsLine (_ ++ name ++ _ ++ sender ++ _ ++ text) ∧ IsLine (_ ++ name ++ _ ++ text)
    simp only [isLine_append, hs, hn, ht, and_true]
    decide

end ChatRoom
