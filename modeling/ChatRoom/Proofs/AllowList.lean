import ChatRoom.AllowList
import ChatRoom.Proofs.Repetitions
import ChatRoom.Proofs.Text.Cutting

/-!
# Loading the allow-list, and checking names against it

The list in a text and the check of a name trim and measure each on their own, and agree
(`loading_agrees_with_checking`): a name is accepted exactly if a line of the text trims to it and
it is short enough. So the names that are left out on loading could as well be kept
(`check_parse`), each name that is kept can log in (`check_padded`), and a list that is written is
read back (`parse_unlines`).
-/

namespace ChatRoom.AllowList

open Text

variable {limits : SessionLimits} {text line username : String} {lines : List String}

/-- The list of all lines of a text that are not blank, trimmed, however long they are. -/
def ofLines (lines : List String) : AllowList := ofNames ((lines.map trim).filter (· ≠ ""))

theorem mem_ofLines :
    username ∈ ofLines lines ↔ username ≠ "" ∧ ∃ l ∈ lines, trim l = username := by
  rw [ofLines, mem_ofNames, List.mem_filter, List.mem_map, decide_eq_true_eq, and_comm]

/-! ## What is kept -/

/-- A name is kept if a line trims to it and it is short enough. -/
theorem mem_parse (hlines : IsCut '\n' text lines) :
    username ∈ parse limits text ↔
      username ∈ ofLines lines ∧ username.utf8ByteSize < limits.usernameLength := by
  rw [parse, hlines.entries_eq, mem_ofNames, List.mem_filter, decide_eq_true_eq, ofLines,
    mem_ofNames]

/-- What is known of a name that is kept. -/
structure IsKept (limits : SessionLimits) (username : String) : Prop where
  isTrimmed : IsTrimmed username
  ne_empty : username ≠ ""
  onOneLine : '\n' ∉ username.toList
  isShort : username.utf8ByteSize < limits.usernameLength

theorem isKept_of_mem (h : username ∈ parse limits text) : IsKept limits username := by
  obtain ⟨lines, hlines, -⟩ := existsUnique_isCut '\n' text
  obtain ⟨hmem, hshort⟩ := (mem_parse hlines).1 h
  obtain ⟨hne, l, hl, rfl⟩ := mem_ofLines.1 hmem
  exact ⟨isTrimmed_trim l, hne, fun hc => hlines.apart l hl (trim_subset l hc), hshort⟩

/-! ## Checking -/

/-- Names that are too long for the check make no difference to it. -/
theorem check_congr {list list' : AllowList}
    (h : ∀ username : String, username.utf8ByteSize < limits.usernameLength →
      (username ∈ list ↔ username ∈ list')) (line : String) :
    list.check limits line = list'.check limits line := by
  unfold check
  by_cases hlong : limits.usernameLength ≤ (trim line).utf8ByteSize
  · simp only [if_pos hlong]
  · simp only [h (trim line) (Nat.lt_of_not_le hlong)]

theorem check_parse (hlines : IsCut '\n' text lines) (line : String) :
    (parse limits text).check limits line = (ofLines lines).check limits line :=
  check_congr (fun username hshort => by rw [mem_parse hlines, and_iff_left hshort]) line

theorem check_parse_eq_ok (hlines : IsCut '\n' text lines) :
    (parse limits text).check limits line = .ok username ↔
      username = trim line ∧ 0 < username.utf8ByteSize ∧
        username.utf8ByteSize < limits.usernameLength ∧ ∃ l ∈ lines, trim l = username := by
  have hpos : 0 < username.utf8ByteSize ↔ username ≠ "" := by
    rw [Nat.pos_iff_ne_zero, Ne, String.utf8ByteSize_eq_zero_iff]
  rw [check_parse hlines, check_eq_ok, mem_ofLines, hpos]
  exact ⟨fun ⟨he, hne, hshort, _, hl⟩ => ⟨he, hne, hshort, hl⟩,
    fun ⟨he, hne, hshort, hl⟩ => ⟨he, hne, hshort, hne, hl⟩⟩

/-- A name that is kept can log in, whatever blanks are around it. -/
theorem check_padded (h : username ∈ parse limits text) {before after : String}
    (hbefore : IsPadding before) (hafter : IsPadding after) :
    (parse limits text).check limits (before ++ username ++ after) = .ok username := by
  have hkept := isKept_of_mem h
  refine check_eq_ok.2 ⟨?_, hkept.ne_empty, hkept.isShort, h⟩
  rw [trim_padded hbefore hafter, hkept.isTrimmed.trim_eq]

/-- A line that was left out is no name that any list lets in. -/
theorem check_ne_of_not_kept (hlines : IsCut '\n' text lines) {l : String} (hl : l ∈ lines)
    (h : trim l ∉ parse limits text) (list : AllowList) (line : String) :
    list.check limits line ≠ .ok (trim l) := by
  intro hok
  obtain ⟨-, hne, hshort, -⟩ := check_eq_ok.1 hok
  exact h ((mem_parse hlines).2 ⟨mem_ofLines.2 ⟨hne, l, hl, rfl⟩, hshort⟩)

/-! ## Writing -/

/-- **A list that is written is read back**, in whatever order. -/
theorem parse_unlines {names : List String} (h : names.Perm (parse limits text).names) :
    (parse limits (unlines names)).names.Perm (parse limits text).names := by
  have hkept : ∀ name ∈ names, IsKept limits name := fun name hn => isKept_of_mem (h.mem_iff.1 hn)
  have hentries : entries (unlines names) = names :=
    entries_unlines (fun n hn => (hkept n hn).onOneLine) (fun n hn => (hkept n hn).isTrimmed)
      fun n hn => (hkept n hn).ne_empty
  have hnames : (parse limits (unlines names)).names = names.eraseDups := by
    rw [parse, hentries, List.filter_eq_self.2 fun n hn => by simpa using (hkept n hn).isShort]
    rfl
  have hnodup : (parse limits text).names.Nodup := nodup_eraseDups _
  rw [hnames]
  refine (List.perm_ext_iff_of_nodup (nodup_eraseDups _) hnodup).2 fun name => ?_
  rw [List.mem_eraseDups, h.mem_iff]

/-- **Loading agrees with checking**, for the list in any text and any limits. A line is accepted as
a name exactly if it trims to that name, the name is neither empty nor too long, and a line of the
text trims to it. With all lines of the text on the list, however long, every answer would be the
same, errors included. Each name on the list is accepted with any blanks around it, no line that was
left out ever is, and the names of the list, written one on a line, are read back as the list. -/
theorem loading_agrees_with_checking (limits : SessionLimits) {text : String} {lines : List String}
    (hlines : IsCut '\n' text lines) :
    let list := parse limits text
    (∀ line username, list.check limits line = .ok username ↔
      username = trim line ∧ 0 < username.utf8ByteSize ∧
        username.utf8ByteSize < limits.usernameLength ∧ ∃ l ∈ lines, trim l = username) ∧
    (∀ line, list.check limits line = (ofLines lines).check limits line) ∧
    (∀ username ∈ list, ∀ before after, IsPadding before → IsPadding after →
      list.check limits (before ++ username ++ after) = .ok username) ∧
    (∀ l ∈ lines, trim l ∉ list → ∀ (other : AllowList) (line : String),
      other.check limits line ≠ .ok (trim l)) ∧
    ∀ names : List String, names.Perm list.names →
      (parse limits (unlines names)).names.Perm list.names := by
  intro list
  refine ⟨fun line username => check_parse_eq_ok hlines, check_parse hlines,
    fun username hu before after hbefore hafter => check_padded hu hbefore hafter,
    fun l hl hnot other line => check_ne_of_not_kept hlines hl hnot other line,
    fun names hnames => parse_unlines hnames⟩

/-- A list with blanks, two line endings, a repetition and a name of seven bytes. -/
theorem loading_agrees_with_checking_ann :
    let limits : SessionLimits := { usernameLength := 7 }
    let text := "ann\r\n\n \tbob lee \nann\n\u00a0zoë ann"
    let lines := ["ann\r", "", " \tbob lee ", "ann", "\u00a0zoë ann"]
    IsCut '\n' text lines ∧ (parse limits text).names = ["ann"] ∧
      (parse limits text).check limits " ann\r" = .ok "ann" ∧
      (parse limits text).check limits "bob lee" = .error (.usernameTooLong 7 7) ∧
      (ofLines lines).check limits "bob lee" = .error (.usernameTooLong 7 7) ∧
      (parse limits "ann\n").names.Perm ["ann"] := by
  intro limits text lines
  have hlines : IsCut '\n' text lines := ⟨by decide, by decide, by decide⟩
  have hnames : (parse limits text).names = ["ann"] := by decide +kernel
  obtain ⟨-, hall, hpadded, -, hwritten⟩ := loading_agrees_with_checking limits hlines
  have hlong : (ofLines lines).check limits "bob lee" = .error (.usernameTooLong 7 7) := by
    decide +kernel
  refine ⟨hlines, hnames, ?_, (hall _).trans hlong, hlong, ?_⟩
  · have hann : "ann" ∈ parse limits text := by
      show "ann" ∈ (parse limits text).names
      rw [hnames]
      exact List.mem_singleton_self _
    exact hpadded "ann" hann " " "\r" (by decide) (by decide)
  · have hsame := hwritten ["ann"] (by rw [hnames])
    rwa [hnames] at hsame

end ChatRoom.AllowList
