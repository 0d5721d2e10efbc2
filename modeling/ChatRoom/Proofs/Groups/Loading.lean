import ChatRoom.Proofs.Groups
import ChatRoom.Proofs.Keyed
import ChatRoom.Proofs.Text.Cutting

/-!
# Loading the groups

What a line of a groups file tells is said by `Group.IsOn`, without the reader: where its name ends,
which members it has, and when it counts. `Group.parse?` reads exactly that (`Group.isOn_iff`).

In the table of a text a name leads to the group on the last line that has one of that name
(`get?_parse_eq_some_iff`). Lines without one leave the table as it was (`get?_parse_append`). A
group that was loaded can be written on a line (`Group.IsLoaded.isOn_line`), so a table that is
written, in any order, is read back (`parse_unlines_line`).
-/

namespace ChatRoom

open Text

variable {limits : SessionLimits} {text name : String} {lines : List String} {group : Group}

/-! ## The line of a group -/

/-- The name of a member that could log in. -/
def SessionLimits.CanLogIn (limits : SessionLimits) (member : String) : Prop :=
  member ≠ "" ∧ member.utf8ByteSize < limits.usernameLength

instance (member : String) : Decidable (limits.CanLogIn member) :=
  inferInstanceAs (Decidable (_ ∧ _))

namespace Group

/-- The group is on the line: its name in front of the first colon, its members behind it, in order
and each once, of which those count that could log in. The name is neither empty nor too long, and
there is a member. -/
structure IsOn (group : Group) (limits : SessionLimits) (line : String) : Prop where
  reads : ∃ front back cells, trim line = front ++ ":" ++ back ∧ ':' ∉ front.toList ∧
    group.name = trim front ∧ IsCut ',' back cells ∧
    KeepsFirst ((cells.map trim).filter (limits.CanLogIn ·)) group.members
  name_ne_empty : group.name ≠ ""
  isShort : group.name.utf8ByteSize < limits.groupNameLength
  members_ne_nil : group.members ≠ []

/-- A text with a colon is cut at its first. -/
theorem exists_cut {line : String} (h : ':' ∈ line.toList) :
    ∃ front back : String, line = front ++ ":" ++ back ∧ ':' ∉ front.toList := by
  obtain ⟨front, back, hline, hcolon⟩ := List.eq_append_cons_of_mem h
  refine ⟨.ofList front, .ofList back, ?_, by rwa [String.toList_ofList]⟩
  rw [← String.toList_inj, hline]
  simp

theorem mem_of_parse? {line : String} (h : parse? limits line = some group) :
    ':' ∈ line.toList := by
  by_contra hcolon
  have hdrop : line.toList.dropWhile (· != ':') = [] :=
    List.dropWhile_eq_nil_iff.2 fun c hc => bne_iff_ne.2 fun he => hcolon (he ▸ hc)
  unfold parse? at h
  simp only [hdrop, reduceCtorEq] at h

/-- How a line with a colon is read. -/
theorem parse?_cut {front back : String} {cells : List String} (hcolon : ':' ∉ front.toList)
    (hcells : IsCut ',' back cells) :
    parse? limits (front ++ ":" ++ back) =
      let group := ofMembers (trim front)
        ((cells.map trim).filter (·.utf8ByteSize < limits.usernameLength))
      if trim front = "" ∨ limits.groupNameLength ≤ (trim front).utf8ByteSize ∨
        group.members = [] then none
      else some group := by
  have hfront : ∀ c ∈ front.toList, (c != ':') = true := fun c hc =>
    bne_iff_ne.2 fun he => hcolon (he ▸ hc)
  have htake : (front ++ ":" ++ back).toList.takeWhile (· != ':') = front.toList := by
    simp [List.takeWhile_append_of_pos hfront]
  have hdrop : (front ++ ":" ++ back).toList.dropWhile (· != ':') = ':' :: back.toList := by
    simp [List.dropWhile_append_of_pos hfront]
  have hmembers : (pieces ',' back.toList).map (fun member => trim (.ofList member)) =
      cells.map trim := by
    rw [isCut_iff.1 hcells, List.map_map]
    simp [Function.comp_def]
  unfold parse?
  simp only [htake, hdrop, hmembers, String.ofList_toList]

theorem ofMembers_eq_iff {members : List String} :
    ofMembers name (members.filter (·.utf8ByteSize < limits.usernameLength)) = group ↔
      group.name = name ∧ KeepsFirst (members.filter (limits.CanLogIn ·)) group.members := by
  have hfilter : (members.filter (·.utf8ByteSize < limits.usernameLength)).filter (· ≠ "") =
      members.filter (limits.CanLogIn ·) := by
    rw [List.filter_filter]
    exact List.filter_congr fun member _ => (Bool.decide_and _ _).symm
  rw [ofMembers, hfilter, keepsFirst_iff]
  cases group
  simp only [Group.mk.injEq, eq_comm]

/-- **What a line tells** is what is read from it. -/
theorem isOn_iff {line : String} :
    group.IsOn limits line ↔ parse? limits (trim line) = some group := by
  constructor
  · rintro ⟨⟨front, back, cells, hline, hcolon, hname, hcells, hmembers⟩, hne, hshort, hnil⟩
    rw [hline, parse?_cut hcolon hcells]
    dsimp only
    rw [ofMembers_eq_iff.2 ⟨hname, hmembers⟩, ← hname, if_neg]
    rintro (h | h | h)
    · exact hne h
    · omega
    · exact hnil h
  · intro h
    obtain ⟨front, back, hline, hcolon⟩ := exists_cut (mem_of_parse? h)
    obtain ⟨cells, hcells, -⟩ := existsUnique_isCut ',' back
    rw [hline, parse?_cut hcolon hcells] at h
    dsimp only at h
    split at h
    · cases h
    · rename_i hgood
      have hgroup := Option.some.inj h
      obtain ⟨hname, hmembers⟩ := ofMembers_eq_iff.1 hgroup
      rw [hgroup, ← hname, not_or, not_or] at hgood
      exact ⟨⟨front, back, cells, hline, hcolon, hname, hcells, hmembers⟩, hgood.1,
        Nat.lt_of_not_le hgood.2.1, hgood.2.2⟩

/-- The line tells of a group called `name`: that is what stands in front of its first colon, it is
neither empty nor too long, and one of the names behind the colon could log in. -/
structure TellsOf (limits : SessionLimits) (line name : String) : Prop where
  reads : ∃ front back cells, trim line = front ++ ":" ++ back ∧ ':' ∉ front.toList ∧
    name = trim front ∧ IsCut ',' back cells ∧ ∃ cell ∈ cells, limits.CanLogIn (trim cell)
  ne_empty : name ≠ ""
  isShort : name.utf8ByteSize < limits.groupNameLength

theorem tellsOf_iff {line : String} :
    TellsOf limits line name ↔ ∃ group : Group, group.IsOn limits line ∧ group.name = name := by
  constructor
  · rintro ⟨⟨front, back, cells, hline, hcolon, hname, hcells, cell, hcell, hlogin⟩, hne, hshort⟩
    let members := ((cells.map trim).filter (limits.CanLogIn ·)).eraseDups
    have hmem : trim cell ∈ members := List.mem_eraseDups.2
      (List.mem_filter.2 ⟨List.mem_map_of_mem hcell, decide_eq_true hlogin⟩)
    refine ⟨⟨name, members⟩, ⟨⟨front, back, cells, hline, hcolon, hname, hcells,
      keepsFirst_eraseDups _⟩, hne, hshort, ?_⟩, rfl⟩
    exact List.ne_nil_of_mem hmem
  · rintro ⟨group, ⟨⟨front, back, cells, hline, hcolon, hname, hcells, hmembers⟩, hne, hshort,
      hnil⟩, rfl⟩
    obtain ⟨member, hmem⟩ := List.exists_mem_of_ne_nil _ hnil
    obtain ⟨hcell, hlogin⟩ := List.mem_filter.1 ((hmembers.mem_iff member).1 hmem)
    obtain ⟨cell, hin, rfl⟩ := List.mem_map.1 hcell
    exact ⟨⟨front, back, cells, hline, hcolon, hname, hcells, cell, hin,
      of_decide_eq_true hlogin⟩, hne, hshort⟩

theorem any_parse?_iff {line : String} :
    (parse? limits (trim line)).any (·.name = name) = true ↔ TellsOf limits line name := by
  rw [tellsOf_iff, Option.any_eq_true]
  simp only [← isOn_iff, decide_eq_true_eq]

/-- A blank line tells of none. -/
theorem parse?_empty (limits : SessionLimits) : parse? limits "" = none := rfl

/-! ## Writing a group -/

/-- What is known of a group that was on a line. -/
structure IsLoaded (group : Group) (limits : SessionLimits) : Prop where
  isTrimmed : IsTrimmed group.name
  name_ne_empty : group.name ≠ ""
  isShort : group.name.utf8ByteSize < limits.groupNameLength
  noColon : ':' ∉ group.name.toList
  onOneLine : '\n' ∉ group.name.toList
  members_ne_nil : group.members ≠ []
  nodup : group.members.Nodup
  members : ∀ member ∈ group.members, IsTrimmed member ∧ limits.CanLogIn member ∧
    ',' ∉ member.toList ∧ '\n' ∉ member.toList

theorem IsOn.isLoaded {line : String} (h : group.IsOn limits line) (hline : '\n' ∉ line.toList) :
    group.IsLoaded limits := by
  obtain ⟨⟨front, back, cells, hread, hcolon, hname, hcells, hmembers⟩, hne, hshort, hnil⟩ := h
  have hbreak : '\n' ∉ (front ++ ":" ++ back).toList := by
    rw [← hread]
    exact fun hc => hline (trim_subset line hc)
  rw [String.toList_append, String.toList_append, List.mem_append, List.mem_append, not_or,
    not_or] at hbreak
  refine ⟨?_, hne, hshort, ?_, ?_, hnil, hmembers.nodup, fun member hm => ?_⟩
  · rw [hname]
    exact isTrimmed_trim front
  · rw [hname]
    exact fun hc => hcolon (trim_subset front hc)
  · rw [hname]
    exact fun hc => hbreak.1.1 (trim_subset front hc)
  · obtain ⟨hcell, hlogin⟩ := List.mem_filter.1 ((hmembers.mem_iff member).1 hm)
    obtain ⟨cell, hmem, rfl⟩ := List.mem_map.1 hcell
    refine ⟨isTrimmed_trim cell, by simpa using hlogin, ?_, ?_⟩
    · exact fun hc => hcells.apart cell hmem (trim_subset cell hc)
    · exact fun hc =>
        hbreak.2 ((hcells.mem_iff (by decide)).2 ⟨cell, hmem, trim_subset cell hc⟩)

/-- Names that end solid, joined by commas, end solid. -/
theorem endsSolid_intercalate {names : List String} (hnil : names ≠ [])
    (h : ∀ name ∈ names, name ≠ "" ∧ EndsSolid name) :
    ",".intercalate names ≠ "" ∧ EndsSolid (",".intercalate names) := by
  induction names with
  | nil => exact absurd rfl hnil
  | cons first rest ih =>
    by_cases hrest : rest = []
    · rw [hrest, String.intercalate_singleton]
      exact h first List.mem_cons_self
    · obtain ⟨hne, hends⟩ := ih hrest fun name hn => h name (List.mem_cons_of_mem _ hn)
      rw [String.intercalate_cons_of_ne_nil hrest]
      exact ⟨by simp [hne], (endsSolid_append _ hne).2 hends⟩

theorem line_ne_empty (group : Group) : group.line ≠ "" := by
  simp [line]

namespace IsLoaded

theorem isTrimmed_line (h : group.IsLoaded limits) : IsTrimmed group.line := by
  have hmembers := endsSolid_intercalate h.members_ne_nil fun member hm =>
    ⟨(h.members member hm).2.1.1, (h.members member hm).1.ends⟩
  refine ⟨?_, (endsSolid_append _ hmembers.1).2 hmembers.2⟩
  unfold BeginsSolid Group.line
  rw [String.toList_append, String.toList_append, List.append_assoc,
    List.head?_append_of_ne_nil _ (by simpa using h.name_ne_empty)]
  exact h.isTrimmed.begins

theorem isCut_members (h : group.IsLoaded limits) :
    IsCut ',' (",".intercalate group.members) group.members :=
  ⟨h.members_ne_nil, rfl, fun member hm => (h.members member hm).2.2.1⟩

theorem onOneLine_line (h : group.IsLoaded limits) : '\n' ∉ group.line.toList := by
  have hmembers : '\n' ∉ (",".intercalate group.members).toList := by
    rw [h.isCut_members.mem_iff (by decide)]
    rintro ⟨member, hm, hc⟩
    exact (h.members member hm).2.2.2 hc
  rw [Group.line, String.toList_append, String.toList_append, List.mem_append, List.mem_append]
  rintro ((hc | hc) | hc)
  · exact h.onOneLine hc
  · exact absurd hc (by decide)
  · exact hmembers hc

/-- **A group that was loaded can be written**: it is on the line that is written for it. -/
theorem isOn_line (h : group.IsLoaded limits) : group.IsOn limits group.line := by
  refine ⟨⟨group.name, ",".intercalate group.members, group.members, h.isTrimmed_line.trim_eq,
    h.noColon, h.isTrimmed.trim_eq.symm, h.isCut_members, ?_⟩, h.name_ne_empty, h.isShort,
    h.members_ne_nil⟩
  have hmap : group.members.map trim = group.members :=
    (List.map_congr_left fun member hm => (h.members member hm).1.trim_eq).trans (List.map_id _)
  rw [hmap, List.filter_eq_self.2 fun member hm => by simpa using (h.members member hm).2.1]
  exact keepsFirst_self h.nodup

end IsLoaded

end Group

namespace GroupTable

/-! ## The table of a text -/

variable {groups : List Group}

theorem get?_foldl_insert (table : GroupTable) (groups : List Group) (name : String) :
    (groups.foldl insert table).get? name =
      (groups.reverse.find? (·.name = name)).or (table.get? name) := by
  induction groups generalizing table with
  | nil => simp
  | cons first groups ih =>
    rw [List.foldl_cons, ih, get?_insert, List.reverse_cons, List.find?_append, Option.or_assoc]
    by_cases hname : first.name = name <;> simp [hname]

/-- A name leads to the last group that has it. -/
theorem get?_ofGroups (groups : List Group) (name : String) :
    (ofGroups groups).get? name = groups.reverse.find? (·.name = name) := by
  rw [ofGroups, get?_foldl_insert]
  exact Option.or_none

theorem nodup_names_foldl_insert {table : GroupTable} (h : (table.groups.map Group.name).Nodup) :
    ((groups.foldl insert table).groups.map Group.name).Nodup := by
  induction groups generalizing table with
  | nil => exact h
  | cons first groups ih =>
    refine ih (List.nodup_cons.2 ⟨?_, h.sublist (List.filter_sublist.map _)⟩)
    simp

/-- In a table no two groups have one name. -/
theorem IsBuilt.nodup_names {table : GroupTable} (h : table.IsBuilt) :
    (table.groups.map Group.name).Nodup := by
  obtain ⟨groups, -, rfl⟩ := h
  exact nodup_names_foldl_insert List.nodup_nil

/-- The groups of a table are those that a name leads to, each under its own. -/
theorem IsBuilt.get?_eq_some_iff {table : GroupTable} (h : table.IsBuilt) :
    table.get? name = some group ↔ group ∈ table.groups ∧ group.name = name :=
  find?_key_eq_some_iff h.nodup_names

/-- The groups that the lines of a text tell of, in order. -/
theorem filterMap_entries (hlines : IsCut '\n' text lines) :
    (entries text).filterMap (Group.parse? limits) =
      lines.filterMap fun line => Group.parse? limits (trim line) := by
  rw [hlines.entries_eq, List.filterMap_filter, List.filterMap_map]
  refine List.filterMap_congr fun line _ => ?_
  by_cases hblank : trim line = ""
  · simp [hblank, Group.parse?_empty]
  · simp [hblank]

/-- A name is looked for from the last line to the first. -/
theorem get?_parse (hlines : IsCut '\n' text lines) :
    (parse limits text).get? name =
      (lines.reverse.find? fun line =>
        (Group.parse? limits (trim line)).any (·.name = name)).bind fun line =>
          Group.parse? limits (trim line) := by
  rw [parse, get?_ofGroups, filterMap_entries hlines, ← List.filterMap_reverse,
    List.find?_filterMap]

/-- **What a name leads to**: the group of that name that the last line tells of. -/
theorem get?_parse_eq_some_iff (hlines : IsCut '\n' text lines) :
    (parse limits text).get? name = some group ↔
      ∃ before line after, lines = before ++ line :: after ∧ group.IsOn limits line ∧
        group.name = name ∧ ∀ later ∈ after, ¬ Group.TellsOf limits later name := by
  rw [get?_parse hlines, Option.bind_eq_some_iff]
  constructor
  · rintro ⟨line, hfind, hgroup⟩
    obtain ⟨hname, after, before, hrev, hlater⟩ := List.find?_eq_some_iff_append.1 hfind
    rw [hgroup] at hname
    refine ⟨before.reverse, line, after.reverse, ?_, Group.isOn_iff.2 hgroup,
      by simpa using hname, fun later hm htells => ?_⟩
    · rw [List.reverse_eq_append_iff.1 hrev]
      simp
    · have hnot := hlater later (List.mem_reverse.1 hm)
      rw [Group.any_parse?_iff.2 htells] at hnot
      cases hnot
  · rintro ⟨before, line, after, rfl, hon, hname, hlater⟩
    refine ⟨line, List.find?_eq_some_iff_append.2 ⟨?_, after.reverse, before.reverse, by simp,
      fun later hm => ?_⟩, Group.isOn_iff.1 hon⟩
    · exact Group.any_parse?_iff.2 (Group.tellsOf_iff.2 ⟨group, hon, hname⟩)
    · rw [Bool.not_eq_true', Bool.eq_false_iff, Ne, Group.any_parse?_iff]
      exact hlater later (List.mem_reverse.1 hm)

theorem isSome_get?_parse_iff (hlines : IsCut '\n' text lines) :
    ((parse limits text).get? name).isSome ↔ ∃ line ∈ lines, Group.TellsOf limits line name := by
  rw [parse, get?_ofGroups, filterMap_entries hlines, List.find?_isSome]
  constructor
  · rintro ⟨group, hmem, hname⟩
    obtain ⟨line, hl, hgroup⟩ := List.mem_filterMap.1 (List.mem_reverse.1 hmem)
    exact ⟨line, hl, Group.tellsOf_iff.2 ⟨group, Group.isOn_iff.2 hgroup, by simpa using hname⟩⟩
  · rintro ⟨line, hl, htells⟩
    obtain ⟨group, hon, hname⟩ := Group.tellsOf_iff.1 htells
    exact ⟨group, List.mem_reverse.2 (List.mem_filterMap.2 ⟨line, hl, Group.isOn_iff.1 hon⟩),
      by simpa using hname⟩

/-- Lines that tell of no group of a name change nothing about it. -/
theorem get?_parse_append {text' : String} {more : List String} (hlines : IsCut '\n' text lines)
    (hlines' : IsCut '\n' text' (lines ++ more))
    (hmore : ∀ line ∈ more, ¬ Group.TellsOf limits line name) :
    (parse limits text').get? name = (parse limits text).get? name := by
  rw [get?_parse hlines, get?_parse hlines', List.reverse_append, List.find?_append]
  have hnone : (more.reverse.find? fun line =>
      (Group.parse? limits (trim line)).any (·.name = name)) = none := by
    refine List.find?_eq_none.2 fun line hl => ?_
    rw [Group.any_parse?_iff]
    exact hmore line (List.mem_reverse.1 hl)
  rw [hnone, Option.none_or]

/-! ## Writing a table -/

theorem isLoaded_of_mem (h : group ∈ (parse limits text).groups) : group.IsLoaded limits := by
  obtain ⟨lines, hlines, -⟩ := existsUnique_isCut '\n' text
  have hget := (isBuilt_parse limits text).get?_eq_some_iff.2 ⟨h, rfl⟩
  obtain ⟨before, line, after, he, hon, -, -⟩ := (get?_parse_eq_some_iff hlines).1 hget
  refine hon.isLoaded (hlines.apart line ?_)
  rw [he]
  exact List.mem_append_right _ List.mem_cons_self

/-- Groups that were loaded are read back from their lines. -/
theorem parse_unlines_line (h : ∀ group ∈ groups, group.IsLoaded limits) :
    parse limits (unlines (groups.map Group.line)) = ofGroups groups := by
  have hentries : entries (unlines (groups.map Group.line)) = groups.map Group.line := by
    refine entries_unlines (List.forall_mem_map.2 fun group hg => (h group hg).onOneLine_line)
      (List.forall_mem_map.2 fun group hg => (h group hg).isTrimmed_line)
      (List.forall_mem_map.2 fun group _ => group.line_ne_empty)
  have hread : ∀ group ∈ groups, Group.parse? limits group.line = some group := fun group hg => by
    have hon := Group.isOn_iff.1 (h group hg).isOn_line
    rwa [(h group hg).isTrimmed_line.trim_eq] at hon
  have hall : groups.filterMap (Group.parse? limits ∘ Group.line) = groups :=
    (List.filterMap_congr hread).trans List.filterMap_some
  rw [parse, hentries, List.filterMap_map, hall]

/-- Two tables in which every name leads to the same group have the same groups. -/
theorem IsBuilt.perm_of_get?_eq {table table' : GroupTable} (h : table.IsBuilt)
    (h' : table'.IsBuilt) (hget : ∀ name, table.get? name = table'.get? name) :
    table.groups.Perm table'.groups := by
  refine (List.perm_ext_iff_of_nodup h.nodup_names.of_map h'.nodup_names.of_map).2 fun group => ?_
  have hiff : table.get? group.name = some group ↔ table'.get? group.name = some group := by
    rw [hget]
  rwa [h.get?_eq_some_iff, h'.get?_eq_some_iff, and_iff_left rfl, and_iff_left rfl] at hiff

/-- A table that is written, in any order, leads every name where it did. -/
theorem get?_parse_unlines (h : groups.Perm (parse limits text).groups) (name : String) :
    (parse limits (unlines (groups.map Group.line))).get? name =
      (parse limits text).get? name := by
  rw [parse_unlines_line fun group hg => isLoaded_of_mem (h.mem_iff.1 hg), get?_ofGroups]
  exact find?_key_perm (isBuilt_parse limits text).nodup_names
    ((List.reverse_perm groups).trans h) name

/-- **The last line of a name counts**, in the table of any text and for any limits: a name leads to
a group exactly if a line tells of it and no later line tells of a group of that name. So a name
leads somewhere if any line tells of a group of that name, and lines that tell of none, malformed
ones and those without a member among them, change nothing about it. Each group is in the table
under its own name, and once. The groups written one on a line, in any order, are read back. -/
theorem parse_tells_last (limits : SessionLimits) {text : String} {lines : List String}
    (hlines : IsCut '\n' text lines) :
    let table := parse limits text
    (∀ name (group : Group), table.get? name = some group ↔
      ∃ before line after, lines = before ++ line :: after ∧ group.IsOn limits line ∧
        group.name = name ∧ ∀ later ∈ after, ¬ Group.TellsOf limits later name) ∧
    (∀ name, (table.get? name).isSome ↔ ∃ line ∈ lines, Group.TellsOf limits line name) ∧
    (∀ name text' more, IsCut '\n' text' (lines ++ more) →
      (∀ line ∈ more, ¬ Group.TellsOf limits line name) →
        (parse limits text').get? name = table.get? name) ∧
    (∀ name group, table.get? name = some group ↔ group ∈ table.groups ∧ group.name = name) ∧
    ∀ groups : List Group, groups.Perm table.groups →
      let again := parse limits (unlines (groups.map Group.line))
      again.groups.Perm table.groups ∧ ∀ name, again.get? name = table.get? name := by
  intro table
  have hbuilt : table.IsBuilt := isBuilt_parse limits text
  refine ⟨fun name group => get?_parse_eq_some_iff hlines,
    fun name => isSome_get?_parse_iff hlines,
    fun name text' more hlines' hmore => get?_parse_append hlines hlines' hmore,
    fun name group => hbuilt.get?_eq_some_iff, fun groups hgroups => ?_⟩
  have hget := get?_parse_unlines hgroups
  exact ⟨(isBuilt_parse limits _).perm_of_get?_eq hbuilt hget, hget⟩

/-- A file with a group told of twice, and once more without a member that could log in. -/
theorem parse_tells_last_team :
    let limits : SessionLimits := { usernameLength := 7 }
    let text := "team: zoë\r\n\nteam : bob,ann,, bob ,maximilian\nteam:maximilian\nclub"
    let lines := ["team: zoë\r", "", "team : bob,ann,, bob ,maximilian", "team:maximilian", "club"]
    IsCut '\n' text lines ∧
      (parse limits text).groups = [⟨"team", ["bob", "ann"]⟩] ∧
      (parse limits "team:bob,ann\n").groups.Perm [⟨"team", ["bob", "ann"]⟩] := by
  intro limits text lines
  have hlines : IsCut '\n' text lines := ⟨by decide, by decide, by decide⟩
  have hgroups : (parse limits text).groups = [⟨"team", ["bob", "ann"]⟩] := by decide +kernel
  obtain ⟨-, -, -, -, hwritten⟩ := parse_tells_last limits hlines
  refine ⟨hlines, hgroups, ?_⟩
  have hsame := (hwritten [⟨"team", ["bob", "ann"]⟩] (by rw [hgroups])).1
  rwa [hgroups] at hsame

end GroupTable

end ChatRoom
