import ChatRoom.Groups
import ChatRoom.Proofs.Repetitions

/-!
# Groups without repetitions

The groups of a chat are made by `Group.ofMembers`, and tables of groups by `GroupTable.ofGroups`,
whether they are given or read from a text (`isBuilt_parse`). In such a table no group has a member
twice (`IsBuilt.nodup_members`).
-/

namespace ChatRoom

/-- The group was made of names, as all groups are. -/
def Group.IsBuilt (group : Group) : Prop := ∃ members, group = ofMembers group.name members

theorem Group.isBuilt_ofMembers (name : String) (members : List String) :
    (ofMembers name members).IsBuilt :=
  ⟨members, rfl⟩

theorem Group.IsBuilt.nodup_members {group : Group} (h : group.IsBuilt) : group.members.Nodup := by
  obtain ⟨members, he⟩ := h
  rw [he]
  exact nodup_eraseDups _

theorem Group.isBuilt_of_parse? {limits : SessionLimits} {line : String} {group : Group}
    (h : parse? limits line = some group) : group.IsBuilt := by
  unfold parse? at h
  dsimp only at h
  split at h
  · cases h
  · split at h
    · cases h
    · rw [← Option.some.inj h]
      exact isBuilt_ofMembers _ _

namespace GroupTable

/-- The table was made of groups, as all tables are. -/
def IsBuilt (table : GroupTable) : Prop :=
  ∃ groups, (∀ group ∈ groups, group.IsBuilt) ∧ table = ofGroups groups

theorem isBuilt_ofGroups {groups : List Group} (h : ∀ group ∈ groups, group.IsBuilt) :
    (ofGroups groups).IsBuilt :=
  ⟨groups, h, rfl⟩

/-- The table that a text tells of is built. -/
theorem isBuilt_parse (limits : SessionLimits) (text : String) : (parse limits text).IsBuilt := by
  refine isBuilt_ofGroups fun group hg => ?_
  obtain ⟨line, -, hline⟩ := List.mem_filterMap.1 hg
  exact Group.isBuilt_of_parse? hline

theorem mem_foldl_insert {table : GroupTable} {groups : List Group} {group : Group}
    (h : group ∈ (groups.foldl insert table).groups) : group ∈ table.groups ∨ group ∈ groups := by
  induction groups generalizing table with
  | nil => exact .inl h
  | cons first groups ih =>
    rcases ih h with h | h
    · rcases List.mem_cons.1 h with rfl | h
      · exact .inr List.mem_cons_self
      · exact .inl (List.mem_of_mem_filter h)
    · exact .inr (List.mem_cons_of_mem _ h)

/-- In a table that was built, no group has a member twice. -/
theorem IsBuilt.nodup_members {table : GroupTable} (h : table.IsBuilt) {name : String}
    {group : Group} (hg : table.get? name = some group) : group.members.Nodup := by
  obtain ⟨groups, hgroups, rfl⟩ := h
  rcases mem_foldl_insert (List.mem_of_find?_eq_some hg) with hempty | hmem
  · cases hempty
  · exact (hgroups group hmem).nodup_members

end GroupTable

end ChatRoom
