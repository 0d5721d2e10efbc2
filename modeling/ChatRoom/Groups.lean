import ChatRoom.AllowList

/-!
# Groups

The groups of the chat: a name for several users. The table of groups is fixed when the server
starts; it is read from a file with one group per line, `name:member,member`, and a line that makes
no sense is passed over.
-/

namespace ChatRoom

open Text

/-- A group: its name, and its members in the order they are written, none blank, none twice. -/
structure Group where
  name : String
  members : List String
  deriving DecidableEq

namespace Group

/-- The group of these members; empty names and repetitions are left out. -/
def ofMembers (name : String) (members : List String) : Group :=
  ⟨name, (members.filter (· ≠ "")).eraseDups⟩

@[simp] theorem mem_ofMembers {name member : String} {members : List String} :
    member ∈ (ofMembers name members).members ↔ member ∈ members ∧ member ≠ "" := by
  simp [ofMembers, List.mem_eraseDups]

/-- The group on one line of a groups file, if the line is a name, a colon, and at least one member
that could log in, separated by commas. -/
def parse? (limits : SessionLimits) (line : String) : Option Group :=
  let cs := line.toList
  match cs.dropWhile (· != ':') with
  | [] => none
  | _ :: members =>
    let name := trim (.ofList (cs.takeWhile (· != ':')))
    let members := (pieces ',' members).map fun member => trim (.ofList member)
    let group := ofMembers name (members.filter (·.utf8ByteSize < limits.usernameLength))
    if name = "" ∨ limits.groupNameLength ≤ name.utf8ByteSize ∨ group.members = [] then none
    else some group

/-- The line of a groups file that holds a group. -/
def line (group : Group) : String := group.name ++ ":" ++ ",".intercalate group.members

end Group

/-- The groups of the chat, one for each name. -/
structure GroupTable where
  groups : List Group
  deriving DecidableEq

namespace GroupTable

def empty : GroupTable := ⟨[]⟩

def get? (table : GroupTable) (name : String) : Option Group :=
  table.groups.find? (·.name = name)

/-- The table with one more group, in place of one that has the same name. -/
def insert (table : GroupTable) (group : Group) : GroupTable :=
  ⟨group :: table.groups.filter (·.name ≠ group.name)⟩

def size (table : GroupTable) : Nat := table.groups.length

def isEmpty (table : GroupTable) : Bool := table.groups.isEmpty

@[simp] theorem get?_insert (table : GroupTable) (group : Group) (name : String) :
    (table.insert group).get? name = if group.name = name then some group else table.get? name := by
  unfold insert get?
  rw [List.find?_cons]
  split
  · simp_all
  · rename_i h
    simp only [decide_eq_false_iff_not] at h
    rw [if_neg h, List.find?_filter]
    congr 1
    funext g
    by_cases hg : g.name = name
    · simp [hg, Ne.symm h]
    · simp [hg]

/-- The table of these groups. Of two groups with one name the later counts. -/
def ofGroups (groups : List Group) : GroupTable := groups.foldl insert empty

/-- The table written in `text`, one group per line. -/
def parse (limits : SessionLimits) (text : String) : GroupTable :=
  ofGroups ((entries text).filterMap (Group.parse? limits))

/-- The table in a file. If the file cannot be read, there are no groups. -/
def load (limits : SessionLimits) (file : FileContent) : GroupTable :=
  match file.text with
  | .ok text => parse limits text
  | .error _ => empty

end GroupTable

end ChatRoom
