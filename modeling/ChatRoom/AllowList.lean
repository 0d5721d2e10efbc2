import ChatRoom.Session
import ChatRoom.Failure

/-!
# The allow-list

The names that may log in, and the check of the line a client answers with when it is asked for its
name. Whether the name is free is a question for the roster.
-/

namespace ChatRoom

open Text

/-- The limits on names and on the number of active sessions. -/
structure SessionLimits where
  /-- A username is shorter than this, in bytes. -/
  usernameLength : Nat := 50
  /-- The name of a group is shorter than this, in bytes. -/
  groupNameLength : Nat := 50
  /-- At most this many sessions are active, if there is a limit. -/
  activeSessions : Option Nat := none
  deriving DecidableEq

/-- The names that may log in, each once. -/
structure AllowList where
  names : List String
  deriving DecidableEq

namespace AllowList

def empty : AllowList := ⟨[]⟩

/-- The list of these names; a repeated name counts once. -/
def ofNames (names : List String) : AllowList := ⟨names.eraseDups⟩

def size (list : AllowList) : Nat := list.names.length

def isEmpty (list : AllowList) : Bool := list.names.isEmpty

instance : Membership String AllowList where
  mem list username := username ∈ list.names

instance (username : String) (list : AllowList) : Decidable (username ∈ list) :=
  inferInstanceAs (Decidable (username ∈ list.names))

@[simp] theorem mem_ofNames {names : List String} {username : String} :
    username ∈ ofNames names ↔ username ∈ names :=
  List.mem_eraseDups

/-! ## Reading -/

/-- The list written in `text`, one name per line. A name that is too long to log in is left out. -/
def parse (limits : SessionLimits) (text : String) : AllowList :=
  ofNames ((entries text).filter (·.utf8ByteSize < limits.usernameLength))

/-- The list in a file. If the file cannot be read, nobody may log in. -/
def load (limits : SessionLimits) (file : FileContent) : AllowList :=
  match file.text with
  | .ok text => parse limits text
  | .error _ => empty

/-! ## Checking a name -/

/-- The name in the line that a client sends when asked for it: not blank, not too long, and on the
list, of which the first that fails is reported. -/
def check (list : AllowList) (limits : SessionLimits) (line : String) :
    Except SessionError String :=
  let username := trim line
  if username = "" then .error .emptyUsername
  else if limits.usernameLength ≤ username.utf8ByteSize then
    .error (.usernameTooLong username.utf8ByteSize limits.usernameLength)
  else if username ∈ list then .ok username
  else .error (.notAllowed username)

theorem check_eq_ok {list : AllowList} {limits : SessionLimits} {line username : String} :
    list.check limits line = .ok username ↔
      username = trim line ∧ username ≠ "" ∧ username.utf8ByteSize < limits.usernameLength ∧
        username ∈ list := by
  unfold check
  dsimp only
  split
  · simp_all
  · split
    · simp only [reduceCtorEq, false_iff]
      rintro ⟨rfl, -, h, -⟩
      omega
    · split
      · simp only [Except.ok.injEq]
        constructor
        · rintro rfl
          exact ⟨rfl, by assumption, by omega, by assumption⟩
        · exact fun h => h.1.symm
      · simp only [reduceCtorEq, false_iff]
        rintro ⟨rfl, -, -, h⟩
        contradiction

end AllowList

end ChatRoom
