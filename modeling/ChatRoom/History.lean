import ChatRoom.Message

/-!
# History

The most recent lines of the chat, which a newcomer is shown. A full history drops its oldest line
for a new one, so it never outgrows its capacity (`length_append_le`).
-/

namespace ChatRoom

open Text

/-- The last `capacity` lines, oldest first. -/
structure History where
  capacity : Nat
  lines : List String := []
  deriving DecidableEq

namespace History

def defaultCapacity : Nat := 20

/-- Keeps one more line, without its terminator, and no more than `capacity` lines. -/
def append (history : History) (line : String) : History :=
  let lines := history.lines ++ [dropTerminators line]
  { history with lines := lines.drop (lines.length - history.capacity) }

/-- The lines as a newcomer is shown them: between two markers, and nothing if there are none. -/
def replay (history : History) : List String :=
  if history.lines = [] then [] else historyStart :: history.lines ++ [historyEnd]

@[simp] theorem capacity_append (history : History) (line : String) :
    (history.append line).capacity = history.capacity := rfl

theorem length_append_le (history : History) (line : String) :
    (history.append line).lines.length ≤ history.capacity := by
  simp only [append, List.length_drop]
  omega

end History

end ChatRoom
