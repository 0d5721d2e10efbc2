/-!
# Outboxes

The lines that wait for one client: a queue of bounded length. A line that finds it full, or finds
its reader gone, is not queued, and the sender is told so.
-/

namespace ChatRoom

/-- The lines queued for one client and not yet taken by its reader. -/
structure Outbox where
  capacity : Nat
  /-- The waiting lines, oldest first. -/
  pending : List String := []
  /-- Whether there still is somebody to read them. -/
  hasReader : Bool := true
  deriving DecidableEq

namespace Outbox

def defaultCapacity : Nat := 1024

def maxCapacity : Nat := 2305843009213693951

/-- An empty outbox. One that holds nothing would be useless, so it holds at least one line. -/
def ofCapacity (capacity : Nat) : Outbox := ⟨max capacity 1, [], true⟩

def accepts (outbox : Outbox) : Bool :=
  outbox.hasReader && outbox.pending.length < outbox.capacity

def push (outbox : Outbox) (line : String) : Outbox :=
  if outbox.accepts then { outbox with pending := outbox.pending ++ [line] } else outbox

/-- The outbox once its reader has taken everything. -/
def drained (outbox : Outbox) : Outbox := { outbox with pending := [] }

/-- The outbox once its reader is gone; what was waiting is lost. -/
def abandoned (outbox : Outbox) : Outbox := { outbox with pending := [], hasReader := false }

theorem push_of_accepts {outbox : Outbox} (h : outbox.accepts = true) (line : String) :
    outbox.push line = { outbox with pending := outbox.pending ++ [line] } :=
  if_pos h

theorem push_of_not_accepts {outbox : Outbox} (h : outbox.accepts = false) (line : String) :
    outbox.push line = outbox :=
  if_neg (by simp [h])

/-- Queuing never overfills an outbox. -/
theorem length_push_le {outbox : Outbox} (h : outbox.pending.length ≤ outbox.capacity)
    (line : String) : (outbox.push line).pending.length ≤ (outbox.push line).capacity := by
  cases ha : outbox.accepts with
  | false => rwa [push_of_not_accepts ha]
  | true =>
    rw [push_of_accepts ha]
    simp only [accepts, Bool.and_eq_true, decide_eq_true_eq] at ha
    simp only [List.length_append, List.length_singleton]
    omega

end Outbox

end ChatRoom
