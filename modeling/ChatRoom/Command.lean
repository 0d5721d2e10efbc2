import ChatRoom.Text

/-!
# Commands

What a client's line asks for: a direct message, a message to a group, or a message to everybody.
A line is classified without the blanks around it, but a message to everybody keeps them.

`parse` reads a line and `Command.line` writes one. `splitWord_append` and `append_splitWord` say
how a target and a text are told apart.
-/

namespace ChatRoom

open Text

def directKeyword : String := "PRIVMSG"

def groupKeyword : String := "GROUPMSG"

/-- What a line of an active client asks for. -/
inductive Command where
  | direct (recipient text : String)
  | group (name text : String)
  | global (text : String)
  deriving DecidableEq

/-- A line that begins as a command and lacks its target or its text. -/
inductive MalformedCommand where
  | direct
  | group
  deriving DecidableEq

/-- What an operator is told about a malformed command. -/
def MalformedCommand.message : MalformedCommand → String
  | .direct => "invalid DM format"
  | .group => "invalid group message format"

namespace Command

/-! ## Reading -/

/-- The first word of `cs`, up to a single space, and what follows that space. Two spaces in a row
make an empty word: they are not skipped. -/
def splitWord (cs : List Char) : List Char × List Char :=
  (cs.takeWhile (· != ' '), (cs.dropWhile (· != ' ')).drop 1)

/-- What follows `keyword` and one space in `line`, as a target and a text. -/
def keyword? (keyword : String) (line : List Char) : Option (List Char × List Char) :=
  (after? (keyword.toList ++ [' ']) line).map splitWord

/-- Builds a command from a target and a text, both of which it needs. -/
def complete (make : String → String → Command) (malformed : MalformedCommand) :
    List Char × List Char → Except MalformedCommand (Option Command)
  | ([], _) => .error malformed
  | (_, []) => .error malformed
  | (target, text) => .ok (some (make (.ofList target) (.ofList text)))

/-- Classifies one line, its terminator already removed: nothing if it is blank, a direct message,
a group message, or else a message to everybody, which keeps the line as it was sent. -/
def parse (raw : String) : Except MalformedCommand (Option Command) :=
  let line := (trim raw).toList
  if line = [] then .ok none
  else match keyword? directKeyword line with
    | some parts => complete .direct .direct parts
    | none => match keyword? groupKeyword line with
      | some parts => complete .group .group parts
      | none => .ok (some (.global (dropTerminators raw)))

/-! ## Writing -/

/-- The line that asks for a command. -/
def line : Command → String
  | .direct recipient text => directKeyword ++ " " ++ recipient ++ " " ++ text
  | .group name text => groupKeyword ++ " " ++ name ++ " " ++ text
  | .global text => text

theorem splitWord_append {word text : List Char} (h : ' ' ∉ word) :
    splitWord (word ++ ' ' :: text) = (word, text) := by
  have hw : ∀ c ∈ word, (c != ' ') = true := fun c hc => by
    rw [bne_iff_ne]; rintro rfl; exact h hc
  simp [splitWord, List.takeWhile_append_of_pos hw, List.dropWhile_append_of_pos hw]

/-- Nothing is lost: word and rest, joined by the space, are the text. -/
theorem append_splitWord {cs : List Char} (h : ' ' ∈ cs) :
    (splitWord cs).1 ++ ' ' :: (splitWord cs).2 = cs := by
  induction cs with
  | nil => simp at h
  | cons c cs ih =>
    by_cases hc : c = ' '
    · subst hc; simp [splitWord]
    · have hm : ' ' ∈ cs := by simpa [Ne.symm hc] using h
      simpa [splitWord, hc] using ih hm

end Command

end ChatRoom
