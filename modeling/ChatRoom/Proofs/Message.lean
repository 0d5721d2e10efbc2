import ChatRoom.Message
import Mathlib.Data.List.TakeWhile

/-!
# Reading the lines of the chat

A line tells which reply or event it is, and all that it says: `read?` gets it back from the line
(`read?_line`). The first word of a message to everybody ends in a colon, that of any other line does
not, unless it is `System:`, which no user is called; the other lines are told apart by what they
begin or end with (`after?_of_differ`, `between?_of_differ_end`). So no two replies or events have
one line, and none has the line of a request, a marker or a rejection.
-/

namespace ChatRoom

open Text Command

/-! ## Parts of a text -/

namespace Text

/-- The texts differ in a place that both have. -/
def differ : List Char → List Char → Bool
  | a :: as, b :: bs => a != b || differ as bs
  | _, _ => false

theorem after?_of_differ {lead lead' : List Char} (h : differ lead lead' = true)
    (rest : List Char) : after? lead (lead' ++ rest) = none := by
  induction lead generalizing lead' with
  | nil => simp [differ] at h
  | cons a lead ih =>
    cases lead' with
    | nil => simp [differ] at h
    | cons b lead' =>
      rw [List.cons_append, after?]
      split
      · rename_i hab
        exact ih (by simpa [differ, hab] using h)
      · rfl

theorem after?_append (lead rest : List Char) : after? lead (lead ++ rest) = some rest :=
  after?_eq_some_iff.2 rfl

/-- What precedes `stop` in `cs`, if `cs` ends with it. -/
def before? (stop cs : List Char) : Option (List Char) :=
  (after? stop.reverse cs.reverse).map List.reverse

theorem before?_eq_some_iff {stop cs front : List Char} :
    before? stop cs = some front ↔ cs = front ++ stop := by
  rw [before?, Option.map_eq_some_iff]
  constructor
  · rintro ⟨rest, hrest, rfl⟩
    rw [after?_eq_some_iff, List.reverse_eq_iff] at hrest
    rw [hrest, List.reverse_append, List.reverse_reverse]
  · rintro rfl
    exact ⟨front.reverse, after?_eq_some_iff.2 List.reverse_append, List.reverse_reverse front⟩

theorem before?_of_differ {stop stop' : List Char} (h : differ stop.reverse stop'.reverse = true)
    (front : List Char) : before? stop (front ++ stop') = none := by
  rw [before?, List.reverse_append, after?_of_differ h, Option.map_none]

end Text

/-! ## The reader -/

/-- What a line of the chat says. -/
inductive Saying where
  | reply (reply : Reply)
  | event (event : Event)
  deriving DecidableEq

def Saying.line : Saying → String
  | reply r => r.line
  | event e => e.line

/-- What stands between two texts. -/
def between? (lead stop : String) (cs : List Char) : Option String :=
  ((after? lead.toList cs).bind (before? stop.toList)).map .ofList

/-- The word in front of a text with one space, and what follows that text. -/
def word? (stop : String) (cs : List Char) : Option (String × List Char) :=
  (before? (splitWord stop.toList).1 (splitWord cs).1).bind fun word =>
    (after? (splitWord stop.toList).2 (splitWord cs).2).map (.ofList word, ·)

/-- A line whose first word is `System:`. -/
def readNotice? (cs : List Char) : Option Saying :=
  ((between? "System: " " has joined the chat." cs).map fun username =>
    .event (.joined username)).or <|
  ((between? "System: " " has left the chat." cs).map fun username => .event (.left username)).or <|
  ((between? "System: User '" "' not found or is offline." cs).map fun username =>
    .reply (.userNotFound username)).or <|
  ((between? "System: Group '#" "' not found." cs).map fun name => .reply (.groupNotFound name)).or <|
  ((after? "System: Invalid DM format. ".toList cs).map fun _ => .reply (.malformed .direct)).or <|
  (after? "System: Invalid GM format. ".toList cs).map fun _ => .reply (.malformed .group)

/-- A line whose first word does not end in a colon. -/
def readMessage? (cs : List Char) : Option Saying :=
  ((between? "Welcome, " "!" cs).map fun username => .reply (.welcome username)).or <|
  (((after? "(DM from ".toList cs).bind (word? "): ")).map fun (sender, text) =>
    .reply (.directFrom sender (.ofList text))).or <|
  (((after? "(DM to ".toList cs).bind (word? "): ")).map fun (recipient, text) =>
    .reply (.directTo recipient (.ofList text))).or <|
  (((after? "(To #".toList cs).bind (word? "): ")).map fun (name, text) =>
    .reply (.groupTo name (.ofList text))).or <|
  (((after? "(#".toList cs).bind (word? " from ")).bind fun (name, rest) =>
    (word? "): " rest).map fun (sender, text) => .reply (.groupFrom name sender (.ofList text))).or <|
  (((after? "DM from ".toList cs).bind (word? " to ")).bind fun (sender, rest) =>
    (word? ": " rest).map fun (recipient, text) =>
      .event (.direct sender recipient (.ofList text))).or <|
  ((after? "GROUPMSG to #".toList cs).bind (word? " from ")).bind fun (name, rest) =>
    (word? ": " rest).map fun (sender, text) => .event (.group name sender (.ofList text))

/-- What a line says, if it is the line of a reply or an event. -/
def read? (line : String) : Option Saying :=
  match before? [':'] (splitWord line.toList).1 with
  | none => readMessage? line.toList
  | some sender =>
    if String.ofList sender = "System" then readNotice? line.toList
    else some (.event (.global (.ofList sender) (.ofList (splitWord line.toList).2)))

/-! ## Its parts -/

section

variable {lead lead' stop stop' : String}

theorem between?_append (lead inner stop : String) :
    between? lead stop (lead.toList ++ (inner.toList ++ stop.toList)) = some inner := by
  rw [between?, after?_append, Option.bind_some, before?_eq_some_iff.2 rfl, Option.map_some,
    String.ofList_toList]

theorem between?_of_differ (h : differ lead.toList lead'.toList = true) (stop : String)
    (rest : List Char) : between? lead stop (lead'.toList ++ rest) = none := by
  rw [between?, after?_of_differ h, Option.bind_none, Option.map_none]

theorem between?_of_differ_end (h : differ stop.toList.reverse stop'.toList.reverse = true)
    (lead : String) (front inner : List Char) :
    between? lead stop (front ++ (inner ++ stop'.toList)) = none := by
  rw [between?, Option.map_eq_none_iff, Option.bind_eq_none_iff]
  intro rest hrest
  rw [after?_eq_some_iff] at hrest
  refine Option.eq_none_iff_forall_ne_some.2 fun middle hmiddle => ?_
  rw [before?_eq_some_iff.1 hmiddle, ← List.append_assoc, ← List.append_assoc] at hrest
  -- the whole text would end in both
  have hboth := before?_of_differ h (front ++ inner)
  rw [hrest, before?_eq_some_iff.2 rfl] at hboth
  cases hboth

theorem word?_append (hspace : ' ' ∈ stop.toList) {word : String} (hword : ' ' ∉ word.toList)
    (rest : List Char) : word? stop (word.toList ++ (stop.toList ++ rest)) = some (word, rest) := by
  have hfirst : ' ' ∉ (splitWord stop.toList).1 := fun hc => by
    simpa using List.mem_takeWhile_imp hc
  have hcut : splitWord (word.toList ++ (stop.toList ++ rest)) =
      (word.toList ++ (splitWord stop.toList).1, (splitWord stop.toList).2 ++ rest) := by
    have hparts : word.toList ++ (stop.toList ++ rest) =
        (word.toList ++ (splitWord stop.toList).1) ++ ' ' :: ((splitWord stop.toList).2 ++ rest) := by
      rw [List.append_assoc word.toList, ← List.cons_append,
        ← List.append_assoc (splitWord stop.toList).1, append_splitWord hspace]
    rw [hparts]
    exact splitWord_append fun h => (List.mem_append.1 h).elim hword hfirst
  rw [word?, hcut, before?_eq_some_iff.2 rfl, Option.bind_some, after?_append, Option.map_some,
    String.ofList_toList]

theorem splitWord_fst_append {front : List Char} (hspace : ' ' ∈ front) (rest : List Char) :
    (splitWord (front ++ rest)).1 = (splitWord front).1 := by
  have hfirst : ' ' ∉ (splitWord front).1 := fun hc => by
    simpa using List.mem_takeWhile_imp hc
  have hparts : front ++ rest = (splitWord front).1 ++ ' ' :: ((splitWord front).2 ++ rest) := by
    rw [← List.cons_append, ← List.append_assoc, append_splitWord hspace]
  rw [hparts, splitWord_append hfirst]

end

theorem toList_append_append (a b c : String) :
    (a ++ b ++ c).toList = a.toList ++ (b.toList ++ c.toList) := by
  rw [String.toList_append, String.toList_append, List.append_assoc]

/-! ## The lines of the chat itself -/

section

variable {line lead : String} {rest : List Char}

theorem read?_of_system (h : line.toList = lead.toList ++ rest) (hspace : ' ' ∈ lead.toList)
    (hhead : (splitWord lead.toList).1 = "System:".toList) :
    read? line = readNotice? (lead.toList ++ rest) := by
  have hsystem : before? [':'] "System:".toList = some "System".toList := by decide
  rw [read?, h, splitWord_fst_append hspace, hhead, hsystem]
  exact if_pos String.ofList_toList

theorem read?_of_head (h : before? [':'] (splitWord line.toList).1 = none) :
    read? line = readMessage? line.toList := by
  rw [read?, h]

theorem read?_of_lead (h : line.toList = lead.toList ++ rest) (hspace : ' ' ∈ lead.toList)
    (hhead : before? [':'] (splitWord lead.toList).1 = none) :
    read? line = readMessage? (lead.toList ++ rest) := by
  have hnone : before? [':'] (splitWord line.toList).1 = none := by
    rw [h, splitWord_fst_append hspace, hhead]
  rw [read?_of_head hnone, h]

end

theorem read?_joined (username : String) :
    read? (Event.joined username).line = some (.event (.joined username)) := by
  have hline : (Event.joined username).line.toList =
      "System: ".toList ++ (username.toList ++ " has joined the chat.".toList) :=
    toList_append_append _ _ _
  rw [read?_of_system hline (by decide) (by decide), readNotice?, between?_append]
  rfl

theorem read?_left (username : String) :
    read? (Event.left username).line = some (.event (.left username)) := by
  have hline : (Event.left username).line.toList =
      "System: ".toList ++ (username.toList ++ " has left the chat.".toList) :=
    toList_append_append _ _ _
  rw [read?_of_system hline (by decide) (by decide), readNotice?,
    between?_of_differ_end (by decide), between?_append]
  rfl

theorem read?_userNotFound (username : String) :
    read? (Reply.userNotFound username).line = some (.reply (.userNotFound username)) := by
  have hline : (Reply.userNotFound username).line.toList =
      "System: User '".toList ++ (username.toList ++ "' not found or is offline.".toList) :=
    toList_append_append _ _ _
  rw [read?_of_system hline (by decide) (by decide), readNotice?,
    between?_of_differ_end (by decide), between?_of_differ_end (by decide), between?_append]
  rfl

theorem read?_groupNotFound (name : String) :
    read? (Reply.groupNotFound name).line = some (.reply (.groupNotFound name)) := by
  have hline : (Reply.groupNotFound name).line.toList =
      "System: Group '#".toList ++ (name.toList ++ "' not found.".toList) :=
    toList_append_append _ _ _
  rw [read?_of_system hline (by decide) (by decide), readNotice?,
    between?_of_differ_end (by decide), between?_of_differ_end (by decide),
    between?_of_differ_end (by decide), between?_append]
  rfl

theorem read?_malformed (command : MalformedCommand) :
    read? (Reply.malformed command).line = some (.reply (.malformed command)) := by
  cases command with
  | direct => decide +kernel
  | group => decide +kernel

/-! ## The messages of users -/

theorem read?_welcome (username : String) :
    read? (Reply.welcome username).line = some (.reply (.welcome username)) := by
  have hline : (Reply.welcome username).line.toList =
      "Welcome, ".toList ++ (username.toList ++ "!".toList) :=
    toList_append_append _ _ _
  rw [read?_of_lead hline (by decide) (by decide), readMessage?, between?_append]
  rfl

section

variable {name sender recipient : String}

theorem read?_global (hsender : ' ' ∉ sender.toList) (hne : sender ≠ "System") (text : String) :
    read? (Event.global sender text).line = some (.event (.global sender text)) := by
  have hline : (Event.global sender text).line.toList =
      (sender.toList ++ [':']) ++ ' ' :: text.toList := by
    show (sender ++ ": " ++ text).toList = _
    simp
  have hword : ' ' ∉ sender.toList ++ [':'] := by
    simpa using hsender
  rw [read?, hline, splitWord_append hword, before?_eq_some_iff.2 rfl]
  simp only [String.ofList_toList, if_neg hne]

theorem read?_directFrom (hsender : ' ' ∉ sender.toList) (text : String) :
    read? (Reply.directFrom sender text).line = some (.reply (.directFrom sender text)) := by
  have hline : (Reply.directFrom sender text).line.toList =
      "(DM from ".toList ++ (sender.toList ++ ("): ".toList ++ text.toList)) := by
    show ("(DM from " ++ sender ++ "): " ++ text).toList = _
    simp only [String.toList_append, List.append_assoc]
  rw [read?_of_lead hline (by decide) (by decide), readMessage?, between?_of_differ (by decide),
    after?_append, Option.bind_some, word?_append (by decide) hsender]
  simp only [Option.map_none, Option.none_or, Option.map_some, Option.some_or,
    String.ofList_toList]

theorem read?_directTo (hrecipient : ' ' ∉ recipient.toList) (text : String) :
    read? (Reply.directTo recipient text).line = some (.reply (.directTo recipient text)) := by
  have hline : (Reply.directTo recipient text).line.toList =
      "(DM to ".toList ++ (recipient.toList ++ ("): ".toList ++ text.toList)) := by
    show ("(DM to " ++ recipient ++ "): " ++ text).toList = _
    simp only [String.toList_append, List.append_assoc]
  rw [read?_of_lead hline (by decide) (by decide), readMessage?, between?_of_differ (by decide),
    after?_of_differ (by decide), after?_append, Option.bind_some,
    word?_append (by decide) hrecipient]
  simp only [Option.map_none, Option.bind_none, Option.none_or, Option.map_some, Option.some_or,
    String.ofList_toList]

theorem read?_groupTo (hname : ' ' ∉ name.toList) (text : String) :
    read? (Reply.groupTo name text).line = some (.reply (.groupTo name text)) := by
  have hline : (Reply.groupTo name text).line.toList =
      "(To #".toList ++ (name.toList ++ ("): ".toList ++ text.toList)) := by
    show ("(To #" ++ name ++ "): " ++ text).toList = _
    simp only [String.toList_append, List.append_assoc]
  rw [read?_of_lead hline (by decide) (by decide), readMessage?, between?_of_differ (by decide),
    after?_of_differ (by decide), after?_of_differ (by decide), after?_append, Option.bind_some,
    word?_append (by decide) hname]
  simp only [Option.map_none, Option.bind_none, Option.none_or, Option.map_some, Option.some_or,
    String.ofList_toList]

/-- Its first word ends in the name of the group, so that must not end in a colon. -/
theorem read?_groupFrom (hname : ' ' ∉ name.toList) (hcolon : ':' ∉ name.toList)
    (hsender : ' ' ∉ sender.toList) (text : String) :
    read? (Reply.groupFrom name sender text).line = some (.reply (.groupFrom name sender text)) := by
  have hline : (Reply.groupFrom name sender text).line.toList = "(#".toList ++ (name.toList ++
      (" from ".toList ++ (sender.toList ++ ("): ".toList ++ text.toList)))) := by
    show ("(#" ++ name ++ " from " ++ sender ++ "): " ++ text).toList = _
    simp only [String.toList_append, List.append_assoc]
  have hword : (splitWord (Reply.groupFrom name sender text).line.toList).1 =
      "(#".toList ++ name.toList := by
    have hspace : ' ' ∉ "(#".toList ++ name.toList := by
      simpa using hname
    have hfrom : " from ".toList = ' ' :: "from ".toList := by decide
    rw [hline, hfrom, List.cons_append, ← List.append_assoc, splitWord_append hspace]
  have hnone : before? [':'] (splitWord (Reply.groupFrom name sender text).line.toList).1 =
      none := by
    refine Option.eq_none_iff_forall_ne_some.2 fun front hfront => hcolon ?_
    have hlast : ':' ∈ "(#".toList ++ name.toList := by
      rw [← hword, before?_eq_some_iff.1 hfront]
      exact List.mem_append_right _ List.mem_cons_self
    simpa using hlast
  rw [read?_of_head hnone, hline, readMessage?, between?_of_differ (by decide),
    after?_of_differ (by decide), after?_of_differ (by decide), after?_of_differ (by decide),
    after?_append, Option.bind_some, word?_append (by decide) hname]
  simp only [Option.map_none, Option.bind_none, Option.none_or, Option.bind_some]
  rw [word?_append (by decide) hsender]
  simp only [Option.map_some, Option.some_or, String.ofList_toList]

theorem read?_direct (hsender : ' ' ∉ sender.toList) (hrecipient : ' ' ∉ recipient.toList)
    (text : String) : read? (Event.direct sender recipient text).line =
      some (.event (.direct sender recipient text)) := by
  have hline : (Event.direct sender recipient text).line.toList =
      "DM from ".toList ++ (sender.toList ++
        (" to ".toList ++ (recipient.toList ++ (": ".toList ++ text.toList)))) := by
    show ("DM from " ++ sender ++ " to " ++ recipient ++ ": " ++ text).toList = _
    simp only [String.toList_append, List.append_assoc]
  rw [read?_of_lead hline (by decide) (by decide), readMessage?, between?_of_differ (by decide),
    after?_of_differ (by decide), after?_of_differ (by decide), after?_of_differ (by decide),
    after?_of_differ (by decide), after?_append, Option.bind_some,
    word?_append (by decide) hsender]
  simp only [Option.map_none, Option.bind_none, Option.none_or, Option.bind_some]
  rw [word?_append (by decide) hrecipient]
  simp only [Option.map_some, Option.some_or, String.ofList_toList]

theorem read?_group (hname : ' ' ∉ name.toList) (hsender : ' ' ∉ sender.toList) (text : String) :
    read? (Event.group name sender text).line = some (.event (.group name sender text)) := by
  have hline : (Event.group name sender text).line.toList =
      "GROUPMSG to #".toList ++ (name.toList ++
        (" from ".toList ++ (sender.toList ++ (": ".toList ++ text.toList)))) := by
    show ("GROUPMSG to #" ++ name ++ " from " ++ sender ++ ": " ++ text).toList = _
    simp only [String.toList_append, List.append_assoc]
  rw [read?_of_lead hline (by decide) (by decide), readMessage?, between?_of_differ (by decide),
    after?_of_differ (by decide), after?_of_differ (by decide), after?_of_differ (by decide),
    after?_of_differ (by decide), after?_of_differ (by decide), after?_append, Option.bind_some,
    word?_append (by decide) hname]
  simp only [Option.map_none, Option.bind_none, Option.none_or, Option.bind_some]
  rw [word?_append (by decide) hsender]
  simp only [Option.map_some, String.ofList_toList]

end

/-! ## No line says two things -/

/-- The names in a reply are such that its line says them: without spaces, where a word is read, and
without a colon, where the first word is read. -/
def Reply.IsPlain : Reply → Prop
  | welcome _ | userNotFound _ | groupNotFound _ | malformed _ => True
  | directFrom name _ | directTo name _ | groupTo name _ => ' ' ∉ name.toList
  | groupFrom name sender _ => (' ' ∉ name.toList ∧ ':' ∉ name.toList) ∧ ' ' ∉ sender.toList

/-- The names in an event are without spaces, where a word is read, and nobody who writes to
everybody has the name that the chat itself has. -/
def Event.IsPlain : Event → Prop
  | joined _ | left _ => True
  | global sender _ => ' ' ∉ sender.toList ∧ sender ≠ "System"
  | direct sender recipient _ => ' ' ∉ sender.toList ∧ ' ' ∉ recipient.toList
  | group name sender _ => ' ' ∉ name.toList ∧ ' ' ∉ sender.toList

def Saying.IsPlain : Saying → Prop
  | reply r => r.IsPlain
  | event e => e.IsPlain

theorem read?_reply {reply : Reply} (h : reply.IsPlain) :
    read? reply.line = some (.reply reply) := by
  cases reply with
  | welcome username => exact read?_welcome username
  | directFrom sender text => exact read?_directFrom h text
  | directTo recipient text => exact read?_directTo h text
  | groupFrom name sender text => exact read?_groupFrom h.1.1 h.1.2 h.2 text
  | groupTo name text => exact read?_groupTo h text
  | userNotFound username => exact read?_userNotFound username
  | groupNotFound name => exact read?_groupNotFound name
  | malformed command => exact read?_malformed command

theorem read?_event {event : Event} (h : event.IsPlain) :
    read? event.line = some (.event event) := by
  cases event with
  | joined username => exact read?_joined username
  | left username => exact read?_left username
  | global sender text => exact read?_global h.1 h.2 text
  | direct sender recipient text => exact read?_direct h.1 h.2 text
  | group name sender text => exact read?_group h.1 h.2 text

namespace Saying

variable {saying other : Saying}

/-- **Everything that is said is read back** from its line. -/
theorem read?_line (h : saying.IsPlain) : read? saying.line = some saying := by
  cases saying with
  | reply reply => exact read?_reply h
  | event event => exact read?_event h

theorem line_inj (h : saying.IsPlain) (h' : other.IsPlain) :
    saying.line = other.line ↔ saying = other := by
  constructor
  · intro hline
    have hread := read?_line h
    rw [hline, read?_line h'] at hread
    exact (Option.some.inj hread).symm
  · exact congrArg line

end Saying

/-! ## Fixed lines -/

/-- A line that says nothing of users: the request for a name, a marker of the replay, or a line of
a rejection. -/
def IsFixed (line : String) : Prop :=
  line ∈ [usernameRequest, historyStart, historyEnd] ∨
    ∃ rejection : Rejection, line ∈ rejection.lines

theorem read?_of_isFixed {line : String} (h : IsFixed line) : read? line = none := by
  have hmarkers : ∀ line ∈ [usernameRequest, historyStart, historyEnd], read? line = none := by
    decide +kernel
  have hrejections : ∀ rejection : Rejection, ∀ line ∈ rejection.lines, read? line = none := by
    intro rejection
    cases rejection <;> decide +kernel
  rcases h with h | ⟨rejection, h⟩
  · exact hmarkers line h
  · exact hrejections rejection line h

theorem read?_rejection (rejection : Rejection) : read? rejection.text = none := by
  cases rejection <;> decide +kernel

theorem Saying.not_isFixed {saying : Saying} (h : saying.IsPlain) : ¬ IsFixed saying.line := by
  intro hfixed
  have hread := read?_line h
  rw [read?_of_isFixed hfixed] at hread
  cases hread

/-- A user called `System` could tell that others have left, and a group with a colon in its name
could stand for a user. -/
example : (Event.global "System" "ann has left the chat.").line = (Event.left "ann").line ∧
    (Reply.groupFrom "a:" "bob" "hi").line = (Event.global "(#a" "from bob): hi").line := by
  decide

end ChatRoom
