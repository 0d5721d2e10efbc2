import ChatRoom.Command

/-!
# Messages

Every line the chat sends, and the text of every event it keeps. Lines to one client are a
`Rejection` or a `Reply`; an `Event` goes to the history and the log, and joins, departures and
messages to everybody go to the clients with the same text. All wording is here.
-/

namespace ChatRoom

/-! ## Fixed lines -/

/-- Asks a newly connected client who it is. -/
def usernameRequest : String := "REQ_USERNAME"

def historyStart : String := "--- Recent Chat History ---"

def historyEnd : String := "--- End of History ---"

/-! ## Rejections -/

inductive Rejection where
  | emptyUsername
  | usernameTooLong
  | usernameInUse
  | notAllowed
  | serverFull
  deriving DecidableEq

namespace Rejection

/-- The lines a refused client is sent: a status word and, about a name, the reason. -/
def lines : Rejection → List String
  | .emptyUsername => ["BAD_USERNAME", "Username cannot be empty."]
  | .usernameTooLong => ["BAD_USERNAME", "Username too long."]
  | .usernameInUse => ["BAD_USERNAME", "Username already in use."]
  | .notAllowed => ["NOT_ALLOWED", "Username not on allowed list."]
  | .serverFull => ["SERVER_FULL"]

def text (rejection : Rejection) : String := "\n".intercalate rejection.lines

end Rejection

/-! ## Replies -/

/-- A line for one client. -/
inductive Reply where
  /-- To a newcomer: it is in. -/
  | welcome (username : String)
  | directFrom (sender text : String)
  | directTo (recipient text : String)
  | groupFrom (name sender text : String)
  | groupTo (name text : String)
  /-- To a sender: nobody of that name is active. -/
  | userNotFound (username : String)
  /-- To a sender: there is no group of that name. -/
  | groupNotFound (name : String)
  /-- To a sender: how the command is written. -/
  | malformed (command : MalformedCommand)
  deriving DecidableEq

def Reply.line : Reply → String
  | .welcome username => "Welcome, " ++ username ++ "!"
  | .directFrom sender text => "(DM from " ++ sender ++ "): " ++ text
  | .directTo recipient text => "(DM to " ++ recipient ++ "): " ++ text
  | .groupFrom name sender text => "(#" ++ name ++ " from " ++ sender ++ "): " ++ text
  | .groupTo name text => "(To #" ++ name ++ "): " ++ text
  | .userNotFound username => "System: User '" ++ username ++ "' not found or is offline."
  | .groupNotFound name => "System: Group '#" ++ name ++ "' not found."
  | .malformed .direct => "System: Invalid DM format. Use: PRIVMSG <user> <message>"
  | .malformed .group => "System: Invalid GM format. Use: GROUPMSG <group> <message>"

/-! ## Events -/

/-- What happened in the chat. -/
inductive Event where
  | joined (username : String)
  | left (username : String)
  | global (sender text : String)
  | direct (sender recipient text : String)
  | group (name sender text : String)
  deriving DecidableEq

def Event.line : Event → String
  | .joined username => "System: " ++ username ++ " has joined the chat."
  | .left username => "System: " ++ username ++ " has left the chat."
  | .global sender text => sender ++ ": " ++ text
  | .direct sender recipient text => "DM from " ++ sender ++ " to " ++ recipient ++ ": " ++ text
  | .group name sender text => "GROUPMSG to #" ++ name ++ " from " ++ sender ++ ": " ++ text

end ChatRoom
