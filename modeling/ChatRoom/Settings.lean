import ChatRoom.Settings.Document
import ChatRoom.AllowList
import ChatRoom.Outbox
import ChatRoom.History

/-!
# Settings

Everything a server needs to start. Each setting has a default, and a document sets those it names;
it may name each once, and nothing else.
-/

namespace ChatRoom

open Document

structure Settings where
  /-- Where plain connections are accepted. -/
  tcpAddress : String := "0.0.0.0:8080"
  /-- Where WebSocket connections are accepted, if they are. -/
  webSocketAddress : Option String := none
  usersFile : String := "config/users.txt"
  groupsFile : String := "config/groups.txt"
  logFile : String := "chat_log.txt"
  /-- How many lines a newcomer is shown. -/
  historyLines : Nat := History.defaultCapacity
  /-- How many sessions may be active, if there is a limit. -/
  maxSessions : Option Nat := none
  /-- A username is shorter than this, in bytes. -/
  usernameLength : Nat := 50
  /-- The name of a group is shorter than this, in bytes. -/
  groupNameLength : Nat := 50
  /-- The longest line a client may send, in bytes. -/
  lineLength : Nat := 4096
  /-- How many lines may wait for one client. -/
  outboxCapacity : Nat := Outbox.defaultCapacity
  /-- The pause after a failure to accept a connection, in milliseconds. -/
  acceptRetryDelay : Nat := 1000
  deriving DecidableEq

inductive SettingsError where
  /-- Line `line` is neither blank nor the assignment of a string or an integer. -/
  | malformed (line : Nat)
  | unknownKey (key : String)
  | repeatedKey (key : String)
  | notText (key : String)
  | notNumber (key : String)
  | negative (key : String) (value : Int)
  deriving DecidableEq

def SettingsError.message : SettingsError → String
  | malformed line => "line " ++ toString line ++ " is not the assignment of a string or an integer"
  | unknownKey key => "unknown setting '" ++ key ++ "'"
  | repeatedKey key => "setting '" ++ key ++ "' is given twice"
  | notText key => "setting '" ++ key ++ "' is not a string"
  | notNumber key => "setting '" ++ key ++ "' is not an integer"
  | negative key value => "setting '" ++ key ++ "' is negative: " ++ toString value

namespace Settings

def limits (settings : Settings) : SessionLimits :=
  ⟨settings.usernameLength, settings.groupNameLength, settings.maxSessions⟩

def text (key : String) : Scalar → Except SettingsError String
  | .text s => .ok s
  | .number _ => .error (.notText key)

def number (key : String) : Scalar → Except SettingsError Nat
  | .text _ => .error (.notNumber key)
  | .number n => if n < 0 then .error (.negative key n) else .ok n.toNat

def assign (settings : Settings) (key : String) (value : Scalar) :
    Except SettingsError Settings :=
  match key with
  | "tcp_addr" => (text key value).map fun s => { settings with tcpAddress := s }
  | "ws_addr" => (text key value).map fun s => { settings with webSocketAddress := some s }
  | "users_file" => (text key value).map fun s => { settings with usersFile := s }
  | "groups_file" => (text key value).map fun s => { settings with groupsFile := s }
  | "log_file" => (text key value).map fun s => { settings with logFile := s }
  | "history_lines" => (number key value).map fun n => { settings with historyLines := n }
  | "max_sessions" => (number key value).map fun n => { settings with maxSessions := some n }
  | "username_max_len" => (number key value).map fun n => { settings with usernameLength := n }
  | "group_name_max_len" => (number key value).map fun n => { settings with groupNameLength := n }
  | "max_line_len" => (number key value).map fun n => { settings with lineLength := n }
  | "outbound_queue_len" => (number key value).map fun n => { settings with outboxCapacity := n }
  | "accept_retry_delay_ms" =>
    (number key value).map fun n => { settings with acceptRetryDelay := n }
  | _ => .error (.unknownKey key)

/-- The settings after several assignments, to keys that are neither in `taken` nor given twice. -/
def assignAll (settings : Settings) (taken : List String) :
    List (String × Scalar) → Except SettingsError Settings
  | [] => .ok settings
  | (key, value) :: rest =>
    if key ∈ taken then .error (.repeatedKey key)
    else match settings.assign key value with
      | .error e => .error e
      | .ok settings => settings.assignAll (key :: taken) rest

def parse (document : String) : Except SettingsError Settings :=
  match read document with
  | .error rest =>
    let before := document.toList.take (document.length - rest.length)
    .error (.malformed (before.count '\n' + 1))
  | .ok assignments => ({} : Settings).assignAll [] assignments

end Settings

end ChatRoom
