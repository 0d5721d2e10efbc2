import ChatRoom.Message
import ChatRoom.Address

/-!
# Sessions

The chat's record of one connected client: which connection it is, who the client is once it has
logged in, and how far it has come. A session waits, then asks for a name, then is active, then is
closed; it can be closed from anywhere and never leaves that state.
-/

namespace ChatRoom

structure ConnectionId where
  value : Nat
  deriving DecidableEq

/-- The name of a connection in reports to the operator. -/
def ConnectionId.name (id : ConnectionId) : String := "conn-" ++ toString id.value

/-! ## States -/

/-- How far a session has come. -/
inductive SessionState where
  /-- Connected, nothing sent yet. -/
  | pending
  /-- Asked for a name, waiting for the answer. -/
  | awaitingUsername
  | active
  | closed
  deriving DecidableEq

namespace SessionState

def name : SessionState → String
  | pending => "Pending"
  | awaitingUsername => "AwaitingUsername"
  | active => "Active"
  | closed => "Closed"

/-- Whether a session in this state may go on to `target`. -/
def canBecome : (state target : SessionState) → Bool
  | pending, awaitingUsername => true
  | awaitingUsername, active => true
  | pending, closed | awaitingUsername, closed | active, closed => true
  | _, _ => false

end SessionState

/-! ## Errors -/

/-- Why a login or a change of state is refused. -/
inductive SessionError where
  | emptyUsername
  /-- The name has `length` bytes, where fewer than `max` are allowed. -/
  | usernameTooLong (length max : Nat)
  | notAllowed (username : String)
  /-- An active session has the name. -/
  | usernameInUse (username : String)
  /-- There are already `max` active sessions. -/
  | serverFull (max : Nat)
  | invalidTransition (current target : SessionState)
  deriving DecidableEq

namespace SessionError

def message : SessionError → String
  | emptyUsername => "username is empty"
  | usernameTooLong length max =>
    "username is " ++ toString length ++ " bytes, limit is below " ++ toString max
  | notAllowed username => "username '" ++ username ++ "' is not on the allow-list"
  | usernameInUse username => "username '" ++ username ++ "' is already in use"
  | serverFull max => "server is full (" ++ toString max ++ " active sessions)"
  | invalidTransition current target =>
    "invalid session transition from " ++ current.name ++ " to " ++ target.name

/-- What the client is told, where the error is about its login. -/
def rejection? : SessionError → Option Rejection
  | emptyUsername => some .emptyUsername
  | usernameTooLong .. => some .usernameTooLong
  | notAllowed _ => some .notAllowed
  | usernameInUse _ => some .usernameInUse
  | serverFull _ => some .serverFull
  | invalidTransition .. => none

end SessionError

/-! ## Sessions -/

/-- One client's session. The name is set once, on becoming active. -/
structure Session where
  id : ConnectionId
  peer : Address
  state : SessionState := .pending
  username : Option String := none
  deriving DecidableEq

namespace Session

/-- The session in another state, where it may go there. -/
def become (session : Session) (target : SessionState) : Except SessionError Session :=
  if session.state.canBecome target then .ok { session with state := target }
  else .error (.invalidTransition session.state target)

/-- Waits for a name, after asking for it. -/
def awaitUsername (session : Session) : Except SessionError Session :=
  session.become .awaitingUsername

/-- Becomes active under a name, for good. -/
def activate (session : Session) (username : String) : Except SessionError Session :=
  (session.become .active).map fun session => { session with username := some username }

/-- Ends the session, and says whether it was active, so that its departure has to be announced. -/
def close (session : Session) : Bool × Session :=
  (session.state == .active, { session with state := .closed })

theorem become_eq_ok {session next : Session} {target : SessionState} :
    session.become target = .ok next ↔
      session.state.canBecome target = true ∧ { session with state := target } = next := by
  unfold become
  split <;> simp_all

theorem become_eq_error {session : Session} {target : SessionState} {e : SessionError} :
    session.become target = .error e ↔
      session.state.canBecome target = false ∧ .invalidTransition session.state target = e := by
  unfold become
  split <;> simp_all

end Session

end ChatRoom
