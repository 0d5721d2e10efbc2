import ChatRoom.Session
import Mathlib.Data.List.Induction

/-!
# The life of a session

Whatever is asked of a session, in any order and as often as you like, it is named at most once, by
the one activation that succeeds, its departure is announced at most once, by the first close after
that, and once it is closed nothing more becomes of it (`life_of_a_session`).

A call does one of four things (`Session.Responds`). What was answered so far is the transcript of a
session, and the session is what its transcript says (`Session.Course`): each call keeps this
(`Course.call`), so any sequence of calls does (`course`).
-/

namespace ChatRoom

/-! ## Calls -/

/-- What can be asked of a session. -/
inductive SessionCall where
  | awaitUsername
  | activate (username : String)
  | close
  deriving DecidableEq

/-- What is answered. -/
inductive SessionAnswer where
  | done
  | refused (error : SessionError)
  /-- Whether the session was active until then. -/
  | closed (wasActive : Bool)
  deriving DecidableEq

/-- The state that a call is to lead to. -/
def SessionCall.target : SessionCall → SessionState
  | awaitUsername => .awaitingUsername
  | activate _ => .active
  | close => .closed

/-- A call with its answer. -/
structure Exchange where
  call : SessionCall
  answer : SessionAnswer
  deriving DecidableEq

/-- The session was activated. -/
def Exchange.isActivation : Exchange → Bool
  | ⟨.activate _, .done⟩ => true
  | _ => false

/-- The departure of the session is to be announced. -/
def Exchange.isDeparture : Exchange → Bool
  | ⟨.close, .closed true⟩ => true
  | _ => false

namespace SessionState

theorem canBecome_awaitingUsername_iff {state : SessionState} :
    state.canBecome .awaitingUsername = true ↔ state = .pending := by
  cases state <;> decide

theorem canBecome_active_iff {state : SessionState} :
    state.canBecome .active = true ↔ state = .awaitingUsername := by
  cases state <;> decide

theorem canBecome_closed_iff {state : SessionState} :
    state.canBecome .closed = true ↔ state ≠ .closed := by
  cases state <;> decide

end SessionState

namespace Session

/-- What comes of a change of state. One that is refused leaves the session as it was. -/
def settle (session : Session) : Except SessionError Session → SessionAnswer × Session
  | .ok next => (.done, next)
  | .error e => (.refused e, session)

def call (session : Session) : SessionCall → SessionAnswer × Session
  | .awaitUsername => session.settle session.awaitUsername
  | .activate username => session.settle (session.activate username)
  | .close => (.closed session.close.1, session.close.2)

/-- The session after several calls. -/
def after (session : Session) (calls : List SessionCall) : Session :=
  calls.foldl (fun session call => (session.call call).2) session

/-- Several calls with their answers. -/
def transcript (session : Session) : List SessionCall → List Exchange
  | [] => []
  | call :: calls => ⟨call, (session.call call).1⟩ :: (session.call call).2.transcript calls

variable {session : Session}

theorem after_append (calls more : List SessionCall) :
    session.after (calls ++ more) = (session.after calls).after more :=
  List.foldl_append

theorem after_cons (call : SessionCall) (calls : List SessionCall) :
    session.after (call :: calls) = (session.call call).2.after calls := rfl

theorem after_snoc (calls : List SessionCall) (call : SessionCall) :
    session.after (calls ++ [call]) = ((session.after calls).call call).2 :=
  after_append calls [call]

theorem transcript_append (calls more : List SessionCall) :
    session.transcript (calls ++ more) =
      session.transcript calls ++ (session.after calls).transcript more := by
  induction calls generalizing session with
  | nil => rfl
  | cons first calls ih =>
    rw [List.cons_append, transcript, ih, transcript, after_cons, List.cons_append]

theorem transcript_snoc (calls : List SessionCall) (call : SessionCall) :
    session.transcript (calls ++ [call]) =
      session.transcript calls ++ [⟨call, ((session.after calls).call call).1⟩] :=
  transcript_append calls [call]

/-! ## One call -/

/-- What a call can come to: it is refused, and changes nothing, or goes on to its state. -/
inductive Responds (session : Session) : SessionCall → SessionAnswer → Session → Prop
  | refused (call : SessionCall) (hcall : call ≠ .close)
      (hstate : session.state.canBecome call.target = false) :
      session.Responds call (.refused (.invalidTransition session.state call.target)) session
  | awaits (hstate : session.state = .pending) :
      session.Responds .awaitUsername .done { session with state := .awaitingUsername }
  | activates (username : String) (hstate : session.state = .awaitingUsername) :
      session.Responds (.activate username) .done
        { session with state := .active, username := some username }
  | closes : session.Responds .close (.closed (session.state == .active))
      { session with state := .closed }

theorem activate_eq_ok (h : session.state = .awaitingUsername) (username : String) :
    session.activate username =
      .ok { session with state := .active, username := some username } := by
  rw [activate, become_eq_ok.2 ⟨SessionState.canBecome_active_iff.2 h, rfl⟩, Except.map]

theorem responds {call : SessionCall} {answer : SessionAnswer} {next : Session}
    (h : session.call call = (answer, next)) : session.Responds call answer next := by
  cases call with
  | close =>
    cases h
    exact .closes
  | awaitUsername =>
    cases hcan : session.state.canBecome .awaitingUsername with
    | true =>
      rw [Session.call, awaitUsername, become_eq_ok.2 ⟨hcan, rfl⟩, settle] at h
      cases h
      exact .awaits (SessionState.canBecome_awaitingUsername_iff.1 hcan)
    | false =>
      rw [Session.call, awaitUsername, become_eq_error.2 ⟨hcan, rfl⟩, settle] at h
      cases h
      exact .refused .awaitUsername (by simp) hcan
  | activate username =>
    cases hcan : session.state.canBecome .active with
    | true =>
      have hstate := SessionState.canBecome_active_iff.1 hcan
      rw [Session.call, activate_eq_ok hstate, settle] at h
      cases h
      exact .activates username hstate
    | false =>
      rw [Session.call, activate, become_eq_error.2 ⟨hcan, rfl⟩, Except.map, settle] at h
      cases h
      exact .refused (.activate username) (by simp) hcan

theorem call_eq_closed_iff {call : SessionCall} :
    (session.call call).1 = .closed true ↔ call = .close ∧ session.state = .active := by
  rcases hcall : session.call call with ⟨answer, next⟩
  cases responds hcall <;> simp_all

/-- A call that is refused names the states in question and changes nothing. -/
theorem call_refused {call : SessionCall} {e : SessionError}
    (h : (session.call call).1 = .refused e) :
    (session.call call).2 = session ∧ e = .invalidTransition session.state call.target ∧
      session.state.canBecome call.target = false := by
  rcases hcall : session.call call with ⟨answer, next⟩
  rw [hcall] at h
  cases responds hcall with
  | refused _ _ hstate =>
    cases h
    exact ⟨rfl, rfl, hstate⟩
  | awaits => cases h
  | activates => cases h
  | closes => cases h

/-- A call that is not refused leads where it may lead; only a closed session is closed again. -/
theorem call_heeded {call : SessionCall} (h : ∀ e, (session.call call).1 ≠ .refused e) :
    (session.call call).2.state = call.target ∧
      (session.state.canBecome call.target = true ∨
        call = .close ∧ session.state = .closed ∧ (session.call call).2 = session) := by
  rcases hcall : session.call call with ⟨answer, next⟩
  rw [hcall] at h
  cases responds hcall with
  | refused => exact absurd rfl (h _)
  | awaits hstate => exact ⟨rfl, .inl (SessionState.canBecome_awaitingUsername_iff.2 hstate)⟩
  | activates _ hstate => exact ⟨rfl, .inl (SessionState.canBecome_active_iff.2 hstate)⟩
  | closes =>
    refine ⟨rfl, ?_⟩
    by_cases hclosed : session.state = .closed
    · exact .inr ⟨rfl, hclosed, congrArg (fun state => { session with state }) hclosed.symm⟩
    · exact .inl (SessionState.canBecome_closed_iff.2 hclosed)

theorem same_after (calls : List SessionCall) :
    (session.after calls).id = session.id ∧ (session.after calls).peer = session.peer := by
  induction calls generalizing session with
  | nil => exact ⟨rfl, rfl⟩
  | cons call calls ih =>
    rw [after_cons]
    rcases hcall : session.call call with ⟨answer, next⟩
    cases responds hcall <;> exact ih

/-- Nothing becomes of a session that is closed. -/
theorem after_of_closed (hclosed : session.state = .closed) (calls : List SessionCall) :
    session.after calls = session := by
  have hone : ∀ call, (session.call call).2 = session := by
    intro call
    rcases hcall : session.call call with ⟨answer, next⟩
    cases responds hcall with
    | refused => rfl
    | awaits hstate => simp [hclosed] at hstate
    | activates _ hstate => simp [hclosed] at hstate
    | closes => exact congrArg (fun state => { session with state }) hclosed.symm
  induction calls with
  | nil => rfl
  | cons call calls ih => rw [after_cons, hone, ih]

/-! ## Any sequence of calls -/

/-- What the answers so far say about a session: it has the one name under which it was activated,
if any, and it was active when it was closed just if it has a name. -/
structure Course (transcript : List Exchange) (session : Session) : Prop where
  username : ∀ username, session.username = some username ↔
    ⟨.activate username, .done⟩ ∈ transcript
  activations : transcript.countP (·.isActivation) = if session.username.isSome then 1 else 0
  departures : transcript.countP (·.isDeparture) =
    if session.username.isSome ∧ session.state = .closed then 1 else 0
  unnamed : session.state = .pending ∨ session.state = .awaitingUsername → session.username = none
  named : session.state = .active → session.username.isSome

theorem Course.call {transcript : List Exchange} (h : Course transcript session)
    (call : SessionCall) :
    Course (transcript ++ [⟨call, (session.call call).1⟩]) (session.call call).2 := by
  rcases hcall : session.call call with ⟨answer, next⟩
  cases responds hcall with
  | refused _ hne hstate =>
    refine ⟨fun u => ?_, ?_, ?_, h.unnamed, h.named⟩
    · rw [h.username]
      simp
    · rw [List.countP_append, h.activations]
      simp [Exchange.isActivation]
    · rw [List.countP_append, h.departures]
      simp [Exchange.isDeparture]
  | awaits hstate =>
    have hnone : session.username = none := h.unnamed (.inl hstate)
    refine ⟨fun u => ?_, ?_, ?_, fun _ => hnone, fun hactive => by simp at hactive⟩
    · rw [h.username]
      simp
    · rw [List.countP_append, h.activations]
      simp [Exchange.isActivation]
    · rw [List.countP_append, h.departures]
      simp [Exchange.isDeparture, hnone]
  | activates username hstate =>
    have hnone : session.username = none := h.unnamed (.inr hstate)
    refine ⟨fun u => ?_, ?_, ?_, fun hstate => by simp at hstate, fun _ => rfl⟩
    · have hnot : ⟨.activate u, .done⟩ ∉ transcript := by
        rw [← h.username, hnone]
        simp
      simp [hnot, eq_comm]
    · rw [List.countP_append, h.activations]
      simp [Exchange.isActivation, hnone]
    · rw [List.countP_append, h.departures]
      simp [Exchange.isDeparture, hnone]
  | closes =>
    refine ⟨fun u => ?_, ?_, ?_, fun hstate => by simp at hstate, fun hstate => by simp at hstate⟩
    · rw [h.username]
      simp
    · rw [List.countP_append, h.activations]
      simp [Exchange.isActivation]
    · rw [List.countP_append, h.departures]
      have hunnamed := h.unnamed
      have hnamed := h.named
      cases hstate : session.state <;> simp_all [Exchange.isDeparture]

section

variable (id : ConnectionId) (peer : Address) (calls : List SessionCall)

theorem course : Course (({ id, peer } : Session).transcript calls)
    (({ id, peer } : Session).after calls) := by
  induction calls using List.reverseRecOn with
  | nil => exact ⟨fun u => by simp [after, transcript], rfl, rfl, fun _ => rfl, fun h => nomatch h⟩
  | append_singleton calls call ih =>
    rw [transcript_snoc, after_snoc]
    exact ih.call call

/-- Being active means having been activated, and not closed since. -/
theorem state_eq_active_iff :
    (({ id, peer } : Session).after calls).state = .active ↔
      ∃ before username since, calls = before ++ .activate username :: since ∧
        ((({ id, peer } : Session).after before).call (.activate username)).1 = .done ∧
        .close ∉ since := by
  -- The last of the calls: either it is the activation, or there was one before it.
  induction calls using List.reverseRecOn with
  | nil => simp [after]
  | append_singleton calls call ih =>
    rw [after_snoc]
    rcases hcall : (({ id, peer } : Session).after calls).call call with ⟨answer, next⟩
    have hresponds := responds hcall
    constructor
    · intro hactive
      cases hresponds with
      | refused _ hne =>
        obtain ⟨before, username, since, rfl, hdone, hsince⟩ := ih.1 hactive
        refine ⟨before, username, since ++ [call], by simp, hdone, ?_⟩
        simp [hsince, Ne.symm hne]
      | awaits => cases hactive
      | activates username => exact ⟨calls, username, [], rfl, by rw [hcall], List.not_mem_nil⟩
      | closes => cases hactive
    · rintro ⟨before, username, since, hcalls, hdone, hsince⟩
      rcases List.eq_nil_or_concat since with rfl | ⟨since, last, rfl⟩
      · obtain ⟨rfl, hlast⟩ := List.append_inj' hcalls rfl
        cases hlast
        rw [hcall] at hdone
        cases hresponds with
        | refused => cases hdone
        | activates => rfl
      · rw [List.concat_eq_append, ← List.cons_append, ← List.append_assoc] at hcalls
        obtain ⟨hbefore, hlast⟩ := List.append_inj' hcalls rfl
        cases hlast
        simp only [List.concat_eq_append, List.mem_append, List.mem_singleton, not_or] at hsince
        have hactive := ih.2 ⟨before, username, since, hbefore, hdone, hsince.1⟩
        cases hresponds with
        | refused => exact hactive
        | awaits hstate => simp [hactive] at hstate
        | activates => rfl
        | closes => exact absurd rfl hsince.2

/-- A session that is activated had no name, and has that name for good. -/
theorem activated_for_good {username : String}
    (hdone : ((({ id, peer } : Session).after calls).call (.activate username)).1 = .done) :
    (({ id, peer } : Session).after calls).username = none ∧
      ∀ more, (((({ id, peer } : Session).after calls).call (.activate username)).2.after
        more).username = some username := by
  constructor
  · rcases hcall : (({ id, peer } : Session).after calls).call (.activate username) with
      ⟨answer, next⟩
    rw [hcall] at hdone
    cases responds hcall with
    | refused => cases hdone
    | activates _ hstate => exact (course id peer calls).unnamed (.inr hstate)
  · intro more
    rw [← after_cons, ← after_append, (course id peer _).username, transcript_append, transcript,
      hdone]
    simp

/-- **The life of a session**, whatever calls are made of it, in any order and any number of times.
It stays the session of its connection; at most one activation succeeds, before which it has no name
and after which it has that name for good; its departure is announced at most once, by the first
close after the activation; and nothing becomes of it once it is closed. Each further call is
refused, with the states in question, and then changes nothing, or leads to its state as it may,
where a session that is closed can be closed again to no effect. -/
theorem life_of_a_session :
    let new : Session := { id, peer }
    let session := new.after calls
    (session.id = id ∧ session.peer = peer) ∧
      ((new.transcript calls).countP (·.isActivation) ≤ 1 ∧
        ∀ username, session.username = some username ↔
          ⟨.activate username, .done⟩ ∈ new.transcript calls) ∧
      (new.transcript calls).countP (·.isDeparture) ≤ 1 ∧
      (session.state = .closed → ∀ more, session.after more = session) ∧
      ∀ call,
        let answer := (session.call call).1
        let next := (session.call call).2
        (∀ username, call = .activate username → answer = .done →
          session.username = none ∧ ∀ more, (next.after more).username = some username) ∧
        (answer = .closed true ↔ call = .close ∧
          ∃ before username since, calls = before ++ .activate username :: since ∧
            ((new.after before).call (.activate username)).1 = .done ∧ .close ∉ since) ∧
        (∀ e, answer = .refused e →
          next = session ∧ e = .invalidTransition session.state call.target ∧
            session.state.canBecome call.target = false) ∧
        ((∀ e, answer ≠ .refused e) → next.state = call.target ∧
          (session.state.canBecome call.target = true ∨
            call = .close ∧ session.state = .closed ∧ next = session)) := by
  intro new session
  have hcourse : Course (new.transcript calls) session := course id peer calls
  refine ⟨?_, ⟨?_, hcourse.username⟩, ?_, fun hclosed => after_of_closed hclosed, fun call => ?_⟩
  · exact same_after calls
  · rw [hcourse.activations]
    split <;> decide
  · rw [hcourse.departures]
    split <;> decide
  · refine ⟨?_, ?_, fun e => call_refused, call_heeded⟩
    · rintro username rfl hdone
      exact activated_for_good id peer calls hdone
    · exact call_eq_closed_iff.trans (and_congr_right fun _ => state_eq_active_iff id peer calls)

end

end Session

end ChatRoom
