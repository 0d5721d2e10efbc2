import ChatRoom.Proofs.Server.Login

/-!
# Sessions and the roster

Two things say who is active: the state of each connection's session, and the roster. They are
changed one after the other, and between two turns they say the same (`Server.Agrees`). A session is
asked to change its state only where it may (`Session.activate_eq_ok`), so the one error that has no
rejection never comes of a login, and whoever is refused is told why (`Turn.answers`).
-/

namespace ChatRoom

/-! ## Errors and rejections -/

namespace SessionError

theorem rejection?_eq_none_iff {e : SessionError} :
    e.rejection? = none ↔ ∃ current target, e = .invalidTransition current target := by
  cases e <;> simp [rejection?]

/-- Only a change of state that is not allowed has no rejection. -/
theorem exists_rejection_iff {e : SessionError} :
    (∃ rejection, e.rejection? = some rejection) ↔
      ∀ current target, e ≠ .invalidTransition current target := by
  rw [← Option.ne_none_iff_exists', Ne, rejection?_eq_none_iff]
  simp only [not_exists, ne_eq]

end SessionError

theorem AllowList.exists_rejection {list : AllowList} {limits : SessionLimits} {line : String}
    {e : SessionError} (h : list.check limits line = .error e) :
    ∃ rejection, e.rejection? = some rejection := by
  unfold check at h
  dsimp only at h
  split at h
  · cases h
    exact ⟨_, rfl⟩
  · split at h
    · cases h
      exact ⟨_, rfl⟩
    · split at h
      · cases h
      · cases h
        exact ⟨_, rfl⟩

theorem Room.exists_rejection {δ : Type} [LogDevice δ] {room : Room δ} {id : ConnectionId}
    {username : String} {box : OutboxId} {e : SessionError}
    (h : room.arrive id username box = .error e) : ∃ rejection, e.rejection? = some rejection := by
  rcases room.roster.admits_or username with ha | ht | ⟨hfree, max, hlimit, hfull⟩
  · rw [arrive, enter, Roster.register_of_admits ha] at h
    cases h
  · rw [arrive_of_register (Roster.register_of_taken ht)] at h
    cases h
    exact ⟨_, rfl⟩
  · rw [arrive_of_register (Roster.register_of_full hfree hlimit hfull)] at h
    cases h
    exact ⟨_, rfl⟩

theorem Session.awaitUsername_eq_ok (id : ConnectionId) (peer : Address) :
    ({ id, peer } : Session).awaitUsername = .ok { id, peer, state := .awaitingUsername } := rfl

namespace Server

variable {δ : Type}

/-! ## Agreement -/

/-- The sessions and the roster say the same about who is active, and under which name. -/
structure Agrees (server : Server δ) : Prop where
  active_iff : ∀ c ∈ server.connections,
    c.session.state = .active ↔ ∃ e ∈ server.room.roster.entries, e.id = c.id
  username_eq : ∀ c ∈ server.connections, ∀ e ∈ server.room.roster.entries, e.id = c.id →
    c.session.username = some e.username
  /-- Nobody is on the roster without a connection. -/
  connected : ∀ e ∈ server.room.roster.entries, ∃ c ∈ server.connections, c.id = e.id
  /-- No two connections, and no two entries, have one number. -/
  ids : (server.connections.map (·.id)).Nodup ∧ (server.room.roster.entries.map (·.id)).Nodup

theorem Consistent.agrees {server : Server δ} {rs : List Record} (h : server.Consistent rs) :
    server.Agrees where
  active_iff c hc := by
    cases h.accounted c hc with
    | active username _ hstate _ hentry =>
      obtain ⟨e, he, hid, -⟩ := hentry
      exact ⟨fun _ => ⟨e, he, hid⟩, fun _ => hstate⟩
    | waiting _ hstate _ hentry | refused _ hstate _ hentry | ended _ _ hstate _ hentry =>
      have hinactive : c.session.state ≠ .active := by simp [hstate]
      exact ⟨fun hactive => absurd hactive hinactive,
        fun ⟨e, he, hid⟩ => absurd hid (hentry e he)⟩
  username_eq c hc e he hid := by
    cases h.accounted c hc with
    | active username _ _ hname hentry =>
      obtain ⟨other, ho, hother, rfl⟩ := hentry
      have hsame : other = e :=
        (h.wellFormed.id_inj ho he).1 (hother.trans hid.symm)
      rw [hname, hsame]
    | waiting _ _ _ hentry | refused _ _ _ hentry | ended _ _ _ _ hentry =>
      exact absurd hid (hentry e he)
  connected e he := by
    obtain ⟨c, hc, hid⟩ := List.mem_map.1 (h.seated e he)
    exact ⟨c, hc, hid⟩
  ids := ⟨h.ids, h.wellFormed.ids⟩

/-! ## The errors of a login -/

variable [LogDevice δ]

/-- The error that a login comes to, if it comes to one: in the check of the name, in the arrival,
or in the change of the session's state. A server that can make no outboxes never gets that far. -/
def loginError? (server : Server δ) (c : Connection) (line : String) : Option SessionError :=
  if Outbox.maxCapacity < server.outboxCapacity then none
  else match server.allowList.check server.limits line with
  | .error e => some e
  | .ok username =>
    match { server.room with
        roster := (server.room.roster.openOutbox server.outboxCapacity).2 }.arrive c.id username
      (server.room.roster.openOutbox server.outboxCapacity).1 with
    | .error e => some e
    | .ok _ =>
      match c.session.activate username with
      | .error e => some e
      | .ok _ => none

/-- What a turn comes to in which a client answers with its name: a rejection, if the login comes to
an error; else a welcome, but that a server that can make no outboxes hangs up. -/
inductive Turn.Answers (turn : Turn δ) (line : String) : Prop
  | refused (e : SessionError) (rejection : Rejection)
      (herror : turn.server.loginError? turn.connection line = some e)
      (hrejection : e.rejection? = some rejection) (hends : turn.Ends rejection.lines)
  | welcomed (username : String) (session : Session)
      (hnone : turn.server.loginError? turn.connection line = none)
      (hcheck : turn.server.allowList.check turn.server.limits line = .ok username)
      (hactivate : turn.connection.session.activate username = .ok session)
      (hsession : turn.after.session = session) (hwelcomes : turn.Welcomes username)
  | dropped (hlarge : Outbox.maxCapacity < turn.server.outboxCapacity) (hends : turn.Ends [])

variable {turn : Turn δ} {rs : List Record} {line : String}

theorem Turn.answers (hc : turn.server.Consistent rs) (hq : turn.server.Quiet) (hs : turn.Served)
    (hstate : turn.connection.session.state = .awaitingUsername)
    (hline : turn.incoming = .line line) : turn.Answers line := by
  have hrefuses {e : SessionError} (herror : turn.server.loginError? turn.connection line = some e)
      (hlogin : turn.server.login turn.connection line =
          (turn.connection.decline e, turn.server.room) ∧
        turn.server.loginMoves turn.connection line = [])
      (hrejection : ∃ rejection, e.rejection? = some rejection) : turn.Answers line := by
    obtain ⟨rejection, hrejection⟩ := hrejection
    have hdecline : turn.connection.decline e = turn.connection.refuse rejection := by
      rw [Connection.decline, hrejection]
    rw [hdecline] at hlogin
    exact .refused e rejection herror hrejection (hq.refuses hs hstate hline hlogin)
  by_cases hfits : Outbox.maxCapacity < turn.server.outboxCapacity
  · obtain ⟨hreceive, hmoves⟩ := Turn.receive_line hstate hline
    refine .dropped hfits (hq.ends hs ?_ ?_)
    · rw [hreceive, login, if_pos hfits, send_nil]
    · rw [hmoves, loginMoves, if_pos hfits]
  cases hcheck : turn.server.allowList.check turn.server.limits line with
  | error e =>
    refine hrefuses ?_ (login_of_error hfits hcheck) (AllowList.exists_rejection hcheck)
    rw [loginError?, if_neg hfits, hcheck]
  | ok username =>
    by_cases hadmits : turn.server.room.roster.Admits username
    · obtain ⟨hreceive, -⟩ := Turn.receive_line hstate hline
      obtain ⟨hlogin, -⟩ := login_of_admits hfits hstate hcheck hadmits
      have hafter := congrArg Prod.fst (hreceive.trans hlogin)
      have harrive := Room.arrive_of_admits turn.connection.id hadmits turn.server.outboxCapacity
      have hactivate := Session.activate_eq_ok hstate username
      refine .welcomed username _ ?_ hcheck hactivate (congrArg Connection.session hafter)
        (Turn.welcomes hc hq hs hfits hstate hline hcheck hadmits)
      rw [loginError?, if_neg hfits, hcheck]
      dsimp only
      rw [harrive, hactivate]
    · obtain ⟨e, harrive⟩ :=
        Room.arrive_of_not_admits turn.connection.id hadmits turn.server.outboxCapacity
      refine hrefuses ?_ (login_of_arrive_error hfits hcheck hadmits harrive)
        (Room.exists_rejection harrive)
      rw [loginError?, if_neg hfits, hcheck]
      dsimp only
      rw [harrive]

/-! ## Runs -/

/-- **Sessions and roster agree**, after every run and before and after each of its turns. Whoever
connects is refused, or its session is asked for a name, which it can be. Whoever answers is refused
with the lines of its error, or its session is made active, which it can be; a line that is too long
is refused too. Neither the check of a name nor an arrival ever reports a change of state. -/
theorem sessions_agree {plan : Plan} {host : Host δ} {start : Server δ}
    (hstart : plan.start host = .ok start) (events : List NetworkEvent) :
    let server := start.run events
    server.Agrees ∧
    (∀ carrier address, ∃ c,
      (server.accept carrier address).connections = server.connections ++ [c] ∧
      if server.room.roster.isFull then
        c.session.state = .closed ∧ c.sent = Rejection.serverFull.lines
      else ({ id := ⟨server.nextId⟩, peer := address } : Session).awaitUsername = .ok c.session) ∧
    (∀ turn ∈ start.turns events, turn.server.Agrees ∧ turn.next.Agrees ∧
      (turn.connection.session.state = .awaitingUsername →
        (∀ line, turn.incoming = .line line → turn.Answers line) ∧
        ∀ max, turn.incoming = .failed (.lineTooLong max) →
          turn.Ends Rejection.usernameTooLong.lines)) ∧
    (∀ (list : AllowList) (limits : SessionLimits) (line : String) (current target : SessionState),
      list.check limits line ≠ .error (.invalidTransition current target)) ∧
    ∀ (room : Room δ) (id : ConnectionId) (username : String) (box : OutboxId)
      (current target : SessionState),
      room.arrive id username box ≠ .error (.invalidTransition current target) := by
  intro server
  have hnew : start.IsNew := Plan.isNew_of_start hstart
  obtain ⟨hconversing, -⟩ := run_setup hstart events
  refine ⟨hconversing.consistent.agrees, fun carrier address => ?_, fun turn hturn => ?_,
    fun list limits line current target h => ?_, fun room id username box current target h => ?_⟩
  · refine ⟨_, rfl, ?_⟩
    cases server.room.roster.isFull with
    | true => exact ⟨rfl, rfl⟩
    | false => exact Session.awaitUsername_eq_ok _ _
  · obtain ⟨before, after, hts⟩ := List.append_of_mem hturn
    obtain ⟨hbefore, hs⟩ := invariant_conversing.atTurn (conversing_of_start hstart)
      hnew.keepsNoLines hts
    have hc := hbefore.consistent
    refine ⟨hc.agrees, (hc.next hs).agrees,
      fun hstate => ⟨fun line hline => ?_, fun max hlong => ?_⟩⟩
    · exact Turn.answers hc hbefore.quiet hs hstate hline
    · refine hbefore.quiet.ends hs ?_ ?_
      · simp only [receive, hstate, hlong]
        rfl
      · simp only [Turn.moves, Server.moves, hstate, hlong]
  · exact SessionError.exists_rejection_iff.1 (AllowList.exists_rejection h) _ _ rfl
  · exact SessionError.exists_rejection_iff.1 (Room.exists_rejection h) _ _ rfl

/-- Ann is active, the second client wants her name too, and the third has not answered yet. -/
theorem sessions_agree_ann_ann :
    let plan : Plan := { allowList := some ⟨["ann", "bob"]⟩ }
    let host := Host.inMemory { clock := ⟨2024, 5, 1, 12, 0, 0⟩ }
    let peer : Arrival := .peer (.v4 #v[127, 0, 0, 1] 4000)
    let events : List NetworkEvent := [.accepts .tcp peer, .accepts .tcp peer, .accepts .tcp peer,
      .wire ⟨1⟩ (.bytes (Utf8.encode "ann\n")), .wire ⟨2⟩ (.bytes (Utf8.encode "ann\n"))]
    ∃ start, plan.start host = .ok start ∧ (start.run events).Agrees ∧
      (start.run events).connections.map (·.session.state) =
        [.active, .closed, .awaitingUsername] ∧
      (start.run events).room.roster.entries.map (·.id) = [⟨1⟩] ∧
      ∃ turn ∈ start.turns events, turn.Ends ["BAD_USERNAME", "Username already in use."] := by
  intro plan host peer events
  obtain ⟨start, hstart, hstates, hentries, hsecond⟩ : ∃ start, plan.start host = .ok start ∧
      (start.run events).connections.map (·.session.state) =
        [.active, .closed, .awaitingUsername] ∧
      (start.run events).room.roster.entries.map (·.id) = [⟨1⟩] ∧
      (firstTurn? ⟨2⟩ (start.turns events)).map (fun t =>
          (t.connection.session.state, t.incoming, t.server.loginError? t.connection "ann")) =
        some (.awaitingUsername, .line "ann", some (.usernameInUse "ann")) :=
    ⟨_, rfl, by decide +kernel, by decide +kernel, by decide +kernel⟩
  obtain ⟨turn, hfirst, hturn⟩ := Option.map_eq_some_iff.1 hsecond
  obtain ⟨hstate, hrest⟩ := Prod.mk.inj hturn
  obtain ⟨hline, herror⟩ := Prod.mk.inj hrest
  have hmem : turn ∈ start.turns events := List.mem_of_find?_eq_some hfirst
  obtain ⟨hagrees, -, hturns, -, -⟩ := sessions_agree hstart events
  refine ⟨start, hstart, hagrees, hstates, hentries, turn, hmem, ?_⟩
  obtain ⟨-, -, hanswers⟩ := hturns turn hmem
  cases (hanswers hstate).1 "ann" hline with
  | refused e rejection herror' hrejection hends =>
    rw [herror] at herror'
    cases herror'
    cases hrejection
    exact hends
  | welcomed username session hnone =>
    rw [herror] at hnone
    cases hnone
  | dropped hlarge =>
    rw [loginError?, if_pos hlarge] at herror
    cases herror

end Server

end ChatRoom
