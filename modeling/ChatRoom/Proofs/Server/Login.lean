import ChatRoom.Proofs.Server.Dialogue

/-!
# The decision on a login

Whether a client is let in is decided twice, with other clients in between. When its connection
begins (`Connects`), a server with as many active sessions as it may have (`IsCrowded`) refuses it.
When it has answered, the first check that its answer fails decides (`verdict`), and only then is
its name looked for among those that are active; a server to which nothing of this applies welcomes
it.

`login_decided` says that a turn does what the verdict says (`Turn.Obeys`), in any run. One case is
apart: outboxes that are to be larger than an outbox can be. Such a server hangs up on every answer,
so it turns away names that the verdict welcomes (`oversized_outbox_drops_alice`).
-/

namespace ChatRoom

open Text

/-- The outboxes of a plan are to be larger than an outbox can be. -/
def Plan.IsOversized (plan : Plan) : Prop :=
  Outbox.maxCapacity < max plan.settings.outboxCapacity (plan.settings.historyLines + 3)

instance (plan : Plan) : Decidable plan.IsOversized := inferInstanceAs (Decidable (_ < _))

namespace Server

variable {δ : Type}

/-! ## The verdict -/

instance (server : Server δ) (username : String) : Decidable (server.IsActive username) :=
  inferInstanceAs (Decidable (∃ c ∈ server.connections, _))

/-- As many sessions are active as may be. -/
def IsCrowded (server : Server δ) : Prop :=
  ∃ max ∈ server.limits.activeSessions,
    max ≤ server.connections.countP (·.session.state = .active)

instance (server : Server δ) : Decidable server.IsCrowded :=
  inferInstanceAs (Decidable (∃ max ∈ server.limits.activeSessions, _))

/-- What a client that was asked for a name comes to. -/
inductive Verdict where
  /-- The connection ends without a word. -/
  | dropped
  | refused (rejection : Rejection)
  | welcomed (username : String)
  deriving DecidableEq

/-- The verdict on what first comes in on a connection. -/
def verdict (server : Server δ) : Incoming → Verdict
  | .line line =>
    let username := trim line
    if username = "" then .refused .emptyUsername
    else if server.limits.usernameLength ≤ username.utf8ByteSize then .refused .usernameTooLong
    else if username ∉ server.allowList then .refused .notAllowed
    else if server.IsActive username then .refused .usernameInUse
    else if server.IsCrowded then .refused .serverFull
    else .welcomed username
  | .failed (.lineTooLong _) => .refused .usernameTooLong
  | .failed _ | .finished => .dropped

/-! ## Who is on the roster -/

theorem Consistent.size_eq {server : Server δ} {rs : List Record} (h : server.Consistent rs) :
    server.room.roster.size = server.connections.countP (·.session.state = .active) := by
  have hactive : ((server.connections.filter (·.session.state = .active)).map (·.id)).Nodup :=
    h.ids.sublist (List.filter_sublist.map _)
  have hperm : (server.room.roster.entries.map (·.id)).Perm
      ((server.connections.filter (·.session.state = .active)).map (·.id)) := by
    refine (List.perm_ext_iff_of_nodup h.wellFormed.ids hactive).2 fun id => ?_
    constructor
    · intro hid
      obtain ⟨e, he, rfl⟩ := List.mem_map.1 hid
      obtain ⟨c, hc, hid⟩ := List.mem_map.1 (h.seated e he)
      cases h.accounted c hc with
      | active _ _ hstate =>
        exact hid ▸ List.mem_map_of_mem (List.mem_filter.2 ⟨hc, decide_eq_true hstate⟩)
      | waiting _ _ _ hentry => exact absurd hid.symm (hentry e he)
      | refused _ _ _ hentry => exact absurd hid.symm (hentry e he)
      | ended _ _ _ _ hentry => exact absurd hid.symm (hentry e he)
    · intro hid
      obtain ⟨c, hc, rfl⟩ := List.mem_map.1 hid
      obtain ⟨hc, hstate⟩ := List.mem_filter.1 hc
      obtain ⟨_, e, -, -, he, hid, -⟩ := h.active hc (of_decide_eq_true hstate)
      exact hid ▸ List.mem_map_of_mem he
  have hlength := hperm.length_eq
  rw [List.length_map, List.length_map] at hlength
  rw [Roster.size, hlength, List.countP_eq_length_filter]

theorem Consistent.find?_of_active {server : Server δ} {rs : List Record} {c : Connection}
    (h : server.Consistent rs) (hc : c ∈ server.connections)
    (hstate : c.session.state = .active) {username : String}
    (hname : c.session.username = some username) :
    server.room.roster.find? username = some c.id := by
  obtain ⟨name, e, -, hname', he, hid, hu, -⟩ := h.active hc hstate
  obtain rfl : name = username := Option.some_inj.1 (hname'.symm.trans hname)
  exact h.wellFormed.find?_eq_some_iff.2 ⟨e, h.wellFormed.entryOf?_eq_some_iff.2 ⟨he, hid⟩, hu⟩

theorem Consistent.isFull_iff {server : Server δ} {rs : List Record} (h : server.Consistent rs)
    (hlimit : server.room.roster.limit = server.limits.activeSessions) :
    server.room.roster.isFull = true ↔ server.IsCrowded := by
  unfold Roster.isFull IsCrowded
  rw [hlimit, h.size_eq]
  cases server.limits.activeSessions <;> simp

theorem SameSetup.limit_eq {plan : Plan} {host : Host δ} {start server : Server δ}
    (hstart : plan.start host = .ok start) (h : start.SameSetup server) :
    server.room.roster.limit = server.limits.activeSessions := by
  have hsetup := Plan.setsUp_of_start hstart
  rw [h.limit, hsetup.limit, h.limits, hsetup.limits]
  rfl

/-- A connection that comes in is refused or asked for a name, by whether the roster is full. -/
theorem accept_eq (server : Server δ) (carrier : Carrier) (address : Address) :
    ∃ c : Connection, (server.accept carrier address).connections = server.connections ++ [c] ∧
      c.id = ⟨server.nextId⟩ ∧ c.isOpen = !server.room.roster.isFull ∧
      c.sent = if server.room.roster.isFull then ["SERVER_FULL"] else ["REQ_USERNAME"] := by
  refine ⟨_, rfl, ?_⟩
  cases server.room.roster.isFull with
  | true => exact ⟨rfl, rfl, rfl⟩
  | false => exact ⟨rfl, rfl, rfl⟩

/-! ## What a turn comes to -/

variable [LogDevice δ]

/-- The connection of a turn ends, with these lines if its peer is there; nothing else happens. -/
structure Turn.Ends (turn : Turn δ) (lines : List String) : Prop where
  own : ∃ c, turn.next.connection? turn.connection.id = some c ∧ c.isOpen = false ∧
    c.sent = turn.connection.sent ++ if turn.connection.isReachable then lines else []
  others : ∀ id, id ≠ turn.connection.id →
    turn.next.connection? id = turn.server.connection? id
  room : turn.next.room = turn.server.room
  records : turn.records = []

/-- The connection of a turn becomes active under a name. Its greeting is sent if its peer is there,
and waits as a whole if that takes nothing. -/
structure Turn.Welcomes (turn : Turn δ) (username : String) : Prop where
  own : ∃ c, turn.next.connection? turn.connection.id = some c ∧ c.isOpen = true ∧
    c.session.state = .active ∧ c.session.username = some username ∧
    (c.sent = turn.connection.sent ++
      if turn.connection.isReachable ∧ turn.connection.isTaking then
        turn.server.room.greeting username
      else []) ∧
    c.waiting turn.next.room.roster =
      if turn.connection.isTaking then [] else turn.server.room.greeting username
  roster : turn.next.room.roster.find? username = some turn.connection.id
  records : turn.records = [⟨turn.connection.id, .joined username⟩]

/-- The turn does what a verdict says. -/
def Turn.Obeys (turn : Turn δ) : Verdict → Prop
  | .dropped => turn.Ends []
  | .refused rejection => turn.Ends rejection.lines
  | .welcomed username => turn.Welcomes username

variable {turn : Turn δ} {rs : List Record}

theorem Quiet.ends (h : turn.server.Quiet) (hs : turn.Served) {lines : List String}
    (hreceive : turn.server.receive turn.connection turn.incoming =
      ((turn.connection.send lines).hangUp, turn.server.room))
    (hmoves : turn.moves = []) : turn.Ends lines := by
  have hafter : turn.after = (turn.connection.send lines).hangUp := congrArg Prod.fst hreceive
  have hroom : turn.room = turn.server.room := congrArg Prod.snd hreceive
  have hid : (turn.connection.send lines).hangUp.id = turn.connection.id := id_send _ _
  have hnext : turn.next = turn.server.update (turn.connection.send lines).hangUp :=
    hafter ▸ h.next_of_room_eq hs hroom
  refine ⟨⟨(turn.connection.send lines).hangUp, ?_, rfl, sent_send _ _⟩, fun id hne => ?_, ?_, ?_⟩
  · rw [hnext, connection?_update, hs.isFound, Option.map_some, if_pos hid.symm]
  · rw [hnext, connection?_update]
    cases hc : turn.server.connection? id with
    | none => rfl
    | some d =>
      have hd : d.id ≠ (turn.connection.send lines).hangUp.id := by
        rw [hid, id_of_connection? hc]
        exact hne
      rw [Option.map_some, if_neg hd]
  · rw [hnext]
    rfl
  · rw [Turn.records, hmoves]
    rfl

/-! ## What a login comes to -/

section Login

variable {server : Server δ} {c : Connection} {line username : String}

theorem login_of_error (hfits : ¬ Outbox.maxCapacity < server.outboxCapacity) {e : SessionError}
    (hcheck : server.allowList.check server.limits line = .error e) :
    server.login c line = (c.decline e, server.room) ∧ server.loginMoves c line = [] := by
  rw [login, loginMoves, if_neg hfits, if_neg hfits, hcheck]
  exact ⟨rfl, rfl⟩

theorem login_of_arrive_error (hfits : ¬ Outbox.maxCapacity < server.outboxCapacity)
    {e : SessionError} (hcheck : server.allowList.check server.limits line = .ok username)
    (hadmits : ¬ server.room.roster.Admits username)
    (harrive : { server.room with
        roster := (server.room.roster.openOutbox server.outboxCapacity).2 }.arrive c.id username
      (server.room.roster.openOutbox server.outboxCapacity).1 = .error e) :
    server.login c line = (c.decline e, server.room) ∧ server.loginMoves c line = [] := by
  rw [login, loginMoves, if_neg hfits, if_neg hfits, hcheck]
  dsimp only
  rw [harrive, if_neg hadmits]
  exact ⟨rfl, rfl⟩

theorem login_of_taken (hfits : ¬ Outbox.maxCapacity < server.outboxCapacity)
    (hcheck : server.allowList.check server.limits line = .ok username)
    (htaken : ∃ entry ∈ server.room.roster.entries, entry.username = username) :
    server.login c line = (c.refuse .usernameInUse, server.room) ∧
      server.loginMoves c line = [] := by
  refine login_of_arrive_error (e := .usernameInUse username) hfits hcheck ?_ ?_
  · rintro ⟨hfree, -⟩
    obtain ⟨entry, he, hu⟩ := htaken
    exact hfree entry he hu
  · exact Room.arrive_of_register (Roster.register_of_taken htaken)

theorem login_of_full (hfits : ¬ Outbox.maxCapacity < server.outboxCapacity)
    (hcheck : server.allowList.check server.limits line = .ok username)
    (hfree : ∀ entry ∈ server.room.roster.entries, entry.username ≠ username)
    (hfull : server.room.roster.isFull = true) :
    server.login c line = (c.refuse .serverFull, server.room) ∧
      server.loginMoves c line = [] := by
  unfold Roster.isFull at hfull
  split at hfull
  · cases hfull
  · rename_i max hlimit
    have hle : max ≤ server.room.roster.size := of_decide_eq_true hfull
    refine login_of_arrive_error (e := .serverFull max) hfits hcheck ?_ ?_
    · rintro ⟨-, hroom⟩
      exact Nat.not_le_of_lt (hroom max hlimit) hle
    · exact Room.arrive_of_register (Roster.register_of_full hfree hlimit hle)

end Login

/-! ## The verdict is carried out -/

variable {line : String}

theorem Turn.receive_line (hstate : turn.connection.session.state = .awaitingUsername)
    (hline : turn.incoming = .line line) :
    turn.server.receive turn.connection turn.incoming =
        turn.server.login turn.connection line ∧
      turn.moves = turn.server.loginMoves turn.connection line := by
  simp only [Turn.moves, receive, Server.moves, hstate, hline, and_self]

theorem Quiet.refuses (hq : turn.server.Quiet) (hs : turn.Served)
    (hstate : turn.connection.session.state = .awaitingUsername)
    (hline : turn.incoming = .line line) {rejection : Rejection}
    (hlogin : turn.server.login turn.connection line =
        (turn.connection.refuse rejection, turn.server.room) ∧
      turn.server.loginMoves turn.connection line = []) : turn.Ends rejection.lines := by
  obtain ⟨hreceive, hmoves⟩ := Turn.receive_line hstate hline
  exact hq.ends hs (hreceive.trans hlogin.1) (hmoves.trans hlogin.2)

theorem Turn.welcomes (hc : turn.server.Consistent rs) (hq : turn.server.Quiet)
    (hs : turn.Served) (hfits : ¬ Outbox.maxCapacity < turn.server.outboxCapacity)
    (hstate : turn.connection.session.state = .awaitingUsername)
    (hline : turn.incoming = .line line) {username : String}
    (hcheck : turn.server.allowList.check turn.server.limits line = .ok username)
    (hadmits : turn.server.room.roster.Admits username) : turn.Welcomes username := by
  obtain ⟨hreceive, hmoves⟩ := Turn.receive_line hstate hline
  obtain ⟨hlogin, hsteps⟩ := login_of_admits hfits hstate hcheck hadmits
  have hafter : turn.after =
      welcome turn.connection username turn.server.room.roster.outboxes.length :=
    congrArg Prod.fst (hreceive.trans hlogin)
  have hwaiting : turn.after.waiting turn.room.roster = turn.server.room.greeting username := by
    rw [hafter]
    exact hq.pending_welcomed hc.wellFormed hadmits (hmoves.trans hsteps)
  have hrecords : turn.records = [⟨turn.connection.id, .joined username⟩] := by
    rw [Turn.records, hmoves, hsteps]
    rfl
  have hfound : turn.next.connection? turn.connection.id =
      some (turn.after.collect turn.room.roster) := by
    rw [turn.connection?_next, hs.isFound, Option.map_some, if_pos turn.id_after.symm]
  have hsession : (turn.after.collect turn.room.roster).session =
      { turn.connection.session with state := .active, username := some username } := by
    rw [session_collect, hafter]
    rfl
  refine ⟨⟨_, hfound, ?_, ?_, ?_, ?_, ?_⟩, ?_, hrecords⟩
  · rw [isOpen_collect, hafter]
    exact hs.isOpen
  · rw [hsession]
  · rw [hsession]
  · rw [sent_collect, hwaiting, hafter]
    rfl
  · have hdelivered := (hq.handled hs).waiting_deliver (turn.after_mem_handled hs)
    have hroster : turn.handled.room.roster = turn.room.roster := rfl
    rwa [hroster, hwaiting, turn.isTaking_after] at hdelivered
  · have hid : (turn.after.collect turn.room.roster).id = turn.connection.id :=
      (id_collect _ _).trans turn.id_after
    rw [← hid]
    refine (hc.next hs).find?_of_active (List.mem_of_find?_eq_some hfound) ?_ ?_
    · rw [hsession]
    · rw [hsession]

theorem Quiet.drops (hq : turn.server.Quiet) (hs : turn.Served)
    (hstate : turn.connection.session.state = .awaitingUsername)
    (hreceive : turn.server.receive turn.connection turn.incoming =
      turn.server.part turn.connection) (hmoves : turn.moves = []) : turn.Ends [] := by
  have hclose : turn.connection.session.close.1 = false := by simp [Session.close, hstate]
  refine hq.ends hs ?_ hmoves
  rw [hreceive, part, hclose, send_nil]
  rfl

theorem Turn.obeys_line (hc : turn.server.Consistent rs) (hq : turn.server.Quiet)
    (hs : turn.Served) (hlimit : turn.server.room.roster.limit = turn.server.limits.activeSessions)
    (hfits : ¬ Outbox.maxCapacity < turn.server.outboxCapacity)
    (hstate : turn.connection.session.state = .awaitingUsername)
    (hline : turn.incoming = .line line) : turn.Obeys (turn.server.verdict (.line line)) := by
  have hfull := hc.isFull_iff hlimit
  unfold verdict
  dsimp only
  by_cases hempty : trim line = ""
  · rw [if_pos hempty]
    apply hq.refuses hs hstate hline
    apply login_of_error (e := .emptyUsername) hfits
    simp [AllowList.check, hempty]
  rw [if_neg hempty]
  by_cases hlong : turn.server.limits.usernameLength ≤ (trim line).utf8ByteSize
  · rw [if_pos hlong]
    apply hq.refuses hs hstate hline
    apply login_of_error hfits
      (e := .usernameTooLong (trim line).utf8ByteSize turn.server.limits.usernameLength)
    simp [AllowList.check, hempty, hlong]
  rw [if_neg hlong]
  by_cases hlisted : trim line ∈ turn.server.allowList
  · rw [if_neg (not_not.2 hlisted)]
    have hcheck : turn.server.allowList.check turn.server.limits line = .ok (trim line) :=
      AllowList.check_eq_ok.2 ⟨rfl, hempty, Nat.lt_of_not_le hlong, hlisted⟩
    have htaken := hc.isActive_iff_entry (trim line)
    by_cases hactive : turn.server.IsActive (trim line)
    · rw [if_pos hactive]
      exact hq.refuses hs hstate hline (login_of_taken hfits hcheck (htaken.1 hactive))
    rw [if_neg hactive]
    have hfree : ∀ entry ∈ turn.server.room.roster.entries, entry.username ≠ trim line :=
      fun entry he hu => hactive (htaken.2 ⟨entry, he, hu⟩)
    by_cases hcrowded : turn.server.IsCrowded
    · rw [if_pos hcrowded]
      exact hq.refuses hs hstate hline (login_of_full hfits hcheck hfree (hfull.2 hcrowded))
    rw [if_neg hcrowded]
    have hroom : turn.server.room.roster.isFull = false :=
      Bool.eq_false_iff.2 fun h => hcrowded (hfull.1 h)
    exact Turn.welcomes hc hq hs hfits hstate hline hcheck
      ⟨hfree, Roster.isFull_eq_false_iff.1 hroom⟩
  · rw [if_pos hlisted]
    apply hq.refuses hs hstate hline
    apply login_of_error (e := .notAllowed (trim line)) hfits
    simp [AllowList.check, hempty, hlong, hlisted]

/-- **The verdict is carried out**, whatever first comes in. -/
theorem Turn.obeys_verdict (hc : turn.server.Consistent rs) (hq : turn.server.Quiet)
    (hs : turn.Served) (hlimit : turn.server.room.roster.limit = turn.server.limits.activeSessions)
    (hstate : turn.connection.session.state = .awaitingUsername)
    (hfits : ∀ line, turn.incoming = .line line →
      ¬ Outbox.maxCapacity < turn.server.outboxCapacity) :
    turn.Obeys (turn.server.verdict turn.incoming) := by
  cases hi : turn.incoming with
  | line line => exact Turn.obeys_line hc hq hs hlimit (hfits line hi) hstate hi
  | finished =>
    exact hq.drops hs hstate (by simp only [receive, hstate, hi])
      (by simp only [Turn.moves, Server.moves, hstate, hi])
  | failed e =>
    cases e with
    | lineTooLong max =>
      exact hq.ends hs (by simp only [receive, hstate, hi]; rfl)
        (by simp only [Turn.moves, Server.moves, hstate, hi])
    | _ =>
      exact hq.drops hs hstate (by simp only [receive, hstate, hi])
        (by simp only [Turn.moves, Server.moves, hstate, hi])

/-! ## Runs -/

/-- What a run finds at its end. -/
theorem run_setup {plan : Plan} {host : Host δ} {start : Server δ}
    (hstart : plan.start host = .ok start) (events : List NetworkEvent) :
    (start.run events).Conversing (start.turns events) ∧ start.SameSetup (start.run events) :=
  (invariant_conversing.and (invariant_sameSetup start)).run
    ⟨conversing_of_start hstart, .refl start⟩ (Plan.isNew_of_start hstart).keepsNoLines events

/-- **The decision on a login.** A client whose connection begins, at once or when it is established,
is told that the server is full exactly if as many sessions are active as may be then, and is asked
for a name otherwise. When something first comes in from it, whatever others have done since, it was
told nothing else, and the turn does what the verdict says: to end the connection, with the lines of
a rejection or with none, and to change nothing else; or to make the name active, to record that,
and to greet the newcomer. Only a plan whose outboxes are larger than an outbox can be hangs up on
every line. -/
theorem login_decided {plan : Plan} {host : Host δ} {start : Server δ}
    (hstart : plan.start host = .ok start) (events : List NetworkEvent) :
    let server := start.run events
    (∀ carrier address event, server.Connects carrier address event →
      ∃ c : Connection, (server.step event).connections = server.connections ++ [c] ∧
        (server.step event).room = server.room ∧ c.id = ⟨server.nextId⟩ ∧
        (server.room.roster.isFull = true ↔ server.IsCrowded) ∧
        c.isOpen = !decide server.IsCrowded ∧
        c.sent = if server.IsCrowded then ["SERVER_FULL"] else ["REQ_USERNAME"]) ∧
    ∀ id turn, firstTurn? id (start.turns events) = some turn →
      turn.connection.id = id ∧ turn.connection.sent = ["REQ_USERNAME"] ∧
      turn.server.limits = plan.settings.limits ∧
      turn.server.allowList = plan.allowList.getD
        (AllowList.load plan.settings.limits (host.file plan.settings.usersFile)) ∧
      (¬ plan.IsOversized ∨ (∀ line, turn.incoming ≠ .line line) →
        turn.Obeys (turn.server.verdict turn.incoming)) ∧
      (plan.IsOversized → ∀ line, turn.incoming = .line line → turn.Ends []) := by
  intro server
  have hsetup := Plan.setsUp_of_start hstart
  refine ⟨fun carrier address event hconnects => ?_, fun id turn hfirst => ?_⟩
  · obtain ⟨hconversing, hsame⟩ := run_setup hstart events
    have hfull := hconversing.consistent.isFull_iff (hsame.limit_eq hstart)
    obtain ⟨upgrading, hstep⟩ := hconnects.step_eq
    obtain ⟨c, hconnections, hid, hopen, hsent⟩ :=
      ({ server with upgrading } : Server δ).accept_eq carrier address
    have hdecide : server.room.roster.isFull = decide server.IsCrowded :=
      Bool.eq_iff_iff.2 (hfull.trans decide_eq_true_iff.symm)
    rw [hstep]
    refine ⟨c, hconnections, rfl, hid, hfull, hopen.trans (congrArg not hdecide), ?_⟩
    rw [hsent]
    exact if_congr hfull rfl rfl
  · obtain ⟨hid, before, after, hts, hnone⟩ := firstTurn?_eq_some hfirst
    obtain ⟨⟨hconversing, hsame⟩, hs⟩ :=
      (invariant_conversing.and (invariant_sameSetup start)).atTurn
        ⟨conversing_of_start hstart, .refl start⟩ hsetup.isNew.keepsNoLines hts
    obtain ⟨hstate, hsent⟩ := (hconversing.courses _ hs.mem).unanswered hs.isOpen (hid ▸ hnone)
    have hcapacity : turn.server.outboxCapacity =
        max plan.settings.outboxCapacity (plan.settings.historyLines + 3) :=
      hsame.outboxCapacity.trans hsetup.outboxCapacity
    refine ⟨hid, hsent, hsame.limits.trans hsetup.limits, hsame.allowList.trans hsetup.allowList,
      fun hfits => ?_, fun hlarge line hline => ?_⟩
    · refine Turn.obeys_verdict hconversing.consistent hconversing.quiet hs
        (hsame.limit_eq hstart) hstate fun line hline => ?_
      rw [hcapacity]
      exact hfits.resolve_right fun hnoline => hnoline line hline
    · obtain ⟨hreceive, hmoves⟩ := Turn.receive_line hstate hline
      have hlarge' : Outbox.maxCapacity < turn.server.outboxCapacity := hcapacity ▸ hlarge
      apply hconversing.quiet.ends hs
      · rw [hreceive, login, if_pos hlarge', send_nil]
      · rw [hmoves, loginMoves, if_pos hlarge']

/-- One session may be active. Ann and Bob are both asked, Ann answers first, and so Bob is too late
and Carl is not even asked. -/
theorem login_decided_ann_bob :
    let plan : Plan := {
      settings := { webSocketAddress := some "127.0.0.1:8081", maxSessions := some 1 }
      allowList := some ⟨["ann", "bob"]⟩ }
    let host := Host.inMemory { clock := ⟨2024, 5, 1, 12, 0, 0⟩ }
    let peer : Arrival := .peer (.v4 #v[127, 0, 0, 1] 4000)
    let events : List NetworkEvent := [.accepts .tcp peer, .accepts .webSocket peer,
      .wire ⟨1⟩ (.bytes (Utf8.encode "ann\n")), .wire ⟨2⟩ (.frame (.text [Utf8.encode " bob "]))]
    ∃ start, plan.start host = .ok start ∧
      (∃ c, ((start.run events).step (.accepts .tcp peer)).connections =
        (start.run events).connections ++ [c] ∧ c.sent = ["SERVER_FULL"]) ∧
      (∃ turn, firstTurn? ⟨1⟩ (start.turns events) = some turn ∧ turn.Welcomes "ann") ∧
      ∃ turn, firstTurn? ⟨2⟩ (start.turns events) = some turn ∧ turn.Ends ["SERVER_FULL"] := by
  intro plan host peer events
  have hfits : ¬ plan.IsOversized := by decide
  obtain ⟨start, hstart, hlistening, hcrowded, hann, hbob⟩ : ∃ start, plan.start host = .ok start ∧
      (start.run events).isListening .tcp = true ∧ (start.run events).IsCrowded ∧
      (firstTurn? ⟨1⟩ (start.turns events)).map (fun t => t.server.verdict t.incoming) =
        some (.welcomed "ann") ∧
      (firstTurn? ⟨2⟩ (start.turns events)).map (fun t => t.server.verdict t.incoming) =
        some (.refused .serverFull) :=
    ⟨_, rfl, by decide +kernel, by decide +kernel, by decide +kernel, by decide +kernel⟩
  obtain ⟨haccept, hturns⟩ := login_decided hstart events
  refine ⟨start, hstart, ?_, ?_, ?_⟩
  · obtain ⟨c, hconnections, -, -, -, -, hsent⟩ :=
      haccept .tcp (.v4 #v[127, 0, 0, 1] 4000) _ (.inl ⟨rfl, hlistening⟩)
    exact ⟨c, hconnections, hsent.trans (if_pos hcrowded)⟩
  · obtain ⟨turn, hfirst, hverdict⟩ := Option.map_eq_some_iff.1 hann
    obtain ⟨-, -, -, -, hobeys, -⟩ := hturns _ turn hfirst
    have hwelcomed := hobeys (.inl hfits)
    rw [hverdict] at hwelcomed
    exact ⟨turn, hfirst, hwelcomed⟩
  · obtain ⟨turn, hfirst, hverdict⟩ := Option.map_eq_some_iff.1 hbob
    obtain ⟨-, -, -, -, hobeys, -⟩ := hturns _ turn hfirst
    have hrefused := hobeys (.inl hfits)
    rw [hverdict] at hrefused
    exact ⟨turn, hfirst, hrefused⟩

/-- With outboxes of one line more than an outbox can hold, Alice is to be welcomed and is not. -/
theorem oversized_outbox_drops_alice :
    let plan : Plan := {
      settings := {
        webSocketAddress := some "127.0.0.1:8081", outboxCapacity := Outbox.maxCapacity + 1 }
      allowList := some ⟨["alice"]⟩ }
    let host := Host.inMemory { clock := ⟨2024, 5, 1, 12, 0, 0⟩ }
    let events : List NetworkEvent := [.accepts .tcp (.peer (.v4 #v[127, 0, 0, 1] 4000)),
      .wire ⟨1⟩ (.bytes (Utf8.encode "alice\n"))]
    ∃ start, plan.start host = .ok start ∧
      (start.run events).connections.map Connection.sent = [["REQ_USERNAME"]] ∧
      ∃ turn, firstTurn? ⟨1⟩ (start.turns events) = some turn ∧
        turn.server.verdict turn.incoming = .welcomed "alice" ∧
        ¬ turn.Obeys (.welcomed "alice") := by
  intro plan host events
  obtain ⟨start, hstart, hsent, hturn⟩ : ∃ start, plan.start host = .ok start ∧
      (start.run events).connections.map Connection.sent = [["REQ_USERNAME"]] ∧
      (firstTurn? ⟨1⟩ (start.turns events)).map
        (fun t => (t.server.verdict t.incoming, t.records)) = some (.welcomed "alice", []) :=
    ⟨_, rfl, by decide +kernel, by decide +kernel⟩
  obtain ⟨turn, hfirst, hboth⟩ := Option.map_eq_some_iff.1 hturn
  obtain ⟨hverdict, hrecords⟩ := Prod.mk.inj hboth
  refine ⟨start, hstart, hsent, turn, hfirst, hverdict, fun hobeys => ?_⟩
  have hjoined := hobeys.records
  rw [hrecords] at hjoined
  cases hjoined

end Server

end ChatRoom
