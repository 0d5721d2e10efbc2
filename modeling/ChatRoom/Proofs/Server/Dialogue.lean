import ChatRoom.Proofs.Server.Quiet
import ChatRoom.Proofs.Server.Truth

/-!
# The dialogue of a connection

What a connection is sent from beginning to end. It is refused at once, or is asked for a name; with
the first thing that comes in on it (`firstTurn?`) it is turned away or welcomed; and once it was
greeted it is sent what is live (`Course`). Every turn keeps this (`Course.next`), because what is
queued for a connection in a turn is its greeting if it is new and live if it is not; and sending
what waits keeps it (`Course.deliver`), because that is sent as a whole.

`wire_grammar` says so in the lines themselves, and that no live line reads like the request for a
name or a marker of the replay: those hold no colon, and every live line does
(`Notice.IsLive.colon`).
-/

namespace ChatRoom

open Text

/-! ## Live lines -/

theorem mem_toList_append {c : Char} {s t : String} :
    c ∈ (s ++ t).toList ↔ c ∈ s.toList ∨ c ∈ t.toList := by
  rw [String.toList_append, List.mem_append]

theorem colon_of_front {front : String} (h : ':' ∈ front.toList) (name rest : String) :
    ':' ∈ (front ++ name ++ rest).toList :=
  mem_toList_append.2 (.inl (mem_toList_append.2 (.inl h)))

theorem colon_of_middle (front text : String) {middle : String} (h : ':' ∈ middle.toList) :
    ':' ∈ (front ++ middle ++ text).toList :=
  mem_toList_append.2 (.inl (mem_toList_append.2 (.inr h)))

theorem Event.colon (event : Event) : ':' ∈ event.line.toList := by
  cases event with
  | joined username => exact colon_of_front (by decide) _ _
  | left username => exact colon_of_front (by decide) _ _
  | global sender text => exact colon_of_middle _ text (by decide)
  | direct sender recipient text => exact colon_of_middle _ text (by decide)
  | group name sender text => exact colon_of_middle _ text (by decide)

/-- A live line names its kind or its sender, in front of a colon. -/
theorem Notice.IsLive.colon {n : Notice} (h : n.IsLive) : ':' ∈ n.line.toList := by
  cases n with
  | replay line => exact h.elim
  | event event => exact event.colon
  | reply reply =>
    cases reply with
    | welcome username => exact h.elim
    | directFrom sender text => exact colon_of_middle _ text (by decide)
    | directTo recipient text => exact colon_of_middle _ text (by decide)
    | groupFrom name sender text => exact colon_of_middle _ text (by decide)
    | groupTo name text => exact colon_of_middle _ text (by decide)
    | userNotFound username => exact colon_of_front (by decide) username _
    | groupNotFound name => exact colon_of_front (by decide) name _
    | malformed command => cases command <;> decide

namespace Server

variable {δ : Type}

/-- The turn in which something first came in on a connection. -/
def firstTurn? (id : ConnectionId) (ts : List (Turn δ)) : Option (Turn δ) :=
  ts.find? (·.connection.id = id)

theorem firstTurn?_snoc (id : ConnectionId) (ts : List (Turn δ)) (turn : Turn δ) :
    firstTurn? id (ts ++ [turn]) =
      (firstTurn? id ts).or (if turn.connection.id = id then some turn else none) := by
  rw [firstTurn?, List.find?_append, firstTurn?, List.find?_singleton]
  simp only [decide_eq_true_eq]

theorem firstTurn?_snoc_of_ne {id : ConnectionId} {turn : Turn δ} (h : id ≠ turn.connection.id)
    (ts : List (Turn δ)) : firstTurn? id (ts ++ [turn]) = firstTurn? id ts := by
  rw [firstTurn?_snoc, if_neg (Ne.symm h), Option.or_none]

theorem firstTurn?_snoc_of_isSome {id : ConnectionId} {ts : List (Turn δ)}
    (h : (firstTurn? id ts).isSome) (turn : Turn δ) :
    firstTurn? id (ts ++ [turn]) = firstTurn? id ts := by
  obtain ⟨first, hfirst⟩ := Option.isSome_iff_exists.1 h
  rw [firstTurn?_snoc, hfirst, Option.some_or]

theorem firstTurn?_snoc_of_eq_none {ts : List (Turn δ)} {turn : Turn δ}
    (h : firstTurn? turn.connection.id ts = none) :
    firstTurn? turn.connection.id (ts ++ [turn]) = some turn := by
  rw [firstTurn?_snoc, h, if_pos rfl, Option.none_or]

theorem firstTurn?_eq_some {id : ConnectionId} {ts : List (Turn δ)} {turn : Turn δ}
    (h : firstTurn? id ts = some turn) : turn.connection.id = id ∧
      ∃ before after, ts = before ++ turn :: after ∧ firstTurn? id before = none := by
  obtain ⟨hid, before, after, hts, hnone⟩ := List.find?_eq_some_iff_append.1 h
  refine ⟨of_decide_eq_true hid, before, after, hts, List.find?_eq_none.2 fun t ht => ?_⟩
  simpa using hnone t ht

/-! ## The course of a dialogue -/

/-- How far the dialogue with a connection for which these lines wait has come, after these turns of
the server. -/
inductive Course (ts : List (Turn δ)) (queued : List String) (c : Connection) : Prop
  /-- The server was full. -/
  | refused (hopen : c.isOpen = false) (houtbox : c.outbox = none)
      (hsent : c.sent = Rejection.serverFull.lines)
  | waiting (hopen : c.isOpen = true) (hstate : c.session.state = .awaitingUsername)
      (houtbox : c.outbox = none) (hsent : c.sent = [usernameRequest])
      (hfirst : firstTurn? c.id ts = none)
  | turnedAway (lines : List String) (hopen : c.isOpen = false)
      (hname : c.session.username = none) (houtbox : c.outbox = none)
      (hsent : c.sent = usernameRequest :: lines)
      (hlines : lines = [] ∨ ∃ rejection : Rejection, lines = rejection.lines)
  /-- The peer was gone before its greeting was sent, and hears nothing of it. -/
  | unheard (username : String) (hname : c.session.username = some username)
      (hreach : c.isReachable = false) (hsent : c.sent = [usernameRequest])
      (hfirst : (firstTurn? c.id ts).isSome)
  /-- What was said and what waits are together the greeting and what is live. -/
  | welcomed (turn : Turn δ) (line : String) (said live : List String)
      (hname : c.session.username = some (trim line)) (hsent : c.sent = usernameRequest :: said)
      (hwhole : said ++ queued = turn.server.room.greeting (trim line) ++ live)
      (hgreeted : said = [] ∨ turn.server.room.greeting (trim line) <+: said)
      (hlive : ∀ l ∈ live, ∃ n : Notice, n.IsLive ∧ n.line = l)
      (hfirst : firstTurn? c.id ts = some turn) (hline : turn.incoming = .line line)

namespace Course

variable {ts : List (Turn δ)} {queued : List String} {c : Connection}

/-- What the server keeps for itself does not matter, nor whether the peer takes anything, and the
peer may be gone. -/
theorem hear (h : Course ts queued c) {isReachable : Bool}
    (hgone : c.isReachable = false → isReachable = false) (unread : List UInt8)
    (isTaking : Bool) : Course ts queued { c with unread, isReachable, isTaking } := by
  cases h with
  | refused hopen houtbox hsent => exact .refused hopen houtbox hsent
  | waiting hopen hstate houtbox hsent hfirst => exact .waiting hopen hstate houtbox hsent hfirst
  | turnedAway lines hopen hname houtbox hsent hlines =>
    exact .turnedAway lines hopen hname houtbox hsent hlines
  | unheard username hname hreach hsent hfirst =>
    exact .unheard username hname (hgone hreach) hsent hfirst
  | welcomed turn line said live hname hsent hwhole hgreeted hlive hfirst hline =>
    exact .welcomed turn line said live hname hsent hwhole hgreeted hlive hfirst hline

theorem snoc (h : Course ts queued c) {turn : Turn δ}
    (hsame : firstTurn? c.id (ts ++ [turn]) = firstTurn? c.id ts) :
    Course (ts ++ [turn]) queued c := by
  cases h with
  | refused hopen houtbox hsent => exact .refused hopen houtbox hsent
  | waiting hopen hstate houtbox hsent hfirst =>
    exact .waiting hopen hstate houtbox hsent (hsame.trans hfirst)
  | turnedAway lines hopen hname houtbox hsent hlines =>
    exact .turnedAway lines hopen hname houtbox hsent hlines
  | unheard username hname hreach hsent hfirst =>
    exact .unheard username hname hreach hsent (hsame ▸ hfirst)
  | welcomed first line said live hname hsent hwhole hgreeted hlive hfirst hline =>
    exact .welcomed first line said live hname hsent hwhole hgreeted hlive (hsame.trans hfirst)
      hline

/-- Whoever has no name yet, and is still served, was asked for one and told nothing else. -/
theorem asked (h : Course ts queued c) (hopen : c.isOpen = true)
    (hname : c.session.username = none) :
    c.session.state = .awaitingUsername ∧ c.outbox = none ∧ c.sent = [usernameRequest] ∧
      firstTurn? c.id ts = none := by
  cases h with
  | waiting _ hstate houtbox hsent hfirst => exact ⟨hstate, houtbox, hsent, hfirst⟩
  | refused hclosed => rw [hopen] at hclosed; cases hclosed
  | turnedAway _ hclosed => rw [hopen] at hclosed; cases hclosed
  | unheard _ hsome => rw [hname] at hsome; cases hsome
  | welcomed _ _ _ _ hsome => rw [hname] at hsome; cases hsome

/-- Whoever has not answered, and is still served, was asked for a name and told nothing else. -/
theorem unanswered (h : Course ts queued c) (hopen : c.isOpen = true)
    (hfirst : firstTurn? c.id ts = none) :
    c.session.state = .awaitingUsername ∧ c.sent = [usernameRequest] := by
  cases h with
  | waiting _ hstate _ hsent _ => exact ⟨hstate, hsent⟩
  | refused hclosed => rw [hopen] at hclosed; cases hclosed
  | turnedAway _ hclosed => rw [hopen] at hclosed; cases hclosed
  | unheard _ _ _ _ hsome => rw [hfirst] at hsome; cases hsome
  | welcomed _ _ _ _ _ _ _ _ _ hsome => rw [hfirst] at hsome; cases hsome

/-- Whoever is active has answered. -/
theorem answered (h : Course ts queued c) (hopen : c.isOpen = true)
    (hstate : c.session.state = .active) : (firstTurn? c.id ts).isSome := by
  cases h with
  | waiting _ hwaiting => rw [hstate] at hwaiting; cases hwaiting
  | refused hclosed => rw [hopen] at hclosed; cases hclosed
  | turnedAway _ hclosed => rw [hopen] at hclosed; cases hclosed
  | unheard _ _ _ _ hfirst => exact hfirst
  | welcomed _ _ _ _ _ _ _ _ _ hfirst => rw [hfirst, Option.isSome_some]

/-- What was said stays said when the connection ends, and what waits still does. -/
theorem hangUp (h : Course ts queued c) (hstate : c.session.state = .active) :
    Course ts queued c.hangUp := by
  cases h with
  | refused hopen houtbox hsent => exact .refused rfl houtbox hsent
  | waiting hopen hwaiting => rw [hstate] at hwaiting; cases hwaiting
  | turnedAway lines hopen hname houtbox hsent hlines =>
    exact .turnedAway lines rfl hname houtbox hsent hlines
  | unheard username hname hreach hsent hfirst =>
    exact .unheard username hname hreach hsent hfirst
  | welcomed turn line said live hname hsent hwhole hgreeted hlive hfirst hline =>
    exact .welcomed turn line said live hname hsent hwhole hgreeted hlive hfirst hline

/-- What is live may be queued behind what waits. -/
theorem queue (h : Course ts queued c) {new : List String}
    (hnew : ∀ l ∈ new, ∃ n : Notice, n.IsLive ∧ n.line = l) : Course ts (queued ++ new) c := by
  cases h with
  | refused hopen houtbox hsent => exact .refused hopen houtbox hsent
  | waiting hopen hstate houtbox hsent hfirst => exact .waiting hopen hstate houtbox hsent hfirst
  | turnedAway lines hopen hname houtbox hsent hlines =>
    exact .turnedAway lines hopen hname houtbox hsent hlines
  | unheard username hname hreach hsent hfirst =>
    exact .unheard username hname hreach hsent hfirst
  | welcomed turn line said live hname hsent hwhole hgreeted hlive hfirst hline =>
    refine .welcomed turn line said (live ++ new) hname hsent ?_ hgreeted (fun l hl => ?_)
      hfirst hline
    · rw [← List.append_assoc, hwhole, List.append_assoc]
    · rcases List.mem_append.1 hl with hl | hl
      · exact hlive l hl
      · exact hnew l hl

/-- What waits may be sent, to a peer that is there or not. -/
theorem send (h : Course ts queued c) (hnone : c.outbox = none → queued = []) :
    Course ts [] (c.send queued) := by
  have hid : (c.send queued).id = c.id := id_send _ _
  have hsaid : (c.send queued).sent = c.sent ++ if c.isReachable then queued else [] :=
    sent_send _ _
  cases h with
  | refused hopen houtbox hsent =>
    rw [hnone houtbox, send_nil]
    exact .refused hopen houtbox hsent
  | waiting hopen hstate houtbox hsent hfirst =>
    rw [hnone houtbox, send_nil]
    exact .waiting hopen hstate houtbox hsent hfirst
  | turnedAway lines hopen hname houtbox hsent hlines =>
    rw [hnone houtbox, send_nil]
    exact .turnedAway lines hopen hname houtbox hsent hlines
  | unheard username hname hreach hsent hfirst =>
    refine .unheard username ?_ ?_ ?_ (hid ▸ hfirst)
    · rw [session_send, hname]
    · rw [isReachable_send, hreach]
    · rw [hsaid, hreach, hsent]
      rfl
  | welcomed turn line said live hname hsent hwhole hgreeted hlive hfirst hline =>
    have hname' : (c.send queued).session.username = some (trim line) := by
      rw [session_send, hname]
    have hfirst' : firstTurn? (c.send queued).id ts = some turn := hid ▸ hfirst
    cases hreach : c.isReachable with
    | true =>
      rw [hreach, hsent] at hsaid
      refine .welcomed turn line (said ++ queued) live hname' hsaid ?_ (.inr ?_) hlive hfirst' hline
      · rw [List.append_nil, hwhole]
      · rw [hwhole]
        exact List.prefix_append _ _
    | false =>
      rw [hreach, hsent] at hsaid
      have hgone : (c.send queued).sent = usernameRequest :: said := by
        rw [hsaid]
        exact List.append_nil _
      rcases hgreeted with rfl | ⟨rest, rfl⟩
      · refine .unheard (trim line) hname' ?_ hgone ?_
        · rw [isReachable_send, hreach]
        · rw [hfirst', Option.isSome_some]
      · rw [List.append_assoc] at hwhole
        obtain rfl := List.append_cancel_left hwhole
        refine .welcomed turn line _ rest hname' hgone (List.append_nil _)
          (.inr (List.prefix_append _ _)) (fun l hl => ?_) hfirst' hline
        exact hlive l (List.mem_append_left _ hl)

end Course

/-- The lines that a connection was sent, with a history of at most `limit` lines. -/
inductive Grammatical (limit : Nat) (ts : List (Turn δ)) (c : Connection) : Prop
  | refused (hsent : c.sent = ["SERVER_FULL"])
  /-- It was not welcomed, or its peer is gone or takes nothing. -/
  | asked (hsent : c.sent = ["REQ_USERNAME"])
      (hwhy : c.session.username = none ∨ c.isReachable = false ∨ c.isTaking = false)
  | rejected (rejection : Rejection) (hopen : c.isOpen = false)
      (hsent : c.sent = "REQ_USERNAME" :: rejection.lines)
  /-- Welcomed under the name in the first line that came in, shown the history of that time, if
  there was any, and from then on told what is live. -/
  | welcomed (turn : Turn δ) (line : String) (history live : List String)
      (hfirst : firstTurn? c.id ts = some turn) (hline : turn.incoming = .line line)
      (hname : c.session.username = some (trim line))
      (hhistory : history = turn.server.room.history.lines) (hlimit : history.length ≤ limit)
      (hsent : c.sent = "REQ_USERNAME" :: ("Welcome, " ++ trim line ++ "!") ::
        (if history = [] then [] else historyStart :: history ++ [historyEnd]) ++ live)
      (hlive : ∀ l ∈ live, ∃ n : Notice, n.IsLive ∧ n.line = l)
      (hplain : ∀ l ∈ live, l ≠ historyStart ∧ l ≠ historyEnd ∧ l ≠ usernameRequest)

/-! ## Turns -/

theorem Consistent.username_eq_none {server : Server δ} {rs : List Record} {c : Connection}
    (h : server.Consistent rs) (hc : c ∈ server.connections) (hopen : c.isOpen = true)
    (hstate : c.session.state ≠ .active) : c.session.username = none := by
  cases h.accounted c hc with
  | waiting _ _ hname => exact hname
  | active _ _ hactive => exact absurd hactive hstate
  | refused hclosed => rw [hopen] at hclosed; cases hclosed
  | ended _ hclosed => rw [hopen] at hclosed; cases hclosed

/-- All dialogues of a server are in course. -/
def InCourse (server : Server δ) (ts : List (Turn δ)) : Prop :=
  ∀ c ∈ server.connections, Course ts (c.waiting server.room.roster) c

namespace InCourse

variable {server : Server δ} {ts : List (Turn δ)} {c : Connection}

theorem accept (h : server.InCourse ts) (hfresh : firstTurn? ⟨server.nextId⟩ ts = none)
    (carrier : Carrier) (address : Address) : (server.accept carrier address).InCourse ts := by
  intro c hc
  rcases mem_accept hc with hc | rfl | rfl
  · exact h c hc
  · exact .refused rfl rfl rfl
  · exact .waiting rfl rfl rfl rfl hfresh

theorem hear (h : server.InCourse ts) (hc : server.connection? c.id = some c) {isReachable : Bool}
    (hgone : c.isReachable = false → isReachable = false) (unread : List UInt8)
    (isTaking : Bool) : (server.update { c with unread, isReachable, isTaking }).InCourse ts := by
  intro d hd
  rcases mem_update hd with rfl | ⟨hd, -⟩
  · exact (h c (List.mem_of_find?_eq_some hc)).hear hgone unread isTaking
  · exact h d hd

/-- The dialogues go on when what waits is sent. -/
theorem deliver (h : server.InCourse ts) (hf : server.Furnished) : server.deliver.InCourse ts := by
  intro d hd
  obtain ⟨c, hc, rfl⟩ := mem_deliver hd
  rw [hf.waiting_deliver hc, Connection.collect]
  split
  · exact (h c hc).send fun hnone => waiting_eq_nil hnone _
  · exact h c hc

end InCourse

variable [LogDevice δ] {ts : List (Turn δ)} {rs : List Record} {turn : Turn δ}

omit [LogDevice δ] in
/-- A connection that is turned away is told why, if its peer is there, and has no outbox. -/
theorem Course.of_turnedAway {c : Connection} (hname : c.session.username = none)
    (hsent : c.sent = [usernameRequest]) (houtbox : c.outbox = none) {lines : List String}
    (hlines : lines = [] ∨ ∃ rejection : Rejection, lines = rejection.lines)
    (queued : List String) : Course ts queued (c.send lines).hangUp := by
  have hnone : (c.send lines).hangUp.outbox = none := (outbox_send _ _).trans houtbox
  have hname' : (c.send lines).hangUp.session.username = none :=
    (congrArg Session.username (session_send c lines)).trans hname
  refine .turnedAway (if c.isReachable then lines else []) rfl hname' hnone ?_ ?_
  · have hsaid := sent_send c lines
    rw [hsent] at hsaid
    exact hsaid
  · split
    · exact hlines
    · exact .inl rfl

/-- How the dialogue goes on with the connection that something came in on. -/
theorem Course.after
    (h : Course ts (turn.connection.waiting turn.server.room.roster) turn.connection)
    (hc : turn.server.Consistent rs) (hq : turn.server.Quiet) (hs : turn.Served) :
    Course (ts ++ [turn]) (turn.after.waiting turn.room.roster) turn.after := by
  obtain ⟨live, hwaiting, hlive⟩ := hq.exists_waiting hs.mem
  have hreceives := turn.receives
  generalize turn.after = next, hmoves : turn.moves = steps at hreceives ⊢
  cases hreceives with
  | turnedAway lines hstate hlines =>
    have hname := hc.username_eq_none hs.mem hs.isOpen hstate
    obtain ⟨-, houtbox, hsent, -⟩ := h.asked hs.isOpen hname
    exact .of_turnedAway hname hsent houtbox hlines _
  | welcomed line username hstate hline hcheck hadmits =>
    have hname := hc.username_eq_none hs.mem hs.isOpen (by simp [hstate])
    obtain ⟨-, -, hsent, hfirst⟩ := h.asked hs.isOpen hname
    obtain rfl : username = trim line := (AllowList.check_eq_ok.1 hcheck).1
    -- nothing of the greeting is sent yet, and nothing is queued behind it
    refine .welcomed turn line [] [] rfl hsent ?_ (.inl rfl)
      (fun l hl => absurd hl List.not_mem_nil) (firstTurn?_snoc_of_eq_none hfirst) hline
    rw [List.append_nil]
    exact hq.pending_welcomed hc.wellFormed hadmits hmoves
  | routed sender line hstate husername hline =>
    have hsome := h.answered hs.isOpen hstate
    rw [hwaiting]
    exact (h.snoc (firstTurn?_snoc_of_isSome hsome turn)).queue hlive
  | parted hstate =>
    have hsome := h.answered hs.isOpen hstate
    have hsame : turn.connection.hangUp.waiting turn.room.roster =
        turn.connection.waiting turn.room.roster := waiting_of_outbox _ rfl
    rw [hsame, hwaiting]
    exact ((h.snoc (firstTurn?_snoc_of_isSome hsome turn)).hangUp hstate).queue hlive

/-- **The dialogues go on** as they should, whatever comes in. -/
theorem InCourse.next (h : turn.server.InCourse ts) (hc : turn.server.Consistent rs)
    (hq : turn.server.Quiet) (hs : turn.Served) : turn.next.InCourse (ts ++ [turn]) := by
  have hhandled : turn.handled.InCourse (ts ++ [turn]) := by
    intro c hmem
    rcases turn.mem_handled hmem with rfl | ⟨hm, hne⟩
    · exact (h _ hs.mem).after hc hq hs
    · rw [turn.id_after] at hne
      obtain ⟨live, hwaiting, hlive⟩ := hq.exists_waiting hm
      have hcourse := (h c hm).snoc (firstTurn?_snoc_of_ne hne ts)
      exact hwaiting ▸ hcourse.queue hlive
  exact hhandled.deliver (hq.handled hs)

/-! ## Runs -/

/-- All dialogues of a server are in course, and what keeps them there. -/
structure Conversing (server : Server δ) (ts : List (Turn δ)) : Prop where
  consistent : server.Consistent (ts.flatMap Turn.records)
  quiet : server.Quiet
  numbered : ∀ t ∈ ts, t.connection.id ∈ server.connections.map (·.id)
  courses : server.InCourse ts

theorem Conversing.firstTurn?_nextId {server : Server δ} (h : server.Conversing ts) :
    firstTurn? ⟨server.nextId⟩ ts = none := by
  refine List.find?_eq_none.2 fun t ht hid => ?_
  have hbelow := h.consistent.below _ (h.numbered t ht)
  rw [of_decide_eq_true hid] at hbelow
  exact Nat.lt_irrefl _ hbelow

theorem invariant_conversing : Invariant fun (server : Server δ) ts => server.Conversing ts where
  listeners server ts isListening upgrading h :=
    ⟨h.consistent.congr rfl rfl rfl rfl fun c hc => ⟨c, hc, rfl, rfl⟩,
      invariant_quiet.listeners server ts isListening upgrading h.quiet, h.numbered, h.courses⟩
  accept server ts carrier address h := by
    obtain ⟨new, hconnections, -⟩ := server.connections_accept carrier address
    refine ⟨h.consistent.accept carrier address, h.quiet.accept carrier address, fun t ht => ?_,
      h.courses.accept h.firstTurn?_nextId carrier address⟩
    rw [hconnections, List.map_append]
    exact List.mem_append_left _ (h.numbered t ht)
  hear server ts c unread stays hc h := by
    refine ⟨h.consistent.hear hc unread _, h.quiet.hear hc unread _, ?_,
      h.courses.hear hc (fun hgone => ?_) unread c.isTaking⟩
    · rw [ids_update]
      exact h.numbered
    · rw [hgone, Bool.false_and]
  pace server ts c isTaking hc h := by
    have hupdate := h.courses.hear hc id c.unread isTaking
    have hfurnished : (server.update { c with isTaking }).Furnished :=
      h.quiet.update (List.mem_of_find?_eq_some hc) rfl rfl
    refine ⟨h.consistent.pace hc isTaking, h.quiet.pace hc isTaking, ?_,
      hupdate.deliver hfurnished⟩
    rw [ids_deliver, ids_update]
    exact h.numbered
  turn turn ts hs _ h := by
    refine ⟨?_, h.quiet.next hs, fun t ht => ?_, h.courses.next h.consistent h.quiet hs⟩
    · rw [List.flatMap_append, List.flatMap_singleton]
      exact h.consistent.next hs
    · rw [turn.ids_next]
      rcases List.mem_append.1 ht with ht | ht
      · exact h.numbered t ht
      · rw [List.mem_singleton.1 ht]
        exact List.mem_map_of_mem hs.mem

theorem conversing_of_start {plan : Plan} {host : Host δ} {start : Server δ}
    (hstart : plan.start host = .ok start) : start.Conversing [] := by
  have hsetup := Plan.setsUp_of_start hstart
  refine ⟨hsetup.isNew.consistent, hsetup.quiet, fun t ht => absurd ht List.not_mem_nil, ?_⟩
  rw [InCourse, hsetup.isNew.connections]
  exact fun c hc => absurd hc List.not_mem_nil

/-- The history that is shown is never longer than the plan has it. -/
theorem length_history_le {plan : Plan} {host : Host δ} {start : Server δ}
    (hstart : plan.start host = .ok start) {events : List NetworkEvent} {turn : Turn δ}
    (hturn : turn ∈ start.turns events) :
    turn.server.room.history.lines.length ≤ plan.settings.historyLines := by
  have hsetup := Plan.setsUp_of_start hstart
  obtain ⟨before, after, hts⟩ := List.append_of_mem hturn
  obtain ⟨⟨hquiet, hsame⟩, -⟩ := (invariant_quiet.and (invariant_sameSetup start)).atTurn
    ⟨hsetup.quiet, .refl start⟩ hsetup.isNew.keepsNoLines hts
  calc turn.server.room.history.lines.length
    _ ≤ turn.server.room.history.capacity := hquiet.shown
    _ = start.room.history.capacity := hsame.capacity
    _ = plan.settings.historyLines := hsetup.capacity

/-- **The wire grammar.** What a connection has been sent is the one line that refuses it; or the
request for a name, if it was not welcomed or its peer does not take what it is sent; or that
request and one rejection, after which it is closed; or the request, a welcome under the name it
answered with, the history of that time between its markers if there was any, and then live lines,
none of which reads like the request or a marker. -/
theorem wire_grammar {plan : Plan} {host : Host δ} {start : Server δ}
    (hstart : plan.start host = .ok start) (events : List NetworkEvent) :
    ∀ c ∈ (start.run events).connections,
      Grammatical plan.settings.historyLines (start.turns events) c := by
  have hnew : start.IsNew := Plan.isNew_of_start hstart
  have hconversing := invariant_conversing.run (conversing_of_start hstart) hnew.keepsNoLines events
  intro c hc
  cases hconversing.courses c hc with
  | refused _ _ hsent => exact .refused hsent
  | waiting hopen hstate _ hsent _ =>
    have hname := hconversing.consistent.username_eq_none hc hopen (by simp [hstate])
    exact .asked hsent (.inl hname)
  | unheard _ _ hreach hsent _ => exact .asked hsent (.inr (.inl hreach))
  | turnedAway lines hopen hname _ hsent hlines =>
    rcases hlines with rfl | ⟨rejection, rfl⟩
    · exact .asked hsent (.inl hname)
    · exact .rejected rejection hopen hsent
  | welcomed turn line said live hname hsent hwhole hgreeted hlive hfirst hline =>
    rcases hgreeted with rfl | ⟨heard, rfl⟩
    · refine .asked hsent (.inr (.inr (Bool.eq_false_iff.2 fun htaking => ?_)))
      -- what is taken does not wait, and a greeting is never empty
      rw [hconversing.quiet.empty c hc htaking] at hwhole
      cases hwhole
    · rw [List.append_assoc] at hwhole
      obtain rfl := List.append_cancel_left hwhole
      have hlimit := length_history_le hstart (List.mem_of_find?_eq_some hfirst)
      have hheard : ∀ l ∈ heard, ∃ n : Notice, n.IsLive ∧ n.line = l :=
        fun l hl => hlive l (List.mem_append_left _ hl)
      refine .welcomed turn line _ heard hfirst hline hname rfl hlimit hsent hheard fun l hl => ?_
      obtain ⟨n, hn, rfl⟩ := hheard l hl
      have hcolon := hn.colon
      refine ⟨fun h => ?_, fun h => ?_, fun h => ?_⟩
      · exact absurd (h ▸ hcolon) (by decide)
      · exact absurd (h ▸ hcolon) (by decide)
      · exact absurd (h ▸ hcolon) (by decide)

/-- Ann and Bob are welcomed, Bob over WebSocket and with a history of one line; Carl is not on the
list, Dave finds the server full, and Ann vanishes in the middle of a line. -/
theorem wire_grammar_ann_bob :
    let plan : Plan := {
      settings := {
        webSocketAddress := some "127.0.0.1:8081", historyLines := 1, maxSessions := some 2 }
      allowList := some ⟨["ann", "bob"]⟩ }
    let host := Host.inMemory { clock := ⟨2024, 5, 1, 12, 0, 0⟩ }
    let peer : Arrival := .peer (.v4 #v[127, 0, 0, 1] 4000)
    let events : List NetworkEvent := [.accepts .tcp peer, .accepts .webSocket peer,
      .accepts .tcp peer, .wire ⟨1⟩ (.bytes (Utf8.encode " ann \nhi\n")),
      .wire ⟨3⟩ (.bytes (Utf8.encode "carl\n")), .wire ⟨2⟩ (.frame (.text [Utf8.encode "bob"])),
      .accepts .tcp peer, .wire ⟨1⟩ (.bytes (Utf8.encode "PRIVMSG bob")), .wire ⟨1⟩ .vanishes]
    ∃ start, plan.start host = .ok start ∧
      (start.run events).connections.map Connection.sent =
        [["REQ_USERNAME", "Welcome, ann!", "ann: hi", "System: bob has joined the chat."],
          ["REQ_USERNAME", "Welcome, bob!", "--- Recent Chat History ---", "ann: hi",
            "--- End of History ---", "System: ann has left the chat."],
          ["REQ_USERNAME", "NOT_ALLOWED", "Username not on allowed list."],
          ["SERVER_FULL"]] ∧
      ∀ c ∈ (start.run events).connections, Grammatical 1 (start.turns events) c := by
  intro plan host peer events
  have hstart : plan.start host = .ok _ := rfl
  exact ⟨_, hstart, by decide +kernel, wire_grammar hstart events⟩

/-- Bob takes nothing for a while. His outbox holds three lines, and what comes after those is lost,
but not what comes once he goes on. -/
example :
    let plan : Plan := {
      settings := { historyLines := 0, outboxCapacity := 0 }
      allowList := some ⟨["ann", "bob"]⟩ }
    let host := Host.inMemory { clock := ⟨2024, 5, 1, 12, 0, 0⟩ }
    let peer : Arrival := .peer (.v4 #v[127, 0, 0, 1] 4000)
    let say (id : Nat) (text : String) : NetworkEvent := .wire ⟨id⟩ (.bytes (LineStream.write text))
    let events : List NetworkEvent := [.accepts .tcp peer, .accepts .tcp peer, say 1 "bob",
      .takes ⟨1⟩ false, say 2 "ann", say 2 "one", say 2 "two", say 2 "three", .takes ⟨1⟩ true,
      say 2 "four"]
    (plan.start host).map (fun start => ((start.run events).connection? ⟨1⟩).map (·.sent)) =
      .ok (some ["REQ_USERNAME", "Welcome, bob!", "System: ann has joined the chat.", "ann: one",
        "ann: two", "ann: four"]) := by
  decide +kernel

end Server

end ChatRoom
