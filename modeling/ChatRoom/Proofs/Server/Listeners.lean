import Mathlib.Data.List.Perm.Basic
import Mathlib.Data.List.Perm.Subperm
import ChatRoom.Proofs.Reception
import ChatRoom.Proofs.Server.Containment

/-!
# Listeners

A listener goes on until it fails for good or the server is shut down, whatever becomes of the other
(`isListening_run`), and hands over every peer that comes until then. Whoever was handed over is a
client, or will be when its connection is established, with or without listeners
(`Regular.arrived_step`).

A server acts on its listeners only when a peer comes. So what stops a listener comes to nothing
where nobody comes to it any more (`deaf_run`): the server is the same but for its listeners.

An arrival that finds the listener pausing waits its turn, and with time it is accepted like any
other (`exists_run_through`).
-/

namespace ChatRoom

/-! ## What happens to a listener -/

/-- A listener that gets this stops for good. -/
def Arrival.stops : Arrival → Bool
  | peer _ | opening _ | stray => false
  | failure cause => !(TransportError.acceptFailed cause).isTransient

/-- The peer that comes, if its connection is established at once or later. -/
def Arrival.peer? : Arrival → Option Address
  | peer address | opening address => some address
  | stray | failure _ => none

def Arrival.isOpening : Arrival → Bool
  | opening _ => true
  | peer _ | stray | failure _ => false

namespace NetworkEvent

def stops (carrier : Carrier) : NetworkEvent → Bool
  | accepts c arrival => c = carrier && arrival.stops
  | establishes .. | wire .. | takes .. => false
  | shutdown => true

/-- A peer comes to the listener. -/
def seeks (carrier : Carrier) : NetworkEvent → Bool
  | accepts c arrival => c = carrier && arrival.peer?.isSome
  | establishes .. | wire .. | takes .. | shutdown => false

/-- An error after which the listener goes on. -/
def isTransient : NetworkEvent → Bool
  | accepts _ arrival => arrival.pauses
  | establishes .. | wire .. | takes .. | shutdown => false

end NetworkEvent

/-- A plan opens a TCP listener, and a WebSocket listener if there is an address for it. -/
def Plan.opens (plan : Plan) (carrier : Carrier) : Bool :=
  carrier = .tcp || plan.settings.webSocketAddress.isSome

namespace Server

variable {δ : Type} {server other : Server δ} {carrier : Carrier}

/-! ## Servers but for their listeners -/

/-- The server with other listeners. -/
def withListeners (server : Server δ) (isListening : Carrier → Bool) : Server δ :=
  { server with isListening }

/-- The server without its listeners. -/
def deaf (server : Server δ) : Server δ := server.withListeners fun _ => false

theorem eq_of_deaf_eq (h : server.deaf = other.deaf) :
    server = { other with isListening := server.isListening } := by
  have hsame : server.deaf.withListeners server.isListening =
      other.deaf.withListeners server.isListening := by rw [h]
  exact hsame

theorem pace_withListeners (server : Server δ) (isListening : Carrier → Bool) (id : ConnectionId)
    (isTaking : Bool) :
    (server.withListeners isListening).pace id isTaking =
      (server.pace id isTaking).withListeners isListening := by
  have hfind : (server.withListeners isListening).connection? id = server.connection? id := rfl
  unfold pace
  rw [hfind]
  cases server.connection? id with
  | none => rfl
  | some c => rfl

theorem establish_withListeners (server : Server δ) (isListening : Carrier → Bool) (place : Nat)
    (succeeds : Bool) :
    (server.withListeners isListening).establish place succeeds =
      (server.establish place succeeds).withListeners isListening := by
  have hupgrading : (server.withListeners isListening).upgrading = server.upgrading := rfl
  unfold establish
  rw [hupgrading]
  cases server.upgrading[place]? with
  | none => rfl
  | some peer =>
    cases succeeds with
    | true => rfl
    | false => rfl

variable [LogDevice δ]

theorem handle_withListeners (server : Server δ) (isListening : Carrier → Bool) (id : ConnectionId)
    (incoming : Incoming) :
    (server.withListeners isListening).handle id incoming =
      (server.handle id incoming).withListeners isListening := by
  have hfind : (server.withListeners isListening).connection? id = server.connection? id := rfl
  unfold handle
  rw [hfind]
  cases server.connection? id with
  | none => rfl
  | some c =>
    dsimp only
    split
    · rfl
    · rfl

theorem wire_withListeners (server : Server δ) (isListening : Carrier → Bool) (id : ConnectionId)
    (event : WireEvent) :
    (server.withListeners isListening).wire id event =
      (server.wire id event).withListeners isListening := by
  have hall : ∀ (incoming : List Incoming) (s : Server δ),
      incoming.foldl (handle id) (s.withListeners isListening) =
        (incoming.foldl (handle id) s).withListeners isListening := by
    intro incoming
    induction incoming with
    | nil => exact fun s => rfl
    | cons i rest ih => exact fun s => by rw [List.foldl_cons, handle_withListeners, ih]; rfl
  have hfind : (server.withListeners isListening).connection? id = server.connection? id := rfl
  unfold wire
  rw [hfind]
  cases server.connection? id with
  | none => rfl
  | some c =>
    dsimp only
    split
    · exact hall (c.hear server.lineLength event).1 (server.update { c with
        unread := (c.hear server.lineLength event).2
        isReachable := c.isReachable && event != .vanishes })
    · rfl

theorem isListening_wire (server : Server δ) (id : ConnectionId) (event : WireEvent) :
    (server.wire id event).isListening = server.isListening :=
  kept_wire Server.isListening (fun _ _ _ => rfl) server id event

theorem upgrading_wire (server : Server δ) (id : ConnectionId) (event : WireEvent) :
    (server.wire id event).upgrading = server.upgrading :=
  kept_wire Server.upgrading (fun _ _ _ => rfl) server id event

omit [LogDevice δ] in
theorem isListening_establish (server : Server δ) (place : Nat) (succeeds : Bool) :
    (server.establish place succeeds).isListening = server.isListening := by
  have hsame := server.establish_withListeners server.isListening place succeeds
  exact (congrArg isListening hsame :)

/-! ## When a listener stops -/

theorem isListening_step (server : Server δ) (event : NetworkEvent) (carrier : Carrier) :
    (server.step event).isListening carrier =
      (server.isListening carrier && !event.stops carrier) := by
  cases event with
  | shutdown => simp [step, NetworkEvent.stops]
  | establishes place succeeds => simp [step, NetworkEvent.stops, isListening_establish]
  | wire id event => simp [step, NetworkEvent.stops, isListening_wire]
  | takes id isTaking =>
    simp [step, NetworkEvent.stops, kept_pace isListening fun _ _ _ => rfl]
  | accepts c arrival =>
    rw [step]
    cases arrival with
    | peer address => split <;> simp [take, accept, NetworkEvent.stops, Arrival.stops]
    | opening address => split <;> simp [take, NetworkEvent.stops, Arrival.stops]
    | stray => split <;> simp [take, NetworkEvent.stops, Arrival.stops]
    | failure cause =>
      by_cases hc : c = carrier
      · subst hc
        simp only [take, NetworkEvent.stops, Arrival.stops]
        split
        · split <;> simp_all [stopListening]
        · simp_all
      · have hc' : carrier ≠ c := Ne.symm hc
        simp only [take, NetworkEvent.stops, hc, decide_false, Bool.false_and]
        split
        · split <;> simp_all [stopListening]
        · simp

theorem isListening_run (server : Server δ) (events : List NetworkEvent) (carrier : Carrier) :
    (server.run events).isListening carrier =
      (server.isListening carrier && events.all (!·.stops carrier)) := by
  induction events generalizing server with
  | nil => simp [run]
  | cons event events ih =>
    have hrun : server.run (event :: events) = (server.step event).run events := rfl
    rw [hrun, ih, isListening_step, List.all_cons, Bool.and_assoc]

/-! ## What does without listeners -/

/-- What happens to a listener without a peer coming to it concerns the listener only. -/
theorem deaf_step_of_not_peer (server : Server δ) (carrier : Carrier) {arrival : Arrival}
    (h : arrival.peer? = none) :
    (server.step (.accepts carrier arrival)).deaf = server.deaf := by
  rw [step]
  split
  · cases arrival with
    | peer address => cases h
    | opening address => cases h
    | stray => rfl
    | failure cause =>
      rw [take]
      split <;> rfl
  · rfl

theorem deaf_step {event : NetworkEvent} (hsame : server.deaf = other.deaf)
    (hseeks : ∀ carrier, event.seeks carrier = true →
      server.isListening carrier = other.isListening carrier) :
    (server.step event).deaf = (other.step event).deaf := by
  cases event with
  | shutdown => exact hsame
  | wire id event =>
    have hcomm : ∀ s : Server δ, (s.wire id event).deaf = s.deaf.wire id event :=
      fun s => (s.wire_withListeners _ id event).symm
    rw [step, step, hcomm, hcomm, hsame]
  | takes id isTaking =>
    have hcomm : ∀ s : Server δ, (s.pace id isTaking).deaf = s.deaf.pace id isTaking :=
      fun s => (s.pace_withListeners _ id isTaking).symm
    rw [step, step, hcomm, hcomm, hsame]
  | establishes place succeeds =>
    have hcomm : ∀ s : Server δ, (s.establish place succeeds).deaf =
        s.deaf.establish place succeeds :=
      fun s => (s.establish_withListeners _ place succeeds).symm
    rw [step, step, hcomm, hcomm, hsame]
  | accepts carrier arrival =>
    cases hpeer : arrival.peer? with
    | none => rw [deaf_step_of_not_peer _ _ hpeer, deaf_step_of_not_peer _ _ hpeer, hsame]
    | some address =>
      have hlistens := hseeks carrier (by simp [NetworkEvent.seeks, hpeer])
      have htake : (server.take carrier arrival).deaf = (other.take carrier arrival).deaf := by
        have hboth := congrArg (fun s : Server δ => s.take carrier arrival) hsame
        cases arrival with
        | peer => exact hboth
        | opening => exact hboth
        | stray => cases hpeer
        | failure => cases hpeer
      rw [step, step, hlistens]
      split
      · exact htake
      · exact hsame

/-- Two servers that differ in their listeners only go on doing so, as long as a peer comes only
where both listen or neither does. -/
theorem deaf_run {events : List NetworkEvent} (hsame : server.deaf = other.deaf)
    (hseeks : ∀ event ∈ events, ∀ carrier, event.seeks carrier = true →
      server.isListening carrier = other.isListening carrier) :
    (server.run events).deaf = (other.run events).deaf := by
  induction events generalizing server other with
  | nil => exact hsame
  | cons event events ih =>
    refine ih (deaf_step hsame (hseeks event List.mem_cons_self)) fun later hlater carrier hc => ?_
    rw [isListening_step, isListening_step, hseeks later (List.mem_cons_of_mem _ hlater) carrier hc]

/-! ## Who is handed over -/

omit [LogDevice δ] in
/-- Where the clients came from, in the order in which their connections began. -/
def handed (server : Server δ) : List (Carrier × Address) :=
  server.connections.map fun c => (c.carrier, c.session.peer)

omit [LogDevice δ] in
/-- Where all those came from who were handed over: the clients, and the peers whose connections are
still being established. -/
def arrived (server : Server δ) : List (Carrier × Address) := server.handed ++ server.upgrading

omit [LogDevice δ] in
/-- Who is handed over in an event. -/
def callers (server : Server δ) : NetworkEvent → List (Carrier × Address)
  | .accepts carrier arrival =>
    if server.isListening carrier then arrival.peer?.toList.map (carrier, ·) else []
  | .establishes .. | .wire .. | .takes .. | .shutdown => []

omit [LogDevice δ] in
/-- Whose connections begin in an event. -/
def begun (server : Server δ) : NetworkEvent → List (Carrier × Address)
  | .accepts carrier (.peer address) =>
    if server.isListening carrier then [(carrier, address)] else []
  | .establishes place true => server.upgrading[place]?.toList
  | .accepts _ (.opening _) | .accepts _ .stray | .accepts _ (.failure _) | .establishes _ false
  | .wire .. | .takes .. | .shutdown => []

omit [LogDevice δ] in
/-- Whose connections an event leaves to be established. -/
def opened (server : Server δ) : NetworkEvent → List (Carrier × Address)
  | .accepts carrier (.opening address) =>
    if server.isListening carrier then [(carrier, address)] else []
  | .accepts _ (.peer _) | .accepts _ .stray | .accepts _ (.failure _) | .establishes ..
  | .wire .. | .takes .. | .shutdown => []

omit [LogDevice δ] in
/-- Whose connections were being established before an event and still are. -/
def stillOpening (server : Server δ) : NetworkEvent → List (Carrier × Address)
  | .establishes place _ => server.upgrading.eraseIdx place
  | .accepts .. | .wire .. | .takes .. | .shutdown => server.upgrading

omit [LogDevice δ] in
theorem handed_accept (server : Server δ) (carrier : Carrier) (address : Address) :
    (server.accept carrier address).handed = server.handed ++ [(carrier, address)] := by
  obtain ⟨d, hconnections, hd⟩ := server.connections_accept carrier address
  have hfrom : (d.carrier, d.session.peer) = (carrier, address) := by
    rcases hd with rfl | rfl
    · have hsession := session_send (server.newcomer carrier address) Rejection.serverFull.lines
      exact Prod.ext (Connection.carrier_send _ _) (congrArg Session.peer hsession)
    · exact Prod.ext (Connection.carrier_send _ _) (congrArg Session.peer (session_send _ _))
  rw [handed, hconnections, List.map_append, List.map_singleton, hfrom, handed]

omit [LogDevice δ] in
/-- What the connection in a place and the one that is put there have in common stays. -/
theorem map_update {β : Type} {g : Connection → β} {c d : Connection}
    (hids : (server.connections.map (·.id)).Nodup) (hd : server.connection? c.id = some d)
    (hg : g c = g d) : (server.update c).connections.map g = server.connections.map g := by
  rw [update, List.map_map]
  refine List.map_congr_left fun e he => ?_
  dsimp only [Function.comp_apply]
  split
  · rename_i hid
    have hsame : e.id = d.id := hid.trans (id_of_connection? hd).symm
    rw [List.inj_on_of_nodup_map hids he (List.mem_of_find?_eq_some hd) hsame, hg]
  · rfl

theorem Turn.peer_after (turn : Turn δ) :
    turn.after.session.peer = turn.connection.session.peer :=
  turn.kept_after (·.session.peer) (fun c lines => congrArg Session.peer (session_send c lines))
    fun _ _ _ _ _ => rfl

omit [LogDevice δ] in
theorem handed_deliver (server : Server δ) : server.deliver.handed = server.handed := by
  rw [handed, deliver, List.map_map]
  exact List.map_congr_left fun c _ =>
    Prod.ext (c.carrier_collect _) (congrArg Session.peer (session_collect c _))

theorem Turn.handed_next {turn : Turn δ} (hs : turn.Served)
    (hids : (turn.server.connections.map (·.id)).Nodup) :
    turn.next.handed = turn.server.handed := by
  rw [Turn.next, handed_deliver]
  refine map_update (d := turn.connection) hids ?_ ?_
  · rw [turn.id_after]
    exact hs.isFound
  · rw [turn.carrier_after, turn.peer_after]

theorem handed_handle_all (hids : (server.connections.map (·.id)).Nodup) (id : ConnectionId)
    (incoming : List Incoming) :
    (incoming.foldl (handle id) server).handed = server.handed := by
  have hall : (incoming.foldl (handle id) server).handed = server.handed ∧
      (incoming.foldl (handle id) server).connections.map (·.id) =
        server.connections.map (·.id) := by
    refine handle_all_induction (P := fun s => s.handed = server.handed ∧
      s.connections.map (·.id) = server.connections.map (·.id)) ?_ ⟨rfl, rfl⟩ incoming
    rintro turn hs - ⟨hhanded, hsame⟩
    exact ⟨(turn.handed_next hs (hsame ▸ hids)).trans hhanded, turn.ids_next.trans hsame⟩
  exact hall.1

theorem Regular.handed_wire (h : server.Regular) (id : ConnectionId) (event : WireEvent) :
    (server.wire id event).handed = server.handed := by
  obtain ⟨rs, hconsistent⟩ := h.consistent
  unfold Server.wire
  cases hc : server.connection? id with
  | none => rfl
  | some c =>
    obtain rfl : c.id = id := id_of_connection? hc
    dsimp only
    split
    · refine (handed_handle_all ?_ c.id _).trans (map_update (d := c) hconsistent.ids hc rfl)
      rw [ids_update]
      exact hconsistent.ids
    · rfl

omit [LogDevice δ] in
theorem Regular.handed_pace (h : server.Regular) (id : ConnectionId) (isTaking : Bool) :
    (server.pace id isTaking).handed = server.handed := by
  obtain ⟨rs, hconsistent⟩ := h.consistent
  cases hc : server.connection? id with
  | none => rw [pace, hc]
  | some c =>
    obtain rfl : c.id = id := id_of_connection? hc
    rw [pace_eq hc, handed_deliver]
    exact map_update hconsistent.ids hc rfl

/-- **Whose connections begin** in a step. -/
theorem Regular.handed_step (h : server.Regular) (event : NetworkEvent) :
    (server.step event).handed = server.handed ++ server.begun event := by
  have hnobody : server.handed = server.handed ++ [] := (List.append_nil _).symm
  cases event with
  | shutdown => exact hnobody
  | wire id event => exact (h.handed_wire id event).trans hnobody
  | takes id isTaking => exact (h.handed_pace id isTaking).trans hnobody
  | establishes place succeeds =>
    rw [Server.step, establish]
    cases succeeds with
    | false => split <;> exact hnobody
    | true =>
      rw [begun]
      cases server.upgrading[place]? with
      | none => exact hnobody
      | some peer =>
        exact handed_accept { server with upgrading := server.upgrading.eraseIdx place } _ _
  | accepts carrier arrival =>
    have hnot (h : arrival.peer? = none) :
        (server.step (.accepts carrier arrival)).handed = server.handed :=
      (congrArg handed (server.deaf_step_of_not_peer carrier h) :)
    cases arrival with
    | peer address =>
      rw [Server.step, begun]
      split
      · exact handed_accept server carrier address
      · exact hnobody
    | opening address =>
      rw [Server.step]
      split <;> exact hnobody
    | stray | failure => exact (hnot rfl).trans hnobody

/-- **Whose connections are being established** after a step. -/
theorem upgrading_step (server : Server δ) (event : NetworkEvent) :
    (server.step event).upgrading = server.stillOpening event ++ server.opened event := by
  have hnobody : server.upgrading = server.upgrading ++ [] := (List.append_nil _).symm
  cases event with
  | shutdown => exact hnobody
  | wire id event => exact (upgrading_wire server id event).trans hnobody
  | takes id isTaking =>
    exact (kept_pace upgrading (fun _ _ _ => rfl) server id isTaking).trans hnobody
  | establishes place succeeds =>
    rw [Server.step, establish, stillOpening, opened, List.append_nil]
    cases hplace : server.upgrading[place]? with
    | none => exact (List.eraseIdx_of_length_le (List.getElem?_eq_none_iff.1 hplace)).symm
    | some peer => cases succeeds <;> rfl
  | accepts carrier arrival =>
    have hnot (h : arrival.peer? = none) :
        (server.step (.accepts carrier arrival)).upgrading = server.upgrading :=
      (congrArg upgrading (server.deaf_step_of_not_peer carrier h) :)
    cases arrival with
    | opening address =>
      rw [Server.step, stillOpening, opened]
      split
      · rfl
      · exact hnobody
    | peer address =>
      rw [Server.step]
      split <;> exact hnobody
    | stray | failure => exact (hnot rfl).trans hnobody

omit [LogDevice δ] in
theorem begun_append_opened (server : Server δ) (carrier : Carrier) (arrival : Arrival) :
    server.begun (.accepts carrier arrival) ++ server.opened (.accepts carrier arrival) =
      server.callers (.accepts carrier arrival) := by
  cases arrival with
  | peer address => exact List.append_nil _
  | opening address => exact List.nil_append _
  | stray | failure => exact (ite_self _).symm

omit [LogDevice δ] in
theorem begun_append_stillOpening (server : Server δ) (place : Nat) :
    (server.begun (.establishes place true) ++
      server.stillOpening (.establishes place true)).Perm server.upgrading := by
  rw [begun, stillOpening]
  cases hplace : server.upgrading[place]? with
  | none =>
    rw [List.eraseIdx_of_length_le (List.getElem?_eq_none_iff.1 hplace)]
    exact .refl _
  | some peer =>
    obtain ⟨hlt, rfl⟩ := List.getElem?_eq_some_iff.1 hplace
    exact List.getElem_cons_eraseIdx_perm hlt

/-- **Who is handed over** in a step is not lost, unless its connection cannot be established. -/
theorem Regular.arrived_step (h : server.Regular) {event : NetworkEvent}
    (hsucceeds : ∀ place, event ≠ .establishes place false) :
    (server.step event).arrived.Perm (server.arrived ++ server.callers event) := by
  have hmoved : (server.handed ++ server.begun event ++
      (server.stillOpening event ++ server.opened event)).Perm
        (server.handed ++
          (server.stillOpening event ++ (server.begun event ++ server.opened event))) := by
    rw [List.append_assoc]
    exact (List.perm_append_comm_assoc _ _ _).append_left _
  rw [arrived, h.handed_step, upgrading_step]
  refine hmoved.trans ?_
  rw [arrived, List.append_assoc]
  refine List.Perm.append_left _ ?_
  cases event with
  | shutdown | wire | takes => exact .refl _
  | accepts carrier arrival =>
    rw [begun_append_opened]
    exact .refl _
  | establishes place succeeds =>
    cases succeeds with
    | true =>
      have hplace := server.begun_append_stillOpening place
      rw [opened, callers, List.append_nil, List.append_nil]
      exact List.perm_append_comm.trans hplace
    | false => exact absurd rfl (hsucceeds place)

omit [LogDevice δ] in
theorem callers_eq_nil {event : NetworkEvent} (hseeks : ∀ carrier, event.seeks carrier = false)
    (server : Server δ) : server.callers event = [] := by
  cases event with
  | establishes | wire | takes | shutdown => rfl
  | accepts carrier arrival =>
    have hnot : arrival.peer? = none := by simpa [NetworkEvent.seeks] using hseeks carrier
    rw [callers, hnot]
    exact ite_self _

omit [LogDevice δ] in
theorem begun_eq_nil {event : NetworkEvent} (hseeks : ∀ carrier, event.seeks carrier = false)
    (hsucceeds : ∀ place, event ≠ .establishes place true) (server : Server δ) :
    server.begun event = [] := by
  cases event with
  | wire | takes | shutdown => rfl
  | establishes place succeeds =>
    cases succeeds with
    | true => exact absurd rfl (hsucceeds place)
    | false => rfl
  | accepts carrier arrival =>
    have hnone : server.begun (.accepts carrier arrival) ++
        server.opened (.accepts carrier arrival) = [] := by
      rw [begun_append_opened, callers_eq_nil hseeks]
    exact (List.append_eq_nil_iff.1 hnone).1

/-- Nobody is handed over but those who come. -/
theorem Regular.arrived_step_subperm (h : server.Regular) {event : NetworkEvent}
    (hseeks : ∀ carrier, event.seeks carrier = false) :
    (server.step event).arrived.Subperm server.arrived := by
  by_cases hfails : ∃ place, event = .establishes place false
  · obtain ⟨place, rfl⟩ := hfails
    rw [arrived, h.handed_step, upgrading_step, begun, stillOpening, opened, List.append_nil,
      List.append_nil]
    exact (List.Sublist.append (.refl _) (List.eraseIdx_sublist _ _)).subperm
  · have hsucceeds : ∀ place, event ≠ .establishes place false := fun place he => hfails ⟨place, he⟩
    have hstep := h.arrived_step hsucceeds
    rw [callers_eq_nil hseeks, List.append_nil] at hstep
    exact hstep.subperm

/-! ## Listeners that go on -/

omit [LogDevice δ] in
/-- The peers that come to a listener, one event after the other. -/
theorem map_peers_cons (carrier : Carrier) (event : NetworkEvent) (events : List NetworkEvent) :
    (((event :: events).filterMap (·.arrival? carrier)).filterMap Arrival.peer?).map (carrier, ·) =
      ((event.arrival? carrier).bind Arrival.peer?).toList.map (carrier, ·) ++
        ((events.filterMap (·.arrival? carrier)).filterMap Arrival.peer?).map (carrier, ·) := by
  rw [List.filterMap_filterMap, List.filterMap_filterMap, List.filterMap_cons, ← List.map_append]
  cases (event.arrival? carrier).bind Arrival.peer? with
  | none => rfl
  | some address => rfl

omit [LogDevice δ] in
theorem filter_callers (hlistens : server.isListening carrier = true) (event : NetworkEvent) :
    (server.callers event).filter (·.1 = carrier) =
      ((event.arrival? carrier).bind Arrival.peer?).toList.map (carrier, ·) := by
  cases event with
  | establishes | wire | takes | shutdown => rfl
  | accepts c arrival =>
    rw [callers, NetworkEvent.arrival?]
    by_cases hc : c = carrier
    · subst hc
      rw [if_pos hlistens, if_pos rfl, Option.bind_some]
      exact List.filter_eq_self.2 fun peer hpeer => by
        obtain ⟨address, -, rfl⟩ := List.mem_map.1 hpeer
        exact decide_eq_true rfl
    · rw [if_neg hc]
      refine List.filter_eq_nil_iff.2 fun peer hpeer => ?_
      split at hpeer
      · obtain ⟨address, -, rfl⟩ := List.mem_map.1 hpeer
        simpa using hc
      · cases hpeer

/-- **A listener that goes on loses nobody**, unless a connection cannot be established. -/
theorem Regular.filter_arrived_run (h : server.Regular)
    (hlistens : server.isListening carrier = true) {events : List NetworkEvent}
    (hgoes : ∀ event ∈ events, event.stops carrier = false)
    (hsucceeds : ∀ place, .establishes place false ∉ events) :
    ((server.run events).arrived.filter (·.1 = carrier)).Perm
      (server.arrived.filter (·.1 = carrier) ++
        ((events.filterMap (·.arrival? carrier)).filterMap Arrival.peer?).map (carrier, ·)) := by
  induction events generalizing server with
  | nil => simp [Server.run]
  | cons event events ih =>
    obtain ⟨hfirst, hrest⟩ := List.forall_mem_cons.1 hgoes
    have hnext : (server.step event).isListening carrier = true := by
      rw [isListening_step, hlistens, hfirst]
      rfl
    have hone := (h.arrived_step fun place he =>
      hsucceeds place (he ▸ List.mem_cons_self)).filter (·.1 = carrier)
    rw [List.filter_append, filter_callers hlistens] at hone
    have hall := ih (h.step event) hnext hrest fun place hmem =>
      hsucceeds place (List.mem_cons_of_mem _ hmem)
    rw [map_peers_cons, ← List.append_assoc]
    exact hall.trans (hone.append_right _)

omit [LogDevice δ] in
theorem filter_stillOpening (hnone : server.upgrading.filter (·.1 = carrier) = [])
    (event : NetworkEvent) :
    (server.stillOpening event).filter (·.1 = carrier) = [] := by
  cases event with
  | establishes place succeeds =>
    exact List.eq_nil_of_sublist_nil (hnone ▸ (List.eraseIdx_sublist _ place).filter _)
  | accepts | wire | takes | shutdown => exact hnone

section AtOnce

variable {event : NetworkEvent}
  (hopening : ∀ arrival ∈ event.arrival? carrier, arrival.isOpening = false)
include hopening

omit [LogDevice δ] in
theorem filter_opened (server : Server δ) :
    (server.opened event).filter (·.1 = carrier) = [] := by
  cases event with
  | establishes | wire | takes | shutdown => rfl
  | accepts c arrival =>
    cases arrival with
    | peer | stray | failure => rfl
    | opening address =>
      have hc : ¬ c = carrier := fun hc => by cases hopening _ (if_pos hc)
      rw [opened]
      split
      · simpa using hc
      · rfl

omit [LogDevice δ] in
theorem filter_begun (hlistens : server.isListening carrier = true)
    (hnone : server.upgrading.filter (·.1 = carrier) = []) :
    (server.begun event).filter (·.1 = carrier) =
      ((event.arrival? carrier).bind Arrival.peer?).toList.map (carrier, ·) := by
  cases event with
  | wire | takes | shutdown => rfl
  | accepts c arrival =>
    have hcallers := filter_callers hlistens (.accepts c arrival)
    rwa [← begun_append_opened, List.filter_append, filter_opened hopening, List.append_nil]
      at hcallers
  | establishes place succeeds =>
    refine List.filter_eq_nil_iff.2 fun peer hpeer => ?_
    refine List.filter_eq_nil_iff.1 hnone peer ?_
    cases succeeds with
    | true => exact List.mem_of_getElem? (Option.mem_toList.1 hpeer)
    | false => cases hpeer

/-- Where connections are established at once, a listener that listens hands over a peer that comes
to it, and nobody from elsewhere. -/
theorem Regular.filter_handed_step (h : server.Regular)
    (hlistens : server.isListening carrier = true)
    (hnone : server.upgrading.filter (·.1 = carrier) = []) :
    (server.step event).handed.filter (·.1 = carrier) = server.handed.filter (·.1 = carrier) ++
        ((event.arrival? carrier).bind Arrival.peer?).toList.map (carrier, ·) ∧
      (server.step event).upgrading.filter (·.1 = carrier) = [] := by
  rw [h.handed_step, upgrading_step, List.filter_append, List.filter_append,
    filter_begun hopening hlistens hnone, filter_opened hopening, filter_stillOpening hnone]
  exact ⟨rfl, rfl⟩

end AtOnce

/-- In order, too, where connections are established at once. -/
theorem Regular.filter_handed_run (h : server.Regular)
    (hlistens : server.isListening carrier = true)
    (hnone : server.upgrading.filter (·.1 = carrier) = []) {events : List NetworkEvent}
    (hgoes : ∀ event ∈ events, event.stops carrier = false)
    (hopening : ∀ arrival ∈ events.filterMap (·.arrival? carrier), arrival.isOpening = false) :
    (server.run events).handed.filter (·.1 = carrier) = server.handed.filter (·.1 = carrier) ++
      ((events.filterMap (·.arrival? carrier)).filterMap Arrival.peer?).map (carrier, ·) := by
  induction events generalizing server with
  | nil => simp [Server.run]
  | cons event events ih =>
    obtain ⟨hfirst, hrest⟩ := List.forall_mem_cons.1 hgoes
    have hnext : (server.step event).isListening carrier = true := by
      rw [isListening_step, hlistens, hfirst]
      rfl
    have hnow : ∀ arrival ∈ event.arrival? carrier, arrival.isOpening = false :=
      fun arrival harrival =>
        hopening arrival (List.mem_filterMap.2 ⟨event, List.mem_cons_self, harrival⟩)
    obtain ⟨hone, hnone'⟩ := h.filter_handed_step hnow hlistens hnone
    have hall := ih (h.step event) hnext hnone' hrest fun arrival harrival => by
      obtain ⟨later, hmem, hsome⟩ := List.mem_filterMap.1 harrival
      exact hopening arrival (List.mem_filterMap.2 ⟨later, List.mem_cons_of_mem _ hmem, hsome⟩)
    have hrun : server.run (event :: events) = (server.step event).run events := rfl
    rw [hrun, hall, hone, map_peers_cons, List.append_assoc]

/-- In a reception, whatever else reaches a listener meanwhile, all are accepted that come to it. -/
theorem exists_run_through (server : Server δ) {happenings : List Happening}
    (hshutdown : .shutdown ∉ happenings)
    (hgoes : ∀ arrival ∈ happenings.filterMap (·.arrival? carrier), arrival.stops = false)
    {delay time : Nat}
    (htime : delay * ((happenings.filterMap (·.arrival? carrier)).length + 1) ≤ time) :
    ∃ events, (({ server, retryDelay := delay } : Reception δ).through
        (happenings ++ [.passes time])).server = server.run events ∧
      events.filterMap (·.arrival? carrier) = happenings.filterMap (·.arrival? carrier) ∧
      (∀ event ∈ events, event.stops carrier = false) ∧
      ∀ place succeeds, .establishes place succeeds ∈ events →
        .establishes place succeeds ∈ happenings := by
  obtain ⟨events, hrun, harrivals, htold⟩ := Reception.exists_goesOn_all server htime
  have hfrom : ∀ event ∈ events, event.isArrival = false →
      ∃ happening ∈ happenings, happening.event? = some event := by
    intro event hevent hnot
    refine List.mem_filterMap.1 (htold ▸ List.mem_filter.2 ⟨hevent, ?_⟩)
    rw [hnot, Bool.not_false]
  refine ⟨events, hrun, harrivals, fun event hevent => ?_, fun place succeeds hevent => ?_⟩
  · cases event with
    | establishes | wire | takes => rfl
    | shutdown =>
      obtain ⟨happening, hmem, hsome⟩ := hfrom _ hevent rfl
      cases happening with
      | shutdown => exact absurd hmem hshutdown
      | reaches | passes | establishes | wire | takes => cases hsome
    | accepts c arrival =>
      by_cases hc : c = carrier
      · have hmem : arrival ∈ happenings.filterMap (·.arrival? carrier) := by
          rw [← harrivals]
          exact List.mem_filterMap.2 ⟨_, hevent, if_pos hc⟩
        rw [NetworkEvent.stops, hgoes arrival hmem, Bool.and_false]
      · rw [NetworkEvent.stops, decide_eq_false hc, Bool.false_and]
  · obtain ⟨happening, hmem, hsome⟩ := hfrom _ hevent rfl
    cases happening with
    | establishes => cases hsome; exact hmem
    | reaches | passes | shutdown | wire | takes => cases hsome

/-! ## Transient errors -/

/-- A transient error comes to nothing. -/
theorem step_of_isTransient (server : Server δ) {event : NetworkEvent}
    (h : event.isTransient = true) : server.step event = server := by
  cases event with
  | establishes | wire | takes | shutdown => cases h
  | accepts carrier arrival =>
    cases arrival with
    | peer | opening | stray => cases h
    | failure cause =>
      have htransient : (TransportError.acceptFailed cause).isTransient = true := h
      rw [step, take, if_pos htransient, ite_self]

theorem run_filter_isTransient (server : Server δ) (events : List NetworkEvent) :
    server.run (events.filter (!·.isTransient)) = server.run events := by
  induction events generalizing server with
  | nil => rfl
  | cons event events ih =>
    cases h : event.isTransient with
    | true =>
      have hrun : server.run (event :: events) = server.run events := by
        rw [run, List.foldl_cons, step_of_isTransient server h, run]
      rw [List.filter_cons_of_neg (by simp [h]), ih, hrun]
    | false =>
      rw [List.filter_cons_of_pos (by simp [h])]
      exact ih (server.step event)

/-! ## Without an event -/

/-- What stops a listener comes to nothing but that, where nobody comes to the listener later. -/
theorem deaf_run_without (server : Server δ) {event : NetworkEvent}
    (hdeaf : (server.step event).deaf = server.deaf) {after : List NetworkEvent}
    (hseeks : ∀ later ∈ after, ∀ carrier, event.stops carrier = true →
      later.seeks carrier = false) :
    (server.run (event :: after)).deaf = (server.run after).deaf := by
  have hrun : server.run (event :: after) = (server.step event).run after := rfl
  rw [hrun]
  refine deaf_run hdeaf fun later hlater carrier hc => ?_
  rw [isListening_step]
  cases hstops : event.stops carrier with
  | false => rw [Bool.not_false, Bool.and_true]
  | true =>
    rw [hseeks later hlater carrier hstops] at hc
    cases hc

/-- **Listeners are independent.** A peer that comes to a listener which the plan opens is handed
over unless something stopped that listener before: a shutdown, or an error of its own that is not
transient. Its connection begins at once, or when it is established, whatever has become of the
listener by then; only that it cannot be established loses a peer. Nobody else is handed over, and
transient errors come to nothing at all. Even though a listener pauses after each, it loses nobody:
of what reaches a listener that does not stop, every peer has been handed over once one more pause
than there were arrivals has passed, in order if connections are established at once.

And a shutdown, or an error of a listener, is of no concern to those who are connected: if nobody
comes later to a listener that it stops, the run ends as it would without it, with the same room,
history and log, and the same connections, each of which has been sent the same. -/
theorem listeners_are_independent {plan : Plan} {host : Host δ} {start : Server δ}
    (hstart : plan.start host = .ok start) :
    (∀ before carrier address,
      let listens := plan.opens carrier && before.all (!·.stops carrier)
      let server := start.run before
      let next := server.step (.accepts carrier (.peer address))
      let later := server.step (.accepts carrier (.opening address))
      (listens = true → next = server.accept carrier address ∧
        next.handed = server.handed ++ [(carrier, address)] ∧
        later = { server with upgrading := server.upgrading ++ [(carrier, address)] }) ∧
      (listens = false → next = server ∧ later = server)) ∧
    (∀ before place carrier address,
      let server := start.run before
      server.upgrading[place]? = some (carrier, address) →
        (server.step (.establishes place true)).handed = server.handed ++ [(carrier, address)]) ∧
    (∀ before event, (∀ carrier, event.seeks carrier = false) →
      let server := start.run before
      let next := server.step event
      next.arrived.Subperm server.arrived ∧
      ((∀ place, event ≠ .establishes place false) → next.arrived.Perm server.arrived) ∧
      ((∀ place, event ≠ .establishes place true) → next.handed = server.handed)) ∧
    (∀ events, start.run (events.filter (!·.isTransient)) = start.run events) ∧
    (∀ delay happenings carrier time,
      let arrivals := happenings.filterMap (·.arrival? carrier)
      let reception : Reception δ := { server := start, retryDelay := delay }
      plan.opens carrier = true → .shutdown ∉ happenings →
      (∀ arrival ∈ arrivals, arrival.stops = false) → delay * (arrivals.length + 1) ≤ time →
      let server := (reception.through (happenings ++ [.passes time])).server
      let peers := (arrivals.filterMap Arrival.peer?).map (carrier, ·)
      ((∀ place, .establishes place false ∉ happenings) →
        (server.arrived.filter (·.1 = carrier)).Perm peers) ∧
      ((∀ arrival ∈ arrivals, arrival.isOpening = false) →
        server.handed.filter (·.1 = carrier) = peers)) ∧
    ∀ before event after,
      (event = .shutdown ∨ ∃ carrier cause, event = .accepts carrier (.failure cause)) →
      (∀ later ∈ after, ∀ carrier, event.stops carrier = true → later.seeks carrier = false) →
      let whole := start.run (before ++ event :: after)
      let without := start.run (before ++ after)
      whole = { without with isListening := whole.isListening } := by
  have hsetup := Plan.setsUp_of_start hstart
  have hregular : ∀ before, (start.run before).Regular := hsetup.isNew.regular.run
  have hopens : ∀ carrier, start.isListening carrier = plan.opens carrier := hsetup.listening
  have hlistens : ∀ before carrier, (start.run before).isListening carrier =
      (plan.opens carrier && before.all (!·.stops carrier)) := by
    intro before carrier
    rw [isListening_run, hopens]
  refine ⟨fun before carrier address => ⟨fun hl => ?_, fun hl => ?_⟩, ?_, ?_,
    run_filter_isTransient start, ?_, ?_⟩
  · rw [Server.step, if_pos ((hlistens before carrier).trans hl), Server.step,
      if_pos ((hlistens before carrier).trans hl)]
    exact ⟨rfl, handed_accept _ carrier address, rfl⟩
  · have hdeaf : ¬ (start.run before).isListening carrier = true := by
      rw [hlistens before carrier, hl]
      decide
    exact ⟨if_neg hdeaf, if_neg hdeaf⟩
  · intro before place carrier address server hplace
    rw [(hregular before).handed_step, begun, hplace, Option.toList_some]
  · intro before event hseeks server next
    refine ⟨(hregular before).arrived_step_subperm hseeks, fun hfails => ?_, fun hsucceeds => ?_⟩
    · have hstep := (hregular before).arrived_step hfails
      rwa [callers_eq_nil hseeks, List.append_nil] at hstep
    · have hstep := (hregular before).handed_step event
      rwa [begun_eq_nil hseeks hsucceeds, List.append_nil] at hstep
  · intro delay happenings carrier time arrivals reception hcarrier hshutdown hgoes htime
    have hlistens' : start.isListening carrier = true := (hopens carrier).trans hcarrier
    have hnobody : start.handed = [] := by rw [handed, hsetup.isNew.connections, List.map_nil]
    have hnone : start.upgrading = [] := hsetup.isNew.upgrading
    have hempty : start.arrived = [] := by rw [arrived, hnobody, hnone, List.append_nil]
    obtain ⟨events, hrun, harrivals, hgoes', hfrom⟩ :=
      exists_run_through start hshutdown hgoes htime
    refine ⟨fun hsucceeds => ?_, fun hopening => ?_⟩
    · have hall := hsetup.isNew.regular.filter_arrived_run hlistens' hgoes'
        fun place hmem => hsucceeds place (hfrom place false hmem)
      rw [hempty, harrivals, ← hrun] at hall
      exact hall
    · have hall := hsetup.isNew.regular.filter_handed_run hlistens'
        (by rw [hnone, List.filter_nil]) hgoes' (harrivals.symm ▸ hopening)
      rw [hnobody, harrivals, ← hrun] at hall
      exact hall
  · intro before event after hevent hseeks whole without
    have hdeaf : ((start.run before).step event).deaf = (start.run before).deaf := by
      rcases hevent with rfl | ⟨carrier, cause, rfl⟩
      · rfl
      · exact deaf_step_of_not_peer _ _ rfl
    have hsame := deaf_run_without (start.run before) hdeaf hseeks
    rw [← run_append, ← run_append] at hsame
    exact eq_of_deaf_eq hsame

/-- The TCP listener fails for good while Ann is connected. Bob still comes in over WebSocket, and
what Ann and he do then is what they would have done. A peer whose connection is being established
when the server is shut down becomes a client all the same. Elsewhere a listener fails three times
before a peer comes to it. -/
theorem listeners_are_independent_ann_bob :
    let plan : Plan := {
      settings := { webSocketAddress := some "127.0.0.1:8081" }
      allowList := some ⟨["ann", "bob"]⟩ }
    let host := Host.inMemory { clock := ⟨2024, 5, 1, 12, 0, 0⟩ }
    let peer : Address := .v4 #v[127, 0, 0, 1] 4000
    let reset : Arrival := .failure ⟨.other, "connection reset"⟩
    let fatal : NetworkEvent := .accepts .tcp (.failure ⟨.invalidInput, "bad descriptor"⟩)
    let before : List NetworkEvent := [.accepts .tcp reset, .accepts .tcp (.peer peer),
      .wire ⟨1⟩ (Carrier.tcp.lineEvent "ann")]
    let after : List NetworkEvent := [.accepts .webSocket (.peer peer),
      .wire ⟨2⟩ (Carrier.webSocket.lineEvent "bob"), .wire ⟨1⟩ (Carrier.tcp.lineEvent "hi"),
      .wire ⟨1⟩ Carrier.tcp.closeEvent]
    let upgrade : List NetworkEvent :=
      [.accepts .tcp (.peer peer), .accepts .webSocket (.opening peer), .shutdown]
    let happenings : List Happening := [.reaches .tcp reset, .reaches .tcp reset, .passes 1,
      .reaches .tcp reset, .reaches .tcp (.peer peer)]
    ∃ start, plan.start host = .ok start ∧
      (start.run (before ++ [fatal])).step (.accepts .tcp (.peer peer)) =
        start.run (before ++ [fatal]) ∧
      (start.run (before ++ [fatal])).step (.accepts .webSocket (.peer peer)) =
        (start.run (before ++ [fatal])).accept .webSocket peer ∧
      (start.run (before ++ fatal :: after)).room = (start.run (before ++ after)).room ∧
      (start.run (before ++ fatal :: after)).connections =
        (start.run (before ++ after)).connections ∧
      ((start.run (before ++ fatal :: after)).connection? ⟨2⟩).map (·.sent) = some
        ["REQ_USERNAME", "Welcome, bob!", "--- Recent Chat History ---",
          "System: ann has joined the chat.", "--- End of History ---", "ann: hi",
          "System: ann has left the chat."] ∧
      ((start.run upgrade).step (.establishes 0 true)).handed =
        [(.tcp, peer), (.webSocket, peer)] ∧
      (({ server := start, retryDelay := 100 } : Reception MemoryLog).through
        (happenings ++ [.passes 500])).server.handed.filter (·.1 = .tcp) = [(.tcp, peer)] := by
  intro plan host peer reset fatal before after upgrade happenings
  have hstopped : (plan.opens .tcp && (before ++ [fatal]).all (!·.stops .tcp)) = false ∧
      (plan.opens .webSocket && (before ++ [fatal]).all (!·.stops .webSocket)) = true := by
    decide +kernel
  have hseeks : ∀ later ∈ after, ∀ carrier, fatal.stops carrier = true →
      later.seeks carrier = false := by
    have htcp : ∀ later ∈ after, later.seeks .tcp = false := by decide +kernel
    have hwebSocket : fatal.stops .webSocket = false := by decide +kernel
    intro later hlater carrier hstops
    cases carrier with
    | tcp => exact htcp later hlater
    | webSocket =>
      rw [hwebSocket] at hstops
      cases hstops
  have harrivals : happenings.filterMap (·.arrival? .tcp) = [reset, reset, reset, .peer peer] := by
    decide +kernel
  have hgoes : ∀ arrival ∈ [reset, reset, reset, .peer peer], arrival.stops = false := by
    decide +kernel
  obtain ⟨start, hstart, hupgrading, hhanded, hbob⟩ : ∃ start, plan.start host = .ok start ∧
      (start.run upgrade).upgrading[0]? = some (.webSocket, peer) ∧
      (start.run upgrade).handed = [(.tcp, peer)] ∧
      ((start.run (before ++ fatal :: after)).connection? ⟨2⟩).map (·.sent) = some
        ["REQ_USERNAME", "Welcome, bob!", "--- Recent Chat History ---",
          "System: ann has joined the chat.", "--- End of History ---", "ann: hi",
          "System: ann has left the chat."] :=
    ⟨_, rfl, by decide +kernel, by decide +kernel, by decide +kernel⟩
  obtain ⟨hpeers, hestablishes, -, -, hreception, hwithout⟩ := listeners_are_independent hstart
  have hsame := hwithout before fatal after (.inr ⟨_, _, rfl⟩) hseeks
  have hupgraded := hestablishes upgrade 0 _ _ hupgrading
  refine ⟨start, hstart, ((hpeers _ _ _).2 hstopped.1).1, ((hpeers _ _ _).1 hstopped.2).1,
    (congrArg Server.room hsame :), (congrArg Server.connections hsame :), hbob, ?_, ?_⟩
  · rwa [hhanded] at hupgraded
  · have hall := hreception 100 happenings .tcp 500 (by decide +kernel) (by decide +kernel)
    rw [harrivals] at hall
    exact (hall hgoes (by decide)).2 (by decide +kernel)

end Server

end ChatRoom
