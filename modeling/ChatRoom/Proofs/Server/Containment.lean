import ChatRoom.Proofs.Server.Forgetting
import ChatRoom.Proofs.Server.Frame
import ChatRoom.Proofs.Wire.Validity

/-!
# Faults are contained

Whatever a client sends, the others do not suffer (`faults_contained`): none of their connections
ends, and from a bad line on, nothing that the client sends makes a difference. The run is compared
with one in which the client sends only the valid lines in front of the bad one, and hangs up when
the bad one is detected (`curtailed`).

The two servers differ in what only that client has to do with: what it has sent of a line, and
what it has been sent. `Server.veil` hides this, and what is then the same stays the same
(`Follows.other`, `Follows.own`): a fault comes to the same as the end of the input, once nobody
sees what the client is told about it (`veil_handle_fault`).
-/

namespace ChatRoom

/-! ## Only valid lines -/

/-- What happens on the network if the client of the connection `id` sends only the valid lines in
front of the first bad one, and hangs up when that is detected. At first, `unread` is what it has
sent of a line. -/
def curtailed (id : ConnectionId) (carrier : Carrier) (max : Nat) :
    (unread : List UInt8) → List NetworkEvent → List NetworkEvent
  | _, [] => []
  | unread, .wire other event :: events =>
    if other = id then
      match carrier.curtail max unread event with
      | (kept, some rest) => kept.map (.wire id) ++ curtailed id carrier max rest events
      | (kept, none) =>
        kept.map (.wire id) ++ .wire id carrier.closeEvent :: events.filter (!·.isOn id)
    else .wire other event :: curtailed id carrier max unread events
  | unread, event :: events => event :: curtailed id carrier max unread events

/-! ## What only one client has to do with -/

namespace Connection

/-- The connection; of `id`, without what only its client has to do with. -/
def veil (id : ConnectionId) (c : Connection) : Connection :=
  if c.id = id then { c with unread := [], sent := [], isReachable := false } else c

variable {id : ConnectionId} {c : Connection}

theorem veil_of_ne (h : c.id ≠ id) : c.veil id = c := if_neg h

theorem veil_of_eq (h : c.id = id) :
    c.veil id = { c with unread := [], sent := [], isReachable := false } := if_pos h

theorem veil_send (id : ConnectionId) (c : Connection) (lines : List String) :
    (c.send lines).veil id = (c.veil id).send lines := by
  by_cases hid : c.id = id
  · rw [veil_of_eq hid, veil_of_eq ((Server.id_send c lines).trans hid)]
    unfold send
    split
    · rfl
    · rfl
  · rw [veil_of_ne hid, veil_of_ne fun h => hid ((Server.id_send c lines).symm.trans h)]

theorem forgets_veil (id : ConnectionId) : Forgets (veil id) where
  session c := by unfold veil; split <;> rfl
  outbox c := by unfold veil; split <;> rfl
  isOpen c := by unfold veil; split <;> rfl
  isTaking c := by unfold veil; split <;> rfl
  send := veil_send id
  served c session outbox isOpen isTaking hsession := by
    by_cases hid : c.id = id
    · rw [veil_of_eq hid]
      exact veil_of_eq (hsession.trans hid)
    · rw [veil_of_ne hid]
      exact veil_of_ne fun h => hid (hsession.symm.trans h)

theorem carrier_send (c : Connection) (lines : List String) :
    (c.send lines).carrier = c.carrier := by
  unfold send
  split <;> rfl

theorem carrier_collect (c : Connection) (roster : Roster) :
    (c.collect roster).carrier = c.carrier := by
  obtain ⟨lines, hlines⟩ := c.exists_collect roster
  rw [hlines, carrier_send]

end Connection

namespace Server

variable {δ : Type} {server tame : Server δ} {id : ConnectionId} {c : Connection}

/-- The server as the others see it. -/
def veil (id : ConnectionId) (server : Server δ) : Server δ := server.forget (Connection.veil id)

theorem connection?_veil (server : Server δ) (id other : ConnectionId) :
    (server.veil id).connection? other = (server.connection? other).map (Connection.veil id) :=
  connection?_forget (Connection.forgets_veil id) server other

theorem connection?_veil_of_ne (server : Server δ) {other : ConnectionId} (h : other ≠ id) :
    (server.veil id).connection? other = server.connection? other := by
  rw [connection?_veil]
  cases hc : server.connection? other with
  | none => rfl
  | some c => exact congrArg some (Connection.veil_of_ne (by rwa [id_of_connection? hc]))

/-- What the others see is the room, and their own connections. -/
theorem eq_of_veil_eq (h : server.veil id = tame.veil id) :
    server.room = tame.room ∧
      ∀ other, other ≠ id → server.connection? other = tame.connection? other := by
  have hroom : (server.veil id).room = (tame.veil id).room := congrArg Server.room h
  refine ⟨hroom, fun other hother => ?_⟩
  rw [← connection?_veil_of_ne server hother, h, connection?_veil_of_ne tame hother]

theorem HasEnded.veil (h : server.HasEnded id) : (server.veil id).HasEnded id := by
  obtain ⟨c, hc, hclosed⟩ := h
  refine ⟨c.veil id, by rw [connection?_veil, hc, Option.map_some], ?_⟩
  rw [(Connection.forgets_veil id).isOpen, hclosed]

theorem HasEnded.of_veil (h : (server.veil id).HasEnded id) : server.HasEnded id := by
  obtain ⟨d, hd, hclosed⟩ := h
  rw [connection?_veil] at hd
  obtain ⟨c, hc, rfl⟩ := Option.map_eq_some_iff.1 hd
  exact ⟨c, hc, by rwa [(Connection.forgets_veil id).isOpen] at hclosed⟩

/-- Putting a connection in its own place changes nothing. -/
theorem update_self (hids : (server.connections.map (·.id)).Nodup)
    (hc : server.connection? c.id = some c) : server.update c = server := by
  have hsame : server.connections.map (fun d => if d.id = c.id then c else d) =
      server.connections := by
    refine (List.map_congr_left fun d hd => ?_).trans (List.map_id _)
    split
    · rename_i hid
      exact List.inj_on_of_nodup_map hids (List.mem_of_find?_eq_some hc) hd hid.symm
    · rfl
  rw [update, hsame]

theorem veil_update (hids : (server.connections.map (·.id)).Nodup)
    (hc : server.connection? id = some c) (unread : List UInt8) (isReachable : Bool) :
    (server.update { c with unread, isReachable }).veil id = server.veil id := by
  have hid : c.id = id := id_of_connection? hc
  have hsame : ({ c with unread, isReachable } : Connection).veil id = c.veil id := by
    rw [Connection.veil_of_eq hid]
    exact Connection.veil_of_eq hid
  have hveiled : ((server.veil id).connections.map (·.id)).Nodup := by
    have hmap : (server.veil id).connections.map (·.id) = server.connections.map (·.id) := by
      rw [veil, forget, List.map_map]
      exact List.map_congr_left fun d _ => (Connection.forgets_veil id).id d
    rwa [hmap]
  rw [veil, forget_update (Connection.forgets_veil id), hsame]
  refine update_self hveiled ?_
  rw [(Connection.forgets_veil id).id, hid, ← veil, connection?_veil, hc, Option.map_some]

/-! ## What the others see of what happens -/

theorem veil_accept (hnew : (⟨server.nextId⟩ : ConnectionId) ≠ id) (carrier : Carrier)
    (address : Address) :
    (server.accept carrier address).veil id = (server.veil id).accept carrier address := by
  have hsame : ∀ d : Connection, d.id = ⟨server.nextId⟩ → d.veil id = d :=
    fun d hd => Connection.veil_of_ne (hd ▸ hnew)
  cases hfull : server.room.roster.isFull with
  | true =>
    simp only [veil, forget, accept, hfull, if_true, List.map_append, List.map_singleton]
    rw [hsame _ rfl]
  | false =>
    simp only [veil, forget, accept, hfull, List.map_append, List.map_singleton]
    rw [hsame _ rfl]

variable [LogDevice δ]

theorem veil_wire_of_ne {other : ConnectionId} (h : other ≠ id) (event : WireEvent) :
    (server.wire other event).veil id = (server.veil id).wire other event := by
  have hne : ∀ c, server.connection? other = some c → c.id ≠ id :=
    fun c hc => by rwa [id_of_connection? hc]
  refine forget_wire (Connection.forgets_veil id) (fun c hc => ?_) fun c unread hc => ?_
  · rw [Connection.veil_of_ne (hne c hc)]
  · rw [Connection.veil_of_ne (hne c hc)]
    exact Connection.veil_of_ne (hne c hc)

/-- For a peer that is not there, a fault comes to the same as the end of its input. -/
theorem receive_fault (server : Server δ) (hgone : c.isReachable = false)
    (e : TransportError) : server.receive c (.failed e) = server.receive c .finished := by
  have hsilent : ∀ lines, c.send lines = c := fun lines => if_neg (by rw [hgone]; decide)
  unfold receive
  cases hstate : c.session.state with
  | awaitingUsername =>
    have hpart : server.part c = (c.hangUp, server.room) := by simp [part, Session.close, hstate]
    cases e with
    | lineTooLong max => rw [hpart, Connection.refuse, hsilent]
    | _ => rfl
  | active =>
    cases c.session.username with
    | none => rfl
    | some sender => rfl
  | pending => rfl
  | closed => rfl

theorem veil_handle_fault (server : Server δ) (id : ConnectionId) (e : TransportError) :
    (server.veil id).handle id (.failed e) = (server.veil id).handle id .finished := by
  unfold handle
  rw [connection?_veil]
  cases hc : server.connection? id with
  | none => rfl
  | some c =>
    have hgone : (c.veil id).isReachable = false := by
      rw [Connection.veil_of_eq (id_of_connection? hc)]
    rw [Option.map_some]
    dsimp only
    rw [receive_fault _ hgone]

theorem veil_handle_all_fault (server : Server δ) (id : ConnectionId) (incoming : List Incoming)
    (e : TransportError) :
    (incoming ++ [Incoming.failed e]).foldl (handle id) (server.veil id) =
      (incoming ++ [Incoming.finished]).foldl (handle id) (server.veil id) := by
  have hcommutes : incoming.foldl (handle id) (server.veil id) =
      (incoming.foldl (handle id) server).veil id :=
    (forget_handle_all (Connection.forgets_veil id) id server incoming).symm
  rw [List.foldl_append, List.foldl_append, hcommutes]
  exact veil_handle_fault _ id e

/-! ## The connection of the client -/

/-- The connection runs over the carrier, and as long as it is served, these bytes are unread. -/
def Holds (server : Server δ) (id : ConnectionId) (carrier : Carrier) (unread : List UInt8) :
    Prop :=
  ∃ c, server.connection? id = some c ∧ c.carrier = carrier ∧ (c.isOpen = true → c.unread = unread)

theorem Turn.carrier_after (turn : Turn δ) : turn.after.carrier = turn.connection.carrier :=
  turn.kept_after _ Connection.carrier_send fun _ _ _ _ _ => rfl

namespace Holds

variable {carrier : Carrier} {unread : List UInt8}

omit [LogDevice δ] in
theorem of_hasEnded {rest : List UInt8} (h : server.Holds id carrier unread)
    (hended : server.HasEnded id) : server.Holds id carrier rest := by
  obtain ⟨c, hc, hcarrier, -⟩ := h
  obtain ⟨d, hd, hclosed⟩ := hended
  obtain rfl : c = d := Option.some_inj.1 (hc.symm.trans hd)
  exact ⟨c, hc, hcarrier, fun hopen => by rw [hclosed] at hopen; cases hopen⟩

omit [LogDevice δ] in
theorem of_update (hc : server.connection? id = some c) (hcarrier : c.carrier = carrier)
    (unread : List UInt8) (isReachable : Bool) :
    (server.update { c with unread, isReachable }).Holds id carrier unread := by
  refine ⟨{ c with unread, isReachable }, ?_, hcarrier, fun _ => rfl⟩
  rw [connection?_update, hc, Option.map_some]
  exact congrArg some (if_pos rfl)

theorem step (h : server.Holds id carrier unread) (hserver : server.Regular)
    {event : NetworkEvent} (hother : event.isOn id = false) :
    (server.step event).Holds id carrier unread := by
  obtain ⟨c, hc, hcarrier, hunread⟩ := h
  obtain ⟨isTaking, lines, hstep⟩ := hserver.connection?_step hc hother
  refine ⟨_, hstep, by rw [Connection.carrier_send, hcarrier], fun hopen => ?_⟩
  rw [unread_send]
  exact hunread (by rwa [isOpen_send] at hopen)

theorem handle_all (h : server.Holds id carrier unread) (incoming : List Incoming) :
    (incoming.foldl (handle id) server).Holds id carrier unread := by
  refine handle_all_induction (P := fun s => s.Holds id carrier unread) ?_ h incoming
  rintro turn hs rfl ⟨c, hc, hcarrier, hunread⟩
  obtain rfl : turn.connection = c := Option.some_inj.1 (hs.isFound.symm.trans hc)
  refine ⟨turn.after.collect turn.room.roster, ?_, ?_, fun _ => ?_⟩
  · rw [turn.connection?_next, hc, Option.map_some, if_pos turn.id_after.symm]
  · rw [Connection.carrier_collect, turn.carrier_after, hcarrier]
  · rw [unread_collect, turn.unread_after]
    exact hunread hs.isOpen

/-- **An event on its own wire**: the connection keeps what `d` keeps, and the others see what `d`
hears handled. -/
theorem wire (h : server.Holds id carrier unread) (hserver : server.Regular) {d : Connection}
    (hd : d.carrier = carrier) (hdu : d.unread = unread) (event : WireEvent) :
    (server.wire id event).Holds id carrier (d.hear server.lineLength event).2 ∧
      (server.wire id event).veil id =
        (d.hear server.lineLength event).1.foldl (handle id) (server.veil id) := by
  obtain ⟨c, hc, hcarrier, hunread⟩ := h
  cases hopen : c.isOpen with
  | false =>
    have hended : server.HasEnded id := ⟨c, hc, hopen⟩
    rw [hended.wire, hended.veil.handle_all]
    exact ⟨of_hasEnded ⟨c, hc, hcarrier, hunread⟩ hended, rfl⟩
  | true =>
    have hheard : c.hear server.lineLength event = d.hear server.lineLength event :=
      Connection.hear_congr (hcarrier.trans hd.symm) ((hunread hopen).trans hdu.symm) _ _
    obtain ⟨rs, hconsistent⟩ := hserver.consistent
    unfold Server.wire
    rw [hc]
    dsimp only
    rw [if_pos hopen, hheard]
    constructor
    · exact (of_update hc hcarrier _ _).handle_all _
    · rw [veil, forget_handle_all (Connection.forgets_veil id), ← veil,
        veil_update hconsistent.ids hc]

end Holds

/-! ## Events on other wires -/

theorem veil_step (hserver : server.Regular) (hc : server.connection? id = some c)
    {event : NetworkEvent} (hother : event.isOn id = false) :
    (server.step event).veil id = (server.veil id).step event := by
  obtain ⟨rs, hconsistent⟩ := hserver.consistent
  have hold : id.value < server.nextId := by
    apply hconsistent.below
    exact List.mem_map.2 ⟨c, List.mem_of_find?_eq_some hc, id_of_connection? hc⟩
  have hnew : (⟨server.nextId⟩ : ConnectionId) ≠ id := by
    rintro rfl
    exact Nat.lt_irrefl server.nextId hold
  cases event with
  | shutdown => rfl
  | wire other event => exact veil_wire_of_ne (by simpa [NetworkEvent.isOn] using hother) event
  | takes other isTaking => exact forget_pace (Connection.forgets_veil id) server other isTaking
  | establishes place succeeds =>
    have hupgrading : (server.veil id).upgrading = server.upgrading := rfl
    rw [Server.step, Server.step, establish, establish, hupgrading]
    cases server.upgrading[place]? with
    | none => rfl
    | some peer =>
      cases succeeds with
      | true =>
        let left : Server δ := { server with upgrading := server.upgrading.eraseIdx place }
        have hnew' : (⟨left.nextId⟩ : ConnectionId) ≠ id := hnew
        exact veil_accept hnew' peer.1 peer.2
      | false => rfl
  | accepts carrier arrival =>
    have hlistens : (server.veil id).isListening = server.isListening := rfl
    rw [Server.step, Server.step, hlistens]
    split
    · cases arrival with
      | peer address => exact veil_accept hnew carrier address
      | opening address => rfl
      | stray => rfl
      | failure cause =>
        rw [take, take]
        split
        · rfl
        · rfl
    · rfl

/-- Once its connection has ended, it does not matter what a client still sends. -/
theorem veil_run_of_hasEnded (hserver : server.Regular) (htame : tame.Regular)
    (hended : server.HasEnded id) (hsame : server.veil id = tame.veil id)
    (events : List NetworkEvent) :
    (server.run events).veil id = (tame.run (events.filter (!·.isOn id))).veil id := by
  induction events generalizing server tame with
  | nil => exact hsame
  | cons event events ih =>
    cases hon : event.isOn id with
    | true =>
      have hignored : server.step event = server := by
        cases event with
        | wire other event =>
          obtain rfl : other = id := by simpa [NetworkEvent.isOn] using hon
          exact hended.wire event
        | accepts | establishes | takes | shutdown => cases hon
      rw [List.filter_cons_of_neg (by simp [hon]), run, List.foldl_cons, hignored]
      exact ih hserver htame hended hsame
    | false =>
      obtain ⟨d, hd, -⟩ : tame.HasEnded id := HasEnded.of_veil (hsame ▸ hended.veil)
      obtain ⟨c, hc⟩ : ∃ c, server.connection? id = some c := hended.imp fun _ h => h.1
      rw [List.filter_cons_of_pos (by simp [hon]), run, List.foldl_cons, run, List.foldl_cons]
      refine ih (hserver.step event) (htame.step event) (hserver.hasEnded_step hended hon) ?_
      rw [veil_step hserver hc hon, veil_step htame hd hon, hsame]

/-! ## Two runs -/

theorem lineLength_step (hserver : server.Regular) (event : NetworkEvent) :
    (server.step event).lineLength = server.lineLength :=
  (@Invariant.step δ _ _ server [] (invariant_sameSetup server) (.refl server)
    hserver.keepsNoLines event).1.lineLength

theorem run_append (server : Server δ) (before after : List NetworkEvent) :
    server.run (before ++ after) = (server.run before).run after := List.foldl_append

/-- A client that sends whole lines only has none unread, and the others see what `d` hears
handled. -/
theorem Holds.run {carrier : Carrier} (h : tame.Holds id carrier []) (htame : tame.Regular)
    {d : Connection} (hd : d.carrier = carrier) (hdu : d.unread = []) {kept : List WireEvent}
    (hwhole : ∀ e ∈ kept, (d.hear tame.lineLength e).2 = []) :
    (tame.run (kept.map (.wire id))).Holds id carrier [] ∧
      (tame.run (kept.map (.wire id))).veil id =
        (kept.flatMap fun e => (d.hear tame.lineLength e).1).foldl (handle id) (tame.veil id) := by
  induction kept generalizing tame with
  | nil => exact ⟨h, rfl⟩
  | cons e kept ih =>
    obtain ⟨hone, hrest⟩ := List.forall_mem_cons.1 hwhole
    obtain ⟨hholds, hveil⟩ := h.wire htame hd hdu e
    have hlength : (tame.wire id e).lineLength = tame.lineLength :=
      lineLength_step htame (.wire id e)
    rw [hone] at hholds
    obtain ⟨hlast, hrun⟩ := ih hholds (htame.step (.wire id e)) (by rwa [hlength])
    refine ⟨hlast, hrun.trans ?_⟩
    rw [hlength, List.flatMap_cons, List.foldl_append, ← hveil]

/-- What the others see is the same, where the client of the connection `id` has sent `unread` of a
line, and where it has sent nothing of it. -/
structure Follows (id : ConnectionId) (carrier : Carrier) (unread : List UInt8)
    (server tame : Server δ) : Prop where
  regular : server.Regular
  tameRegular : tame.Regular
  same : server.veil id = tame.veil id
  holds : server.Holds id carrier unread
  tameHolds : tame.Holds id carrier []
  isPart : LineStream.lf ∉ unread
  isShort : unread.length ≤ server.lineLength

namespace Follows

variable {carrier : Carrier} {unread : List UInt8}

theorem other (h : Follows id carrier unread server tame) {event : NetworkEvent}
    (hother : event.isOn id = false) :
    Follows id carrier unread (server.step event) (tame.step event) where
  regular := h.regular.step event
  tameRegular := h.tameRegular.step event
  same := by
    obtain ⟨c, hc, -⟩ := h.holds
    obtain ⟨d, hd, -⟩ := h.tameHolds
    rw [veil_step h.regular hc hother, veil_step h.tameRegular hd hother, h.same]
  holds := h.holds.step h.regular hother
  tameHolds := h.tameHolds.step h.tameRegular hother
  isPart := h.isPart
  isShort := by
    rw [lineLength_step h.regular]
    exact h.isShort

/-- The client goes on with the valid lines of an event, or hangs up because of a bad one. -/
theorem own (h : Follows id carrier unread server tame) (event : WireEvent) :
    (∀ kept rest, carrier.curtail server.lineLength unread event = (kept, some rest) →
      Follows id carrier rest (server.step (.wire id event)) (tame.run (kept.map (.wire id)))) ∧
    ∀ kept, carrier.curtail server.lineLength unread event = (kept, none) →
      (server.step (.wire id event)).HasEnded id ∧
      (server.step (.wire id event)).veil id =
        (tame.run (kept.map (.wire id) ++ [.wire id carrier.closeEvent])).veil id := by
  obtain ⟨c, hc, -⟩ := h.holds
  let wild : Connection := { c with carrier, unread }
  let whole : Connection := { c with carrier, unread := [], isReachable := true }
  have hleaves : wild.Leaves whole server.lineLength event
      (carrier.curtail server.lineLength unread event) :=
    Connection.leaves_curtail (c := wild) (d := whole) rfl rfl h.isPart h.isShort event
  have hlength : tame.lineLength = server.lineLength := (congrArg Server.lineLength h.same).symm
  obtain ⟨hholds, hveil⟩ := h.holds.wire h.regular (d := wild) rfl rfl event
  constructor
  · intro kept rest hcurtail
    rw [hcurtail] at hleaves
    cases hleaves with
    | goesOn _ _ hwhole hheard hlf hshort =>
      obtain ⟨htameHolds, htameVeil⟩ :=
        h.tameHolds.run h.tameRegular (d := whole) rfl rfl (hlength ▸ hwhole)
      rw [hheard] at hholds hveil
      refine ⟨h.regular.step _, h.tameRegular.run _, ?_, hholds, htameHolds, hlf, ?_⟩
      · rw [htameVeil, hlength, ← h.same]
        exact hveil
      · rwa [lineLength_step h.regular]
  · intro kept hcurtail
    rw [hcurtail] at hleaves
    cases hleaves with
    | stops _ error hwhole hheard =>
      obtain ⟨htameHolds, htameVeil⟩ :=
        h.tameHolds.run h.tameRegular (d := whole) rfl rfl (hlength ▸ hwhole)
      have hclose : whole.hear (tame.run (kept.map (.wire id))).lineLength carrier.closeEvent =
          ([.finished], []) := Connection.RunsOver.hear_close ⟨rfl, rfl, rfl⟩ _
      have hhangsUp := (htameHolds.wire (h.tameRegular.run _) (d := whole) rfl rfl
        carrier.closeEvent).2
      -- the fault that is heard in the one run is the end of the input in the other
      rw [hheard, veil_handle_all_fault, List.foldl_append] at hveil
      rw [hclose, htameVeil, hlength, ← h.same] at hhangsUp
      have hfound : ∃ d, (server.veil id).connection? id = some d :=
        ⟨c.veil id, by rw [connection?_veil, hc, Option.map_some]⟩
      refine ⟨HasEnded.of_veil ?_, ?_⟩
      · rw [Server.step, hveil]
        exact hasEnded_handle (connection?_handle_all id _ hfound) (by simp)
      · rw [run_append]
        exact hveil.trans hhangsUp.symm

/-- **The two runs go on together.** -/
theorem run (h : Follows id carrier unread server tame) (events : List NetworkEvent) :
    (server.run events).veil id =
      (tame.run (curtailed id carrier server.lineLength unread events)).veil id := by
  induction events generalizing server tame unread with
  | nil => exact h.same
  | cons event events ih =>
    cases hon : event.isOn id with
    | false =>
      have hlength := lineLength_step h.regular event
      have hcurtailed : curtailed id carrier server.lineLength unread (event :: events) =
          event :: curtailed id carrier server.lineLength unread events := by
        cases event with
        | wire other event => exact if_neg (by simpa [NetworkEvent.isOn] using hon)
        | accepts | establishes | takes | shutdown => rfl
      have hrest := ih (h.other hon)
      rw [hlength] at hrest
      rw [hcurtailed]
      exact hrest
    | true =>
      cases event with
      | accepts | establishes | takes | shutdown => cases hon
      | wire other event =>
        obtain rfl : other = id := by simpa [NetworkEvent.isOn] using hon
        have hlength := lineLength_step h.regular (.wire other event)
        obtain ⟨hgoesOn, hstops⟩ := h.own event
        rw [curtailed, if_pos rfl]
        cases hcurtail : carrier.curtail server.lineLength unread event with
        | mk kept rest =>
          cases rest with
          | some rest =>
            have hrest := ih (hgoesOn kept rest hcurtail)
            rw [hlength] at hrest
            dsimp only
            rw [run_append]
            exact hrest
          | none =>
            obtain ⟨hended, hsame⟩ := hstops kept hcurtail
            dsimp only
            rw [List.append_cons, run_append]
            exact veil_run_of_hasEnded (h.regular.step _) (h.tameRegular.run _) hended hsame events

end Follows

/-! ## Containment -/

omit [LogDevice δ] in
/-- A connection that is taken runs over the carrier of its listener, and nothing is unread of
it. -/
theorem Regular.holds_accept (h : server.Regular) (carrier : Carrier) (address : Address) :
    (server.accept carrier address).Holds ⟨server.nextId⟩ carrier [] := by
  obtain ⟨rs, hconsistent⟩ := h.consistent
  obtain ⟨d, hconnections, hd⟩ := server.connections_accept carrier address
  have hd' : d.id = ⟨server.nextId⟩ ∧ d.carrier = carrier ∧ d.unread = [] := by
    rcases hd with rfl | rfl
    · exact ⟨id_send _ _, Connection.carrier_send _ _, unread_send _ _⟩
    · exact ⟨id_send _ _, Connection.carrier_send _ _, unread_send _ _⟩
  obtain ⟨hid, hcarrier, hunread⟩ := hd'
  have hnone : server.connections.find? (·.id = ⟨server.nextId⟩) = none := by
    refine List.find?_eq_none.2 fun c hc => ?_
    have hold := hconsistent.below c.id (List.mem_map_of_mem hc)
    simp only [decide_eq_true_eq]
    intro hsame
    rw [hsame] at hold
    exact Nat.lt_irrefl server.nextId hold
  refine ⟨d, ?_, hcarrier, fun _ => hunread⟩
  rw [connection?, hconnections, List.find?_append, hnone, Option.none_or]
  simp [hid]

/-- From the moment a connection is taken, the others do not see what its client sends from a bad
line on. -/
theorem Regular.veil_run_accept (h : server.Regular) {carrier : Carrier} {address : Address}
    {event : NetworkEvent} (hconnects : server.Connects carrier address event)
    (events : List NetworkEvent) :
    ((server.step event).run events).veil ⟨server.nextId⟩ =
      ((server.step event).run
        (curtailed ⟨server.nextId⟩ carrier server.lineLength [] events)).veil ⟨server.nextId⟩ := by
  obtain ⟨upgrading, haccept⟩ := hconnects.step_eq
  have hserver : ({ server with upgrading } : Server δ).Regular :=
    ⟨invariant_consistent.listeners server [] server.isListening upgrading h.consistent,
      h.keepsNoLines⟩
  have hregular := h.step event
  have hholds := hserver.holds_accept carrier address
  rw [← haccept] at hholds
  have hfollows : Follows ⟨server.nextId⟩ carrier [] (server.step event) (server.step event) :=
    ⟨hregular, hregular, rfl, hholds, hholds, List.not_mem_nil, Nat.zero_le _⟩
  have hrun := hfollows.run events
  rwa [lineLength_step h] at hrun

/-- **Faults are contained.** In every server that a run leads to, nothing that one client does
ends the connection of another or takes another session off the roster. And a client whose
connection begins then may send what it likes: if a bad line is among it, the room with its history
and its log, and every other connection, are what they would be if the client had sent only the
valid lines in front of that line, and had hung up when it was detected. -/
theorem faults_contained {plan : Plan} {host : Host δ} {start : Server δ}
    (hstart : plan.start host = .ok start) (before : List NetworkEvent) :
    (∀ id event other c, event.client? = some id → other ≠ id →
      (start.run before).connection? other = some c →
        ∃ d, ((start.run before).step event).connection? other = some d ∧
          d.isOpen = c.isOpen ∧ d.session = c.session) ∧
    (∀ id event entry, event.client? = some id → entry.id ≠ id →
      (entry ∈ ((start.run before).step event).room.roster.entries ↔
        entry ∈ (start.run before).room.roster.entries)) ∧
    ∀ carrier address event events, (start.run before).Connects carrier address event →
      let id : ConnectionId := ⟨(start.run before).nextId⟩
      let joined := (start.run before).step event
      let wild := joined.run events
      let tame := joined.run (curtailed id carrier plan.settings.lineLength [] events)
      wild.room = tame.room ∧
        ∀ other, other ≠ id → wild.connection? other = tame.connection? other := by
  have hsetup := Plan.setsUp_of_start hstart
  have hregular : (start.run before).Regular := hsetup.isNew.regular.run before
  refine ⟨fun id event other c hclient hother hc => ?_,
    fun id event entry hclient hentry => (hregular.spares_step hclient).entries entry hentry,
    fun carrier address event events hconnects => ?_⟩
  · obtain ⟨lines, hlines⟩ := (hregular.spares_step hclient).connections other c hother hc
    exact ⟨c.send lines, hlines, isOpen_send c lines, session_send c lines⟩
  · have hlength : (start.run before).lineLength = plan.settings.lineLength :=
      ((invariant_sameSetup start).run (.refl start) hsetup.isNew.keepsNoLines
        before).lineLength.trans hsetup.lineLength
    rw [← hlength]
    exact eq_of_veil_eq (hregular.veil_run_accept hconnects events)

/-- Ann's line has a carriage return in it, and more lines behind it. Bob looks on. -/
theorem faults_contained_ann_bob :
    let plan : Plan := {
      settings := { webSocketAddress := some "127.0.0.1:8081", lineLength := 10 }
      allowList := some ⟨["ann", "bob"]⟩ }
    let host := Host.inMemory { clock := ⟨2024, 5, 1, 12, 0, 0⟩ }
    let peer : Address := .v4 #v[127, 0, 0, 1] 4000
    let before : List NetworkEvent := [.accepts .webSocket (.peer peer),
      .wire ⟨1⟩ (Carrier.webSocket.lineEvent "bob")]
    let bye : NetworkEvent := .wire ⟨1⟩ (Carrier.webSocket.lineEvent "bye")
    let sent : List NetworkEvent := [.wire ⟨2⟩ (.bytes (LineStream.write "ann")),
      .wire ⟨2⟩ (.bytes (LineStream.write "hi" ++ [0x78, 0x0D])),
      .wire ⟨2⟩ (.bytes ([0x79, 0x0A] ++ LineStream.write "late")),
      .wire ⟨2⟩ (.bytes (LineStream.write "later")), bye]
    let valid : List NetworkEvent := [.wire ⟨2⟩ (.bytes (LineStream.write "ann")),
      .wire ⟨2⟩ (.bytes (LineStream.write "hi")), .wire ⟨2⟩ (.bytes []), .wire ⟨2⟩ .ends, bye]
    ∃ start, plan.start host = .ok start ∧
      let joined := (start.run before).step (.accepts .tcp (.peer peer))
      curtailed ⟨2⟩ .tcp 10 [] sent = valid ∧
      ((joined.run sent).connection? ⟨1⟩).map (·.sent) = some ["REQ_USERNAME", "Welcome, bob!",
        "System: ann has joined the chat.", "ann: hi", "System: ann has left the chat.",
        "bob: bye"] ∧
      (joined.run sent).room = (joined.run valid).room ∧
      (joined.run sent).connection? ⟨1⟩ = (joined.run valid).connection? ⟨1⟩ := by
  intro plan host peer before bye sent valid
  obtain ⟨start, hstart, hnext, hlistens, hvalid, hbob⟩ : ∃ start, plan.start host = .ok start ∧
      (start.run before).nextId = 2 ∧ (start.run before).isListening .tcp = true ∧
      curtailed ⟨2⟩ .tcp 10 [] sent = valid ∧
      ((((start.run before).step (.accepts .tcp (.peer peer))).run sent).connection? ⟨1⟩).map
          (·.sent) = some ["REQ_USERNAME", "Welcome, bob!", "System: ann has joined the chat.",
        "ann: hi", "System: ann has left the chat.", "bob: bye"] :=
    ⟨_, rfl, by decide +kernel, by decide +kernel, by decide +kernel, by decide +kernel⟩
  -- nothing is to be computed from here on
  clear_value before sent valid
  obtain ⟨-, -, hcontained⟩ := faults_contained hstart before
  obtain ⟨hroom, hothers⟩ := hcontained .tcp peer _ sent (.inl ⟨rfl, hlistens⟩)
  have hlength : plan.settings.lineLength = 10 := rfl
  rw [hnext, hlength, hvalid] at hroom hothers
  exact ⟨start, hstart, hvalid, hbob, hroom, hothers ⟨1⟩ (by decide)⟩

end Server

end ChatRoom
