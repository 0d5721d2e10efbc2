import ChatRoom.Proofs.Server.Truth

/-!
# What a step leaves alone

What one client does is no concern of the others: their connections are at most sent lines, and
their sessions stay on the roster (`Server.Spares`). Every turn of a connection spares the others
(`Turn.spares`), and so does everything that its client does (`Regular.spares_step`); a connection
that has ended takes part in nothing (`HasEnded.wire`).

All of this is about servers that a run leads to (`Server.Regular`).
-/

namespace ChatRoom

/-! ## Connections -/

namespace Connection

theorem send_send (c : Connection) (lines more : List String) :
    (c.send lines).send more = c.send (lines ++ more) := by
  unfold send
  by_cases h : c.isReachable = true
  · rw [if_pos h, if_pos h, if_pos h, List.append_assoc]
  · rw [if_neg h, if_neg h, if_neg h]

theorem exists_collect (c : Connection) (roster : Roster) :
    ∃ lines, c.collect roster = c.send lines := by
  unfold collect
  split
  · exact ⟨c.waiting roster, rfl⟩
  · exact ⟨[], (Server.send_nil c).symm⟩

end Connection

namespace NetworkEvent

/-- An event on the wire of the connection. -/
def isOn (id : ConnectionId) : NetworkEvent → Bool
  | wire other _ => other = id
  | accepts .. | establishes .. | takes .. | shutdown => false

/-- The client that does this, if it is something that a client does. -/
def client? : NetworkEvent → Option ConnectionId
  | wire id _ | takes id _ => some id
  | accepts .. | establishes .. | shutdown => none

end NetworkEvent

namespace Server

variable {δ : Type} {server next : Server δ} {id : ConnectionId}

theorem pace_eq {c : Connection} (hc : server.connection? id = some c) (isTaking : Bool) :
    server.pace id isTaking = (server.update { c with isTaking }).deliver := by
  rw [pace, hc]

theorem connection?_pace {c : Connection} (hc : server.connection? id = some c) (isTaking : Bool) :
    (server.pace id isTaking).connection? id =
      some (({ c with isTaking } : Connection).collect server.room.roster) := by
  rw [pace_eq hc, connection?_deliver, connection?_update, hc, Option.map_some, Option.map_some]
  exact congrArg (fun d : Connection => some (d.collect server.room.roster)) (if_pos rfl)

/-! ## What is spared -/

/-- From one server to another, nothing happened to connections but `id`, except that they were sent
lines, and the entries of other sessions on the roster are the same. -/
structure Spares (server : Server δ) (id : ConnectionId) (next : Server δ) : Prop where
  connections : ∀ other c, other ≠ id → server.connection? other = some c →
    ∃ lines, next.connection? other = some (c.send lines)
  entries : ∀ e, e.id ≠ id → (e ∈ next.room.roster.entries ↔ e ∈ server.room.roster.entries)

namespace Spares

theorem refl (server : Server δ) (id : ConnectionId) : server.Spares id server where
  connections _ c _ hc := ⟨[], by rw [hc, send_nil]⟩
  entries _ _ := Iff.rfl

theorem trans {last : Server δ} (h : server.Spares id next) (h' : next.Spares id last) :
    server.Spares id last where
  connections other c hother hc := by
    obtain ⟨lines, hnext⟩ := h.connections other c hother hc
    obtain ⟨more, hlast⟩ := h'.connections other _ hother hnext
    exact ⟨lines ++ more, by rw [hlast, Connection.send_send]⟩
  entries e he := (h'.entries e he).trans (h.entries e he)

theorem update {c : Connection} (hid : c.id = id) : server.Spares id (server.update c) where
  connections other d hother hd := by
    have hne : d.id ≠ c.id := by rwa [id_of_connection? hd, hid]
    refine ⟨[], ?_⟩
    rw [connection?_update, hd, Option.map_some, if_neg hne, send_nil]
  entries _ _ := Iff.rfl

theorem deliver (server : Server δ) (id : ConnectionId) : server.Spares id server.deliver where
  connections other c _ hc := by
    obtain ⟨lines, hlines⟩ := c.exists_collect server.room.roster
    exact ⟨lines, by rw [connection?_deliver, hc, Option.map_some, hlines]⟩
  entries _ _ := Iff.rfl

theorem pace (server : Server δ) (id : ConnectionId) (isTaking : Bool) :
    server.Spares id (server.pace id isTaking) := by
  cases hc : server.connection? id with
  | none =>
    have hsame : server.pace id isTaking = server := by rw [Server.pace, hc]
    rw [hsame]
    exact .refl server id
  | some c =>
    have hid : c.id = id := id_of_connection? hc
    have hupdate : server.Spares id (server.update { c with isTaking }) := .update hid
    rw [pace_eq hc]
    exact hupdate.trans (.deliver _ id)

end Spares

/-! ## What has ended -/

variable [LogDevice δ]

theorem HasEnded.handle_all (h : server.HasEnded id) (incoming : List Incoming) :
    incoming.foldl (handle id) server = server := by
  obtain ⟨c, hc, hclosed⟩ := h
  have hone : ∀ i, server.handle id i = server := by
    intro i
    simp [handle, hc, hclosed]
  induction incoming with
  | nil => rfl
  | cons i rest ih => rw [List.foldl_cons, hone, ih]

theorem HasEnded.wire (h : server.HasEnded id) (event : WireEvent) :
    server.wire id event = server := by
  obtain ⟨c, hc, hclosed⟩ := h
  simp [Server.wire, hc, hclosed]

/-! ## Turns -/

theorem Turn.spares {turn : Turn δ} {rs : List Record} (hs : turn.Served)
    (h : turn.server.Consistent rs) : turn.server.Spares turn.connection.id turn.next where
  connections other c hother hc := by
    obtain ⟨lines, hlines⟩ := c.exists_collect turn.room.roster
    have hne : c.id ≠ turn.after.id := by rwa [id_of_connection? hc, turn.id_after]
    refine ⟨lines, ?_⟩
    rw [turn.connection?_next, hc, Option.map_some, if_neg hne, hlines]
  entries e he := (turn.advances hs h).entries e he

/-! ## Servers that a run leads to -/

/-- What is true of a server that a run leads to, as far as it is needed here. -/
structure Regular (server : Server δ) : Prop where
  consistent : ∃ rs, server.Consistent rs
  keepsNoLines : server.KeepsNoLines

theorem invariant_consistent :
    Invariant fun (server : Server δ) _ => ∃ rs, server.Consistent rs where
  listeners _ _ _ _ := fun ⟨rs, h⟩ => ⟨rs, h.congr rfl rfl rfl rfl fun c hc => ⟨c, hc, rfl, rfl⟩⟩
  accept _ _ carrier address := fun ⟨rs, h⟩ => ⟨rs, h.accept carrier address⟩
  hear _ _ _ unread _ hc := fun ⟨rs, h⟩ => ⟨rs, h.hear hc unread _⟩
  pace _ _ _ isTaking hc := fun ⟨rs, h⟩ => ⟨rs, h.pace hc isTaking⟩
  turn turn _ hs _ := fun ⟨rs, h⟩ => ⟨rs ++ turn.records, h.next hs⟩

omit [LogDevice δ] in
theorem IsNew.regular (h : server.IsNew) : server.Regular := ⟨⟨[], h.consistent⟩, h.keepsNoLines⟩

theorem Consistent.spares_handle_all {rs : List Record} (h : server.Consistent rs)
    (id : ConnectionId) (incoming : List Incoming) :
    server.Spares id (incoming.foldl (handle id) server) := by
  have hall : (∃ rs, (incoming.foldl (handle id) server).Consistent rs) ∧
      server.Spares id (incoming.foldl (handle id) server) := by
    refine handle_all_induction (P := fun s => (∃ rs, s.Consistent rs) ∧ server.Spares id s) ?_
      ⟨⟨rs, h⟩, .refl server id⟩ incoming
    rintro turn hs rfl ⟨⟨rs, hc⟩, hspares⟩
    exact ⟨⟨_, hc.next hs⟩, hspares.trans (turn.spares hs hc)⟩
  exact hall.2

namespace Regular

theorem step (h : server.Regular) (event : NetworkEvent) : (server.step event).Regular := by
  have hstep := @Invariant.step δ _ _ server [] invariant_consistent h.consistent h.keepsNoLines
  exact ⟨(hstep event).1, (hstep event).2⟩

theorem run (h : server.Regular) (events : List NetworkEvent) : (server.run events).Regular :=
  List.foldlRecOn events Server.step h fun _ h event _ => h.step event

theorem spares_wire (h : server.Regular) (id : ConnectionId) (event : WireEvent) :
    server.Spares id (server.wire id event) := by
  unfold Server.wire
  cases hc : server.connection? id with
  | none => exact .refl server id
  | some c =>
    obtain rfl : c.id = id := id_of_connection? hc
    obtain ⟨rs, hconsistent⟩ := h.consistent
    dsimp only
    split
    · refine Spares.trans ?_ ((hconsistent.hear hc _ _).spares_handle_all c.id _)
      exact .update rfl
    · exact .refl server c.id

/-- **Whatever a client does**, the others are spared. -/
theorem spares_step (h : server.Regular) {event : NetworkEvent} (hid : event.client? = some id) :
    server.Spares id (server.step event) := by
  cases event with
  | wire other event =>
    obtain rfl : other = id := Option.some_inj.1 hid
    exact h.spares_wire other event
  | takes other isTaking =>
    obtain rfl : other = id := Option.some_inj.1 hid
    exact .pace server other isTaking
  | accepts | establishes | shutdown => cases hid

/-- What does not happen on its own wire at most sends a connection lines, or lets it take them. -/
theorem connection?_step (h : server.Regular) {c : Connection}
    (hc : server.connection? id = some c) {event : NetworkEvent} (hother : event.isOn id = false) :
    ∃ isTaking lines, (server.step event).connection? id =
      some (({ c with isTaking } : Connection).send lines) := by
  have hsent {next : Server δ}
      (hnext : ∃ lines, next.connection? id = some (c.send lines)) :
      ∃ isTaking lines,
        next.connection? id = some (({ c with isTaking } : Connection).send lines) :=
    ⟨c.isTaking, hnext⟩
  have hsame : ∃ lines, server.connection? id = some (c.send lines) :=
    ⟨[], by rw [hc, send_nil]⟩
  have haccept : ∀ upgrading carrier address, ∃ lines,
      (({ server with upgrading }).accept carrier address).connection? id =
        some (c.send lines) := fun upgrading carrier address =>
    ⟨[], by rw [send_nil]; exact connection?_accept hc carrier address⟩
  cases event with
  | shutdown => exact hsent hsame
  | accepts carrier arrival =>
    rw [Server.step]
    split
    · cases arrival with
      | peer address => exact hsent (haccept server.upgrading carrier address)
      | opening address => exact hsent hsame
      | stray => exact hsent hsame
      | failure cause =>
        rw [take]
        split
        · exact hsent hsame
        · exact hsent hsame
    · exact hsent hsame
  | establishes place succeeds =>
    rw [Server.step, establish]
    split
    · exact hsent hsame
    · rename_i carrier address _
      cases succeeds with
      | true => exact hsent (haccept _ carrier address)
      | false => exact hsent hsame
  | wire other event =>
    have hne : id ≠ other := fun he => by simp [NetworkEvent.isOn, he] at hother
    exact hsent ((h.spares_wire other event).connections id c hne hc)
  | takes other isTaking =>
    by_cases hid : id = other
    · subst hid
      obtain ⟨lines, hlines⟩ := ({ c with isTaking } : Connection).exists_collect server.room.roster
      exact ⟨isTaking, lines, by rw [Server.step, connection?_pace hc, hlines]⟩
    · exact hsent ((Spares.pace server other isTaking).connections id c hid hc)

theorem hasEnded_step (h : server.Regular) (hended : server.HasEnded id) {event : NetworkEvent}
    (hother : event.isOn id = false) : (server.step event).HasEnded id := by
  obtain ⟨c, hc, hclosed⟩ := hended
  obtain ⟨isTaking, lines, hstep⟩ := h.connection?_step hc hother
  exact ⟨_, hstep, by rw [isOpen_send, hclosed]⟩

end Regular

end Server

end ChatRoom
