import ChatRoom.Proofs.Keyed
import ChatRoom.Proofs.Server.Presence

/-!
# The record tells the truth

Whatever happens on the network, the record stays consistent with the sessions (`Consistent.next`,
`Consistent.accept`), and a connection whose input has come to an end is closed and stays closed
(`HasEnded.next`). `record_tells_truth` reads off what this means for every run.
-/

namespace ChatRoom

namespace Server

variable {δ : Type} {server : Server δ} {rs : List Record} {c : Connection}

/-! ## Who is active -/

/-- Somebody has an active session under the name. -/
def IsActive (server : Server δ) (username : String) : Prop :=
  ∃ c ∈ server.connections, c.session.state = .active ∧ c.session.username = some username

theorem Consistent.isActive_iff_entry (h : server.Consistent rs) (username : String) :
    server.IsActive username ↔ ∃ e ∈ server.room.roster.entries, e.username = username := by
  constructor
  · rintro ⟨c, hc, hstate, hname⟩
    obtain ⟨name, e, -, hname', he, -, hu, -⟩ := h.active hc hstate
    exact ⟨e, he, hu.trans (Option.some_inj.1 (hname'.symm.trans hname))⟩
  · rintro ⟨e, he, hu⟩
    obtain ⟨c, hc, hid⟩ := List.mem_map.1 (h.seated e he)
    cases h.accounted c hc with
    | active name hopen hstate hname hentry hrecord =>
      obtain ⟨other, ho, hoid, hou⟩ := hentry
      have hsame : other = e :=
        (h.wellFormed.id_inj ho he).1 (hoid.trans hid)
      refine ⟨c, hc, hstate, ?_⟩
      rw [hname, ← hou, hsame, hu]
    | waiting _ _ _ hentry => exact absurd hid.symm (hentry e he)
    | refused _ _ _ hentry => exact absurd hid.symm (hentry e he)
    | ended _ _ _ _ hentry => exact absurd hid.symm (hentry e he)

theorem Consistent.isActive_iff (h : server.Consistent rs) (username : String) :
    server.IsActive username ↔ IsPresent username rs := by
  rw [h.isActive_iff_entry, h.present]

theorem Consistent.isActive_iff_find? (h : server.Consistent rs) (username : String) :
    server.IsActive username ↔ ∃ id, server.room.roster.find? username = some id := by
  rw [h.isActive_iff_entry]
  constructor
  · rintro ⟨e, he, hu⟩
    exact ⟨e.id, h.wellFormed.find?_eq_some_iff.2
      ⟨e, h.wellFormed.entryOf?_eq_some_iff.2 ⟨he, rfl⟩, hu⟩⟩
  · rintro ⟨id, hid⟩
    obtain ⟨e, he, hu⟩ := h.wellFormed.find?_eq_some_iff.1 hid
    exact ⟨e, (h.wellFormed.entryOf?_eq_some_iff.1 he).1, hu⟩

/-! ## Who is on record -/

/-- Who has joined is accounted for: it is there still, or it has left. -/
theorem Consistent.presencesOf_eq (h : server.Consistent rs) {id : ConnectionId}
    {username : String} (hjoined : ⟨id, .joined username⟩ ∈ rs) :
    ∃ c, server.connection? id = some c ∧ presencesOf id rs =
      if c.isOpen then [.joined username] else [.joined username, .left username] := by
  obtain ⟨c, hc, rfl⟩ := List.mem_map.1 (h.sources _ hjoined)
  have hmem : .joined username ∈ presencesOf c.id rs := by
    refine List.mem_filter.2 ⟨List.mem_map.2 ⟨_, List.mem_filter.2 ⟨hjoined, ?_⟩, rfl⟩, rfl⟩
    exact decide_eq_true rfl
  refine ⟨c, (find?_key_eq_some_iff h.ids).2 ⟨hc, rfl⟩, ?_⟩
  cases h.accounted c hc with
  | waiting _ _ _ _ hrecord => exact absurd rfl (hrecord _ hjoined)
  | refused _ _ _ _ hrecord => exact absurd rfl (hrecord _ hjoined)
  | active name hopen _ _ _ hrecord =>
    rw [hrecord, List.mem_singleton, Event.joined.injEq] at hmem
    rw [hrecord, hopen, hmem, if_pos rfl]
  | ended name hopen _ _ _ hrecord =>
    have hname : username = name := by simpa [hrecord] using hmem
    rw [hrecord, hopen, hname, if_neg Bool.false_ne_true]

/-- Who has not joined has put nothing on record. -/
theorem Consistent.joined_mem (h : server.Consistent rs) {r : Record} (hr : r ∈ rs) :
    ∃ username, ⟨r.source, .joined username⟩ ∈ rs := by
  obtain ⟨c, hc, hid⟩ := List.mem_map.1 (h.sources r hr)
  have hjoined {name : String} (hm : .joined name ∈ presencesOf c.id rs) :
      ⟨r.source, .joined name⟩ ∈ rs := by
    obtain ⟨s, hs, he⟩ := List.mem_map.1 (List.mem_of_mem_filter hm)
    obtain ⟨hs, hsource⟩ := List.mem_filter.1 hs
    rw [← hid, ← of_decide_eq_true hsource, ← he]
    exact hs
  cases h.accounted c hc with
  | waiting _ _ _ _ hrecord => exact absurd hid.symm (hrecord r hr)
  | refused _ _ _ _ hrecord => exact absurd hid.symm (hrecord r hr)
  | active name _ _ _ _ hrecord => exact ⟨name, hjoined (by simp [hrecord])⟩
  | ended name _ _ _ _ hrecord => exact ⟨name, hjoined (by simp [hrecord])⟩

/-! ## Between turns -/

/-- Only who is on the roster, and how the connections stand, matter. -/
theorem Consistent.congr (h : server.Consistent rs) {other : Server δ}
    (hentries : other.room.roster.entries = server.room.roster.entries)
    (hlimit : other.room.roster.limit = server.room.roster.limit)
    (hnext : other.nextId = server.nextId)
    (hids : other.connections.map (·.id) = server.connections.map (·.id))
    (hstand : ∀ d ∈ other.connections, ∃ c ∈ server.connections,
      d.session = c.session ∧ d.isOpen = c.isOpen) : other.Consistent rs where
  wellFormed := h.wellFormed.congr hentries hlimit
  truthful := h.truthful
  present := by
    rw [hentries]
    exact h.present
  ids := hids ▸ h.ids
  below := by
    rw [hids, hnext]
    exact h.below
  accounted d hd := by
    obtain ⟨c, hc, hsession, hopen⟩ := hstand d hd
    rw [hentries]
    exact (h.accounted c hc).congr hsession hopen
  seated := by
    rw [hentries, hids]
    exact h.seated
  sources := hids ▸ h.sources

theorem Consistent.deliver (h : server.Consistent rs) : server.deliver.Consistent rs := by
  refine h.congr rfl rfl rfl server.ids_deliver fun d hd => ?_
  obtain ⟨c, hc, rfl⟩ := mem_deliver hd
  exact ⟨c, hc, session_collect c _, isOpen_collect c _⟩

/-- A connection may be put in the place of one that stands alike. -/
theorem Consistent.update {d : Connection} (h : server.Consistent rs)
    (hc : server.connection? c.id = some c) (hsession : d.session = c.session)
    (hopen : d.isOpen = c.isOpen) : (server.update d).Consistent rs := by
  refine h.congr rfl rfl rfl (server.ids_update _) fun e he => ?_
  rcases mem_update he with rfl | ⟨he, -⟩
  · exact ⟨c, List.mem_of_find?_eq_some hc, hsession, hopen⟩
  · exact ⟨e, he, rfl, rfl⟩

theorem Consistent.hear (h : server.Consistent rs) (hc : server.connection? c.id = some c)
    (unread : List UInt8) (isReachable : Bool) :
    (server.update { c with unread, isReachable }).Consistent rs := h.update hc rfl rfl

theorem Consistent.pace (h : server.Consistent rs) (hc : server.connection? c.id = some c)
    (isTaking : Bool) : (server.update { c with isTaking }).deliver.Consistent rs := by
  have hupdate : (server.update { c with isTaking }).Consistent rs := h.update hc rfl rfl
  exact hupdate.deliver

/-- One that comes in is not on record, and has not been taken for another. -/
theorem Consistent.accept (h : server.Consistent rs) (carrier : Carrier) (address : Address) :
    (server.accept carrier address).Consistent rs := by
  obtain ⟨new, hconnections, hnew⟩ := server.connections_accept carrier address
  have hid : new.id = ⟨server.nextId⟩ := by
    rcases hnew with rfl | rfl
    · exact id_send _ _
    · exact id_send _ _
  have hfresh : ∀ id ∈ server.connections.map (·.id), id ≠ new.id := by
    intro id hm hsame
    have hlt := h.below id hm
    rw [hsame, hid] at hlt
    exact Nat.lt_irrefl _ hlt
  have hids : (server.accept carrier address).connections.map (·.id) =
      server.connections.map (·.id) ++ [new.id] := by
    rw [hconnections, List.map_append, List.map_singleton]
  have hentry : ∀ e ∈ server.room.roster.entries, e.id ≠ new.id :=
    fun e he => hfresh e.id (h.seated e he)
  have hrecord : ∀ r ∈ rs, r.source ≠ new.id := fun r hr => hfresh r.source (h.sources r hr)
  refine ⟨h.wellFormed, h.truthful, h.present, ?_, fun id hm => ?_, fun d hd => ?_,
    fun e he => ?_, fun r hr => ?_⟩
  · rw [hids, ← List.concat_eq_append, List.nodup_concat]
    exact ⟨fun hm => hfresh _ hm rfl, h.ids⟩
  · rw [hids, List.mem_append, List.mem_singleton] at hm
    have hbelow : id.value < server.nextId + 1 := by
      rcases hm with hm | rfl
      · exact Nat.lt_succ_of_lt (h.below id hm)
      · rw [hid]
        exact Nat.lt_succ_self _
    exact hbelow
  · rw [hconnections, List.mem_append, List.mem_singleton] at hd
    rcases hd with hd | rfl
    · exact h.accounted d hd
    · rcases hnew with rfl | rfl
      · have hsession := session_send (server.newcomer carrier address) Rejection.serverFull.lines
        exact .refused rfl rfl (congrArg Session.username hsession) hentry hrecord
      · refine .waiting (isOpen_send _ _) ?_ ?_ hentry hrecord
        · rw [session_send]
        · rw [session_send]
  · rw [hids]
    exact List.mem_append_left _ (h.seated e he)
  · rw [hids]
    exact List.mem_append_left _ (h.sources r hr)

theorem IsNew.consistent (h : server.IsNew) : server.Consistent [] := by
  obtain ⟨limit, groups, capacity, log, hroom⟩ := h.room
  have hentries : server.room.roster.entries = [] := by rw [hroom]; rfl
  refine ⟨?_, truthful_nil, fun username => ?_, ?_, ?_, ?_, ?_, fun r hr => ?_⟩
  · rw [hroom]
    exact Roster.WellFormed.empty limit
  · simp [hentries, IsPresent, presences]
  · simp [h.connections]
  · simp [h.connections]
  · simp [h.connections]
  · simp [hentries]
  · cases hr

/-! ## Ends -/

/-- A connection is over. -/
def HasEnded (server : Server δ) (id : ConnectionId) : Prop :=
  ∃ c, server.connection? id = some c ∧ c.isOpen = false

theorem connection?_accept {id : ConnectionId} (hc : server.connection? id = some c)
    (carrier : Carrier) (address : Address) :
    (server.accept carrier address).connection? id = some c := by
  obtain ⟨new, hconnections, -⟩ := server.connections_accept carrier address
  rw [connection?] at hc ⊢
  rw [hconnections, List.find?_append, hc, Option.some_or]

theorem HasEnded.accept {id : ConnectionId} (h : server.HasEnded id) (carrier : Carrier)
    (address : Address) : (server.accept carrier address).HasEnded id := by
  obtain ⟨c, hc, hclosed⟩ := h
  exact ⟨c, connection?_accept hc carrier address, hclosed⟩

theorem HasEnded.update {id : ConnectionId} (h : server.HasEnded id) {d : Connection}
    (hc : server.connection? c.id = some c) (hid : d.id = c.id) (hopen : d.isOpen = c.isOpen) :
    (server.update d).HasEnded id := by
  obtain ⟨e, he, hclosed⟩ := h
  refine ⟨if e.id = d.id then d else e, ?_, ?_⟩
  · rw [connection?_update, he, Option.map_some]
  · split
    · rename_i hsame
      rw [← id_of_connection? he, hsame, hid, hc, Option.some_inj] at he
      rw [hopen, he, hclosed]
    · exact hclosed

theorem HasEnded.hear {id : ConnectionId} (h : server.HasEnded id)
    (hc : server.connection? c.id = some c) (unread : List UInt8) (isReachable : Bool) :
    (server.update { c with unread, isReachable }).HasEnded id := h.update hc rfl rfl

theorem HasEnded.pace {id : ConnectionId} (h : server.HasEnded id)
    (hc : server.connection? c.id = some c) (isTaking : Bool) :
    (server.update { c with isTaking }).deliver.HasEnded id := by
  have hupdate : (server.update { c with isTaking }).HasEnded id := h.update hc rfl rfl
  obtain ⟨d, hd, hclosed⟩ := hupdate
  refine ⟨d.collect server.room.roster, ?_, by rw [isOpen_collect, hclosed]⟩
  rw [connection?_deliver, hd, Option.map_some]
  rfl

/-! ## Turns -/

variable [LogDevice δ] {turn : Turn δ}

theorem Turn.advances (hs : turn.Served) (h : turn.server.Consistent rs) :
    turn.server.Advances rs turn.connection turn.after turn.room turn.records := by
  have hadvances := h.receives hs.mem hs.isOpen turn.receives
  rwa [← turn.room_eq] at hadvances

/-- **A turn keeps the record consistent** with the sessions. -/
theorem Consistent.next (h : turn.server.Consistent rs) (hs : turn.Served) :
    turn.next.Consistent (rs ++ turn.records) := by
  have hadvances := turn.advances hs h
  have hwellFormed : turn.room.roster.WellFormed := by
    rw [turn.room_eq]
    exact Room.wellFormed_run h.wellFormed turn.moves
  refine ⟨hwellFormed.congr rfl rfl, hadvances.truthful h.truthful, hadvances.present, ?_, ?_,
    fun d hd => ?_, fun e he => ?_, fun r hr => ?_⟩
  · rw [turn.ids_next]
    exact h.ids
  · rw [turn.ids_next]
    exact h.below
  · obtain ⟨other, hother, rfl⟩ := turn.mem_next hd
    refine Accounted.congr ?_ (session_collect _ _) (isOpen_collect _ _)
    rcases hother with rfl | ⟨ho, hne⟩
    · exact hadvances.accounted
    · rw [turn.id_after] at hne
      refine (h.accounted other ho).frame (fun e he => ?_) fun r hr => ?_
      · exact hadvances.entries e (he ▸ hne)
      · rw [hadvances.sources r hr]
        exact Ne.symm hne
  · rw [turn.ids_next]
    by_cases hid : e.id = turn.connection.id
    · rw [hid]
      exact List.mem_map_of_mem hs.mem
    · exact h.seated e ((hadvances.entries e hid).1 he)
  · rw [turn.ids_next]
    rcases List.mem_append.1 hr with hr | hr
    · exact h.sources r hr
    · rw [hadvances.sources r hr]
      exact List.mem_map_of_mem hs.mem

/-- What has ended is not served again. -/
theorem HasEnded.next {id : ConnectionId} (h : turn.server.HasEnded id) (hs : turn.Served) :
    turn.next.HasEnded id := by
  obtain ⟨c, hc, hclosed⟩ := h
  have hid : c.id = id := id_of_connection? hc
  have hne : c.id ≠ turn.after.id := by
    intro hsame
    rw [turn.id_after] at hsame
    have hfound := hs.isFound
    rw [← hsame, hid, hc, Option.some_inj] at hfound
    rw [hfound, hs.isOpen] at hclosed
    cases hclosed
  refine ⟨c.collect turn.room.roster, ?_, by rw [isOpen_collect, hclosed]⟩
  rw [turn.connection?_next, hc, Option.map_some, if_neg hne]

/-- A connection ends with its input. -/
theorem Turn.hasEnded_next (hs : turn.Served) (hi : ∀ line, turn.incoming ≠ .line line) :
    turn.next.HasEnded turn.connection.id := by
  have hclosed : turn.after.isOpen = false := by
    have h := turn.receives
    generalize turn.after = c, turn.moves = steps at h
    cases h with
    | turnedAway lines hstate hlines => rfl
    | welcomed line username hstate hline hcheck hadmits => exact absurd hline (hi line)
    | routed sender line hstate husername hline => exact absurd hline (hi line)
    | parted hstate => rfl
  refine ⟨turn.after.collect turn.room.roster, ?_, by rw [isOpen_collect, hclosed]⟩
  rw [turn.connection?_next, hs.isFound, Option.map_some, if_pos turn.id_after.symm]

/-! ## The end of a stream -/

theorem connection?_handle_all (id : ConnectionId) (incoming : List Incoming)
    {other : ConnectionId} (h : ∃ c, server.connection? other = some c) :
    ∃ c, (incoming.foldl (handle id) server).connection? other = some c := by
  refine handle_all_induction (P := fun s => ∃ c, s.connection? other = some c) ?_ h incoming
  rintro turn - - ⟨c, hc⟩
  exact ⟨_, by rw [turn.connection?_next, hc, Option.map_some]⟩

theorem hasEnded_handle {id : ConnectionId} (h : ∃ c, server.connection? id = some c)
    {i : Incoming} (hi : ∀ line, i ≠ .line line) : (server.handle id i).HasEnded id := by
  obtain ⟨c, hc⟩ := h
  have hid : c.id = id := id_of_connection? hc
  rw [handle_eq]
  cases hopen : c.isOpen with
  | false =>
    have hnone : server.turn? id i = none := by simp [turn?, hc, hopen]
    rw [hnone]
    exact ⟨c, hc, hopen⟩
  | true =>
    have hsome : server.turn? id i = some ⟨server, c, i⟩ := by simp [turn?, hc, hopen]
    obtain ⟨-, -, hserved⟩ := turn?_eq_some hsome
    rw [hsome, ← hid]
    exact Turn.hasEnded_next hserved hi

/-- What the end of a stream, or a failure to read it, means to the chat ends with no line. -/
theorem hear_ends (c : Connection) (max : Nat) {event : WireEvent}
    (h : event = .ends ∨ event = .vanishes ∨ ∃ cause, event = .fails cause) :
    ∃ before last, (c.hear max event).1 = before ++ [last] ∧ ∀ line, last ≠ .line line := by
  have hwords : ∃ before last, Connection.lastWords c.unread = before ++ [last] ∧
      ∀ line, last ≠ .line line := by
    unfold Connection.lastWords
    split
    · exact ⟨[], _, rfl, by simp⟩
    · exact ⟨_, _, rfl, by simp⟩
  have hfault (e : TransportError) : ∃ before last, [Incoming.failed e] = before ++ [last] ∧
      ∀ line, last ≠ .line line := ⟨[], _, rfl, by simp⟩
  unfold Connection.hear
  rcases h with rfl | rfl | ⟨cause, rfl⟩
  · cases c.carrier with
    | tcp => exact hwords
    | webSocket => exact hfault Frame.reset
  · cases c.carrier with
    | tcp => exact hwords
    | webSocket => exact hfault Frame.reset
  · cases c.carrier with
    | tcp => exact hfault (.receiveFailed cause)
    | webSocket => exact hfault Frame.reset

/-- A connection ends when its peer does or cannot be read, whatever was left to read. -/
theorem hasEnded_step {id : ConnectionId} (h : ∃ c, server.connection? id = some c)
    {event : WireEvent}
    (hevent : event = .ends ∨ event = .vanishes ∨ ∃ cause, event = .fails cause) :
    (server.step (.wire id event)).HasEnded id := by
  obtain ⟨c, hc⟩ := h
  simp only [Server.step, wire, hc]
  split
  · obtain ⟨before, last, hheard, hlast⟩ := hear_ends c server.lineLength hevent
    rw [hheard, List.foldl_append]
    refine hasEnded_handle (connection?_handle_all id before ?_) hlast
    exact ⟨_, by rw [connection?_update, hc, Option.map_some]⟩
  · rename_i hopen
    exact ⟨c, hc, by simpa using hopen⟩

/-! ## Runs -/

/-- Who sends something in a turn is active, and so is whom a direct message is for. -/
def Turn.Sound (turn : Turn δ) : Prop :=
  ∀ r ∈ turn.records, (∀ username ∈ r.event.sender?, turn.server.IsActive username) ∧
    ∀ username ∈ r.event.recipient?, turn.server.IsActive username

theorem Turn.sound (hs : turn.Served) (h : turn.server.Consistent rs) : turn.Sound := by
  intro r hr
  have hfits := (turn.advances hs h).fits r hr
  exact ⟨fun username hn => (h.isActive_iff username).2 (hfits.sender username hn),
    fun username hn => (h.isActive_iff username).2 (hfits.recipient username hn)⟩

theorem invariant_truth : Invariant fun (server : Server δ) ts =>
    server.Consistent (ts.flatMap Turn.records) ∧ (∀ turn ∈ ts, turn.Sound) ∧
      ∀ turn ∈ ts, (∀ line, turn.incoming ≠ .line line) → server.HasEnded turn.connection.id where
  listeners _ _ _ _ h :=
    ⟨h.1.congr rfl rfl rfl rfl fun c hc => ⟨c, hc, rfl, rfl⟩, h.2⟩
  accept _ _ carrier address h :=
    ⟨h.1.accept carrier address, h.2.1, fun t ht hi => (h.2.2 t ht hi).accept carrier address⟩
  hear _ _ _ unread _ hc h :=
    ⟨h.1.hear hc unread _, h.2.1, fun t ht hi => (h.2.2 t ht hi).hear hc unread _⟩
  pace _ _ _ isTaking hc h :=
    ⟨h.1.pace hc isTaking, h.2.1, fun t ht hi => (h.2.2 t ht hi).pace hc isTaking⟩
  turn turn ts hs _ h := by
    obtain ⟨hconsistent, hsound, hended⟩ := h
    rw [List.flatMap_append, List.flatMap_singleton]
    refine ⟨hconsistent.next hs, fun t ht => ?_, fun t ht hi => ?_⟩
    · rcases List.mem_append.1 ht with ht | ht
      · exact hsound t ht
      · exact List.mem_singleton.1 ht ▸ Turn.sound hs hconsistent
    · rcases List.mem_append.1 ht with ht | ht
      · exact (hended t ht hi).next hs
      · cases List.mem_singleton.1 ht
        exact Turn.hasEnded_next hs hi

/-! ## Who was welcomed -/

/-- In a run, the connection was put on the roster under the name, and its greeting queued. -/
def Welcomed (start : Server δ) (events : List NetworkEvent) (id : ConnectionId)
    (username : String) : Prop :=
  ∃ turn ∈ start.turns events, ∃ capacity, RoomStep.enter id username capacity ∈ turn.moves

theorem Turn.joined_mem_records_iff (turn : Turn δ) {id : ConnectionId} {username : String} :
    ⟨id, .joined username⟩ ∈ turn.records ↔
      ∃ capacity, RoomStep.enter id username capacity ∈ turn.moves := by
  have h := turn.receives
  unfold records
  generalize turn.after = next, turn.moves = steps at h ⊢
  cases h with
  | turnedAway lines hstate hlines => simp [Room.recorded]
  | welcomed line name hstate hline hcheck hadmits =>
    have hrecords : turn.server.room.recorded
        [.enter turn.connection.id name turn.server.outboxCapacity,
          .joined turn.connection.id name] = [⟨turn.connection.id, .joined name⟩] := rfl
    simp [hrecords]
  | routed sender line hstate husername hline =>
    have hnone : ⟨id, .joined username⟩ ∉ turn.server.room.recorded
        [.route turn.connection.id sender line] := by
      intro hm
      have hrecords : turn.server.room.recorded [.route turn.connection.id sender line] =
          (turn.server.room.record? (.route turn.connection.id sender line)).toList :=
        List.append_nil _
      rw [hrecords, Option.mem_toList] at hm
      obtain ⟨_, hs, -⟩ | ⟨_, hs, -⟩ | ⟨_, _, command, hs, -, hevent⟩ := Room.record?_eq_some hm
      · cases hs
      · cases hs
      · obtain ⟨hpresence, -, -⟩ := Room.commandEvent?_eq_some hevent
        cases hpresence
    simp [hnone]
  | parted hstate =>
    unfold Room.departure
    split
    · simp [Room.recorded]
    · have hrecords (name : String) : turn.server.room.recorded
          [.leave turn.connection.id, .left turn.connection.id name] =
            [⟨turn.connection.id, .left name⟩] := rfl
      simp [hrecords]

theorem welcomed_iff {start : Server δ} {events : List NetworkEvent} {id : ConnectionId}
    {username : String} :
    start.Welcomed events id username ↔ ⟨id, .joined username⟩ ∈ start.recorded events := by
  simp only [Welcomed, recorded, List.mem_flatMap, Turn.joined_mem_records_iff]

/-- **The record tells the truth.** History and log are given the record of a run, and nothing else.
Joins and departures of a name alternate, and the last is a join exactly when the name is active.
Who sends a message, and whom a direct message is for, is active then, and has joined and not left.
A connection that was welcomed has joined once, and has left once if it is over; one that was not is
not on record. A connection is over once its input is, whether that ended or failed. -/
theorem record_tells_truth {plan : Plan} {host : Host δ} {start : Server δ}
    (hstart : plan.start host = .ok start) (events : List NetworkEvent) :
    let server := start.run events
    let record := start.recorded events
    (server.room.history =
        (record.map (·.event.line)).foldl History.append start.room.history ∧
      server.room.log =
        (record.map (·.event.line)).foldl (fun log line => Log.note line log) start.room.log) ∧
    (∀ username,
      (∀ i e, (presences username record)[i]? = some e →
        e = if i % 2 = 0 then .joined username else .left username) ∧
      (server.IsActive username ↔
        (presences username record).getLast? = some (.joined username)) ∧
      (server.IsActive username ↔ ∃ id, server.room.roster.find? username = some id)) ∧
    ((∀ before r after, record = before ++ r :: after →
        (∀ username ∈ r.event.sender?, IsPresent username before) ∧
        ∀ username ∈ r.event.recipient?, IsPresent username before) ∧
      ∀ turn ∈ start.turns events, turn.Sound) ∧
    ((∀ id username, start.Welcomed events id username →
        ∃ c, server.connection? id = some c ∧ presencesOf id record =
          if c.isOpen then [.joined username] else [.joined username, .left username]) ∧
      ∀ r ∈ record, ∃ username, start.Welcomed events r.source username) ∧
    (∀ turn ∈ start.turns events, (∀ line, turn.incoming ≠ .line line) →
      server.HasEnded turn.connection.id) ∧
    ∀ id c event, server.connection? id = some c →
      event = .ends ∨ event = .vanishes ∨ (∃ cause, event = .fails cause) →
      (server.step (.wire id event)).HasEnded id := by
  intro server record
  have hnew : start.IsNew := Plan.isNew_of_start hstart
  obtain ⟨hconsistent, hsound, hended⟩ := invariant_truth.run
    ⟨hnew.consistent, fun turn ht => absurd ht List.not_mem_nil,
      fun turn ht => absurd ht List.not_mem_nil⟩ hnew.keepsNoLines events
  refine ⟨room_run_recorded hnew.keepsNoLines events, fun username => ⟨?_, ?_, ?_⟩,
    ⟨fun before r after hr => ?_, hsound⟩, ⟨fun id username hw => ?_, fun r hr => ?_⟩, hended,
    fun id c event hc hevent => hasEnded_step ⟨c, hc⟩ hevent⟩
  · exact hconsistent.truthful.alternate username
  · exact hconsistent.isActive_iff username
  · exact hconsistent.isActive_iff_find? username
  · have hfits := hconsistent.truthful before r after hr
    exact ⟨hfits.sender, hfits.recipient⟩
  · exact hconsistent.presencesOf_eq (welcomed_iff.1 hw)
  · obtain ⟨username, hjoined⟩ := hconsistent.joined_mem hr
    exact ⟨username, welcomed_iff.2 hjoined⟩

/-- Ann vanishes with a line half sent, her name is taken again, and Bob's frame is no text. -/
theorem record_tells_truth_ann_bob :
    let plan : Plan := {
      settings := { webSocketAddress := some "127.0.0.1:8081" }
      allowList := some ⟨["ann", "bob"]⟩ }
    let host := Host.inMemory { clock := ⟨2024, 5, 1, 12, 0, 0⟩ }
    let peer : Arrival := .peer (.v4 #v[127, 0, 0, 1] 4000)
    let events : List NetworkEvent := [.accepts .tcp peer, .accepts .webSocket peer,
      .accepts .tcp peer, .accepts .tcp peer, .wire ⟨1⟩ (.bytes (Utf8.encode "ann\n")),
      .wire ⟨2⟩ (.frame (.text [Utf8.encode "bob"])),
      .wire ⟨3⟩ (.bytes (Utf8.encode "ann\n")),
      .wire ⟨1⟩ (.bytes (Utf8.encode "PRIVMSG bob hi\nhel")), .wire ⟨1⟩ .vanishes,
      .wire ⟨4⟩ (.bytes (Utf8.encode "ann\n")), .wire ⟨2⟩ (.frame (.text [[255]]))]
    ∃ start, plan.start host = .ok start ∧
      start.recorded events = [⟨⟨1⟩, .joined "ann"⟩, ⟨⟨2⟩, .joined "bob"⟩,
        ⟨⟨1⟩, .direct "ann" "bob" "hi"⟩, ⟨⟨1⟩, .global "ann" "hel"⟩, ⟨⟨1⟩, .left "ann"⟩,
        ⟨⟨4⟩, .joined "ann"⟩, ⟨⟨2⟩, .left "bob"⟩] ∧
      ((start.run events).IsActive "ann" ↔
        (presences "ann" (start.recorded events)).getLast? = some (.joined "ann")) ∧
      ∀ id username, start.Welcomed events id username →
        ∃ c, (start.run events).connection? id = some c ∧
          presencesOf id (start.recorded events) =
            if c.isOpen then [.joined username] else [.joined username, .left username] := by
  intro plan host peer events
  have hstart : plan.start host = .ok _ := rfl
  refine ⟨_, hstart, by decide +kernel, ?_⟩
  obtain ⟨-, hnames, -, ⟨hwelcomed, -⟩, -, -⟩ := record_tells_truth hstart events
  exact ⟨(hnames "ann").2.1, hwelcomed⟩

end Server

end ChatRoom
