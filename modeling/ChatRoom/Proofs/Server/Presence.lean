import ChatRoom.Proofs.Record
import ChatRoom.Proofs.Server.Turns

/-!
# The record and the sessions

The record of a server tells who is there. `Consistent` ties it to the connections and the roster:
the names present are those on the roster, and every connection is accounted for by its presences on
record (`Accounted`): none before it is welcomed, a join while it is active, and a departure once it
has ended. A turn has one of four outcomes, and each keeps this (`Consistent.receives`).
-/

namespace ChatRoom

namespace Server

variable {δ : Type}

/-! ## Accounts -/

/-- How a connection stands, and what is on the roster and on record about it. -/
inductive Accounted (entries : List Entry) (rs : List Record) (c : Connection) : Prop
  | waiting (hopen : c.isOpen = true) (hstate : c.session.state = .awaitingUsername)
      (hname : c.session.username = none) (hentry : ∀ e ∈ entries, e.id ≠ c.id)
      (hrecord : ∀ r ∈ rs, r.source ≠ c.id)
  | active (username : String) (hopen : c.isOpen = true) (hstate : c.session.state = .active)
      (hname : c.session.username = some username)
      (hentry : ∃ e ∈ entries, e.id = c.id ∧ e.username = username)
      (hrecord : presencesOf c.id rs = [.joined username])
  | refused (hopen : c.isOpen = false) (hstate : c.session.state = .closed)
      (hname : c.session.username = none) (hentry : ∀ e ∈ entries, e.id ≠ c.id)
      (hrecord : ∀ r ∈ rs, r.source ≠ c.id)
  | ended (username : String) (hopen : c.isOpen = false) (hstate : c.session.state = .closed)
      (hname : c.session.username = some username) (hentry : ∀ e ∈ entries, e.id ≠ c.id)
      (hrecord : presencesOf c.id rs = [.joined username, .left username])

variable {entries : List Entry} {rs : List Record} {c : Connection}

theorem presencesOf_eq_nil {id : ConnectionId} (h : ∀ r ∈ rs, r.source ≠ id) :
    presencesOf id rs = [] := by
  have hnone : rs.filter (·.source = id) = [] := by simpa using h
  rw [presencesOf, hnone]
  rfl

theorem Accounted.congr (h : Accounted entries rs c) {d : Connection} (hs : d.session = c.session)
    (ho : d.isOpen = c.isOpen) : Accounted entries rs d := by
  have hid : d.id = c.id := congrArg Session.id hs
  cases h with
  | waiting hopen hstate hname hentry hrecord =>
    exact .waiting (ho ▸ hopen) (hs ▸ hstate) (hs ▸ hname) (hid ▸ hentry) (hid ▸ hrecord)
  | active username hopen hstate hname hentry hrecord =>
    exact .active username (ho ▸ hopen) (hs ▸ hstate) (hs ▸ hname) (hid ▸ hentry) (hid ▸ hrecord)
  | refused hopen hstate hname hentry hrecord =>
    exact .refused (ho ▸ hopen) (hs ▸ hstate) (hs ▸ hname) (hid ▸ hentry) (hid ▸ hrecord)
  | ended username hopen hstate hname hentry hrecord =>
    exact .ended username (ho ▸ hopen) (hs ▸ hstate) (hs ▸ hname) (hid ▸ hentry) (hid ▸ hrecord)

theorem Accounted.frame (h : Accounted entries rs c) {after : List Entry} {new : List Record}
    (hentries : ∀ e, e.id = c.id → (e ∈ after ↔ e ∈ entries))
    (hnew : ∀ r ∈ new, r.source ≠ c.id) : Accounted after (rs ++ new) c := by
  have hnone : (∀ e ∈ entries, e.id ≠ c.id) → ∀ e ∈ after, e.id ≠ c.id :=
    fun hentry e he hid => hentry e ((hentries e hid).1 he) hid
  have hnever : (∀ r ∈ rs, r.source ≠ c.id) → ∀ r ∈ rs ++ new, r.source ≠ c.id :=
    fun hrecord r hr => (List.mem_append.1 hr).elim (hrecord r) (hnew r)
  have hsame : presencesOf c.id (rs ++ new) = presencesOf c.id rs := by
    rw [presencesOf_append, presencesOf_eq_nil hnew, List.append_nil]
  cases h with
  | waiting hopen hstate hname hentry hrecord =>
    exact .waiting hopen hstate hname (hnone hentry) (hnever hrecord)
  | active username hopen hstate hname hentry hrecord =>
    obtain ⟨e, he, hid, hu⟩ := hentry
    exact .active username hopen hstate hname ⟨e, (hentries e hid).2 he, hid, hu⟩
      (hsame.trans hrecord)
  | refused hopen hstate hname hentry hrecord =>
    exact .refused hopen hstate hname (hnone hentry) (hnever hrecord)
  | ended username hopen hstate hname hentry hrecord =>
    exact .ended username hopen hstate hname (hnone hentry) (hsame.trans hrecord)

/-! ## Consistency -/

/-- The record, the roster and the connections of a server say the same. -/
structure Consistent (server : Server δ) (rs : List Record) : Prop where
  wellFormed : server.room.roster.WellFormed
  truthful : Truthful rs
  present : ∀ username, IsPresent username rs ↔
    ∃ e ∈ server.room.roster.entries, e.username = username
  ids : (server.connections.map (·.id)).Nodup
  below : ∀ id ∈ server.connections.map (·.id), id.value < server.nextId
  accounted : ∀ c ∈ server.connections, Accounted server.room.roster.entries rs c
  seated : ∀ e ∈ server.room.roster.entries, e.id ∈ server.connections.map (·.id)
  sources : ∀ r ∈ rs, r.source ∈ server.connections.map (·.id)

/-- What becomes of the connection `c`, the room and the record, when only `c` is concerned. -/
structure Advances (server : Server δ) (rs : List Record) (c next : Connection) (room : Room δ)
    (new : List Record) : Prop where
  accounted : Accounted room.roster.entries (rs ++ new) next
  entries : ∀ e, e.id ≠ c.id →
    (e ∈ room.roster.entries ↔ e ∈ server.room.roster.entries)
  sources : ∀ r ∈ new, r.source = c.id
  one : new.length ≤ 1
  fits : ∀ r ∈ new, Fits rs r.event
  present : ∀ username, IsPresent username (rs ++ new) ↔
    ∃ e ∈ room.roster.entries, e.username = username

variable {server : Server δ}

theorem Advances.truthful {next : Connection} {room : Room δ} {new : List Record}
    (h : server.Advances rs c next room new) (hrs : Truthful rs) : Truthful (rs ++ new) := by
  obtain ⟨-, -, -, hone, hfits, -⟩ := h
  match new, hone, hfits with
  | [], _, _ => rwa [List.append_nil]
  | [r], _, hfits => exact truthful_snoc.2 ⟨hrs, hfits r List.mem_cons_self⟩

/-- One that was not active ends without a trace. -/
theorem Consistent.turnedAway (h : server.Consistent rs) (hc : c ∈ server.connections)
    (hopen : c.isOpen = true) (hstate : c.session.state ≠ .active) (lines : List String) :
    server.Advances rs c (c.send lines).hangUp server.room [] where
  accounted := by
    have hid : (c.send lines).hangUp.id = c.id := id_send c lines
    rw [List.append_nil]
    cases h.accounted c hc with
    | waiting _ _ hname hentry hrecord =>
      refine .refused rfl rfl ?_ (hid ▸ hentry) (hid ▸ hrecord)
      exact (congrArg Session.username (session_send c lines)).trans hname
    | active _ _ hactive => exact absurd hactive hstate
    | refused hclosed => rw [hopen] at hclosed; cases hclosed
    | ended _ hclosed => rw [hopen] at hclosed; cases hclosed
  entries _ _ := Iff.rfl
  sources r hr := absurd hr List.not_mem_nil
  one := Nat.zero_le _
  fits r hr := absurd hr List.not_mem_nil
  present := by rw [List.append_nil]; exact h.present

theorem Consistent.active (h : server.Consistent rs) (hc : c ∈ server.connections)
    (hstate : c.session.state = .active) :
    ∃ username e, c.isOpen = true ∧ c.session.username = some username ∧
      e ∈ server.room.roster.entries ∧ e.id = c.id ∧ e.username = username ∧
      presencesOf c.id rs = [.joined username] := by
  cases h.accounted c hc with
  | active username hopen _ hname hentry hrecord =>
    obtain ⟨e, he, hid, hu⟩ := hentry
    exact ⟨username, e, hopen, hname, he, hid, hu, hrecord⟩
  | waiting _ hwaiting => rw [hstate] at hwaiting; cases hwaiting
  | refused _ hclosed => rw [hstate] at hclosed; cases hclosed
  | ended _ _ hclosed => rw [hstate] at hclosed; cases hclosed

theorem Consistent.waiting (h : server.Consistent rs) (hc : c ∈ server.connections)
    (hstate : c.session.state = .awaitingUsername) :
    (∀ e ∈ server.room.roster.entries, e.id ≠ c.id) ∧ ∀ r ∈ rs, r.source ≠ c.id := by
  cases h.accounted c hc with
  | waiting _ _ _ hentry hrecord => exact ⟨hentry, hrecord⟩
  | active _ _ hactive => rw [hstate] at hactive; cases hactive
  | refused _ hclosed => rw [hstate] at hclosed; cases hclosed
  | ended _ _ hclosed => rw [hstate] at hclosed; cases hclosed

variable [LogDevice δ]

theorem Consistent.welcomed (h : server.Consistent rs) (hc : c ∈ server.connections)
    (hopen : c.isOpen = true) (hstate : c.session.state = .awaitingUsername) {username : String}
    (hadmits : server.room.roster.Admits username) :
    server.Advances rs c (welcome c username server.room.roster.outboxes.length)
      (server.room.run [.enter c.id username server.outboxCapacity, .joined c.id username])
      [⟨c.id, .joined username⟩] := by
  obtain ⟨hentry, hrecord⟩ := h.waiting hc hstate
  have hentries : (server.room.run [.enter c.id username server.outboxCapacity,
      .joined c.id username]).roster.entries =
      server.room.roster.entries ++ [⟨c.id, username, server.room.roster.outboxes.length⟩] := by
    have hall : server.room.roster.entries.filter (·.id ≠ c.id) = server.room.roster.entries :=
      List.filter_eq_self.2 fun e he => by simpa using hentry e he
    rw [Room.run_cons, Room.run_cons, Room.run_nil, Room.entries_step, Room.entriesAfter,
      Room.entries_step, Room.entriesAfter, if_pos hadmits, hall]
  have hfresh : presencesOf c.id rs = [] := presencesOf_eq_nil hrecord
  refine ⟨?_, fun e he => ?_, fun r hr => ?_, Nat.le_refl _, fun r hr => ?_, fun name => ?_⟩
  · refine .active username hopen rfl rfl ?_ ?_
    · rw [hentries]
      exact ⟨_, List.mem_append_right _ List.mem_cons_self, rfl, rfl⟩
    · have hid : (welcome c username server.room.roster.outboxes.length).id = c.id := rfl
      rw [hid, presencesOf_append, hfresh]
      simp [presencesOf, Event.isPresence]
  · rw [hentries, List.mem_append, List.mem_singleton]
    refine or_iff_left fun hnew => he ?_
    rw [hnew]
  · rw [List.mem_singleton.1 hr]
  · rw [List.mem_singleton.1 hr]
    refine ⟨fun name hname hpresent => ?_, by simp, by simp [Event.sender?],
      by simp [Event.recipient?]⟩
    cases hname
    obtain ⟨e, he, hu⟩ := (h.present username).1 hpresent
    exact hadmits.free e he hu
  · rw [hentries]
    by_cases hname : name = username
    · subst hname
      have hin : IsPresent name (rs ++ [⟨c.id, .joined name⟩]) := isPresent_joined rfl
      exact ⟨fun _ => ⟨_, List.mem_append_right _ List.mem_cons_self, rfl⟩, fun _ => hin⟩
    · have hne : Event.joined username ≠ .joined name := fun he => hname (Event.joined.inj he).symm
      rw [isPresent_snoc_of_ne hne (by simp), h.present]
      simp [Ne.symm hname]

/-- One that is active says what it says as somebody present. -/
theorem Consistent.routed (h : server.Consistent rs) (hc : c ∈ server.connections)
    (hstate : c.session.state = .active) {sender : String}
    (hname : c.session.username = some sender) (line : String) :
    server.Advances rs c c (server.room.run [.route c.id sender line])
      (server.room.record? (.route c.id sender line)).toList := by
  have hentries : (server.room.run [.route c.id sender line]).roster.entries =
      server.room.roster.entries := by
    rw [Room.run_cons, Room.run_nil, Room.entries_step, Room.entriesAfter]
  obtain ⟨username, e, hopen, hname', he, hid, hu, hrecord⟩ := h.active hc hstate
  obtain rfl : username = sender := Option.some_inj.1 (hname'.symm.trans hname)
  have hnew : ∀ r ∈ (server.room.record? (.route c.id username line)).toList,
      r.source = c.id ∧ r.event.isPresence = false ∧ r.event.sender? = some username ∧
        ∀ name ∈ r.event.recipient?, IsPresent name rs := by
    intro r hr
    obtain ⟨_, hs, -⟩ | ⟨_, hs, -⟩ | ⟨_, _, command, hs, -, hevent⟩ :=
      Room.record?_eq_some (Option.mem_toList.1 hr)
    · cases hs
    · cases hs
    · simp only [RoomStep.route.injEq] at hs
      obtain ⟨hsource, rfl, rfl⟩ := hs
      obtain ⟨hpresence, hfrom, hto⟩ := Room.commandEvent?_eq_some hevent
      refine ⟨hsource.symm, hpresence, hfrom, fun name hn => ?_⟩
      obtain ⟨id, hfind⟩ := hto name hn
      obtain ⟨entry, hentry, hname⟩ := h.wellFormed.find?_eq_some_iff.1 hfind
      exact (h.present name).2 ⟨entry, (h.wellFormed.entryOf?_eq_some_iff.1 hentry).1, hname⟩
  have hone := Option.length_toList_le (o := server.room.record? (.route c.id username line))
  generalize (server.room.record? (.route c.id username line)).toList = new at hnew hone ⊢
  have hmessages : ∀ r ∈ new, r.event.isPresence = false := fun r hr => (hnew r hr).2.1
  refine ⟨?_, fun e _ => by rw [hentries], fun r hr => (hnew r hr).1, hone,
    fun r hr => ?_, fun name => ?_⟩
  · refine .active username hopen hstate hname ?_ ?_
    · rw [hentries]
      exact ⟨e, he, hid, hu⟩
    · rw [presencesOf_messages hmessages, hrecord]
  · obtain ⟨-, hpresence, hfrom, hto⟩ := hnew r hr
    refine ⟨fun name hj => ?_, fun name hl => ?_, fun name hn => ?_, hto⟩
    · rw [hj] at hpresence
      cases hpresence
    · rw [hl] at hpresence
      cases hpresence
    · rw [hfrom] at hn
      cases hn
      exact (h.present username).2 ⟨e, he, hu⟩
  · rw [IsPresent, presences_messages hmessages, hentries]
    exact h.present name

theorem Consistent.parted (h : server.Consistent rs) (hc : c ∈ server.connections)
    (hstate : c.session.state = .active) :
    server.Advances rs c c.hangUp (server.room.run (server.room.departure c.id))
      (server.room.recorded (server.room.departure c.id)) := by
  obtain ⟨username, e, hopen, hname, he, hid, hu, hrecord⟩ := h.active hc hstate
  have hfound : server.room.roster.entryOf? c.id = some e :=
    h.wellFormed.entryOf?_eq_some_iff.2 ⟨he, hid⟩
  have hsteps : server.room.departure c.id = [.leave c.id, .left c.id username] := by
    rw [Room.departure, hfound, ← hu]
  have hentries : (server.room.run [.leave c.id, .left c.id username]).roster.entries =
      server.room.roster.entries.filter (·.id ≠ c.id) := by
    rw [Room.run_cons, Room.run_cons, Room.run_nil, Room.entries_step, Room.entriesAfter,
      Room.entries_step, Room.entriesAfter]
  have hnew : server.room.recorded [.leave c.id, .left c.id username] =
      [⟨c.id, .left username⟩] := rfl
  have hpresent : IsPresent username rs := (h.present username).2 ⟨e, he, hu⟩
  -- nobody else has the name
  have halone : ∀ other ∈ server.room.roster.entries, other.username = username →
      other.id = c.id := by
    intro other ho hou
    have hsame := (h.wellFormed.username_inj ho he).1 (hou.trans hu.symm)
    rw [hsame, hid]
  rw [hsteps, hnew]
  refine ⟨?_, fun other ho => ?_, fun r hr => ?_, Nat.le_refl _, fun r hr => ?_,
    fun name => ?_⟩
  · refine .ended username rfl rfl hname (fun other ho => ?_) ?_
    · rw [hentries, List.mem_filter] at ho
      have hne : other.id ≠ c.id := by simpa using ho.2
      exact hne
    · have hid' : c.hangUp.id = c.id := rfl
      rw [hid', presencesOf_append, hrecord]
      simp [presencesOf, Event.isPresence]
  · rw [hentries, List.mem_filter]
    exact and_iff_left (by simpa using ho)
  · rw [List.mem_singleton.1 hr]
  · rw [List.mem_singleton.1 hr]
    refine ⟨by simp, fun name hname => ?_, by simp [Event.sender?], by simp [Event.recipient?]⟩
    cases hname
    exact hpresent
  · rw [hentries]
    by_cases hn : name = username
    · subst hn
      have hout : ¬ IsPresent name (rs ++ [⟨c.id, .left name⟩]) := not_isPresent_left rfl
      refine ⟨fun hin => absurd hin hout, ?_⟩
      rintro ⟨other, ho, hou⟩
      rw [List.mem_filter] at ho
      have hne : other.id ≠ c.id := by simpa using ho.2
      exact absurd (halone other ho.1 hou) hne
    · have hne : Event.left username ≠ .left name := fun he => hn (Event.left.inj he).symm
      rw [isPresent_snoc_of_ne (by simp) hne, h.present]
      constructor
      · rintro ⟨other, ho, hou⟩
        refine ⟨other, List.mem_filter.2 ⟨ho, ?_⟩, hou⟩
        have hother : other.id ≠ c.id := by
          intro hoc
          have hsame := (h.wellFormed.id_inj ho he).1 (hoc.trans hid.symm)
          exact hn (by rw [← hou, hsame, hu])
        simpa using hother
      · rintro ⟨other, ho, hou⟩
        exact ⟨other, List.mem_of_mem_filter ho, hou⟩

/-- **Whatever comes in** on a connection that is served, only that connection is concerned. -/
theorem Consistent.receives (h : server.Consistent rs) (hc : c ∈ server.connections)
    (hopen : c.isOpen = true) {next : Connection} {incoming : Incoming} {steps : List RoomStep}
    (hr : server.Receives c incoming next steps) :
    server.Advances rs c next (server.room.run steps) (server.room.recorded steps) := by
  cases hr with
  | turnedAway lines hstate hlines => exact h.turnedAway hc hopen hstate lines
  | welcomed line username hstate hline hcheck hadmits => exact h.welcomed hc hopen hstate hadmits
  | routed sender line hstate husername hline =>
    have hnew : server.room.recorded [.route c.id sender line] =
        (server.room.record? (.route c.id sender line)).toList := List.append_nil _
    rw [hnew]
    exact h.routed hc hstate husername line
  | parted hstate => exact h.parted hc hstate

end Server

end ChatRoom
