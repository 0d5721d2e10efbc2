import ChatRoom.Proofs.Room.Steps

/-!
# Records that tell the truth

A record tells who is present: a name is after its last join and before the departure that follows
(`IsPresent`). `Truthful` says that each event fits what was recorded before it: only somebody
absent joins, only somebody present leaves, sends or is sent a direct message. A record grows
truthfully one event at a time (`truthful_snoc`), and in a truthful record joins and departures of a
name alternate (`Truthful.alternate`).
-/

namespace ChatRoom

def Event.sender? : Event → Option String
  | global sender _ | direct sender _ _ | group _ sender _ => some sender
  | joined _ | left _ => none

def Event.recipient? : Event → Option String
  | direct _ recipient _ => some recipient
  | _ => none

def Event.isPresence : Event → Bool
  | joined _ | left _ => true
  | _ => false

/-- The joins and departures of a name, in order. -/
def presences (username : String) (rs : List Record) : List Event :=
  (rs.map (·.event)).filter fun e => e = .joined username ∨ e = .left username

/-- The joins and departures on one connection, in order. -/
def presencesOf (id : ConnectionId) (rs : List Record) : List Event :=
  ((rs.filter (·.source = id)).map (·.event)).filter Event.isPresence

/-- The name has joined, and has not left since. -/
def IsPresent (username : String) (rs : List Record) : Prop :=
  (presences username rs).getLast? = some (.joined username)

/-- What can be recorded next. -/
structure Fits (rs : List Record) (e : Event) : Prop where
  joined : ∀ username, e = .joined username → ¬ IsPresent username rs
  left : ∀ username, e = .left username → IsPresent username rs
  sender : ∀ username ∈ e.sender?, IsPresent username rs
  recipient : ∀ username ∈ e.recipient?, IsPresent username rs

/-- Every event fits what was recorded before it. -/
def Truthful (rs : List Record) : Prop :=
  ∀ before r after, rs = before ++ r :: after → Fits before r.event

variable {username : String} {id : ConnectionId} {rs : List Record} {r : Record}

/-! ## One more event -/

theorem presences_append (rs ts : List Record) :
    presences username (rs ++ ts) = presences username rs ++ presences username ts := by
  simp [presences]

theorem presencesOf_append (rs ts : List Record) :
    presencesOf id (rs ++ ts) = presencesOf id rs ++ presencesOf id ts := by
  simp [presencesOf]

theorem presences_messages {new : List Record} (h : ∀ r ∈ new, r.event.isPresence = false) :
    presences username (rs ++ new) = presences username rs := by
  have hnone : presences username new = [] := by
    refine List.filter_eq_nil_iff.2 fun e he hp => ?_
    obtain ⟨r, hr, rfl⟩ := List.mem_map.1 he
    have hmessage := h r hr
    rcases of_decide_eq_true hp with he | he
    · rw [he] at hmessage
      cases hmessage
    · rw [he] at hmessage
      cases hmessage
  rw [presences_append, hnone, List.append_nil]

theorem presencesOf_messages {new : List Record} (h : ∀ r ∈ new, r.event.isPresence = false) :
    presencesOf id (rs ++ new) = presencesOf id rs := by
  have hnone : presencesOf id new = [] := by
    refine List.filter_eq_nil_iff.2 fun e he hp => ?_
    obtain ⟨r, hr, rfl⟩ := List.mem_map.1 he
    rw [h r (List.mem_of_mem_filter hr)] at hp
    cases hp
  rw [presencesOf_append, hnone, List.append_nil]

theorem isPresent_joined (h : r.event = .joined username) : IsPresent username (rs ++ [r]) := by
  simp [IsPresent, presences, h]

theorem not_isPresent_left (h : r.event = .left username) : ¬ IsPresent username (rs ++ [r]) := by
  simp [IsPresent, presences, h]

/-- Only a join or a departure of the name itself changes whether it is present. -/
theorem isPresent_snoc_of_ne (hjoined : r.event ≠ .joined username)
    (hleft : r.event ≠ .left username) :
    IsPresent username (rs ++ [r]) ↔ IsPresent username rs := by
  simp [IsPresent, presences, hjoined, hleft]

theorem truthful_nil : Truthful [] := by
  intro before r after h
  simp at h

theorem truthful_snoc : Truthful (rs ++ [r]) ↔ Truthful rs ∧ Fits rs r.event := by
  constructor
  · intro h
    refine ⟨fun before s after hs => ?_, h rs r [] rfl⟩
    exact h before s (after ++ [r]) (by simp [hs])
  · rintro ⟨h, hr⟩ before s after hs
    rcases List.eq_nil_or_concat after with rfl | ⟨after, t, rfl⟩
    · obtain ⟨rfl, hsr⟩ := List.append_inj' hs rfl
      cases hsr
      exact hr
    · rw [List.concat_eq_append, ← List.cons_append, ← List.append_assoc] at hs
      obtain ⟨rfl, -⟩ := List.append_inj' hs rfl
      exact h before s after rfl

/-- What a message puts on record is from its sender, and to somebody present. -/
theorem Room.commandEvent?_eq_some {δ : Type} {room : Room δ} {sender : String}
    {command : Command} {e : Event} (h : room.commandEvent? sender command = some e) :
    e.isPresence = false ∧ e.sender? = some sender ∧
      ∀ name ∈ e.recipient?, ∃ id, room.roster.find? name = some id := by
  cases command with
  | global text =>
    cases h
    exact ⟨rfl, rfl, fun name hn => by cases hn⟩
  | direct recipient text =>
    obtain ⟨id, hid, rfl⟩ := Option.map_eq_some_iff.1 h
    refine ⟨rfl, rfl, fun name hn => ?_⟩
    cases hn
    exact ⟨id, hid⟩
  | group name text =>
    obtain ⟨group, -, rfl⟩ := Option.map_eq_some_iff.1 h
    exact ⟨rfl, rfl, fun name hn => by cases hn⟩

/-! ## Alternation -/

/-- What is at each place when joins and departures alternate. -/
def alternating (username : String) (i : Nat) : Event :=
  if i % 2 = 0 then .joined username else .left username

theorem isPresent_iff_odd
    (h : ∀ i e, (presences username rs)[i]? = some e → e = alternating username i) :
    IsPresent username rs ↔ (presences username rs).length % 2 = 1 := by
  rw [IsPresent, List.getLast?_eq_getElem?]
  cases hlen : (presences username rs).length with
  | zero =>
    rw [List.length_eq_zero_iff] at hlen
    simp [hlen]
  | succ n =>
    have hn : n < (presences username rs).length := by omega
    have hlast := h n _ (List.getElem?_eq_getElem hn)
    rw [Nat.add_sub_cancel, List.getElem?_eq_getElem hn, hlast, alternating]
    split
    · simp only [true_iff]
      omega
    · simp only [Option.some.injEq, reduceCtorEq, false_iff]
      omega

/-- One more event leaves joins and departures of a name alternating, if only somebody absent joins
and only somebody present leaves. -/
theorem alternate_snoc
    (h : ∀ i e, (presences username rs)[i]? = some e → e = alternating username i)
    (hjoined : r.event = .joined username → ¬ IsPresent username rs)
    (hleft : r.event = .left username → IsPresent username rs) :
    ∀ i e, (presences username (rs ++ [r]))[i]? = some e → e = alternating username i := by
  have hodd := isPresent_iff_odd h
  -- a new presence stands at the end, at an even place if it is a join and at an odd one if not
  have hplace : ∀ e ∈ presences username [r],
      e = alternating username (presences username rs).length := by
    intro e he
    obtain ⟨hm, hpresence⟩ := List.mem_filter.1 he
    cases List.mem_singleton.1 hm
    rcases of_decide_eq_true hpresence with he | he
    · have hne : ¬ (presences username rs).length % 2 = 1 := fun ho => hjoined he (hodd.2 ho)
      rw [alternating, if_pos (by omega), he]
    · have heq : (presences username rs).length % 2 = 1 := hodd.1 (hleft he)
      rw [alternating, if_neg (by omega), he]
  intro i e hi
  rw [presences_append, List.getElem?_append] at hi
  split at hi
  · exact h i e hi
  · rename_i hlen
    have hone : (presences username [r]).length ≤ 1 := List.length_filter_le _ _
    have hi0 : i - (presences username rs).length < (presences username [r]).length :=
      (List.getElem?_eq_some_iff.1 hi).1
    have hie : i = (presences username rs).length := by omega
    exact hie ▸ hplace e (List.mem_of_getElem? hi)

/-- Who is present and joins once more breaks the alternation. -/
theorem not_alternate_of_rejoined (h : IsPresent username rs) (hr : r.event = .joined username)
    (ts : List Record) :
    ¬ ∀ i e, (presences username (rs ++ r :: ts))[i]? = some e → e = alternating username i := by
  intro halternate
  rw [presences_append] at halternate
  have hbefore : ∀ i e, (presences username rs)[i]? = some e → e = alternating username i := by
    intro i e hi
    have hlt : i < (presences username rs).length := (List.getElem?_eq_some_iff.1 hi).1
    exact halternate i e ((List.getElem?_append_left hlt).trans hi)
  have hodd : (presences username rs).length % 2 = 1 := (isPresent_iff_odd hbefore).1 h
  have hjoined := halternate (presences username rs).length (.joined username)
    (by simp [presences, hr])
  rw [alternating, if_neg (by omega)] at hjoined
  cases hjoined

/-- **Alternation**: the joins and departures of a name alternate, beginning with a join. -/
theorem Truthful.alternate (h : Truthful rs) (username : String) :
    ∀ i e, (presences username rs)[i]? = some e → e = alternating username i := by
  induction rs using List.reverseRecOn with
  | nil => simp [presences]
  | append_singleton rs r ih =>
    obtain ⟨hrs, hr⟩ := truthful_snoc.1 h
    exact alternate_snoc (ih hrs) (hr.joined username) (hr.left username)

end ChatRoom
