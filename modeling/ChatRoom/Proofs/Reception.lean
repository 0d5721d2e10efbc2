import ChatRoom.Reception

/-!
# Nothing is lost at a reception

Whatever happens to a reception (`Happening`), its server goes through events (`Reception.GoesOn`)
in which every arrival at a listener is accepted, in order, unless it still waits (`exists_goesOn`).
A failure makes the arrivals behind it wait for one pause, and no longer (`Queue.take_all`): in the
time of as many pauses as there are arrivals, and one more, all are accepted (`exists_goesOn_all`).
-/

namespace ChatRoom

/-! ## Queues -/

namespace Queue

variable {delay time pause : Nat} {waiting : List Arrival}

/-- One pause for each that waits is time enough. -/
theorem take_all (h : pause + delay * waiting.length ≤ time) :
    (Queue.take delay time pause waiting).2.waiting = [] := by
  induction waiting generalizing time pause with
  | nil => rfl
  | cons arrival waiting ih =>
    rw [List.length_cons, Nat.mul_succ] at h
    have hnext : (if arrival.pauses then delay else 0) ≤ delay := by
      split
      · exact Nat.le_refl _
      · exact Nat.zero_le _
    rw [Queue.take, if_neg (by omega)]
    exact ih (by omega)

theorem pause_take (h : pause ≤ delay) :
    (Queue.take delay time pause waiting).2.pause ≤ delay := by
  induction waiting generalizing time pause with
  | nil => exact Nat.le_trans (Nat.sub_le _ _) h
  | cons arrival waiting ih =>
    rw [Queue.take]
    split
    · exact Nat.le_trans (Nat.sub_le _ _) h
    · refine ih ?_
      split
      · exact Nat.le_refl _
      · exact Nat.zero_le _

end Queue

/-! ## What happens -/

/-- What happens to a reception. -/
inductive Happening where
  | reaches (carrier : Carrier) (arrival : Arrival)
  | passes (time : Nat)
  | establishes (place : Nat) (succeeds : Bool)
  | wire (id : ConnectionId) (event : WireEvent)
  | takes (id : ConnectionId) (isTaking : Bool)
  | shutdown
  deriving DecidableEq

/-- What arrives at a listener. -/
def Happening.arrival? (carrier : Carrier) : Happening → Option Arrival
  | reaches c arrival => if c = carrier then some arrival else none
  | passes _ | establishes .. | wire .. | takes .. | shutdown => none

/-- What the server is told at once. -/
def Happening.event? : Happening → Option NetworkEvent
  | establishes place succeeds => some (.establishes place succeeds)
  | wire id event => some (.wire id event)
  | takes id isTaking => some (.takes id isTaking)
  | shutdown => some .shutdown
  | reaches .. | passes _ => none

namespace NetworkEvent

/-- What a listener accepts. -/
def arrival? (carrier : Carrier) : NetworkEvent → Option Arrival
  | accepts c arrival => if c = carrier then some arrival else none
  | establishes .. | wire .. | takes .. | shutdown => none

def isArrival : NetworkEvent → Bool
  | accepts .. => true
  | establishes .. | wire .. | takes .. | shutdown => false

end NetworkEvent

namespace Reception

variable {δ : Type} [LogDevice δ]

def happen (reception : Reception δ) : Happening → Reception δ
  | .reaches carrier arrival => reception.reach carrier arrival
  | .passes time => reception.pass time
  | .establishes place succeeds => reception.step (.establishes place succeeds)
  | .wire id event => reception.step (.wire id event)
  | .takes id isTaking => reception.step (.takes id isTaking)
  | .shutdown => reception.step .shutdown

def through (reception : Reception δ) (happenings : List Happening) : Reception δ :=
  happenings.foldl happen reception

/-- While these things happen, the server goes through these events: what it is told at once, and at
each listener the arrivals in order, of which the last still wait. -/
structure GoesOn (reception : Reception δ) (happenings : List Happening)
    (events : List NetworkEvent) (next : Reception δ) : Prop where
  server : next.server = reception.server.run events
  retryDelay : next.retryDelay = reception.retryDelay
  arrivals : ∀ carrier, events.filterMap (·.arrival? carrier) ++ (next.queue carrier).waiting =
    (reception.queue carrier).waiting ++ happenings.filterMap (·.arrival? carrier)
  told : events.filter (!·.isArrival) = happenings.filterMap (·.event?)
  pause : ∀ carrier, (reception.queue carrier).pause ≤ reception.retryDelay →
    (next.queue carrier).pause ≤ reception.retryDelay

namespace GoesOn

variable {reception next last : Reception δ} {happenings more : List Happening}
  {events later : List NetworkEvent}

theorem refl (reception : Reception δ) : reception.GoesOn [] [] reception where
  server := rfl
  retryDelay := rfl
  arrivals _ := by simp
  told := rfl
  pause _ h := h

theorem trans (h : reception.GoesOn happenings events next) (h' : next.GoesOn more later last) :
    reception.GoesOn (happenings ++ more) (events ++ later) last where
  server := by rw [h'.server, h.server, Server.run, Server.run, Server.run, List.foldl_append]
  retryDelay := h'.retryDelay.trans h.retryDelay
  arrivals carrier := by
    rw [List.filterMap_append, List.append_assoc, h'.arrivals, ← List.append_assoc, h.arrivals,
      List.filterMap_append, List.append_assoc]
  told := by rw [List.filter_append, h.told, h'.told, List.filterMap_append]
  pause carrier hpause := by
    have hnext := h.pause carrier hpause
    rw [← h.retryDelay] at hnext ⊢
    exact h'.pause carrier hnext

theorem step (reception : Reception δ) {happening : Happening} {event : NetworkEvent}
    (hevent : happening.event? = some event) (hnot : event.isArrival = false) :
    reception.GoesOn [happening] [event] (reception.step event) where
  server := rfl
  retryDelay := rfl
  arrivals carrier := by
    have hnone : event.arrival? carrier = none := by
      cases event with
      | accepts => cases hnot
      | establishes | wire | takes | shutdown => rfl
    have hnone' : happening.arrival? carrier = none := by
      cases happening with
      | reaches => cases hevent
      | passes | establishes | wire | takes | shutdown => rfl
    simp [Reception.step, hnone, hnone']
  told := by simp [hevent, hnot]
  pause _ h := h

/-- A listener accepts of what waits and what joins it as much as there is time for. -/
theorem accept (reception : Reception δ) (carrier : Carrier) (time : Nat)
    (joining : List Arrival) :
    ∃ events, reception.GoesOn (joining.map (.reaches carrier)) events
      (reception.accept carrier time joining) := by
  let queue := reception.queue carrier
  let taken := Queue.take reception.retryDelay time queue.pause (queue.waiting ++ joining)
  have hqueue : ∀ c, (reception.accept carrier time joining).queue c =
      if c = carrier then taken.2 else reception.queue c := fun c => rfl
  refine ⟨taken.1.map (.accepts carrier), rfl, rfl, fun c => ?_, ?_, fun c hpause => ?_⟩
  · rw [hqueue, List.filterMap_map, List.filterMap_map]
    by_cases hc : c = carrier
    · subst hc
      have htaken : taken.1 ++ taken.2.waiting = queue.waiting ++ joining := Queue.take_append ..
      simpa [Function.comp_def, NetworkEvent.arrival?, Happening.arrival?] using htaken
    · have hne : carrier ≠ c := Ne.symm hc
      simp [Function.comp_def, NetworkEvent.arrival?, Happening.arrival?, hc, hne,
        List.filterMap_eq_nil_iff.2]
  · simp [List.filter_map, Function.comp_def, NetworkEvent.isArrival, Happening.event?,
      List.filterMap_eq_nil_iff.2]
  · rw [hqueue]
    split
    · rename_i hc
      subst hc
      exact Queue.pause_take hpause
    · exact hpause

theorem happen (reception : Reception δ) (happening : Happening) :
    ∃ events, reception.GoesOn [happening] events (reception.happen happening) := by
  cases happening with
  | reaches carrier arrival => exact accept reception carrier 0 [arrival]
  | passes time =>
    obtain ⟨events, h⟩ := accept reception .tcp time []
    obtain ⟨later, h'⟩ := accept (reception.accept .tcp time []) .webSocket time []
    have hboth := h.trans h'
    exact ⟨_, hboth.server, hboth.retryDelay, hboth.arrivals, hboth.told, hboth.pause⟩
  | establishes | wire | takes | shutdown => exact ⟨_, step reception rfl rfl⟩

end GoesOn

/-- **Nothing is lost**, whatever happens. -/
theorem exists_goesOn (reception : Reception δ) (happenings : List Happening) :
    ∃ events, reception.GoesOn happenings events (reception.through happenings) := by
  induction happenings generalizing reception with
  | nil => exact ⟨[], .refl reception⟩
  | cons happening rest ih =>
    obtain ⟨events, hfirst⟩ := GoesOn.happen reception happening
    obtain ⟨later, hrest⟩ := ih (reception.happen happening)
    exact ⟨events ++ later, hfirst.trans hrest⟩

/-- In time, nothing waits. -/
theorem waiting_pass (reception : Reception δ) {carrier : Carrier} {time : Nat}
    (hpause : (reception.queue carrier).pause ≤ reception.retryDelay)
    (htime : reception.retryDelay * ((reception.queue carrier).waiting.length + 1) ≤ time) :
    ((reception.pass time).queue carrier).waiting = [] := by
  have hall : (Queue.take reception.retryDelay time (reception.queue carrier).pause
      ((reception.queue carrier).waiting ++ [])).2.waiting = [] := by
    refine Queue.take_all ?_
    rw [List.append_nil]
    rw [Nat.mul_succ] at htime
    omega
  cases carrier with
  | tcp => exact hall
  | webSocket => exact hall

/-- Whatever has happened, after one more pause than there were arrivals all are accepted. -/
theorem exists_goesOn_all (server : Server δ) {delay time : Nat} {carrier : Carrier}
    {happenings : List Happening}
    (htime : delay * ((happenings.filterMap (·.arrival? carrier)).length + 1) ≤ time) :
    ∃ events, (({ server, retryDelay := delay } : Reception δ).through
        (happenings ++ [.passes time])).server = server.run events ∧
      events.filterMap (·.arrival? carrier) = happenings.filterMap (·.arrival? carrier) ∧
      events.filter (!·.isArrival) = happenings.filterMap (·.event?) := by
  let reception : Reception δ := { server, retryDelay := delay }
  obtain ⟨_, hbefore⟩ := reception.exists_goesOn happenings
  obtain ⟨events, hgoesOn⟩ := reception.exists_goesOn (happenings ++ [.passes time])
  have hdelay : (reception.through happenings).retryDelay = delay := hbefore.retryDelay
  have hlength : ((reception.through happenings).queue carrier).waiting.length ≤
      (happenings.filterMap (·.arrival? carrier)).length := by
    have hsplit := congrArg List.length (hbefore.arrivals carrier)
    have hnone : (reception.queue carrier).waiting.length = 0 := rfl
    simp only [List.length_append] at hsplit
    omega
  have hnone : ((reception.through (happenings ++ [.passes time])).queue carrier).waiting = [] := by
    have hpass : reception.through (happenings ++ [.passes time]) =
        (reception.through happenings).pass time := List.foldl_append
    rw [hpass]
    refine waiting_pass _ (hdelay ▸ hbefore.pause carrier (Nat.zero_le _)) (Nat.le_trans ?_ htime)
    rw [hdelay]
    exact Nat.mul_le_mul_left delay (Nat.succ_le_succ hlength)
  refine ⟨events, hgoesOn.server, ?_, ?_⟩
  · have hall := hgoesOn.arrivals carrier
    rw [hnone, List.append_nil] at hall
    rw [hall, List.filterMap_append]
    exact List.append_nil _
  · rw [hgoesOn.told, List.filterMap_append]
    exact List.append_nil _

end Reception

end ChatRoom
