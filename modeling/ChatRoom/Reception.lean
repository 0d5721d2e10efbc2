import ChatRoom.Server

/-!
# Reception

What has reached the listeners of a server and is not accepted yet. A listener accepts one arrival
after the other, at once and in order; only after a failure that is transient it pauses first, and
everything that reaches it meanwhile waits. The other listener goes on.

Time passes in milliseconds. `reach` says what an arrival does, and `pass` what the passing of time
does; neither loses an arrival or changes the order (`Queue.take_append`).
-/

namespace ChatRoom

/-- Whether a listener pauses after this. -/
def Arrival.pauses : Arrival → Bool
  | peer _ | opening _ | stray => false
  | failure cause => (TransportError.acceptFailed cause).isTransient

/-- What waits at a listener, oldest first, and for how long the listener still pauses. -/
structure Queue where
  waiting : List Arrival := []
  pause : Nat := 0
  deriving DecidableEq

/-- What a listener that pauses `delay` milliseconds after a failure accepts in the next `time`, and
what waits then. -/
def Queue.take (delay time pause : Nat) : List Arrival → List Arrival × Queue
  | [] => ([], { pause := pause - time })
  | arrival :: waiting =>
    if time < pause then ([], ⟨arrival :: waiting, pause - time⟩)
    else
      let next := if arrival.pauses then delay else 0
      let (taken, queue) := take delay (time - pause) next waiting
      (arrival :: taken, queue)

/-- A pause loses nothing: what is accepted, followed by what then waits, is what waited before. -/
theorem Queue.take_append (delay time pause : Nat) (waiting : List Arrival) :
    (Queue.take delay time pause waiting).1 ++ (Queue.take delay time pause waiting).2.waiting =
      waiting := by
  induction waiting generalizing time pause with
  | nil => simp [Queue.take]
  | cons arrival waiting ih =>
    unfold Queue.take
    split
    · rfl
    · exact congrArg (arrival :: ·) (ih _ _)

/-- A server with the queues at its listeners. -/
structure Reception (δ : Type) where
  server : Server δ
  retryDelay : Nat
  queue : Carrier → Queue := fun _ => {}

namespace Reception

variable {δ : Type} [LogDevice δ]

/-- Lets one listener accept what it can in the next `time`, of what waits and what joins it. -/
def accept (reception : Reception δ) (carrier : Carrier) (time : Nat) (joining : List Arrival) :
    Reception δ :=
  let queue := reception.queue carrier
  let (taken, rest) := Queue.take reception.retryDelay time queue.pause (queue.waiting ++ joining)
  { reception with
    server := reception.server.run (taken.map (.accepts carrier))
    queue := fun c => if c = carrier then rest else reception.queue c }

def reach (reception : Reception δ) (carrier : Carrier) (arrival : Arrival) : Reception δ :=
  reception.accept carrier 0 [arrival]

def pass (reception : Reception δ) (time : Nat) : Reception δ :=
  (reception.accept .tcp time []).accept .webSocket time []

def step (reception : Reception δ) (event : NetworkEvent) : Reception δ :=
  { reception with server := reception.server.step event }

end Reception

end ChatRoom
