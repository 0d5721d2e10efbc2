import ChatRoom.Proofs.Wire.Validity

/-!
# Reading as it arrives

A connection reads what is there and keeps the line that has not ended (`Connection.hear`). This
comes to the same as reading all of it at the end: a stream however it is cut into pieces
(`Connection.hearAll_stream`), and messages one by one (`Connection.hearAll_messages`). The lemma
behind it is that a stream can be read in two parts (`LineStream.read_append`).
-/

namespace ChatRoom

namespace Incoming

/-- Nothing is read after this. -/
def isLast : Incoming → Bool
  | line _ => false
  | finished | failed _ => true

/-- What has been read altogether: the lines, and then the end or a fault. -/
def ofReading : List String × Option TransportError → List Incoming
  | (lines, none) => lines.map .line ++ [.finished]
  | (lines, some e) => lines.map .line ++ [.failed e]

theorem any_isLast_lines (lines : List String) : (lines.map line).any isLast = false := by
  simp [isLast]

theorem ofReading_append (front : List String) (reading : List String × Option TransportError) :
    ofReading (front ++ reading.1, reading.2) = front.map .line ++ ofReading reading := by
  obtain ⟨lines, _ | e⟩ := reading
  · simp [ofReading]
  · simp [ofReading]

end Incoming

/-! ## A stream in parts -/

namespace LineStream

variable {max : Nat} {kept : List UInt8} {lines : List String}

/-- A line that is too long is so whatever follows. -/
theorem read_long {line : List UInt8} (hlf : lf ∉ line) (hlong : max < line.length)
    (rest : List UInt8) : read max (line ++ rest) = ([], .failed (.lineTooLong max)) := by
  have htake : (line ++ rest).takeWhile (· != lf) = line ++ rest.takeWhile (· != lf) :=
    List.takeWhile_append_of_pos (bne_lf hlf)
  have hfront : front max (line ++ rest) = .tooLong := by
    simp only [front, htake, List.length_append]
    exact if_pos (by omega)
  rw [read]
  split <;> rename_i hf <;> rw [hfront] at hf <;> cases hf

/-- **A stream is read in parts**: what the first part leaves unfinished is read with the second. -/
theorem read_append (max : Nat) (front rest : List UInt8) :
    read max (front ++ rest) = match read max front with
      | (lines, .failed e) => (lines, .failed e)
      | (lines, .unfinished kept) =>
        (lines ++ (read max (kept ++ rest)).1, (read max (kept ++ rest)).2) := by
  induction front using induction_lines with
  | hlast line hlf =>
    rw [read_of_notMem hlf]
    by_cases hlong : max < line.length
    · rw [if_pos hlong, read_long hlf hlong]
    · rw [if_neg hlong]
      rfl
  | hline line more hlf ih =>
    rw [List.append_assoc, List.cons_append, read_line hlf, read_line hlf]
    by_cases hlong : max < line.length
    · rw [if_pos hlong, if_pos hlong]
    · rw [if_neg hlong, if_neg hlong]
      cases decodeLine line with
      | error e => rfl
      | ok text =>
        dsimp only
        rw [ih]
        cases read max more with
        | mk lines stop =>
          cases stop with
          | failed e => rfl
          | unfinished kept => rfl

/-- What is left unfinished is still so when nothing follows. -/
theorem read_of_unfinished {bytes : List UInt8} (h : read max bytes = (lines, .unfinished kept)) :
    read max kept = ([], .unfinished kept) := by
  have happend := read_append max bytes []
  rw [List.append_nil, h] at happend
  dsimp only at happend
  rw [List.append_nil, Prod.mk.injEq, List.self_eq_append_right] at happend
  exact Prod.ext happend.1 happend.2.symm

theorem readAll_append (max : Nat) (front rest : List UInt8) :
    readAll max (front ++ rest) = match read max front with
      | (lines, .failed e) => (lines, some e)
      | (lines, .unfinished kept) =>
        (lines ++ (readAll max (kept ++ rest)).1, (readAll max (kept ++ rest)).2) := by
  rw [readAll, read_append]
  cases read max front with
  | mk lines stop =>
    cases stop with
    | failed e => rfl
    | unfinished kept =>
      dsimp only
      rw [readAll]
      cases read max (kept ++ rest) with
      | mk more stop =>
        cases stop with
        | failed e => rfl
        | unfinished last =>
          dsimp only
          cases finish last with
          | error e => rfl
          | ok line => simp

end LineStream

/-! ## Event by event -/

namespace Connection

variable {c : Connection}

/-- What is heard of one event after the other, until nothing more is read. -/
def hearAll (max : Nat) (c : Connection) : List WireEvent → List Incoming
  | [] => []
  | event :: events =>
    let (heard, unread) := c.hear max event
    if heard.any Incoming.isLast then heard
    else heard ++ hearAll max { c with unread } events

theorem lastWords_eq {max : Nat} {unread : List UInt8}
    (h : LineStream.read max unread = ([], .unfinished unread)) :
    lastWords unread = Incoming.ofReading (LineStream.readAll max unread) := by
  rw [lastWords, LineStream.readAll, h]
  dsimp only
  cases LineStream.finish unread with
  | error e => rfl
  | ok last => rfl

/-- Nothing is read after the last words. -/
theorem any_isLast_ofReading (reading : List String × Option TransportError) :
    (Incoming.ofReading reading).any Incoming.isLast = true := by
  obtain ⟨lines, _ | e⟩ := reading
  · simp [Incoming.ofReading, Incoming.isLast]
  · simp [Incoming.ofReading, Incoming.isLast]

/-- **A stream is heard alike** however it is cut into pieces: as if it was read when it had
ended. -/
theorem hearAll_stream {max : Nat} (hc : c.carrier = .tcp)
    (hunread : LineStream.read max c.unread = ([], .unfinished c.unread))
    (chunks : List (List UInt8)) :
    c.hearAll max (chunks.map .bytes ++ [.ends]) =
      Incoming.ofReading (LineStream.readAll max (c.unread ++ chunks.flatten)) := by
  -- between two pieces the connection keeps an unfinished line, which is read again with the next
  induction chunks generalizing c with
  | nil =>
    have hends : c.hear max .ends = (lastWords c.unread, []) := by
      simp only [hear, hc]
    rw [List.map_nil, List.nil_append, hearAll, hends, List.flatten_nil, List.append_nil,
      lastWords_eq hunread]
    exact if_pos (any_isLast_ofReading _)
  | cons data chunks ih =>
    rw [List.map_cons, List.cons_append, hearAll, hear_bytes hc, List.flatten_cons,
      ← List.append_assoc, LineStream.readAll_append]
    cases hread : LineStream.read max (c.unread ++ data) with
    | mk lines stop =>
      cases stop with
      | failed e => exact if_pos (any_isLast_ofReading (lines, some e))
      | unfinished kept =>
        dsimp only
        rw [Incoming.any_isLast_lines, Incoming.ofReading_append]
        have hrest := ih (c := { c with unread := kept }) hc (LineStream.read_of_unfinished hread)
        exact congrArg (lines.map .line ++ ·) hrest

/-- **Messages are heard one by one** as if they were read when the connection had ended. -/
theorem hearAll_messages {max : Nat} (hc : c.carrier = .webSocket) (frames : List Frame) :
    c.hearAll max (frames.map .frame ++ [.vanishes]) =
      Incoming.ofReading (Frame.readAll max frames) := by
  induction frames generalizing c with
  | nil =>
    have hvanishes : c.hear max .vanishes = ([.failed Frame.reset], []) := by
      simp only [hear, hc]
    rw [List.map_nil, List.nil_append, hearAll, hvanishes]
    rfl
  | cons frame frames ih =>
    have hframe : c.hear max (.frame frame) = ((Frame.decode max frame).toList, []) := by
      simp only [hear, hc]
    have hrest := ih (c := { c with unread := [] }) hc
    rw [List.map_cons, List.cons_append, hearAll, hframe, Frame.readAll]
    cases Frame.decode max frame with
    | none => exact hrest
    | some incoming =>
      cases incoming with
      | line text =>
        refine (congrArg ([Incoming.line text] ++ ·) hrest).trans ?_
        exact (Incoming.ofReading_append [text] (Frame.readAll max frames)).symm
      | finished => rfl
      | failed e => rfl

end Connection

end ChatRoom
