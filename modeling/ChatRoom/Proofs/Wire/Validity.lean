import ChatRoom.Proofs.Wire.Carriers

/-!
# Valid lines

What a valid line is, said of the bytes that a client sends. A stream is cut at its line feeds into
complete lines and what is pending behind the last; each has to be short enough, UTF-8, and without
a carriage return inside (`LineStream.IsValid`). A text message has to be one line
(`Frame.IsValid`).

A client could have sent only the valid lines in front of the first bad one. `Carrier.curtail` says
what is left of its input then, event by event. A connection hears the same of it, except for the
fault where a bad line is detected (`Connection.hear_curtail`).
-/

namespace ChatRoom

open Text

/-! ## Streams -/

namespace LineStream

/-- The lines of a stream that have their line feed, each without it. -/
def complete (bytes : List UInt8) : List (List UInt8) := (bytes.splitOn lf).dropLast

/-- What follows the last line feed. -/
def pending (bytes : List UInt8) : List UInt8 := (bytes.splitOn lf).getLastD []

/-- The bytes of a line of at most `max` bytes: UTF-8, and at most one carriage return, at the
end. -/
def IsValid (max : Nat) (bytes : List UInt8) : Prop :=
  bytes.length ≤ max ∧ (Utf8.decode (dropReturn bytes)).isSome ∧ cr ∉ dropReturn bytes

instance (max : Nat) : DecidablePred (IsValid max) := fun _ => inferInstanceAs (Decidable (_ ∧ _))

/-- The complete lines in front of the first that is not valid, with their line feeds. -/
def validPart (max : Nat) (bytes : List UInt8) : List UInt8 :=
  ((complete bytes).takeWhile (IsValid max ·)).flatMap (· ++ [lf])

/-- Nothing in the stream is known to be bad: what is pending may still become a line. -/
def IsSound (max : Nat) (bytes : List UInt8) : Prop :=
  (∀ line ∈ complete bytes, IsValid max line) ∧ (pending bytes).length ≤ max

instance (max : Nat) : DecidablePred (IsSound max) := fun _ => inferInstanceAs (Decidable (_ ∧ _))

section Cutting

variable {line : List UInt8} (hlf : lf ∉ line)

include hlf

theorem complete_of_notMem : complete line = [] := by
  rw [complete, List.splitOn_eq_singleton hlf]
  rfl

theorem pending_of_notMem : pending line = line := by
  rw [pending, List.splitOn_eq_singleton hlf]
  rfl

theorem splitOn_line (rest : List UInt8) :
    (line ++ lf :: rest).splitOn lf = line :: rest.splitOn lf := by
  rw [List.splitOn_append_cons_self, List.splitOn_eq_singleton hlf]
  rfl

theorem complete_line (rest : List UInt8) :
    complete (line ++ lf :: rest) = line :: complete rest := by
  rw [complete, splitOn_line hlf, List.dropLast_cons_of_ne_nil (List.splitOn_ne_nil lf rest)]
  rfl

theorem pending_line (rest : List UInt8) : pending (line ++ lf :: rest) = pending rest := by
  rw [pending, splitOn_line hlf, pending]
  cases hs : rest.splitOn lf with
  | nil => exact absurd hs (List.splitOn_ne_nil lf rest)
  | cons first more => rfl

theorem validPart_of_notMem (max : Nat) : validPart max line = [] := by
  rw [validPart, complete_of_notMem hlf]
  rfl

theorem validPart_line (max : Nat) (rest : List UInt8) :
    validPart max (line ++ lf :: rest) =
      if IsValid max line then line ++ lf :: validPart max rest else [] := by
  rw [validPart, complete_line hlf]
  split
  · rename_i hvalid
    simp [hvalid, validPart]
  · rename_i hvalid
    simp [hvalid]

theorem isSound_of_notMem (max : Nat) : IsSound max line ↔ line.length ≤ max := by
  rw [IsSound, complete_of_notMem hlf, pending_of_notMem hlf]
  simp

theorem isSound_line (max : Nat) (rest : List UInt8) :
    IsSound max (line ++ lf :: rest) ↔ IsValid max line ∧ IsSound max rest := by
  rw [IsSound, complete_line hlf, pending_line hlf, List.forall_mem_cons, and_assoc, IsSound]

end Cutting

/-- Induction over the lines of a stream. -/
theorem induction_lines {P : List UInt8 → Prop} (hlast : ∀ line, lf ∉ line → P line)
    (hline : ∀ line rest, lf ∉ line → P rest → P (line ++ lf :: rest)) (bytes : List UInt8) :
    P bytes := by
  induction hn : bytes.length using Nat.strongRecOn generalizing bytes with
  | ind n ih =>
    by_cases hlf : lf ∈ bytes
    · obtain ⟨line, rest, rfl, hline'⟩ := List.eq_append_cons_of_mem hlf
      have hlt : rest.length < n := by
        rw [← hn, List.length_append, List.length_cons]
        omega
      exact hline line rest hline' (ih _ hlt rest rfl)
    · exact hlast bytes hlf

theorem lf_notMem_pending (bytes : List UInt8) : lf ∉ pending bytes := by
  induction bytes using induction_lines with
  | hlast line hlf => rwa [pending_of_notMem hlf]
  | hline line rest hlf ih => rwa [pending_line hlf]

/-! ## Reading a stream -/

theorem decodeLine_of_isValid {max : Nat} {bytes : List UInt8} (h : IsValid max bytes) :
    ∃ text, decodeLine bytes = .ok text := by
  obtain ⟨-, hsome, hcr⟩ := h
  obtain ⟨text, htext⟩ := Option.isSome_iff_exists.1 hsome
  have hreturn : '\r' ∉ text.toList := by
    intro hm
    have hbyte : cr ∈ Utf8.encode text := (Utf8.mem_encode_iff (a := '\r') (by decide)).2 hm
    exact hcr (Utf8.decode_eq_some_iff.1 htext ▸ hbyte)
  exact ⟨text, by rw [decodeLine, htext]; exact if_neg hreturn⟩

theorem decodeLine_of_not_isValid {max : Nat} {bytes : List UInt8} (h : ¬ IsValid max bytes)
    (hshort : bytes.length ≤ max) : ∃ e, decodeLine bytes = .error e := by
  unfold decodeLine
  cases htext : Utf8.decode (dropReturn bytes) with
  | none => exact ⟨_, rfl⟩
  | some text =>
    have hcr : cr ∈ dropReturn bytes := by
      by_contra hcr
      exact h ⟨hshort, by rw [htext]; rfl, hcr⟩
    rw [← Utf8.decode_eq_some_iff.1 htext] at hcr
    have hreturn : '\r' ∈ text.toList := (Utf8.mem_encode_iff (a := '\r') (by decide)).1 hcr
    exact ⟨_, if_pos hreturn⟩

theorem read_valid_line {max : Nat} {line : List UInt8} (hlf : lf ∉ line)
    (hvalid : IsValid max line) : ∃ text, decodeLine line = .ok text ∧ ∀ rest,
      read max (line ++ lf :: rest) = (text :: (read max rest).1, (read max rest).2) := by
  obtain ⟨text, htext⟩ := decodeLine_of_isValid hvalid
  refine ⟨text, htext, fun rest => ?_⟩
  rw [read_line hlf, if_neg (Nat.not_lt.2 hvalid.1), htext]

/-- Nothing is read of a line that is not valid, or of what follows it. -/
theorem read_bad_line {max : Nat} {line : List UInt8} (hlf : lf ∉ line)
    (hbad : ¬ IsValid max line) (rest : List UInt8) :
    ∃ e, read max (line ++ lf :: rest) = ([], .failed e) := by
  rw [read_line hlf]
  by_cases hlong : max < line.length
  · exact ⟨_, if_pos hlong⟩
  · obtain ⟨e, he⟩ := decodeLine_of_not_isValid hbad (Nat.not_lt.1 hlong)
    exact ⟨e, by rw [if_neg hlong, he]⟩

/-- **What is read of a stream** are its valid lines in front of the first bad one. -/
theorem read_validPart (max : Nat) (bytes : List UInt8) :
    read max (validPart max bytes) = ((read max bytes).1, .unfinished []) := by
  induction bytes using induction_lines with
  | hlast line hlf => rw [validPart_of_notMem hlf, read_of_notMem hlf, read_nil]
  | hline line rest hlf ih =>
    rw [validPart_line hlf]
    by_cases hvalid : IsValid max line
    · obtain ⟨text, -, hread⟩ := read_valid_line hlf hvalid
      rw [if_pos hvalid, hread, hread, ih]
    · obtain ⟨e, hread⟩ := read_bad_line hlf hvalid rest
      rw [if_neg hvalid, hread, read_nil]

/-- Reading goes on as long as nothing is known to be bad. -/
theorem read_of_isSound {max : Nat} {bytes : List UInt8} (h : IsSound max bytes) :
    (read max bytes).2 = .unfinished (pending bytes) := by
  induction bytes using induction_lines with
  | hlast line hlf =>
    have hshort := (isSound_of_notMem hlf max).1 h
    rw [read_of_notMem hlf, if_neg (Nat.not_lt.2 hshort), pending_of_notMem hlf]
  | hline line rest hlf ih =>
    obtain ⟨hvalid, hrest⟩ := (isSound_line hlf max rest).1 h
    obtain ⟨text, -, hread⟩ := read_valid_line hlf hvalid
    rw [hread, pending_line hlf]
    exact ih hrest

theorem read_of_not_isSound {max : Nat} {bytes : List UInt8} (h : ¬ IsSound max bytes) :
    ∃ e, (read max bytes).2 = .failed e := by
  induction bytes using induction_lines with
  | hlast line hlf =>
    rw [isSound_of_notMem hlf, Nat.not_le] at h
    rw [read_of_notMem hlf, if_pos h]
    exact ⟨_, rfl⟩
  | hline line rest hlf ih =>
    by_cases hvalid : IsValid max line
    · obtain ⟨text, -, hread⟩ := read_valid_line hlf hvalid
      rw [hread]
      exact ih fun hrest => h ((isSound_line hlf max rest).2 ⟨hvalid, hrest⟩)
    · obtain ⟨e, hread⟩ := read_bad_line hlf hvalid rest
      exact ⟨e, by rw [hread]⟩

end LineStream

/-! ## Messages -/

namespace Frame

/-- The payload of a text message with a line of at most `max` bytes. -/
def IsValid (max : Nat) (payload : List UInt8) : Prop :=
  ∃ content ∈ Utf8.decode payload,
    (dropTerminators content).utf8ByteSize ≤ max ∧ IsLine (dropTerminators content)

instance (max : Nat) : DecidablePred (IsValid max) :=
  fun payload => Option.decidableExistsMem (Utf8.decode payload)

theorem decode_of_not_isValid {max : Nat} {fragments : List (List UInt8)}
    (h : ¬ IsValid max fragments.flatten) :
    ∃ e, decode max (.text fragments) = some (.failed e) := by
  obtain ⟨e, he⟩ : ∃ e, decodeLine max fragments.flatten = .error e := by
    cases hcontent : Utf8.decode fragments.flatten with
    | none => exact ⟨_, by rw [decodeLine, hcontent]⟩
    | some content =>
      rw [← Utf8.decode_eq_some_iff.1 hcontent, decodeLine_encode, verdict]
      by_cases hlong : max < (dropTerminators content).utf8ByteSize
      · exact ⟨_, if_pos hlong⟩
      · have hline : ¬ IsLine (dropTerminators content) := fun hline =>
          h ⟨content, hcontent, Nat.not_lt.1 hlong, hline⟩
        exact ⟨.embeddedTerminator, by rw [if_neg hlong, if_neg hline]⟩
  exact ⟨e, by rw [decode, he]⟩

end Frame

/-! ## Clients that send only valid lines -/

/-- What is left of the input of a client that sends only the valid lines in front of the first bad
one: of an event, when the line in `unread` has not ended yet. The client goes on with an unfinished
line, or stops because a bad line is detected. -/
def Carrier.curtail (max : Nat) (unread : List UInt8) :
    Carrier → WireEvent → List WireEvent × Option (List UInt8)
  | .tcp, .bytes data =>
    let stream := unread ++ data
    ([.bytes (LineStream.validPart max stream)],
      if LineStream.IsSound max stream then some (LineStream.pending stream) else none)
  | .tcp, .ends => last .ends
  | .tcp, .vanishes => last .vanishes
  | .tcp, .fails cause => ([.fails cause], some [])
  | .webSocket, .frame (.text fragments) =>
    if Frame.IsValid max fragments.flatten then ([.frame (.text fragments)], some [])
    else ([], none)
  | .webSocket, .frame frame => ([.frame frame], some [])
  | .webSocket, .ends => ([.ends], some [])
  | .webSocket, .vanishes => ([.vanishes], some [])
  | .webSocket, .fails cause => ([.fails cause], some [])
  | .tcp, .frame frame => ([.frame frame], some unread)
  | .webSocket, .bytes data => ([.bytes data], some unread)
where
  /-- The stream ends, and with it its last line, if there is one. -/
  last (event : WireEvent) : List WireEvent × Option (List UInt8) :=
    if unread = [] ∨ unread = [LineStream.cr] then ([event], some [])
    else if LineStream.IsValid max unread then
      ([.bytes (unread ++ [LineStream.lf]), event], some [])
    else ([], none)

/-- Two lines that are good and one that is not, with another behind it. -/
example : Carrier.tcp.curtail 10 [] (.bytes [0x68, 0x69, 0x0A, 0x0D, 0x0A, 0xFF, 0x0A, 0x68]) =
    ([.bytes [0x68, 0x69, 0x0A, 0x0D, 0x0A]], none) := by decide +kernel

namespace Connection

/-- What is heard depends on the carrier and on what is unread. -/
theorem hear_congr {c d : Connection} (hcarrier : d.carrier = c.carrier)
    (hunread : d.unread = c.unread) (max : Nat) (event : WireEvent) :
    d.hear max event = c.hear max event := by
  unfold hear
  rw [hcarrier, hunread]

/-- What `c` hears of an event, compared with what `d`, on which nothing is unread, hears of what is
left of it. -/
inductive Leaves (c d : Connection) (max : Nat) (event : WireEvent) :
    List WireEvent × Option (List UInt8) → Prop
  /-- The same, and `c` keeps the beginning of a line that is not too long yet. -/
  | goesOn (kept : List WireEvent) (rest : List UInt8)
      (hwhole : ∀ e ∈ kept, (d.hear max e).2 = [])
      (hheard : c.hear max event = (kept.flatMap fun e => (d.hear max e).1, rest))
      (hlf : LineStream.lf ∉ rest) (hshort : rest.length ≤ max) :
      Leaves c d max event (kept, some rest)
  /-- The same, and then a fault. -/
  | stops (kept : List WireEvent) (error : TransportError)
      (hwhole : ∀ e ∈ kept, (d.hear max e).2 = [])
      (hheard : c.hear max event =
        (kept.flatMap (fun e => (d.hear max e).1) ++ [.failed error], [])) :
      Leaves c d max event (kept, none)

section Curtail

variable {c d : Connection} {max : Nat}

theorem hear_bytes (hcarrier : c.carrier = .tcp) (max : Nat) (data : List UInt8) :
    c.hear max (.bytes data) = match LineStream.read max (c.unread ++ data) with
      | (lines, .unfinished rest) => (lines.map .line, rest)
      | (lines, .failed e) => (lines.map .line ++ [.failed e], []) := by
  obtain ⟨carrier, _, _, _, _, _, _, _⟩ := c
  obtain rfl : carrier = .tcp := hcarrier
  rfl

theorem leaves_bytes (hc : c.carrier = .tcp) (hd : d.carrier = .tcp) (hnone : d.unread = [])
    (data : List UInt8) :
    c.Leaves d max (.bytes data) (Carrier.tcp.curtail max c.unread (.bytes data)) := by
  have hleft : d.hear max (.bytes (LineStream.validPart max (c.unread ++ data))) =
      ((LineStream.read max (c.unread ++ data)).1.map .line, []) := by
    rw [hear_bytes hd, hnone, List.nil_append, LineStream.read_validPart]
  have hheard := hear_bytes hc max data
  have hwhole : ∀ e ∈ [WireEvent.bytes (LineStream.validPart max (c.unread ++ data))],
      (d.hear max e).2 = [] := by
    intro e he
    rw [List.mem_singleton.1 he, hleft]
  rw [Carrier.curtail]
  generalize c.unread ++ data = stream at *
  cases hread : LineStream.read max stream with
  | mk lines stop =>
    rw [hread] at hheard hleft
    split
    · rename_i hsound
      obtain rfl : stop = .unfinished (LineStream.pending stream) := by
        rw [← LineStream.read_of_isSound hsound, hread]
      refine .goesOn _ _ hwhole ?_ (LineStream.lf_notMem_pending stream) hsound.2
      rw [hheard, List.flatMap_singleton, hleft]
    · rename_i hbad
      obtain ⟨e, he⟩ := LineStream.read_of_not_isSound hbad
      obtain rfl : stop = .failed e := by rw [← he, hread]
      refine .stops _ e hwhole ?_
      rw [hheard, List.flatMap_singleton, hleft]

/-- The end of a stream, however it ends. -/
theorem leaves_last (hd : d.carrier = .tcp) (hnone : d.unread = [])
    (hlf : LineStream.lf ∉ c.unread) (hshort : c.unread.length ≤ max) {event : WireEvent}
    (hc : c.hear max event = (lastWords c.unread, []))
    (hend : d.hear max event = (lastWords [], [])) :
    c.Leaves d max event (Carrier.curtail.last max c.unread event) := by
  unfold Carrier.curtail.last
  split
  · rename_i hempty
    have hwords : lastWords c.unread = lastWords [] := by
      rw [lastWords, LineStream.finish, if_pos hempty]
      rfl
    refine .goesOn _ _ (fun e he => ?_) ?_ List.not_mem_nil (Nat.zero_le _)
    · rw [List.mem_singleton.1 he, hend]
    · rw [hc, List.flatMap_singleton, hend, hwords]
  · rename_i hline
    split
    · rename_i hvalid
      obtain ⟨text, htext, hread⟩ := LineStream.read_valid_line hlf hvalid
      have hbytes : d.hear max (.bytes (c.unread ++ [LineStream.lf])) = ([.line text], []) := by
        rw [hear_bytes hd, hnone, List.nil_append, hread, LineStream.read_nil]
        rfl
      have hwords : lastWords c.unread = .line text :: lastWords [] := by
        rw [lastWords, LineStream.finish, if_neg hline, htext]
        rfl
      refine .goesOn _ _ (fun e he => ?_) ?_ List.not_mem_nil (Nat.zero_le _)
      · rcases List.mem_cons.1 he with rfl | he
        · rw [hbytes]
        · rw [List.mem_singleton.1 he, hend]
      · rw [hc, List.flatMap_cons, List.flatMap_singleton, hbytes, hend, hwords]
        rfl
    · rename_i hbad
      obtain ⟨e, he⟩ := LineStream.decodeLine_of_not_isValid hbad hshort
      refine .stops [] e (fun e he => absurd he List.not_mem_nil) ?_
      rw [hc, lastWords, LineStream.finish, if_neg hline, he]
      rfl

/-- An event that is left as it is. -/
theorem leaves_same {event : WireEvent} {rest : List UInt8} (hwhole : (d.hear max event).2 = [])
    (hheard : c.hear max event = ((d.hear max event).1, rest)) (hlf : LineStream.lf ∉ rest)
    (hshort : rest.length ≤ max) : c.Leaves d max event ([event], some rest) := by
  refine .goesOn [event] rest (fun e he => ?_) ?_ hlf hshort
  · rw [List.mem_singleton.1 he, hwhole]
  · rw [List.flatMap_singleton, hheard]

/-- **The same is heard** of the valid lines in front of the first bad one as of all that comes in,
except for a fault where the bad line is detected. -/
theorem leaves_curtail (hcarrier : d.carrier = c.carrier) (hnone : d.unread = [])
    (hlf : LineStream.lf ∉ c.unread) (hshort : c.unread.length ≤ max) (event : WireEvent) :
    c.Leaves d max event (c.carrier.curtail max c.unread event) := by
  cases hc : c.carrier with
  | tcp =>
    have hd : d.carrier = .tcp := hcarrier.trans hc
    cases event with
    | bytes data => exact leaves_bytes hc hd hnone data
    | ends =>
      refine leaves_last hd hnone hlf hshort ?_ ?_
      · simp only [hear, hc]
      · simp only [hear, hd, hnone]
    | vanishes =>
      refine leaves_last hd hnone hlf hshort ?_ ?_
      · simp only [hear, hc]
      · simp only [hear, hd, hnone]
    | fails cause =>
      refine leaves_same ?_ ?_ List.not_mem_nil (Nat.zero_le _)
      · simp only [hear, hd]
      · simp only [hear, hc, hd]
    | frame frame =>
      refine leaves_same ?_ ?_ hlf hshort
      · simp only [hear, hd, hnone]
      · simp only [hear, hc, hd]
  | webSocket =>
    have hd : d.carrier = .webSocket := hcarrier.trans hc
    cases event with
    | bytes data =>
      refine leaves_same ?_ ?_ hlf hshort
      · simp only [hear, hd, hnone]
      · simp only [hear, hc, hd]
    | ends =>
      refine leaves_same ?_ ?_ List.not_mem_nil (Nat.zero_le _)
      · simp only [hear, hd]
      · simp only [hear, hc, hd]
    | vanishes =>
      refine leaves_same ?_ ?_ List.not_mem_nil (Nat.zero_le _)
      · simp only [hear, hd]
      · simp only [hear, hc, hd]
    | fails cause =>
      refine leaves_same ?_ ?_ List.not_mem_nil (Nat.zero_le _)
      · simp only [hear, hd]
      · simp only [hear, hc, hd]
    | frame frame =>
      have hsame : c.Leaves d max (.frame frame) ([.frame frame], some []) := by
        refine leaves_same ?_ ?_ List.not_mem_nil (Nat.zero_le _)
        · simp only [hear, hd]
        · simp only [hear, hc, hd]
      cases frame with
      | text fragments =>
        rw [Carrier.curtail]
        split
        · exact hsame
        · rename_i hbad
          obtain ⟨e, he⟩ := Frame.decode_of_not_isValid hbad
          refine .stops [] e (fun e he => absurd he List.not_mem_nil) ?_
          simp only [hear, hc, he]
          rfl
      | _ => exact hsame

end Curtail

end Connection

end ChatRoom
