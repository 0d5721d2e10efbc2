import ChatRoom.Proofs.Wire.Arrival

/-!
# Framing

Reading a byte stream divides it up (`LineStream.Cut`): the lines that were read, each with the
bytes that end it, and what is left where reading stops (`LineStream.Remains`). So no line is lost,
made up, merged with another or torn, whatever the bytes are (`exists_cut`); and what is written for
lines reads as these lines (`readAll_writeAll`).
-/

namespace ChatRoom.LineStream

open Text

/-! ## How a stream is divided up -/

/-- A line as it stands in a stream: its text, and the bytes that end it. -/
structure EndedLine where
  text : String
  ending : List UInt8

namespace EndedLine

def bytes (line : EndedLine) : List UInt8 := Utf8.encode line.text ++ line.ending

/-- The line has its line feed, with or without a carriage return in front of it. -/
def IsWhole (line : EndedLine) : Prop := line.ending = [lf] ∨ line.ending = [cr, lf]

/-- The stream ended before the line did. -/
def IsCutOff (line : EndedLine) : Prop :=
  line.text ≠ "" ∧ (line.ending = [] ∨ line.ending = [cr])

end EndedLine

/-- What is wrong with the bytes of a line. A carriage return at their end is no part of it, but
counts for the length. -/
inductive Offends (max : Nat) (line : List UInt8) : TransportError → Prop
  | tooLong (hlong : max < line.length) : Offends max line (.lineTooLong max)
  | notText (hshort : line.length ≤ max) (h : ∀ text, Utf8.encode text ≠ dropReturn line) :
      Offends max line (.receiveFailed ⟨.invalidData, "Unable to decode input as UTF8"⟩)
  | embeddedReturn (text : String) (hshort : line.length ≤ max)
      (h : Utf8.encode text = dropReturn line) (hreturn : '\r' ∈ text.toList) :
      Offends max line .embeddedTerminator

/-- What may be left of a stream where reading stops: nothing but a carriage return at the end, or
the line at fault and whatever follows it. -/
inductive Remains (max : Nat) : Option TransportError → List UInt8 → Prop
  | nothing : Remains max none []
  | loneReturn : Remains max none [cr]
  | offence (line more : List UInt8) (e : TransportError) (hlf : lf ∉ line)
      (hmore : more = [] ∨ ∃ rest, more = lf :: rest) (h : Offends max line e) :
      Remains max (some e) (line ++ more)

/-- A stream is divided up into the lines that were read of it and what is left. -/
structure Cut (max : Nat) (bytes : List UInt8) (reading : List String × Option TransportError)
    (parts : List EndedLine) (rest : List UInt8) : Prop where
  bytes_eq : bytes = parts.flatMap EndedLine.bytes ++ rest
  lines_eq : reading.1 = parts.map EndedLine.text
  isLine : ∀ part ∈ parts, IsLine part.text
  short : ∀ part ∈ parts, part.text.utf8ByteSize ≤ max
  /-- Only the end of the stream can stand in for the end of a line. -/
  ended : ∀ front part back, parts = front ++ part :: back →
    part.IsWhole ∨ part.IsCutOff ∧ back = [] ∧ rest = [] ∧ reading.2 = none
  remains : Remains max reading.2 rest

/-! ## One line -/

theorem dropReturn_cases (line : List UInt8) :
    line = dropReturn line ∨ line = dropReturn line ++ [cr] := by
  unfold dropReturn
  split
  · rename_i hlast
    obtain ⟨front, rfl⟩ := List.getLast?_eq_some_iff.1 hlast
    exact .inr (by simp)
  · exact .inl rfl

variable {max : Nat} {line rest : List UInt8} {text : String} {e : TransportError}

theorem bytes_of_decodeLine (h : decodeLine line = .ok text) :
    line = Utf8.encode text ∨ line = Utf8.encode text ++ [cr] := by
  unfold decodeLine at h
  split at h
  · cases h
  · rename_i content hcontent
    split at h
    · cases h
    · cases h
      rw [Utf8.decode_eq_some_iff.1 hcontent]
      exact dropReturn_cases line

theorem utf8ByteSize_le_of_decodeLine (h : decodeLine line = .ok text) :
    text.utf8ByteSize ≤ line.length := by
  rcases bytes_of_decodeLine h with rfl | rfl
  · simp
  · simp

theorem offends_of_decodeLine (h : decodeLine line = .error e) (hshort : line.length ≤ max) :
    Offends max line e := by
  unfold decodeLine at h
  split at h
  · rename_i hnone
    cases h
    refine .notText hshort fun text htext => ?_
    rw [Utf8.decode_eq_some_iff.2 htext] at hnone
    cases hnone
  · rename_i content hcontent
    split at h
    · rename_i hreturn
      cases h
      exact .embeddedReturn content hshort (Utf8.decode_eq_some_iff.1 hcontent) hreturn
    · cases h

theorem readAll_line (hlf : lf ∉ line) (max : Nat) (rest : List UInt8) :
    readAll max (line ++ lf :: rest) =
      if max < line.length then ([], some (.lineTooLong max))
      else match decodeLine line with
      | .error e => ([], some e)
      | .ok text => (text :: (readAll max rest).1, (readAll max rest).2) := by
  have hsplit : line ++ lf :: rest = (line ++ [lf]) ++ rest := by simp
  rw [hsplit, readAll_append, read_line hlf]
  by_cases hlong : max < line.length
  · rw [if_pos hlong, if_pos hlong]
  · rw [if_neg hlong, if_neg hlong]
    cases decodeLine line with
    | error e => rfl
    | ok text =>
      dsimp only
      rw [read_nil]
      rfl

theorem readAll_of_notMem (hlf : lf ∉ line) (max : Nat) :
    readAll max line =
      if max < line.length then ([], some (.lineTooLong max))
      else match finish line with
      | .error e => ([], some e)
      | .ok last => (last.toList, none) := by
  rw [readAll, read_of_notMem hlf]
  by_cases hlong : max < line.length
  · rw [if_pos hlong, if_pos hlong]
  · rw [if_neg hlong, if_neg hlong]
    rfl

/-! ## A whole stream -/

namespace Cut

/-- Reading stops at once. -/
theorem stop {bytes : List UInt8} {stop : Option TransportError} (h : Remains max stop bytes) :
    Cut max bytes ([], stop) [] bytes where
  bytes_eq := rfl
  lines_eq := rfl
  isLine _ hp := absurd hp List.not_mem_nil
  short _ hp := absurd hp List.not_mem_nil
  ended front part back hparts := by simp at hparts
  remains := h

/-- The stream ends with its last line. -/
theorem last (hlf : lf ∉ line) (hshort : line.length ≤ max) (hne : line ≠ [] ∧ line ≠ [cr])
    (h : decodeLine line = .ok text) :
    ∃ part, Cut max line ([text], none) [part] [] := by
  obtain ⟨ending, hline, hending⟩ : ∃ ending, line = Utf8.encode text ++ ending ∧
      (ending = [] ∨ ending = [cr]) := by
    rcases bytes_of_decodeLine h with heq | heq
    · exact ⟨[], by simpa using heq, .inl rfl⟩
    · exact ⟨[cr], heq, .inr rfl⟩
  have htext : text ≠ "" := by
    rintro rfl
    rcases hending with rfl | rfl
    · exact hne.1 hline
    · exact hne.2 hline
  refine ⟨⟨text, ending⟩, ?_, rfl, ?_, ?_, ?_, .nothing⟩
  · simpa [EndedLine.bytes] using hline
  · intro part hp
    rw [List.mem_singleton.1 hp]
    exact isLine_of_decodeLine h hlf
  · intro part hp
    rw [List.mem_singleton.1 hp]
    exact (utf8ByteSize_le_of_decodeLine h).trans hshort
  · intro front part back hparts
    cases front with
    | nil =>
      rw [List.nil_append, List.cons.injEq] at hparts
      obtain ⟨rfl, rfl⟩ := hparts
      exact .inr ⟨⟨htext, hending⟩, rfl, rfl, rfl⟩
    | cons first front => simp at hparts

/-- A line with its line feed, in front of a stream that is divided up. -/
theorem cons {bytes : List UInt8} {reading : List String × Option TransportError}
    {parts : List EndedLine} (hlf : lf ∉ line) (hshort : line.length ≤ max)
    (h : decodeLine line = .ok text) (hcut : Cut max bytes reading parts rest) :
    ∃ part, Cut max (line ++ lf :: bytes) (text :: reading.1, reading.2) (part :: parts) rest := by
  obtain ⟨ending, hline, hending⟩ : ∃ ending, line ++ [lf] = Utf8.encode text ++ ending ∧
      (ending = [lf] ∨ ending = [cr, lf]) := by
    rcases bytes_of_decodeLine h with heq | heq
    · exact ⟨[lf], by rw [heq], .inl rfl⟩
    · exact ⟨[cr, lf], by rw [heq]; simp, .inr rfl⟩
  refine ⟨⟨text, ending⟩, ?_, ?_, ?_, ?_, ?_, hcut.remains⟩
  · rw [List.flatMap_cons, List.append_assoc, ← hcut.bytes_eq, EndedLine.bytes, ← hline]
    simp
  · rw [List.map_cons, hcut.lines_eq]
  · intro part hp
    rcases List.mem_cons.1 hp with rfl | hp
    · exact isLine_of_decodeLine h hlf
    · exact hcut.isLine part hp
  · intro part hp
    rcases List.mem_cons.1 hp with rfl | hp
    · exact (utf8ByteSize_le_of_decodeLine h).trans hshort
    · exact hcut.short part hp
  · intro front part back hparts
    cases front with
    | nil =>
      rw [List.nil_append, List.cons.injEq] at hparts
      obtain ⟨rfl, -⟩ := hparts
      exact .inl hending
    | cons first front =>
      rw [List.cons_append, List.cons.injEq] at hparts
      exact hcut.ended front part back hparts.2

end Cut

/-- **Nothing is lost**, whatever the bytes are. -/
theorem exists_cut (max : Nat) (bytes : List UInt8) :
    ∃ parts rest, Cut max bytes (readAll max bytes) parts rest := by
  -- on the lines of the stream: the last one ends with it, each of the others has a line feed
  induction bytes using induction_lines with
  | hlast line hlf =>
    have hremains : ∀ e, Offends max line e → Remains max (some e) line := fun e he => by
      simpa using Remains.offence line [] e hlf (.inl rfl) he
    rw [readAll_of_notMem hlf]
    by_cases hlong : max < line.length
    · rw [if_pos hlong]
      exact ⟨[], line, .stop (hremains _ (.tooLong hlong))⟩
    · rw [if_neg hlong, finish]
      by_cases hnone : line = [] ∨ line = [cr]
      · rw [if_pos hnone]
        refine ⟨[], line, .stop ?_⟩
        rcases hnone with rfl | rfl
        · exact .nothing
        · exact .loneReturn
      · rw [if_neg hnone]
        cases hdecode : decodeLine line with
        | error e =>
          exact ⟨[], line, .stop (hremains e (offends_of_decodeLine hdecode (Nat.not_lt.1 hlong)))⟩
        | ok text =>
          obtain ⟨part, hcut⟩ := Cut.last hlf (Nat.not_lt.1 hlong) (not_or.1 hnone) hdecode
          exact ⟨[part], [], hcut⟩
  | hline line rest hlf ih =>
    have hremains : ∀ e, Offends max line e → Remains max (some e) (line ++ lf :: rest) :=
      fun e he => .offence line (lf :: rest) e hlf (.inr ⟨rest, rfl⟩) he
    rw [readAll_line hlf]
    by_cases hlong : max < line.length
    · rw [if_pos hlong]
      exact ⟨[], _, .stop (hremains _ (.tooLong hlong))⟩
    · rw [if_neg hlong]
      cases hdecode : decodeLine line with
      | error e =>
        exact ⟨[], _, .stop (hremains e (offends_of_decodeLine hdecode (Nat.not_lt.1 hlong)))⟩
      | ok text =>
        obtain ⟨parts, left, hcut⟩ := ih
        obtain ⟨part, hcut⟩ := hcut.cons hlf (Nat.not_lt.1 hlong) hdecode
        exact ⟨part :: parts, left, hcut⟩

/-- **What is written reads as it was**: lines that are short enough come back, and then the end. -/
theorem readAll_writeAll {lines : List String}
    (h : ∀ line ∈ lines, IsLine line ∧ line.utf8ByteSize ≤ max) :
    readAll max (writeAll lines) = (lines, none) := by
  induction lines with
  | nil =>
    rw [writeAll, List.flatMap_nil, readAll_of_notMem List.not_mem_nil]
    rfl
  | cons line lines ih =>
    obtain ⟨⟨hline, hshort⟩, hlines⟩ := List.forall_mem_cons.1 h
    have hlf : lf ∉ Utf8.encode line := (Utf8.isLine_iff.1 hline).1
    have hcons : writeAll (line :: lines) = Utf8.encode line ++ lf :: writeAll lines := by
      simp [writeAll, write]
    rw [hcons, readAll_line hlf, Utf8.length_encode, if_neg (Nat.not_lt.2 hshort),
      decodeLine_encode hline]
    dsimp only
    rw [ih hlines]

/-- **Framing is lossless and safe.** Whatever bytes come in, in whatever pieces, they are the lines
that were read, each with its ending, and what is left where reading stops: nothing, or a lone
carriage return, or the line at fault and what follows. What is written for lines reads as they
were. -/
theorem framing_is_lossless (max : Nat) (bytes : List UInt8) :
    (∃ parts rest, Cut max bytes (readAll max bytes) parts rest) ∧
    (∀ (c : Connection) (chunks : List (List UInt8)), c.carrier = .tcp → c.unread = [] →
      chunks.flatten = bytes →
        c.hearAll max (chunks.map .bytes ++ [.ends]) =
          Incoming.ofReading (readAll max bytes)) ∧
    ∀ lines : List String, (∀ line ∈ lines, IsLine line ∧ line.utf8ByteSize ≤ max) →
      readAll max (writeAll lines) = (lines, none) := by
  refine ⟨exists_cut max bytes, ?_, ?_⟩
  · rintro c chunks hc hunread rfl
    have hheard := Connection.hearAll_stream hc (by rw [hunread]; exact read_nil max) chunks
    rwa [hunread, List.nil_append] at hheard
  · intro lines hlines
    exact readAll_writeAll hlines

theorem framing_is_lossless_hi :
    let c : Connection := { carrier := .tcp, session := { id := ⟨1⟩, peer := .v4 #v[127, 0, 0, 1] 4000 } }
    readAll 2 (writeAll ["hi", ""]) = (["hi", ""], none) ∧
      c.hearAll 2 [.bytes [0x68], .bytes [0x69, 0x0A, 0x0A], .ends] =
        [.line "hi", .line "", .finished] := by
  intro c
  obtain ⟨-, hpieces, hlines⟩ := framing_is_lossless 2 (writeAll ["hi", ""])
  have hread : readAll 2 (writeAll ["hi", ""]) = (["hi", ""], none) :=
    hlines ["hi", ""] (by decide)
  have hheard := hpieces c [[0x68], [0x69, 0x0A, 0x0A]] rfl rfl (by decide)
  rw [hread] at hheard
  exact ⟨hread, hheard⟩

end ChatRoom.LineStream
