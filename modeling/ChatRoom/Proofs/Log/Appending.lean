import ChatRoom.Proofs.Log.Entries
import ChatRoom.Proofs.Wire.Validity

/-!
# A log that goes on

A log goes on where it was left. Each entry ends its own line, and no entry ends a line that stood
there before (`complete_append_line`). So a log that was left in the middle of a line, as by a crash
while it was written, has its first new entry on that line, and every other entry on a line of its
own (`one_line_each_unless_torn`).
-/

namespace ChatRoom

open Text

/-! ## Lines of a file -/

namespace LineStream

/-- The lines of a file: its bytes cut at line feeds, without an empty piece behind the last. -/
def linesOf (bytes : List UInt8) : List (List UInt8) :=
  complete bytes ++ if pending bytes = [] then [] else [pending bytes]

variable {line : List UInt8} {entries : List String}

/-- What is appended to a file begins where its last line was left. -/
theorem complete_append_line (hlf : lf ∉ line) (rest bytes : List UInt8) :
    complete (bytes ++ (line ++ lf :: rest)) =
        complete bytes ++ (pending bytes ++ line) :: complete rest ∧
      pending (bytes ++ (line ++ lf :: rest)) = pending rest := by
  induction bytes using induction_lines with
  | hlast last hlast =>
    have hboth : lf ∉ last ++ line := by simp [hlast, hlf]
    rw [← List.append_assoc, complete_line hboth, pending_line hboth, complete_of_notMem hlast,
      pending_of_notMem hlast]
    exact ⟨rfl, rfl⟩
  | hline first more hfirst ih =>
    rw [List.append_assoc, List.cons_append, complete_line hfirst, pending_line hfirst,
      complete_line hfirst, pending_line hfirst, ih.1, ih.2]
    exact ⟨rfl, rfl⟩

/-- A file is left at the end of a line if it is empty or ends in a line feed. -/
theorem pending_eq_nil_iff {bytes : List UInt8} :
    pending bytes = [] ↔ bytes = [] ∨ bytes.getLast? = some lf := by
  induction bytes using induction_lines with
  | hlast last hlast =>
    rw [pending_of_notMem hlast]
    refine ⟨.inl, ?_⟩
    rintro (hnil | hend)
    · exact hnil
    · exact absurd (List.mem_of_getLast? hend) hlast
  | hline first more hfirst ih =>
    rw [pending_line hfirst, ih]
    by_cases hmore : more = []
    · simp [hmore]
    · have hend : (first ++ lf :: more).getLast? = more.getLast? := by
        rw [List.append_cons, List.getLast?_append_of_ne_nil _ hmore]
      simp [hmore, hend]

theorem complete_writeAll (h : ∀ entry ∈ entries, IsLine entry) :
    complete (writeAll entries) = entries.map Utf8.encode ∧ pending (writeAll entries) = [] := by
  rw [complete, pending, splitOn_writeAll h]
  simp

theorem linesOf_append_writeAll {entry : String} (hentry : IsLine entry)
    (h : ∀ entry ∈ entries, IsLine entry) (bytes : List UInt8) :
    linesOf (bytes ++ writeAll (entry :: entries)) =
      complete bytes ++ (pending bytes ++ Utf8.encode entry) :: entries.map Utf8.encode := by
  have hlf : lf ∉ Utf8.encode entry := (Utf8.isLine_iff.1 hentry).1
  have hcons : writeAll (entry :: entries) = Utf8.encode entry ++ lf :: writeAll entries := by
    simp [writeAll, write]
  obtain ⟨hcomplete, hpending⟩ := complete_append_line hlf (writeAll entries) bytes
  obtain ⟨hentries, hnone⟩ := complete_writeAll h
  rw [linesOf, hcons, hcomplete, hpending, hnone, hentries, if_pos rfl, List.append_nil]

/-- **New lines** follow the old ones exactly if the file was left at the end of a line. -/
theorem linesOf_append_writeAll_iff (h : ∀ entry ∈ entries, IsLine entry) (bytes : List UInt8) :
    linesOf (bytes ++ writeAll entries) = linesOf bytes ++ entries.map Utf8.encode ↔
      entries = [] ∨ bytes = [] ∨ bytes.getLast? = some lf := by
  cases entries with
  | nil => simp [writeAll]
  | cons entry entries =>
    obtain ⟨hentry, hentries⟩ := List.forall_mem_cons.1 h
    rw [linesOf_append_writeAll hentry hentries, ← pending_eq_nil_iff, linesOf]
    by_cases hpending : pending bytes = []
    · simp [hpending]
    · simp only [hpending, if_false, List.map_cons, reduceCtorEq, false_or, iff_false]
      intro hsame
      have hlength := congrArg List.length hsame
      simp only [List.length_append, List.length_cons, List.length_nil, List.length_map] at hlength
      omega

end LineStream

/-! ## Appending -/

namespace LogDevice.Works

variable {δ : Type} [LogDevice δ] {written : δ → List UInt8} {works : δ → Prop}

theorem foldl_note (h : Works written works) {lines : List String}
    (hlines : ∀ line ∈ lines, EndsPlain line) {device : δ} (hd : works device) :
    works (lines.foldl (fun log line => Log.note line log) device) := by
  induction lines generalizing device with
  | nil => exact hd
  | cons line lines ih =>
    obtain ⟨hline, hlines⟩ := List.forall_mem_cons.1 hlines
    exact ih hlines (h.note hline hd).1

end LogDevice.Works

namespace Log

variable {δ : Type} [LogDevice δ] {written : δ → List UInt8} {works : δ → Prop}

/-- **One line for each event, unless the log was left in the middle of one.** Whatever is in a log
when it is opened stays in front, and behind it comes one entry for each event, with its own line
feed; no entry fails. The lines of the log are then the old ones, followed by one for each event,
exactly if the old content was empty or ended in a line feed. If it did not, the first entry goes on
in its last line, and the others have lines of their own. -/
theorem one_line_each_unless_torn (hworks : LogDevice.Works written works) {log : δ}
    (hlog : works log) {lines : List String} (hlines : ∀ line ∈ lines, IsLine line) :
    let after := lines.foldl (fun log line => note line log) log
    (∀ before line rest, lines = before ++ line :: rest →
      (append line (before.foldl (fun log line => note line log) log)).1 = .ok ()) ∧
    ∃ entries : List String,
      List.Forall₂ (fun line entry => ∃ time, entry = stamped time line) lines entries ∧
      (∀ entry ∈ entries, IsLine entry) ∧
      written after = written log ++ LineStream.writeAll entries ∧
      (LineStream.linesOf (written after) =
          LineStream.linesOf (written log) ++ entries.map Utf8.encode ↔
        lines = [] ∨ written log = [] ∨ (written log).getLast? = some LineStream.lf) ∧
      ∀ first others, entries = first :: others →
        LineStream.linesOf (written after) = LineStream.complete (written log) ++
          (LineStream.pending (written log) ++ Utf8.encode first) ::
            others.map Utf8.encode := by
  intro after
  have hplain : ∀ line ∈ lines, EndsPlain line := fun line hl => (hlines line hl).endsPlain
  obtain ⟨entries, hentries, hwritten⟩ := hworks.written_foldl_note hplain hlog
  have hstamped : ∀ entry ∈ entries, IsLine entry := by
    intro entry he
    obtain ⟨line, hl, time, rfl⟩ := exists_mem_of_forall₂ hentries he
    exact isLine_stamped time (hlines line hl)
  have hnone : lines = [] ↔ entries = [] := by
    rw [← List.length_eq_zero_iff, ← List.length_eq_zero_iff, hentries.length_eq]
  refine ⟨?_, entries, hentries, hstamped, hwritten, ?_, ?_⟩
  · rintro before line rest rfl
    have hbefore : ∀ l ∈ before, EndsPlain l := fun l hl => hplain l (List.mem_append_left _ hl)
    obtain ⟨next, happend, -⟩ :=
      hworks.append (hplain line (by simp)) (hworks.foldl_note hbefore hlog)
    rw [happend]
  · rw [hwritten, LineStream.linesOf_append_writeAll_iff hstamped, hnone]
  · rintro first others rfl
    obtain ⟨hfirst, hothers⟩ := List.forall_mem_cons.1 hstamped
    rw [hwritten, LineStream.linesOf_append_writeAll hfirst hothers]

/-- Two events for a log that takes three bytes at a time and was left in the middle of a line. -/
theorem one_line_each_unless_torn_later :
    let log : MemoryLog := { clock := ⟨2024, 5, 1, 12, 0, 0⟩, pace := some 3,
                             written := Utf8.encode "[2024-01-01 00:00:00] hi\n[2024-01-0" }
    let after := ["later", "last"].foldl (fun log line => note line log) log
    (append "later" log).1 = .ok () ∧
      ∃ first last, (∃ time, first = stamped time "later") ∧ (∃ time, last = stamped time "last") ∧
        LineStream.linesOf after.written = [Utf8.encode "[2024-01-01 00:00:00] hi",
          Utf8.encode "[2024-01-0" ++ Utf8.encode first, Utf8.encode last] := by
  intro log after
  have hworks : log.writeFault = none ∧ log.flushFault = none ∧ log.pace ≠ some 0 :=
    ⟨rfl, rfl, by decide⟩
  have hlines : ∀ line ∈ ["later", "last"], IsLine line := by decide
  have hold : LineStream.complete log.written = [Utf8.encode "[2024-01-01 00:00:00] hi"] ∧
      LineStream.pending log.written = Utf8.encode "[2024-01-0" := by decide +kernel
  obtain ⟨hok, entries, hentries, -, -, -, htorn⟩ :=
    one_line_each_unless_torn MemoryLog.works hworks hlines
  rcases hentries with _ | ⟨hfirst, _ | ⟨hlast, _ | _⟩⟩
  have hsplit := htorn _ _ rfl
  rw [hold.1, hold.2] at hsplit
  exact ⟨hok [] "later" ["last"] rfl, _, _, hfirst, hlast, hsplit⟩

/-- An event that is written behind half a line has no line of its own. -/
theorem torn_line_continued_later :
    let log : MemoryLog := { clock := ⟨2024, 5, 1, 12, 0, 0⟩,
                             written := Utf8.encode "[2024-01-01 00:00:00] earl" }
    let after := note "later" log
    IsLine "later" ∧ (append "later" log).1 = .ok () ∧
      LineStream.linesOf log.written = [Utf8.encode "[2024-01-01 00:00:00] earl"] ∧
      LineStream.linesOf after.written =
        [Utf8.encode "[2024-01-01 00:00:00] earl[2024-05-01 12:00:00] later"] := by
  intro log after
  exact ⟨by decide, by decide +kernel, by decide +kernel, by decide +kernel⟩

end Log

end ChatRoom
