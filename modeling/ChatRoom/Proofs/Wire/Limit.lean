import ChatRoom.Proofs.Wire.Framing
import ChatRoom.Proofs.Wire.Messages

/-!
# The limit on lines

A line is taken up to `max` bytes and refused beyond them, whatever carries it and however it ends
(`Incoming.ofLine`), with one exception: a carriage return in front of a line feed is dropped after
the length has been checked. So a line of exactly `max` bytes that ends like that is refused
(`LineStream.first_return`), and taken when it ends or is carried in any other way.
-/

namespace ChatRoom

open Text

variable {line : String}

/-- What is read first. -/
def Incoming.firstOf : List String × Option TransportError → Incoming
  | (line :: _, _) => .line line
  | ([], none) => .finished
  | ([], some e) => .failed e

/-! ## In a stream -/

namespace LineStream

theorem decodeLine_encode_return (h : IsLine line) :
    decodeLine (Utf8.encode line ++ [cr]) = .ok line := by
  have hdrop : dropReturn (Utf8.encode line ++ [cr]) = Utf8.encode line := by simp [dropReturn]
  exact decodeLine_of_dropReturn h hdrop

/-- The length that counts is that of all bytes in front of the line feed. -/
theorem first_line {bytes : List UInt8} (hlf : lf ∉ bytes) (h : decodeLine bytes = .ok line)
    (max : Nat) (rest : List UInt8) :
    Incoming.firstOf (readAll max (bytes ++ lf :: rest)) =
      if max < bytes.length then .failed (.lineTooLong max) else .line line := by
  rw [readAll_line hlf, h, apply_ite Incoming.firstOf]
  rfl

theorem first_feed (h : IsLine line) (max : Nat) (rest : List UInt8) :
    Incoming.firstOf (readAll max (Utf8.encode line ++ lf :: rest)) = .ofLine max line :=
  first_line (Utf8.isLine_iff.1 h).1 (decodeLine_encode h) max rest

/-- A carriage return counts for the length of its line. -/
theorem first_return (h : IsLine line) (max : Nat) (rest : List UInt8) :
    Incoming.firstOf (readAll max (Utf8.encode line ++ cr :: lf :: rest)) =
      if line.utf8ByteSize < max then .line line else .failed (.lineTooLong max) := by
  have hlf : lf ∉ Utf8.encode line ++ [cr] := by
    rw [List.mem_append, List.mem_singleton]
    exact not_or.2 ⟨(Utf8.isLine_iff.1 h).1, by decide⟩
  have hsplit : Utf8.encode line ++ cr :: lf :: rest = (Utf8.encode line ++ [cr]) ++ lf :: rest := by
    simp
  rw [hsplit, first_line hlf (decodeLine_encode_return h), List.length_append, List.length_singleton,
    Utf8.length_encode]
  by_cases hshort : line.utf8ByteSize < max
  · rw [if_pos hshort, if_neg (by omega)]
  · rw [if_neg hshort, if_pos (by omega)]

theorem first_last (h : IsLine line) (hne : line ≠ "") (max : Nat) :
    Incoming.firstOf (readAll max (Utf8.encode line)) = .ofLine max line := by
  obtain ⟨hlf, hcr⟩ := Utf8.isLine_iff.1 h
  have hsome : ¬ (Utf8.encode line = [] ∨ Utf8.encode line = [cr]) := by
    rintro (hempty | hreturn)
    · exact hne (Utf8.encode_injective hempty)
    · exact hcr (by rw [hreturn]; exact List.mem_cons_self)
  rw [readAll_of_notMem hlf, finish, if_neg hsome, decodeLine_encode h, Utf8.length_encode,
    apply_ite Incoming.firstOf]
  rfl

end LineStream

/-! ## In a message -/

theorem Frame.first_message (h : IsLine line) {tail : String}
    (htail : OnlyTerminators tail) {fragments : List (List UInt8)}
    (hfragments : fragments.flatten = Utf8.encode (line ++ tail)) (max : Nat)
    (frames : List Frame) :
    Incoming.firstOf (readAll max (.text fragments :: frames)) = .ofLine max line := by
  rw [readAll, decode_message max h htail hfragments, Incoming.ofLine]
  by_cases hlong : max < line.utf8ByteSize
  · rw [if_pos hlong]
    rfl
  · rw [if_neg hlong]
    rfl

/-! ## All ways -/

/-- **The limit does not depend on how a line ends or what carries it**, unless the line is of the
greatest length and ends in a carriage return and a line feed in a stream. -/
theorem limit_unless_return (max : Nat) (h : IsLine line) :
    (∀ rest, Incoming.firstOf (LineStream.readAll max
      (Utf8.encode line ++ LineStream.lf :: rest)) = .ofLine max line) ∧
    (∀ rest, Incoming.firstOf (LineStream.readAll max
      (Utf8.encode line ++ LineStream.cr :: LineStream.lf :: rest)) =
        if line.utf8ByteSize = max then .failed (.lineTooLong max) else .ofLine max line) ∧
    (line ≠ "" →
      Incoming.firstOf (LineStream.readAll max (Utf8.encode line)) = .ofLine max line) ∧
    ∀ ending ∈ ["", "\n", "\r\n"], ∀ fragments frames,
      fragments.flatten = Utf8.encode (line ++ ending) →
        Incoming.firstOf (Frame.readAll max (.text fragments :: frames)) = .ofLine max line := by
  refine ⟨fun rest => LineStream.first_feed h max rest, fun rest => ?_,
    fun hne => LineStream.first_last h hne max, ?_⟩
  · rw [LineStream.first_return h, Incoming.ofLine]
    rcases Nat.lt_trichotomy line.utf8ByteSize max with hlt | heq | hgt
    · rw [if_pos hlt, if_neg (by omega), if_neg (by omega)]
    · rw [if_neg (by omega), if_pos heq]
    · rw [if_neg (by omega), if_neg (by omega), if_pos hgt]
  · intro ending hending fragments frames hfragments
    have htails : ∀ ending ∈ ["", "\n", "\r\n"], OnlyTerminators ending := by decide
    exact Frame.first_message h (htails ending hending) hfragments max frames

theorem limit_unless_return_hi :
    IsLine "hi" ∧
      Incoming.firstOf (LineStream.readAll 3 [0x68, 0x69, 0x0D, 0x0A]) = .line "hi" ∧
      Incoming.firstOf (LineStream.readAll 2 [0x68, 0x69]) = .line "hi" ∧
      Incoming.firstOf (Frame.readAll 1 [.text [[0x68], [0x69, 0x0D, 0x0A]]]) =
        .failed (.lineTooLong 1) := by
  have hline : IsLine "hi" := by decide
  obtain ⟨-, hreturn, -, -⟩ := limit_unless_return 3 hline
  obtain ⟨-, -, hlast, -⟩ := limit_unless_return 2 hline
  obtain ⟨-, -, -, hmessage⟩ := limit_unless_return 1 hline
  exact ⟨hline, hreturn [], hlast (by decide),
    hmessage "\r\n" (by decide) [[0x68], [0x69, 0x0D, 0x0A]] [] (by decide)⟩

/-- A line of two bytes where two are allowed: the stream is refused, and the message is not. -/
theorem return_counts_for_limit :
    Incoming.firstOf (LineStream.readAll 2 [0x68, 0x69, 0x0D, 0x0A]) = .failed (.lineTooLong 2) ∧
      Incoming.firstOf (LineStream.readAll 2 [0x68, 0x69, 0x0A]) = .line "hi" ∧
      Incoming.firstOf (Frame.readAll 2 [.text [[0x68, 0x69, 0x0D, 0x0A]]]) = .line "hi" := by
  have hline : IsLine "hi" := by decide
  have htail : OnlyTerminators "\r\n" := by decide
  have hbytes : [[0x68, 0x69, 0x0D, 0x0A]].flatten = Utf8.encode ("hi" ++ "\r\n") := by decide
  exact ⟨LineStream.first_return hline 2 [], LineStream.first_feed hline 2 [],
    Frame.first_message hline htail hbytes 2 []⟩

end ChatRoom
