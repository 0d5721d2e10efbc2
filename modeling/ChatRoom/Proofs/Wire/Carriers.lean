import ChatRoom.Proofs.Wire.Lines

/-!
# Two carriers

How a client puts a line on the wire, and how it ends, differs between plain and WebSocket
connections; what the chat makes of it does not. A line comes in whole, or is too long
(`Incoming.ofLine`), by the same limit: the one decoder looks for a line feed among `max + 1` bytes
(`LineStream.read_write`), the other measures the frame (`Frame.decode_text`).
-/

namespace ChatRoom

open Text

/-! ## What a client does -/

namespace Carrier

/-- One line: its bytes and a line feed, or one frame that holds just the line. -/
def lineEvent (carrier : Carrier) (line : String) : WireEvent :=
  match carrier with
  | .tcp => .bytes (LineStream.write line)
  | .webSocket => .frame (.text [Utf8.encode line])

/-- A client that ends: its stream does, or it says so. -/
def closeEvent (carrier : Carrier) : WireEvent :=
  match carrier with
  | .tcp => .ends
  | .webSocket => .frame .close

/-- A peer that sends a line or ends is there. -/
theorem lineEvent_stays (carrier : Carrier) (line : String) :
    (carrier.lineEvent line != .vanishes) = true := by
  cases carrier with
  | tcp => rfl
  | webSocket => rfl

theorem closeEvent_stays (carrier : Carrier) : (carrier.closeEvent != .vanishes) = true := by
  cases carrier with
  | tcp => rfl
  | webSocket => rfl

end Carrier

/-- What a line means to the chat, where lines have at most `max` bytes. -/
def Incoming.ofLine (max : Nat) (line : String) : Incoming :=
  if max < line.utf8ByteSize then .failed (.lineTooLong max) else .line line

/-! ## What the decoders make of it -/

namespace LineStream

/-- A byte of a line is no line feed. -/
theorem bne_lf {line : List UInt8} (hlf : lf ∉ line) : ∀ b ∈ line, (b != lf) = true := by
  intro b hb
  have hne : b ≠ lf := fun he => hlf (he ▸ hb)
  simpa using hne

theorem front_line (max : Nat) {line : List UInt8} (hlf : lf ∉ line) (rest : List UInt8) :
    front max (line ++ lf :: rest) = if max < line.length then .tooLong else .line line rest := by
  have htake : (line ++ lf :: rest).takeWhile (· != lf) = line := by
    rw [List.takeWhile_append_of_pos (bne_lf hlf)]
    simp
  have hdrop : (line ++ lf :: rest).dropWhile (· != lf) = lf :: rest := by
    rw [List.dropWhile_append_of_pos (bne_lf hlf)]
    simp
  simp only [front, htake, hdrop]

theorem front_of_notMem (max : Nat) {line : List UInt8} (hlf : lf ∉ line) :
    front max line = if max < line.length then .tooLong else .unfinished := by
  have htake : line.takeWhile (· != lf) = line := List.takeWhile_eq_self_iff.2 (bne_lf hlf)
  have hdrop : line.dropWhile (· != lf) = [] := List.dropWhile_eq_nil_iff.2 (bne_lf hlf)
  simp only [front, htake, hdrop]

theorem read_of_notMem {line : List UInt8} (hlf : lf ∉ line) (max : Nat) :
    read max line = ([], if max < line.length then .failed (.lineTooLong max)
      else .unfinished line) := by
  have hfront := front_of_notMem max hlf
  rw [read]
  split <;> rename_i hf <;> rw [hfront] at hf
  · split at hf
    · cases hf
    · rename_i hshort
      rw [if_neg hshort]
  · split at hf
    · rename_i hlong
      rw [if_pos hlong]
    · cases hf
  · split at hf <;> cases hf

theorem read_line {line : List UInt8} (hlf : lf ∉ line) (max : Nat) (rest : List UInt8) :
    read max (line ++ lf :: rest) =
      if max < line.length then ([], .failed (.lineTooLong max))
      else match decodeLine line with
      | .error e => ([], .failed e)
      | .ok text => (text :: (read max rest).1, (read max rest).2) := by
  have hfront := front_line max hlf rest
  rw [read]
  split <;> rename_i hf <;> rw [hfront] at hf
  · split at hf <;> cases hf
  · split at hf
    · rename_i hlong
      rw [if_pos hlong]
    · cases hf
  · split at hf
    · cases hf
    · rename_i hshort
      cases hf
      cases decodeLine line with
      | error e => exact (if_neg hshort).symm
      | ok text => exact (if_neg hshort).symm

theorem read_nil (max : Nat) : read max [] = ([], .unfinished []) :=
  read_of_notMem List.not_mem_nil max

/-- A carriage return that ends the bytes of a line is no part of it. -/
theorem decodeLine_of_dropReturn {line : String} (h : IsLine line) {bytes : List UInt8}
    (hbytes : dropReturn bytes = Utf8.encode line) : decodeLine bytes = .ok line := by
  have hreturn : '\r' ∉ line.toList := fun hm => absurd (h _ hm) (by decide)
  rw [decodeLine, hbytes, Utf8.decode_encode]
  exact if_neg hreturn

theorem decodeLine_encode {line : String} (h : IsLine line) :
    decodeLine (Utf8.encode line) = .ok line := by
  have hcr : LineStream.cr ∉ Utf8.encode line := (Utf8.isLine_iff.1 h).2
  exact decodeLine_of_dropReturn h (if_neg fun hlast => hcr (List.mem_of_getLast? hlast))

theorem read_write (max : Nat) {line : String} (h : IsLine line) :
    read max (write line) =
      if max < line.utf8ByteSize then ([], .failed (.lineTooLong max))
      else ([line], .unfinished []) := by
  rw [write, read_line (Utf8.isLine_iff.1 h).1, Utf8.length_encode, decodeLine_encode h, read_nil]

end LineStream

namespace Frame

/-- A message with a line says that line, whatever terminators end it. -/
theorem decode_message (max : Nat) {line tail : String} (h : IsLine line)
    (htail : OnlyTerminators tail) {fragments : List (List UInt8)}
    (hfragments : fragments.flatten = Utf8.encode (line ++ tail)) :
    decode max (.text fragments) = some (.ofLine max line) := by
  have hdrop : dropTerminators (line ++ tail) = line :=
    dropTerminators_eq_iff.2 ⟨h.endsPlain, tail, rfl, htail⟩
  rw [decode, hfragments, decodeLine_encode, hdrop, verdict, if_pos h, Incoming.ofLine]
  by_cases hlong : max < line.utf8ByteSize
  · rw [if_pos hlong, if_pos hlong]
  · rw [if_neg hlong, if_neg hlong]

theorem decode_text (max : Nat) {line : String} (h : IsLine line) :
    decode max (.text [Utf8.encode line]) = some (.ofLine max line) := by
  have htail : OnlyTerminators "" := by decide
  exact decode_message max h htail (by simp)

end Frame

/-! ## What a connection hears -/

namespace Connection

/-- The connection runs over this carrier. It is not in the middle of a line, and its peer is
there. -/
structure RunsOver (c : Connection) (carrier : Carrier) : Prop where
  carrier_eq : c.carrier = carrier
  unread : c.unread = []
  isReachable : c.isReachable = true

namespace RunsOver

variable {c : Connection} {carrier : Carrier}

/-- **A line is heard alike** over both carriers, however long it is. -/
theorem hear_line (h : c.RunsOver carrier) (max : Nat) {line : String} (hline : IsLine line) :
    c.hear max (carrier.lineEvent line) = ([Incoming.ofLine max line], []) := by
  unfold hear
  rw [h.carrier_eq]
  cases carrier with
  | tcp =>
    dsimp only [Carrier.lineEvent]
    rw [h.unread, List.nil_append, LineStream.read_write max hline, Incoming.ofLine]
    by_cases hlong : max < line.utf8ByteSize
    · rw [if_pos hlong, if_pos hlong]
      rfl
    · rw [if_neg hlong, if_neg hlong]
      rfl
  | webSocket =>
    dsimp only [Carrier.lineEvent]
    rw [Frame.decode_text max hline]
    rfl

/-- The end is heard alike over both carriers. -/
theorem hear_close (h : c.RunsOver carrier) (max : Nat) :
    c.hear max carrier.closeEvent = ([.finished], []) := by
  unfold hear
  rw [h.carrier_eq]
  cases carrier with
  | tcp =>
    dsimp only [Carrier.closeEvent]
    rw [h.unread]
    rfl
  | webSocket => rfl

end RunsOver

end Connection

end ChatRoom
