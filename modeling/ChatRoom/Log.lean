import ChatRoom.Message
import ChatRoom.Failure

/-!
# The chat log

Every event of the chat is written to a log as one entry, `[time] text`, and the log is flushed
after each. The log only grows.

What it is written to is a `LogDevice`: a clock, and a writer that may take a part of what it is
given or fail. A failure is an answer here; the room goes on without the entry.
-/

namespace ChatRoom

open Text

/-! ## Time -/

structure Timestamp where
  year : Nat
  month : Nat
  day : Nat
  hour : Nat
  minute : Nat
  second : Nat
  deriving DecidableEq

namespace Timestamp

/-- How `text` writes a time, in the usual directives. -/
def format : String := "%Y-%m-%d %H:%M:%S"

/-- `n` with zeros in front, to at least `width` digits. -/
def padded (width n : Nat) : String :=
  let digits := toString n
  .ofList (List.replicate (width - digits.length) '0') ++ digits

/-- Date and time, each part of fixed width. -/
def text (t : Timestamp) : String :=
  padded 4 t.year ++ "-" ++ padded 2 t.month ++ "-" ++ padded 2 t.day ++ " " ++
    padded 2 t.hour ++ ":" ++ padded 2 t.minute ++ ":" ++ padded 2 t.second

end Timestamp

/-! ## Devices -/

class LogDevice (δ : Type) where
  now : δ → Timestamp × δ
  /-- Offers bytes; the device says how many it took, from the front. -/
  write : List UInt8 → δ → Except IoError Nat × δ
  /-- Puts what was taken on record. -/
  flush : δ → Except IoError Unit × δ

namespace Log

variable {δ : Type} [LogDevice δ]

/-- Offers bytes until the device has taken all of them. A device that takes none has failed. -/
def writeAll (bytes : List UInt8) (device : δ) : Except LogError Unit × δ :=
  if bytes = [] then (.ok (), device)
  else match LogDevice.write bytes device with
    | (.error cause, device) => (.error (.cannotWrite cause), device)
    | (.ok 0, device) => (.error (.cannotWrite ⟨.other, "write zero"⟩), device)
    | (.ok (taken + 1), device) => writeAll (bytes.drop (taken + 1)) device
termination_by bytes.length
decreasing_by
  have : 0 < bytes.length := List.length_pos_iff.2 ‹_›
  simp only [List.length_drop]
  omega

/-- The entry of a line written at a time: one line of the log. -/
def entry (time : Timestamp) (line : String) : String :=
  "[" ++ time.text ++ "] " ++ dropTerminators line ++ "\n"

/-- Writes the entry of a line and flushes it. -/
def append (line : String) (device : δ) : Except LogError Unit × δ :=
  let (time, device) := LogDevice.now device
  match writeAll (Utf8.encode (entry time line)) device with
  | (.error e, device) => (.error e, device)
  | (.ok (), device) =>
    match LogDevice.flush device with
    | (.error cause, device) => (.error (.cannotWrite cause), device)
    | (.ok (), device) => (.ok (), device)

/-- Writes the entry of a line, and goes on if that fails. -/
def note (line : String) (device : δ) : δ := (append line device).2

end Log

end ChatRoom
