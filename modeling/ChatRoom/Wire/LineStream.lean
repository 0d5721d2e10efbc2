import ChatRoom.Text
import ChatRoom.Failure

/-!
# Lines in a byte stream

A byte stream carries lines of UTF-8 text, each ended by a line feed. On reading, a carriage return
before the line feed belongs to the ending, and what follows the last line feed is a line of its own
once the stream has ended.

`read` takes the lines that are complete and keeps the rest, so a stream can be read as it arrives;
`readAll` reads a stream that has ended; `write` is the other direction.
-/

namespace ChatRoom.LineStream

open Text

def lf : UInt8 := 0x0A

def cr : UInt8 := 0x0D

/-! ## One line -/

/-- `bytes` without one carriage return at the end. -/
def dropReturn (bytes : List UInt8) : List UInt8 :=
  if bytes.getLast? = some cr then bytes.dropLast else bytes

/-- The text of the bytes in front of a line ending. A carriage return that is left would overwrite
the line on a terminal, and is refused. -/
def decodeLine (bytes : List UInt8) : Except TransportError String :=
  match Utf8.decode (dropReturn bytes) with
  | none => .error (.receiveFailed ⟨.invalidData, "Unable to decode input as UTF8"⟩)
  | some line => if '\r' ∈ line.toList then .error .embeddedTerminator else .ok line

/-- What the front of a stream holds. -/
inductive Front where
  /-- The bytes of a line, and what follows its line feed. -/
  | line (bytes rest : List UInt8)
  | tooLong
  /-- A line that may still go on. -/
  | unfinished
  deriving DecidableEq

/-- Looks for the first line feed, among no more than `max + 1` bytes. -/
def front (max : Nat) (bytes : List UInt8) : Front :=
  let line := bytes.takeWhile (· != lf)
  if max < line.length then .tooLong
  else match bytes.dropWhile (· != lf) with
    | [] => .unfinished
    | _ :: rest => .line line rest

theorem length_lt_of_front {max : Nat} {bytes line rest : List UInt8}
    (h : front max bytes = .line line rest) : rest.length < bytes.length := by
  unfold front at h
  dsimp only at h
  split at h
  · cases h
  · split at h
    · cases h
    · rename_i b tail hd
      cases h
      have := congrArg List.length (List.takeWhile_append_dropWhile (p := (· != lf)) (l := bytes))
      rw [hd] at this
      simp only [List.length_append, List.length_cons] at this
      omega

/-! ## A stream -/

/-- Where reading stops before the stream has ended. -/
inductive Stop where
  /-- At a line that may still go on: the bytes of it that are here. -/
  | unfinished (rest : List UInt8)
  /-- At a line that cannot be read. -/
  | failed (error : TransportError)
  deriving DecidableEq

/-- The lines of a stream that are complete, up to the first that cannot be read. -/
def read (max : Nat) (bytes : List UInt8) : List String × Stop :=
  match _h : front max bytes with
  | .unfinished => ([], .unfinished bytes)
  | .tooLong => ([], .failed (.lineTooLong max))
  | .line line rest =>
    match decodeLine line with
    | .error e => ([], .failed e)
    | .ok line =>
      let (lines, stop) := read max rest
      (line :: lines, stop)
termination_by bytes.length
decreasing_by exact length_lt_of_front _h

/-- What an unfinished line comes to when the stream ends: nothing at all, a last line, or one that
cannot be read. A carriage return alone is no line. -/
def finish (rest : List UInt8) : Except TransportError (Option String) :=
  if rest = [] ∨ rest = [cr] then .ok none else (decodeLine rest).map some

/-- The lines of a stream that has ended, and the error that reading stopped at, if any. -/
def readAll (max : Nat) (bytes : List UInt8) : List String × Option TransportError :=
  match read max bytes with
  | (lines, .failed e) => (lines, some e)
  | (lines, .unfinished rest) =>
    match finish rest with
    | .error e => (lines, some e)
    | .ok last => (lines ++ last.toList, none)

def write (line : String) : List UInt8 := Utf8.encode line ++ [lf]

def writeAll (lines : List String) : List UInt8 := lines.flatMap write

end ChatRoom.LineStream
