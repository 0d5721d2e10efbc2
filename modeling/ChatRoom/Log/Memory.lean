import ChatRoom.Log

/-!
# A log in memory

A log device that keeps what it is given: a file opened for appending, as the rest of the program
sees it. It can be slow, taking a few bytes at a time, and it can be at fault.
-/

namespace ChatRoom

/-- A log kept in memory, with a clock that stands. -/
structure MemoryLog where
  /-- Everything taken so far, after what the log held before. -/
  written : List UInt8 := []
  clock : Timestamp
  /-- The most bytes one write takes, if there is a limit. -/
  pace : Option Nat := none
  /-- How every write fails, if it does. -/
  writeFault : Option IoError := none
  /-- How every flush fails, if it does. -/
  flushFault : Option IoError := none
  deriving DecidableEq

namespace MemoryLog

/-- How many of `n` bytes one write takes. -/
def share (log : MemoryLog) (n : Nat) : Nat :=
  match log.pace with
  | none => n
  | some limit => min limit n

def write (bytes : List UInt8) (log : MemoryLog) : Except IoError Nat × MemoryLog :=
  match log.writeFault with
  | some e => (.error e, log)
  | none =>
    let taken := log.share bytes.length
    (.ok taken, { log with written := log.written ++ bytes.take taken })

def flush (log : MemoryLog) : Except IoError Unit × MemoryLog :=
  match log.flushFault with
  | some e => (.error e, log)
  | none => (.ok (), log)

instance : LogDevice MemoryLog where
  now log := (log.clock, log)
  write := write
  flush := flush

end MemoryLog

end ChatRoom
