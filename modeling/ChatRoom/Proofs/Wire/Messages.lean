import ChatRoom.Proofs.Wire.Arrival

/-!
# Messages

On the wire a message of data is one frame or several, and pings and pongs may stand between them
(`RawFrame`). The messages that frames make up are read one by one, but what is read is decided by
the payloads of the text messages alone (`RawFrame.readAll_messages`): each is one line or the fault
at which reading stops (`Frame.Decides`). So frames of another kind can be left out
(`texts_filter`), and a fragmented message can be sent as one frame (`texts_replace`).
-/

namespace ChatRoom

open Text

/-! ## Frames on the wire -/

/-- A frame as it is sent. One that goes on with a message is of the kind of the message, and is
`final` if the message ends with it. -/
inductive RawFrame where
  | text (payload : List UInt8) (final : Bool)
  | binary (payload : List UInt8) (final : Bool)
  | ping (payload : List UInt8)
  | pong (payload : List UInt8)
  | close
  deriving DecidableEq

/-- The kinds of message that may take more than one frame. -/
inductive DataKind where
  | text
  | binary
  deriving DecidableEq

namespace RawFrame

/-- The messages that frames make up, after `text` and `binary`: the parts of a message of that kind
that have come in before. Only one of the two is ever under way; one that is never finished is no
message. -/
def messagesFrom (text binary : List (List UInt8)) : List RawFrame → List Frame
  | [] => []
  | .text payload final :: frames =>
    if final then .text (text ++ [payload]) :: messagesFrom [] binary frames
    else messagesFrom (text ++ [payload]) binary frames
  | .binary payload final :: frames =>
    if final then .binary (binary ++ [payload]).flatten :: messagesFrom text [] frames
    else messagesFrom text (binary ++ [payload]) frames
  | .ping payload :: frames => .ping payload :: messagesFrom text binary frames
  | .pong payload :: frames => .pong payload :: messagesFrom text binary frames
  | .close :: frames => .close :: messagesFrom text binary frames

def messages (frames : List RawFrame) : List Frame := messagesFrom [] [] frames

/-- The frames keep to the protocol until one of them closes the connection: pings and pongs are
short, and while a message is under way there is no data of the other kind. -/
def WellFormedFrom (underWay : Option DataKind) : List RawFrame → Prop
  | [] => False
  | .text _ final :: frames =>
    underWay ≠ some .binary ∧ WellFormedFrom (if final then none else some .text) frames
  | .binary _ final :: frames =>
    underWay ≠ some .text ∧ WellFormedFrom (if final then none else some .binary) frames
  | .ping payload :: frames =>
    payload.length ≤ Frame.controlLength ∧ WellFormedFrom underWay frames
  | .pong payload :: frames =>
    payload.length ≤ Frame.controlLength ∧ WellFormedFrom underWay frames
  | .close :: _ => True

def WellFormed (frames : List RawFrame) : Prop := WellFormedFrom none frames

/-- The frame is part of a text message, or closes the connection. -/
def isText : RawFrame → Bool
  | text _ _ | close => true
  | binary _ _ | ping _ | pong _ => false

/-- The frames of one text message, with pings and pongs between them. -/
inductive IsTextMessage : List UInt8 → List RawFrame → Prop
  | last (payload : List UInt8) : IsTextMessage payload [.text payload true]
  | part (part payload : List UInt8) (frames : List RawFrame) (h : IsTextMessage payload frames) :
      IsTextMessage (part ++ payload) (.text part false :: frames)
  | ping (aside payload : List UInt8) (frames : List RawFrame) (h : IsTextMessage payload frames) :
      IsTextMessage payload (.ping aside :: frames)
  | pong (aside payload : List UInt8) (frames : List RawFrame) (h : IsTextMessage payload frames) :
      IsTextMessage payload (.pong aside :: frames)

/-- The payloads of the text messages in front of the first close, where `part` is what has come in
of the first. -/
def textsFrom (part : List UInt8) : List RawFrame → List (List UInt8)
  | [] => []
  | .text payload final :: frames =>
    if final then (part ++ payload) :: textsFrom [] frames
    else textsFrom (part ++ payload) frames
  | .binary _ _ :: frames | .ping _ :: frames | .pong _ :: frames => textsFrom part frames
  | .close :: _ => []

def texts (frames : List RawFrame) : List (List UInt8) := textsFrom [] frames

end RawFrame

/-! ## What a text message says -/

namespace Frame

variable {max : Nat}

theorem decodeLine_of_not_text (max : Nat) {payload : List UInt8}
    (h : ∀ text, Utf8.encode text ≠ payload) :
    decodeLine max payload =
      .error (.receiveFailed ⟨.other, "text message is not valid UTF-8"⟩) := by
  have hnone : Utf8.decode payload = none :=
    Option.eq_none_iff_forall_ne_some.2 fun text htext => h text (Utf8.decode_eq_some_iff.1 htext)
  rw [decodeLine, hnone]

/-- What is read when the text messages have these payloads: each is a line, until one is not. -/
def readTexts (max : Nat) : List (List UInt8) → List String × Option TransportError
  | [] => ([], none)
  | payload :: payloads =>
    match decodeLine max payload with
    | .error e => ([], some e)
    | .ok line => (line :: (readTexts max payloads).1, (readTexts max payloads).2)

/-- Each payload is decided by itself, in order, until one is at fault or there are no more. -/
def Decides (max : Nat) (payloads : List (List UInt8)) (lines : List String)
    (stop : Option TransportError) : Prop :=
  ∃ read rest, payloads = read ++ rest ∧
    List.Forall₂ (fun payload line => decodeLine max payload = .ok line) read lines ∧
    match stop with
    | none => rest = []
    | some e => ∃ payload more, rest = payload :: more ∧ decodeLine max payload = .error e

theorem decides_readTexts (max : Nat) (payloads : List (List UInt8)) :
    Decides max payloads (readTexts max payloads).1 (readTexts max payloads).2 := by
  induction payloads with
  | nil => exact ⟨[], [], rfl, .nil, rfl⟩
  | cons payload payloads ih =>
    rw [readTexts]
    cases hdecode : decodeLine max payload with
    | error e => exact ⟨[], payload :: payloads, rfl, .nil, payload, payloads, rfl, hdecode⟩
    | ok line =>
      obtain ⟨read, rest, hpayloads, hread, hstop⟩ := ih
      exact ⟨payload :: read, rest, congrArg (payload :: ·) hpayloads, .cons hdecode hread, hstop⟩

/-- Nothing is read after the close or a fault. -/
theorem readAll_of_isLast {frame : Frame} (h : (decode max frame).any Incoming.isLast = true)
    (front after : List Frame) :
    readAll max (front ++ frame :: after) = readAll max (front ++ [frame]) := by
  induction front with
  | nil =>
    rw [List.nil_append, List.nil_append, readAll, readAll]
    cases hdecode : decode max frame with
    | none => simp [hdecode] at h
    | some incoming =>
      cases incoming with
      | line text => simp [hdecode, Incoming.isLast] at h
      | finished => rfl
      | failed e => rfl
  | cons first front ih =>
    rw [List.cons_append, List.cons_append, readAll, readAll, ih]

theorem decode_write {line : String} (h : IsLine line) (hshort : line.utf8ByteSize ≤ max) :
    decode max (write line) = some (.line line) := by
  have htail : OnlyTerminators "\n" := by decide
  rw [write, decode_message max h htail (List.flatten_singleton), Incoming.ofLine,
    if_neg (Nat.not_lt.2 hshort)]

/-- **What is written reads as it was**, when the connection is then closed. -/
theorem readAll_write {lines : List String}
    (h : ∀ line ∈ lines, IsLine line ∧ line.utf8ByteSize ≤ max) :
    readAll max (lines.map write ++ [.close]) = (lines, none) := by
  induction lines with
  | nil => rfl
  | cons line lines ih =>
    obtain ⟨⟨hline, hshort⟩, hlines⟩ := List.forall_mem_cons.1 h
    rw [List.map_cons, List.cons_append, readAll, decode_write hline hshort]
    dsimp only
    rw [ih hlines]

end Frame

/-! ## Only text messages matter -/

namespace RawFrame

variable {frames : List RawFrame} {underWay : Option DataKind}

/-- **What is read** are the text messages, whatever stands between them. -/
theorem readAll_messagesFrom (max : Nat) (text binary : List (List UInt8))
    (h : WellFormedFrom underWay frames) :
    Frame.readAll max (messagesFrom text binary frames) =
      Frame.readTexts max (textsFrom text.flatten frames) := by
  -- on the frames, for any parts that have come in; those of a binary message play no part
  induction frames generalizing underWay text binary with
  | nil => exact h.elim
  | cons frame frames ih =>
    cases frame with
    | text payload final =>
      have hflat : (text ++ [payload]).flatten = text.flatten ++ payload := by simp
      cases final with
      | false =>
        rw [messagesFrom, textsFrom, ← hflat]
        exact ih (text ++ [payload]) binary h.2
      | true =>
        have hrest := ih [] binary h.2
        rw [messagesFrom, textsFrom, if_pos rfl, if_pos rfl, Frame.readAll, Frame.decode, hflat,
          Frame.readTexts]
        cases Frame.decodeLine max (text.flatten ++ payload) with
        | error e => rfl
        | ok line =>
          dsimp only
          rw [hrest]
          rfl
    | binary payload final =>
      cases final with
      | false => exact ih text (binary ++ [payload]) h.2
      | true => exact ih text [] h.2
    | ping payload =>
      have hnone : Frame.decode max (.ping payload) = none := if_neg (Nat.not_lt.2 h.1)
      rw [messagesFrom, textsFrom, Frame.readAll, hnone]
      exact ih text binary h.2
    | pong payload =>
      have hnone : Frame.decode max (.pong payload) = none := if_neg (Nat.not_lt.2 h.1)
      rw [messagesFrom, textsFrom, Frame.readAll, hnone]
      exact ih text binary h.2
    | close => rfl

theorem readAll_messages (max : Nat) (h : WellFormed frames) :
    Frame.readAll max (messages frames) = Frame.readTexts max (texts frames) :=
  readAll_messagesFrom max [] [] h

/-! ## Leaving frames out -/

theorem textsFrom_filter (part : List UInt8) (frames : List RawFrame) :
    textsFrom part (frames.filter isText) = textsFrom part frames := by
  induction frames generalizing part with
  | nil => rfl
  | cons frame frames ih =>
    cases frame with
    | text payload final => simp only [List.filter_cons, isText, if_true, textsFrom, ih]
    | binary payload final => exact ih part
    | ping payload => exact ih part
    | pong payload => exact ih part
    | close => rfl

theorem texts_filter (frames : List RawFrame) : texts (frames.filter isText) = texts frames :=
  textsFrom_filter [] frames

/-- Without the binary messages, at most a text message is under way. -/
theorem WellFormedFrom.filter (h : WellFormedFrom underWay frames) :
    WellFormedFrom (if underWay = some .text then some .text else none) (frames.filter isText) := by
  induction frames generalizing underWay with
  | nil => exact h
  | cons frame frames ih =>
    cases frame with
    | text payload final =>
      refine ⟨?_, ?_⟩
      · split
        · exact nofun
        · exact nofun
      · have hrest := ih h.2
        cases final with
        | false => exact hrest
        | true => exact hrest
    | binary payload final =>
      have hrest := ih h.2
      rw [if_neg h.1]
      cases final with
      | false => exact hrest
      | true => exact hrest
    | ping payload => exact ih h.2
    | pong payload => exact ih h.2
    | close => trivial

theorem WellFormed.filter (h : WellFormed frames) : WellFormed (frames.filter isText) :=
  WellFormedFrom.filter h

/-! ## Sending a message as one frame -/

variable {payload : List UInt8} {message : List RawFrame}

/-- A text message under way goes on with the frames of `message`, and ends with them. -/
theorem IsTextMessage.textsFrom_append (h : IsTextMessage payload message) (part : List UInt8)
    (after : List RawFrame) :
    textsFrom part (message ++ after) = (part ++ payload) :: textsFrom [] after := by
  induction h generalizing part with
  | last payload => rfl
  | part first payload frames _ ih =>
    have hrest := ih (part ++ first)
    rw [List.append_assoc] at hrest
    exact hrest
  | ping aside payload frames _ ih => exact ih part
  | pong aside payload frames _ ih => exact ih part

theorem IsTextMessage.wellFormedFrom (h : IsTextMessage payload message) {after : List RawFrame}
    (hframes : WellFormedFrom underWay (message ++ after)) :
    underWay ≠ some .binary ∧ WellFormedFrom none after := by
  induction h generalizing underWay with
  | last payload => exact hframes
  | part first payload frames _ ih => exact ⟨hframes.1, (ih hframes.2).2⟩
  | ping aside payload frames _ ih => exact ih hframes.2
  | pong aside payload frames _ ih => exact ih hframes.2

theorem textsFrom_replace (h : IsTextMessage payload message) (part : List UInt8)
    (before after : List RawFrame) :
    textsFrom part (before ++ .text payload true :: after) =
      textsFrom part (before ++ (message ++ after)) := by
  induction before generalizing part with
  | nil => rw [List.nil_append, List.nil_append, h.textsFrom_append]; rfl
  | cons frame before ih =>
    cases frame with
    | text payload final => simp only [List.cons_append, textsFrom, ih]
    | binary payload final => exact ih part
    | ping payload => exact ih part
    | pong payload => exact ih part
    | close => rfl

theorem texts_replace (h : IsTextMessage payload message) (before after : List RawFrame) :
    texts (before ++ .text payload true :: after) = texts (before ++ (message ++ after)) :=
  textsFrom_replace h [] before after

theorem WellFormedFrom.replace (h : IsTextMessage payload message) {before after : List RawFrame}
    (hframes : WellFormedFrom underWay (before ++ (message ++ after))) :
    WellFormedFrom underWay (before ++ .text payload true :: after) := by
  induction before generalizing underWay with
  | nil => exact h.wellFormedFrom hframes
  | cons frame before ih =>
    cases frame with
    | text payload final => exact ⟨hframes.1, ih hframes.2⟩
    | binary payload final => exact ⟨hframes.1, ih hframes.2⟩
    | ping payload => exact ⟨hframes.1, ih hframes.2⟩
    | pong payload => exact ⟨hframes.1, ih hframes.2⟩
    | close => exact hframes

theorem WellFormed.replace {before after : List RawFrame}
    (hframes : WellFormed (before ++ (message ++ after))) (h : IsTextMessage payload message) :
    WellFormed (before ++ .text payload true :: after) :=
  WellFormedFrom.replace h hframes

/-- **Reading depends on text messages only.** Each of them, in front of the close and of the first
fault, is one line or that fault, decided by its text without the line terminators at the end. Other
frames can be left out and a fragmented message can be sent as one frame, nothing is read after the
close or a fault, and what is written for lines reads as they were. -/
theorem text_messages_decide (max : Nat) {frames : List RawFrame} (h : WellFormed frames) :
    let read (frames : List RawFrame) := Frame.readAll max (messages frames)
    Frame.Decides max (texts frames) (read frames).1 (read frames).2 ∧
    (∀ line tail : String, EndsPlain line → OnlyTerminators tail →
      Frame.decodeLine max (Utf8.encode (line ++ tail)) = Frame.verdict max line) ∧
    (∀ payload, (∀ text, Utf8.encode text ≠ payload) → Frame.decodeLine max payload =
      .error (.receiveFailed ⟨.other, "text message is not valid UTF-8"⟩)) ∧
    read (frames.filter isText) = read frames ∧
    (∀ before message after payload, frames = before ++ (message ++ after) →
      IsTextMessage payload message →
        read (before ++ .text payload true :: after) = read frames) ∧
    (∀ front frame after, (Frame.decode max frame).any Incoming.isLast = true →
      Frame.readAll max (front ++ frame :: after) = Frame.readAll max (front ++ [frame])) ∧
    (∀ lines : List String, (∀ line ∈ lines, IsLine line ∧ line.utf8ByteSize ≤ max) →
      Frame.readAll max (lines.map Frame.write ++ [.close]) = (lines, none)) ∧
    ∀ c : Connection, c.carrier = .webSocket →
      c.hearAll max ((messages frames).map .frame ++ [.vanishes]) =
        Incoming.ofReading (read frames) := by
  intro read
  have hread : read frames = Frame.readTexts max (texts frames) := readAll_messages max h
  refine ⟨?_, ?_, ?_, ?_, ?_, ?_, ?_, ?_⟩
  · rw [hread]
    exact Frame.decides_readTexts max (texts frames)
  · intro line tail hends htail
    rw [Frame.decodeLine_encode, dropTerminators_eq_iff.2 ⟨hends, tail, rfl, htail⟩]
  · intro payload hpayload
    exact Frame.decodeLine_of_not_text max hpayload
  · rw [hread, ← texts_filter frames]
    exact readAll_messages max h.filter
  · rintro before message after payload rfl hmessage
    rw [hread, ← texts_replace hmessage before after]
    exact readAll_messages max (h.replace hmessage)
  · intro front frame after hlast
    exact Frame.readAll_of_isLast hlast front after
  · intro lines hlines
    exact Frame.readAll_write hlines
  · intro c hc
    exact Connection.hearAll_messages hc (messages frames)

theorem text_messages_decide_hello :
    let message : List RawFrame :=
      [.text (Utf8.encode "hel") false, .ping [], .text (Utf8.encode "lo\r\n") true]
    let after : List RawFrame := [.close, .text (Utf8.encode "late") true]
    WellFormed (.binary [0] true :: (message ++ after)) ∧
      Frame.readAll 5 (messages (.binary [0] true :: (message ++ after))) = (["hello"], none) ∧
      Frame.readAll 5 (messages (.binary [0] true :: .text (Utf8.encode "hello\r\n") true :: after)) =
        (["hello"], none) := by
  intro message after
  have hframes : WellFormed (.binary [0] true :: (message ++ after)) := by
    simp [WellFormed, WellFormedFrom, message, after, Frame.controlLength]
  have hmessage : IsTextMessage (Utf8.encode "hel" ++ Utf8.encode "lo\r\n") message :=
    .part _ _ _ (.ping _ _ _ (.last _))
  have hread : Frame.readAll 5 (messages (.binary [0] true :: (message ++ after))) =
      (["hello"], none) := by decide +kernel
  obtain ⟨-, -, -, -, hreplace, -, -, -⟩ := text_messages_decide 5 hframes
  have hreplaced := hreplace [.binary [0] true] message after _ rfl hmessage
  rw [← Utf8.encode_append] at hreplaced
  exact ⟨hframes, hread, hreplaced.trans hread⟩

end RawFrame

end ChatRoom
