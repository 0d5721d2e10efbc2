import ChatRoom.Log.Memory
import ChatRoom.Proofs.Wire.Lines
import Mathlib.Data.List.Forall2

/-!
# Entries of the log

An entry is one line, whatever the time (`isLine_stamped`, `entry_eq`). A device that works
(`LogDevice.Works`) takes every byte it is offered, in one write or in many, so its log grows by one
line for each event it is given (`written_foldl_note`).
-/

namespace ChatRoom

open Text

/-! ## Times -/

theorem isDigit_of_mem_padded {width n : Nat} {c : Char}
    (h : c ∈ (Timestamp.padded width n).toList) : c.isDigit = true := by
  rw [Timestamp.padded, String.toList_append, String.toList_ofList, List.mem_append,
    List.mem_replicate] at h
  rcases h with ⟨-, rfl⟩ | h
  · decide
  · have hdigits : (toString n).toList = Nat.toDigits 10 n := String.toList_ofList
    exact Nat.isDigit_of_mem_toDigits (by decide) (by decide) (hdigits ▸ h)

/-- A time is written in digits, with dashes, colons and a space between them. -/
theorem forall_mem_text {p : Char → Prop} (hdigit : ∀ c : Char, c.isDigit = true → p c)
    (hdash : p '-') (hspace : p ' ') (hcolon : p ':') (time : Timestamp) :
    ∀ c ∈ time.text.toList, p c := by
  have hpadded : ∀ width n, ∀ c ∈ (Timestamp.padded width n).toList, p c :=
    fun width n c hc => hdigit c (isDigit_of_mem_padded hc)
  have hdash : ∀ c ∈ "-".toList, p c := List.forall_mem_singleton.2 hdash
  have hspace : ∀ c ∈ " ".toList, p c := List.forall_mem_singleton.2 hspace
  have hcolon : ∀ c ∈ ":".toList, p c := List.forall_mem_singleton.2 hcolon
  simp only [Timestamp.text, String.toList_append, List.forall_mem_append]
  exact ⟨⟨⟨⟨⟨⟨⟨⟨⟨⟨hpadded _ _, hdash⟩, hpadded _ _⟩, hdash⟩, hpadded _ _⟩, hspace⟩, hpadded _ _⟩,
    hcolon⟩, hpadded _ _⟩, hcolon⟩, hpadded _ _⟩

theorem isLine_text (time : Timestamp) : IsLine time.text := by
  refine forall_mem_text (p := (isTerminator · = false)) (fun c hc => ?_) rfl rfl rfl time
  simp only [isTerminator, Bool.or_eq_false_iff, beq_eq_false_iff_ne]
  constructor
  · rintro rfl
    exact absurd hc (by decide)
  · rintro rfl
    exact absurd hc (by decide)

namespace Log

/-- A line with the time in front, as the log shows it. -/
def stamped (time : Timestamp) (line : String) : String := "[" ++ time.text ++ "] " ++ line

theorem isLine_stamped (time : Timestamp) {line : String} (h : IsLine line) :
    IsLine (stamped time line) := by
  simp only [stamped, isLine_append, isLine_text, h, and_true]
  decide

theorem entry_eq (time : Timestamp) {line : String} (h : EndsPlain line) :
    Utf8.encode (entry time line) = LineStream.write (stamped time line) := by
  rw [entry, h.dropTerminators, Utf8.encode_append]
  rfl

end Log

/-! ## Devices that work -/

/-- A device that works takes some of what it is offered, and keeps it. `written` is what is in the
log, and `works` holds of the device for good. -/
structure LogDevice.Works {δ : Type} [LogDevice δ] (written : δ → List UInt8) (works : δ → Prop) :
    Prop where
  now : ∀ device, works device →
    works (LogDevice.now device).2 ∧ written (LogDevice.now device).2 = written device
  write : ∀ device bytes, works device → bytes ≠ [] → ∃ taken next,
    LogDevice.write bytes device = (.ok (taken + 1), next) ∧ works next ∧
      written next = written device ++ bytes.take (taken + 1)
  flush : ∀ device, works device → ∃ next,
    LogDevice.flush device = (.ok (), next) ∧ works next ∧ written next = written device

namespace LogDevice.Works

variable {δ : Type} [LogDevice δ] {written : δ → List UInt8} {works : δ → Prop}

theorem writeAll (h : Works written works) (bytes : List UInt8) {device : δ} (hd : works device) :
    ∃ next, Log.writeAll bytes device = (.ok (), next) ∧ works next ∧
      written next = written device ++ bytes := by
  fun_induction Log.writeAll bytes device with
  | case1 device => exact ⟨device, rfl, hd, by rw [List.append_nil]⟩
  | case2 bytes device hne cause next hw =>
    obtain ⟨taken, _, hok, -⟩ := h.write device bytes hd hne
    rw [hok] at hw
    cases hw
  | case3 bytes device hne next hw =>
    obtain ⟨taken, _, hok, -⟩ := h.write device bytes hd hne
    rw [hok] at hw
    cases hw
  | case4 bytes device hne taken next hw ih =>
    obtain ⟨taken', next', hok, hnext, hwritten⟩ := h.write device bytes hd hne
    rw [hok] at hw
    cases hw
    obtain ⟨last, hlast, hworks, hall⟩ := ih hnext
    refine ⟨last, hlast, hworks, ?_⟩
    rw [hall, hwritten, List.append_assoc, List.take_append_drop]

/-- A device that works takes one entry for one line. -/
theorem append (h : Works written works) {line : String} (hline : EndsPlain line) {device : δ}
    (hd : works device) :
    ∃ next, Log.append line device = (.ok (), next) ∧ works next ∧
      ∃ time, written next = written device ++ LineStream.write (Log.stamped time line) := by
  obtain ⟨hnow, hsame⟩ := h.now device hd
  obtain ⟨next, hwrite, hnext, hwritten⟩ :=
    h.writeAll (Utf8.encode (Log.entry (LogDevice.now device).1 line)) hnow
  obtain ⟨last, hflush, hlast, hkept⟩ := h.flush next hnext
  refine ⟨last, ?_, hlast, (LogDevice.now device).1, ?_⟩
  · simp only [Log.append, hwrite, hflush]
  · rw [hkept, hwritten, hsame, Log.entry_eq _ hline]

theorem note (h : Works written works) {line : String} (hline : EndsPlain line) {device : δ}
    (hd : works device) :
    works (Log.note line device) ∧ ∃ time, written (Log.note line device) =
      written device ++ LineStream.write (Log.stamped time line) := by
  obtain ⟨next, happend, hnext⟩ := h.append hline hd
  rwa [Log.note, happend]

/-- **One line for each event.** -/
theorem written_foldl_note (h : Works written works) {lines : List String}
    (hlines : ∀ line ∈ lines, EndsPlain line) {device : δ} (hd : works device) :
    ∃ stamped : List String,
      List.Forall₂ (fun line s => ∃ time, s = Log.stamped time line) lines stamped ∧
      written (lines.foldl (fun log line => Log.note line log) device) =
        written device ++ LineStream.writeAll stamped := by
  induction lines generalizing device with
  | nil => exact ⟨[], .nil, by simp [LineStream.writeAll]⟩
  | cons line lines ih =>
    obtain ⟨hnext, time, hnote⟩ := h.note (hlines line List.mem_cons_self) hd
    obtain ⟨rest, hrest, hall⟩ :=
      ih (fun l hl => hlines l (List.mem_cons_of_mem _ hl)) hnext
    refine ⟨Log.stamped time line :: rest, .cons ⟨time, rfl⟩ hrest, ?_⟩
    rw [List.foldl_cons, hall, hnote, List.append_assoc]
    rfl

end LogDevice.Works

theorem exists_mem_of_forall₂ {α β : Type} {R : α → β → Prop} {l : List α} {m : List β}
    (h : List.Forall₂ R l m) {b : β} (hb : b ∈ m) : ∃ a ∈ l, R a b := by
  induction h with
  | nil => cases hb
  | cons hab _ ih =>
    rcases List.mem_cons.1 hb with rfl | hb
    · exact ⟨_, List.mem_cons_self, hab⟩
    · obtain ⟨a, ha, hr⟩ := ih hb
      exact ⟨a, List.mem_cons_of_mem _ ha, hr⟩

/-- A log in memory works as long as it is not at fault and takes something at a time. -/
theorem MemoryLog.works : LogDevice.Works MemoryLog.written fun log =>
    log.writeFault = none ∧ log.flushFault = none ∧ log.pace ≠ some 0 where
  now _ h := ⟨h, rfl⟩
  write log bytes h hne := by
    have hlen : 0 < bytes.length := List.length_pos_iff.2 hne
    have hpos : log.share bytes.length ≠ 0 := by
      unfold share
      cases hp : log.pace with
      | none => exact Nat.ne_of_gt hlen
      | some limit =>
        have hlimit : limit ≠ 0 := fun h0 => h.2.2 (hp.trans (congrArg some h0))
        dsimp only
        omega
    obtain ⟨taken, htaken⟩ := Nat.exists_eq_succ_of_ne_zero hpos
    refine ⟨taken, { log with written := log.written ++ bytes.take (taken + 1) }, ?_, h, rfl⟩
    simp only [LogDevice.write, write, h.1, htaken]
  flush log h := ⟨log, by simp only [LogDevice.flush, flush, h.2.1], h, rfl⟩

end ChatRoom
