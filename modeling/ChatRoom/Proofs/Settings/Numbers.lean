import ChatRoom.Settings
import Mathlib.Algebra.Group.Nat.Defs

/-!
# The numbers in the settings

A settings document can assign no number that does not fit in 63 bits: an integer of the document
fits in 64 bits with its sign (`fits_of_read`), and a setting is not negative (`number_lt`). So no
numeric setting of a document, and none of the defaults, comes near the limit of a 64-bit word
(`lt_of_parse`).
-/

namespace ChatRoom

namespace Document

/-- An integer fits in 64 bits, with its sign. -/
def Scalar.Fits : Scalar → Prop
  | text _ => True
  | number n => Int64.minValue.toInt ≤ n ∧ n ≤ Int64.maxValue.toInt

theorem fits_of_integer? {cs rest : List Char} {n : Int} (h : integer? cs = some (n, rest)) :
    (Scalar.number n).Fits := by
  obtain ⟨-, hn⟩ := Option.filter_eq_some_iff.1 h
  simpa [Scalar.Fits] using hn

theorem fits_of_value? {cs rest : List Char} {value : Scalar} (h : value? cs = some (value, rest)) :
    value.Fits := by
  unfold value? at h
  split at h
  · cases h
    trivial
  · obtain ⟨⟨n, rest⟩, hn, he⟩ := Option.map_eq_some_iff.1 h
    cases he
    exact fits_of_integer? hn

theorem fits_of_assignment? {cs rest : List Char} {assignment : String × Scalar}
    (h : assignment? cs = some (assignment, rest)) : assignment.2.Fits := by
  unfold assignment? at h
  split at h
  · cases h
  · split at h
    · split at h
      · cases h
      · rename_i hvalue
        obtain ⟨rest, -, he⟩ := Option.map_eq_some_iff.1 h
        cases he
        exact fits_of_value? hvalue
    · cases h

theorem fits_of_readLines {fuel : Nat} {cs : List Char} {assignments : List (String × Scalar)}
    (h : readLines fuel cs = .ok assignments) : ∀ a ∈ assignments, a.2.Fits := by
  induction fuel generalizing cs assignments with
  | zero => cases h
  | succ fuel ih =>
    unfold readLines at h
    split at h
    · cases h
      exact fun a ha => absurd ha List.not_mem_nil
    · split at h
      · exact ih h
      · split at h
        · cases h
        · rename_i assignment rest hassignment
          cases hrest : readLines fuel rest with
          | error left =>
            rw [hrest] at h
            cases h
          | ok more =>
            rw [hrest] at h
            cases h
            intro a ha
            rcases List.mem_cons.1 ha with rfl | ha
            · exact fits_of_assignment? hassignment
            · exact ih hrest a ha

/-- Every integer that a document assigns fits in 64 bits. -/
theorem fits_of_read {text : String} {assignments : List (String × Scalar)}
    (h : read text = .ok assignments) : ∀ a ∈ assignments, a.2.Fits :=
  fits_of_readLines h

end Document

namespace Settings

open Document

/-- The settings that are numbers. -/
def numbers (settings : Settings) : List Nat :=
  [settings.historyLines, settings.usernameLength, settings.groupNameLength, settings.lineLength,
    settings.outboxCapacity, settings.acceptRetryDelay] ++ settings.maxSessions.toList

theorem number_lt {key : String} {value : Scalar} {n : Nat} (hvalue : value.Fits)
    (h : number key value = .ok n) : n < 2 ^ 63 := by
  cases value with
  | text s => cases h
  | number i =>
    obtain ⟨-, hmax⟩ := hvalue
    have hlimit : Int64.maxValue.toInt = 2 ^ 63 - 1 := by decide
    unfold number at h
    dsimp only at h
    split at h
    · cases h
    · cases h
      omega

theorem map_eq_ok {ε α β : Type} {x : Except ε α} {f : α → β} {b : β} (h : x.map f = .ok b) :
    ∃ a, x = .ok a ∧ f a = b := by
  cases x with
  | error e => cases h
  | ok a => exact ⟨a, rfl, Except.ok.inj h⟩

/-- An assignment brings in no number but the one that is assigned. -/
theorem numbers_assign {settings after : Settings} {key : String} {value : Scalar}
    (h : settings.assign key value = .ok after) :
    ∀ n ∈ after.numbers, n ∈ settings.numbers ∨ number key value = .ok n := by
  unfold assign at h
  split at h
  case h_13 => cases h
  all_goals
    obtain ⟨a, ha, rfl⟩ := map_eq_ok h
    intro n hn
    simp only [numbers, List.mem_append, List.mem_cons, List.not_mem_nil, or_false,
      Option.mem_toList, Option.some_inj] at hn ⊢
    grind

theorem lt_of_assignAll {settings after : Settings} {taken : List String}
    {assignments : List (String × Scalar)} (hfits : ∀ a ∈ assignments, a.2.Fits)
    (hsettings : ∀ n ∈ settings.numbers, n < 2 ^ 63)
    (h : settings.assignAll taken assignments = .ok after) : ∀ n ∈ after.numbers, n < 2 ^ 63 := by
  induction assignments generalizing settings taken with
  | nil =>
    cases h
    exact hsettings
  | cons assignment rest ih =>
    obtain ⟨key, value⟩ := assignment
    unfold assignAll at h
    split at h
    · cases h
    · split at h
      · cases h
      · rename_i assigned hassigned
        refine ih (fun a ha => hfits a (List.mem_cons_of_mem _ ha)) (fun n hn => ?_) h
        rcases numbers_assign hassigned n hn with hn | hn
        · exact hsettings n hn
        · exact number_lt (hfits _ List.mem_cons_self) hn

/-- **The numbers of a document** all fit in 63 bits. -/
theorem lt_of_parse {document : String} {settings : Settings} (h : parse document = .ok settings) :
    ∀ n ∈ settings.numbers, n < 2 ^ 63 := by
  unfold parse at h
  split at h
  · cases h
  · rename_i assignments hread
    have hdefaults : ∀ n ∈ ({} : Settings).numbers, n < 2 ^ 63 := by decide
    exact lt_of_assignAll (fits_of_read hread) hdefaults h

end Settings

end ChatRoom
