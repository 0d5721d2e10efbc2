/-!
# Text

The text operations that every line of the chat goes through: trimming, dropping line
terminators, cutting a text into lines, and reading a number. Each is defined on the characters of
the text, and what is used on whole texts is lifted to `String`; lengths are counted in UTF-8 bytes
(`String.utf8ByteSize`).

`toList_trim`, `toList_dropTerminators` and `flatten_pieces` say what the operations keep.
-/

namespace ChatRoom.Text

/-! ## Character classes -/

/-- The characters with the Unicode property `White_Space`. -/
def isBlank (c : Char) : Bool :=
  let n := c.toNat
  (0x09 ≤ n && n ≤ 0x0D) || n == 0x20 || n == 0x85 || n == 0xA0 || n == 0x1680 ||
    (0x2000 ≤ n && n ≤ 0x200A) || n == 0x2028 || n == 0x2029 || n == 0x202F || n == 0x205F ||
    n == 0x3000

/-- The characters that end a line on the wire: carriage return and line feed. -/
def isTerminator (c : Char) : Bool := c == '\r' || c == '\n'

/-- A text without carriage returns and line feeds: one line wherever it is shown. -/
def IsLine (s : String) : Prop := ∀ c ∈ s.toList, isTerminator c = false

instance (s : String) : Decidable (IsLine s) := List.decidableBAll _ s.toList

theorem isBlank_of_isTerminator {c : Char} (h : isTerminator c = true) : isBlank c = true := by
  simp only [isTerminator, Bool.or_eq_true, beq_iff_eq] at h
  rcases h with rfl | rfl <;> decide

/-! ## Trimming -/

/-- `cs` without its longest tail of characters in `p`. -/
def dropTrailing (p : Char → Bool) (cs : List Char) : List Char :=
  (cs.reverse.dropWhile p).reverse

/-- `s` without the blanks around it. -/
def trim (s : String) : String :=
  .ofList (dropTrailing isBlank (s.toList.dropWhile isBlank))

/-- `s` without its longest tail of line terminators. -/
def dropTerminators (s : String) : String :=
  .ofList (dropTrailing isTerminator s.toList)

@[simp] theorem toList_trim (s : String) :
    (trim s).toList = dropTrailing isBlank (s.toList.dropWhile isBlank) :=
  String.toList_ofList

@[simp] theorem toList_dropTerminators (s : String) :
    (dropTerminators s).toList = dropTrailing isTerminator s.toList :=
  String.toList_ofList

theorem dropTrailing_append (p : Char → Bool) (cs : List Char) :
    ∃ tail, cs = dropTrailing p cs ++ tail ∧ ∀ c ∈ tail, p c = true := by
  refine ⟨(cs.reverse.takeWhile p).reverse, ?_, ?_⟩
  · rw [dropTrailing, ← List.reverse_append, List.takeWhile_append_dropWhile, List.reverse_reverse]
  · intro c hc
    have h := List.all_takeWhile (p := p) (l := cs.reverse)
    rw [List.all_eq_true] at h
    exact h c (List.mem_reverse.1 hc)

/-! ## Cutting -/

/-- The pieces of `cs` between occurrences of `sep`; one more than there are occurrences. -/
def pieces (sep : Char) : List Char → List (List Char)
  | [] => [[]]
  | c :: cs =>
    if c = sep then [] :: pieces sep cs
    else match pieces sep cs with
      | [] => [[c]]
      | piece :: rest => (c :: piece) :: rest

theorem pieces_ne_nil (sep : Char) (cs : List Char) : pieces sep cs ≠ [] := by
  cases cs with
  | nil => simp [pieces]
  | cons c cs =>
    unfold pieces
    split
    · simp
    · split <;> simp

/-- Nothing is lost: the pieces, joined by the separator, are the text. -/
theorem flatten_pieces (sep : Char) (cs : List Char) :
    ((pieces sep cs).intersperse [sep]).flatten = cs := by
  induction cs with
  | nil => simp [pieces]
  | cons c cs ih =>
    unfold pieces
    obtain ⟨piece, rest, h⟩ := List.exists_cons_of_ne_nil (pieces_ne_nil sep cs)
    rw [h] at ih ⊢
    split
    · rename_i hc; simp [hc, ih]
    · cases rest <;> simp_all

/-- The entries of a list file: its lines, trimmed, blank ones left out. A carriage return before
a line feed is a blank, so both line endings read alike. -/
def entries (s : String) : List String :=
  ((pieces '\n' s.toList).map fun line => trim (.ofList line)).filter (· ≠ "")

/-- What follows `lead` in `cs`, if `cs` begins with it. -/
def after? : (lead cs : List Char) → Option (List Char)
  | [], cs => some cs
  | _ :: _, [] => none
  | a :: lead, c :: cs => if a = c then after? lead cs else none

theorem after?_eq_some_iff {lead cs rest : List Char} :
    after? lead cs = some rest ↔ cs = lead ++ rest := by
  induction lead generalizing cs with
  | nil => simp [after?, eq_comm]
  | cons a lead ih =>
    cases cs with
    | nil => simp [after?]
    | cons c cs => by_cases h : a = c <;> simp [after?, h, ih, eq_comm]

/-! ## Numbers -/

/-- The value of a digit in a base up to sixteen. -/
def digit? (base : Nat) (c : Char) : Option Nat :=
  let value :=
    if '0' ≤ c ∧ c ≤ '9' then c.toNat - '0'.toNat
    else if 'a' ≤ c ∧ c ≤ 'f' then c.toNat - 'a'.toNat + 10
    else if 'A' ≤ c ∧ c ≤ 'F' then c.toNat - 'A'.toNat + 10
    else base
  if value < base then some value else none

/-- The number that a text of digits writes. -/
def number? (base : Nat) (cs : List Char) : Option Nat :=
  if cs = [] then none
  else (cs.mapM (digit? base)).map fun digits => digits.foldl (fun n d => base * n + d) 0

end ChatRoom.Text
