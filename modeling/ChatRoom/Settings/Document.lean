import ChatRoom.Text

/-!
# Settings documents

A settings document is a TOML document whose assignments stand at the top and give strings and
integers: no setting is a table, an array, a date, a float or a truth value, so a document that
holds one of them is refused where it begins.

`read` gives the assignments of a document in order, or what is left of the document from the first
place that is not of this form.
-/

namespace ChatRoom.Document

open Text

/-- What a setting may be assigned. -/
inductive Scalar where
  | text (s : String)
  | number (n : Int)
  deriving DecidableEq

/-! ## Characters -/

/-- A character that may stand for itself in a comment or between quotes: a tab, or anything but a
control character. -/
def isPlain (c : Char) : Bool := c == '\t' || (0x20 ≤ c.toNat && c.toNat != 0x7F)

def isSpace (c : Char) : Bool := c == ' ' || c == '\t'

/-- A character of a key that is not quoted. -/
def isBare (c : Char) : Bool := c.isAlphanum || c == '_' || c == '-'

def skipSpaces (cs : List Char) : List Char := cs.dropWhile isSpace

/-- What follows the end of a line. -/
def newline? : List Char → Option (List Char)
  | '\n' :: rest => some rest
  | '\r' :: '\n' :: rest => some rest
  | _ => none

/-- What follows the spaces and line ends in front. -/
def skipLines : List Char → List Char
  | '\r' :: '\n' :: rest => skipLines rest
  | c :: rest => if isSpace c || c == '\n' then skipLines rest else c :: rest
  | [] => []

def skipComment : List Char → List Char
  | '#' :: rest => rest.dropWhile isPlain
  | cs => cs

theorem length_newline? {cs rest : List Char} (h : newline? cs = some rest) :
    rest.length < cs.length := by
  unfold newline? at h
  split at h <;> cases h <;> simp only [List.length_cons] <;> omega

theorem length_skipLines (cs : List Char) : (skipLines cs).length ≤ cs.length := by
  fun_induction skipLines cs with
  | case1 rest ih => simp; omega
  | case2 c rest _ _ ih => simp; omega
  | case3 => simp
  | case4 => simp

theorem length_skipSpaces (cs : List Char) : (skipSpaces cs).length ≤ cs.length :=
  (List.dropWhile_sublist _).length_le

/-! ## Digits -/

/-- The number that begins with the digits `acc`, with single underscores allowed between two
digits, and what follows it. -/
def moreDigits (base acc : Nat) : List Char → Option (Nat × List Char)
  | [] => some (acc, [])
  | c :: rest =>
    match digit? base c with
    | some d => moreDigits base (base * acc + d) rest
    | none =>
      if c = '_' then
        match rest with
        | [] => none
        | c :: rest =>
          match digit? base c with
          | some d => moreDigits base (base * acc + d) rest
          | none => none
      else some (acc, c :: rest)

/-- A number in front, of at least one digit. -/
def digits? (base : Nat) : List Char → Option (Nat × List Char)
  | [] => none
  | c :: rest =>
    match digit? base c with
    | some d => moreDigits base d rest
    | none => none

/-- A decimal number in front. Only zero itself begins with a zero. -/
def decimal? : List Char → Option (Nat × List Char)
  | '0' :: rest => some (0, rest)
  | cs => digits? 10 cs

/-- An integer in front: decimal with or without a sign, or in one of the bases that a letter after
a zero announces. It fits in 64 bits. -/
def integer? (cs : List Char) : Option (Int × List Char) :=
  let unsigned : Option (Nat × List Char) → Option (Int × List Char) :=
    Option.map fun (n, rest) => ((n : Int), rest)
  let signed : Option (Int × List Char) :=
    match cs with
    | '0' :: 'x' :: rest => unsigned (digits? 16 rest)
    | '0' :: 'o' :: rest => unsigned (digits? 8 rest)
    | '0' :: 'b' :: rest => unsigned (digits? 2 rest)
    | '+' :: rest => unsigned (decimal? rest)
    | '-' :: rest => (decimal? rest).map fun (n, rest) => (-(n : Int), rest)
    | cs => unsigned (decimal? cs)
  signed.filter fun (n, _) => Int64.minValue.toInt ≤ n ∧ n ≤ Int64.maxValue.toInt

/-! ## Strings -/

/-- The character whose code is written in `count` hexadecimal digits. -/
def codePoint? (count : Nat) (cs : List Char) : Option (Char × List Char) :=
  let code := cs.take count
  match number? 16 code with
  | none => none
  | some n =>
    if code.length = count ∧ n.isValidChar then some (Char.ofNat n, cs.drop count) else none

/-- The character that an escape sequence stands for, after its backslash. -/
def escape? : List Char → Option (Char × List Char)
  | 'b' :: rest => some ('\x08', rest)
  | 't' :: rest => some ('\t', rest)
  | 'n' :: rest => some ('\n', rest)
  | 'f' :: rest => some ('\x0C', rest)
  | 'r' :: rest => some ('\r', rest)
  | '"' :: rest => some ('"', rest)
  | '\\' :: rest => some ('\\', rest)
  | 'u' :: rest => codePoint? 4 rest
  | 'U' :: rest => codePoint? 8 rest
  | _ => none

/-- What follows a backslash that ends a line: everything from the next text on. -/
def fold? (cs : List Char) : Option (List Char) := (newline? (skipSpaces cs)).map skipLines

theorem length_codePoint? {count : Nat} {cs rest : List Char} {c : Char}
    (h : codePoint? count cs = some (c, rest)) : rest.length ≤ cs.length := by
  unfold codePoint? at h
  dsimp only at h
  split at h
  · cases h
  · split at h
    · cases h; simp
    · cases h

theorem length_escape? {cs rest : List Char} {c : Char} (h : escape? cs = some (c, rest)) :
    rest.length < cs.length := by
  unfold escape? at h
  split at h
  case h_8 | h_9 => exact Nat.lt_succ_of_le (length_codePoint? h)
  all_goals cases h
  all_goals simp

theorem length_fold? {cs rest : List Char} (h : fold? cs = some rest) :
    rest.length < cs.length := by
  obtain ⟨tail, ht, rfl⟩ := Option.map_eq_some_iff.1 h
  have h1 := length_newline? ht
  have h2 := length_skipSpaces cs
  have h3 := length_skipLines tail
  omega

/-- A string that is read, and what follows it. -/
abbrev Quoted := Option (List Char × List Char)

/-- One more character in front of a string. -/
def Quoted.cons (c : Char) (quoted : Quoted) : Quoted :=
  quoted.map fun (text, rest) => (c :: text, rest)

/-- The rest of a string in double quotes. -/
def basic : List Char → Quoted
  | [] => none
  | c :: rest =>
    if c = '"' then some ([], rest)
    else if c = '\\' then
      match _h : escape? rest with
      | none => none
      | some (c, tail) => Quoted.cons c (basic tail)
    else if isPlain c then Quoted.cons c (basic rest)
    else none
termination_by cs => cs.length
decreasing_by
  · have := length_escape? _h
    simp only [List.length_cons]
    omega
  · simp

/-- The rest of a string in single quotes, in which nothing is escaped. -/
def literal : List Char → Quoted
  | [] => none
  | c :: rest =>
    if c = '\'' then some ([], rest)
    else if isPlain c then Quoted.cons c (literal rest)
    else none

/-- The rest of a string in three `quote`s, which may run over several lines. One or two quotes may
stand in it, also in front of the three that end it. In double quotes a backslash escapes, or folds
a line into the next text. -/
def multiline (quote : Char) : List Char → Quoted
  | [] => none
  | c :: rest =>
    if c = quote then
      let run := ((c :: rest).takeWhile (· == quote)).length
      if run < 3 then Quoted.cons c (multiline quote rest)
      else if run ≤ 5 then some (List.replicate (run - 3) quote, (c :: rest).drop run)
      else none
    else if c = '\\' ∧ quote = '"' then
      match _h : fold? rest with
      | some tail => multiline quote tail
      | none =>
        match _h : escape? rest with
        | none => none
        | some (c, tail) => Quoted.cons c (multiline quote tail)
    else
      match _h : newline? (c :: rest) with
      | some tail => Quoted.cons '\n' (multiline quote tail)
      | none => if isPlain c then Quoted.cons c (multiline quote rest) else none
termination_by cs => cs.length
decreasing_by
  · simp
  · have := length_fold? _h
    simp only [List.length_cons]
    omega
  · have := length_escape? _h
    simp only [List.length_cons]
    omega
  · exact length_newline? _h
  · simp

/-- A line end right after the opening of a multi-line string is not part of it. -/
def dropNewline (cs : List Char) : List Char := (newline? cs).getD cs

/-- A string in front, in any of the four kinds of quotes. -/
def string? : List Char → Quoted
  | '"' :: '"' :: '"' :: rest => multiline '"' (dropNewline rest)
  | '"' :: rest => basic rest
  | '\'' :: '\'' :: '\'' :: rest => multiline '\'' (dropNewline rest)
  | '\'' :: rest => literal rest
  | _ => none

/-! ## Assignments -/

/-- A key in front: bare, or in one pair of quotes. -/
def key? : List Char → Quoted
  | '"' :: rest => basic rest
  | '\'' :: rest => literal rest
  | cs =>
    match cs.takeWhile isBare with
    | [] => none
    | name => some (name, cs.dropWhile isBare)

/-- What can be assigned, in front. -/
def value? (cs : List Char) : Option (Scalar × List Char) :=
  match string? cs with
  | some (text, rest) => some (.text (.ofList text), rest)
  | none => (integer? cs).map fun (n, rest) => (.number n, rest)

/-- What follows the end of a line, after spaces and a comment. -/
def lineEnd? (cs : List Char) : Option (List Char) :=
  match skipComment (skipSpaces cs) with
  | [] => some []
  | rest => newline? rest

/-- An assignment in front, to the end of its line. -/
def assignment? (cs : List Char) : Option ((String × Scalar) × List Char) :=
  match key? cs with
  | none => none
  | some (key, rest) =>
    match skipSpaces rest with
    | '=' :: rest =>
      match value? (skipSpaces rest) with
      | none => none
      | some (value, rest) => (lineEnd? rest).map fun rest => ((.ofList key, value), rest)
    | _ => none

/-- The assignments of up to `fuel` lines, or what is left from the first line at fault. -/
def readLines : (fuel : Nat) → List Char → Except (List Char) (List (String × Scalar))
  | 0, cs => .error cs
  | fuel + 1, cs =>
    match skipSpaces cs with
    | [] => .ok []
    | c :: rest =>
      match lineEnd? (c :: rest) with
      | some rest => readLines fuel rest
      | none =>
        match assignment? (c :: rest) with
        | none => .error (c :: rest)
        | some (assignment, rest) => (readLines fuel rest).map (assignment :: ·)

/-- The assignments of a document in order, or what is left of it from the first line at fault. A
byte order mark in front is passed over. -/
def read (text : String) : Except (List Char) (List (String × Scalar)) :=
  let cs := match text.toList with
    | '\uFEFF' :: rest => rest
    | cs => cs
  readLines (cs.length + 1) cs

end ChatRoom.Document
