import ChatRoom.Command
import ChatRoom.Proofs.Text.Trim

/-!
# The grammar of commands

What a line asks for, said of the line without the blanks around it (`Command.Reads`). A private
command is its keyword, a target without spaces and a text, with single spaces between them
(`Command.Asks`); a line that begins like one and is none is malformed; any other line that is not
blank is for everybody, as it was sent.

Every line has one reading, and `parse` finds it (`parse_eq_iff`). Blanks around a line change at
most the text of a message to everybody (`outline_parse`), and a private command is read back from
its line (`parse_line`).
-/

namespace ChatRoom

open Text

/-! ## The two private commands -/

namespace MalformedCommand

/-- The keyword of this kind of private command. -/
def keyword : MalformedCommand → String
  | direct => directKeyword
  | group => groupKeyword

/-- A private command of this kind, with nothing missing. -/
def command : MalformedCommand → String → String → Command
  | direct => .direct
  | group => .group

variable {kind kind' : MalformedCommand} {target text target' text' : String}

theorem command_inj (h : kind.command target text = kind'.command target' text') :
    kind = kind' ∧ target = target' ∧ text = text' := by
  cases kind <;> cases kind' <;> cases h
  · exact ⟨rfl, rfl, rfl⟩
  · exact ⟨rfl, rfl, rfl⟩

theorem command_ne_global : kind.command target text ≠ .global text' := by
  cases kind <;> exact nofun

theorem line_command (kind : MalformedCommand) (target text : String) :
    (kind.command target text).line = kind.keyword ++ " " ++ target ++ " " ++ text := by
  cases kind with
  | direct => rfl
  | group => rfl

end MalformedCommand

namespace Command

/-! ## What a line says -/

/-- The line is the keyword, a space and whatever follows it. -/
def Begins (keyword line : String) : Prop := ∃ rest, line = keyword ++ " " ++ rest

/-- The line is the keyword, a target and a text, with a single space between each two. -/
structure Asks (keyword line target text : String) : Prop where
  line_eq : line = keyword ++ " " ++ target ++ " " ++ text
  target_ne : target ≠ ""
  text_ne : text ≠ ""
  isWord : ' ' ∉ target.toList

/-- What a line may be read as. -/
inductive Reads (raw : String) : Except MalformedCommand (Option Command) → Prop
  | blank (h : trim raw = "") : Reads raw (.ok none)
  | command (kind : MalformedCommand) (target text : String)
      (h : Asks kind.keyword (trim raw) target text) :
      Reads raw (.ok (some (kind.command target text)))
  | malformed (kind : MalformedCommand) (hbegins : Begins kind.keyword (trim raw))
      (hnone : ∀ target text, ¬ Asks kind.keyword (trim raw) target text) :
      Reads raw (.error kind)
  /-- The line without its longest tail of line terminators. -/
  | global (text tail : String) (hline : trim raw ≠ "")
      (hother : ∀ kind : MalformedCommand, ¬ Begins kind.keyword (trim raw))
      (hraw : raw = text ++ tail) (hends : EndsPlain text) (htail : OnlyTerminators tail) :
      Reads raw (.ok (some (.global text)))

variable {raw line target text rest : String} {kind kind' : MalformedCommand}

theorem Asks.begins {keyword : String} (h : Asks keyword line target text) :
    Begins keyword line :=
  ⟨target ++ " " ++ text, by simp only [h.line_eq, String.append_assoc]⟩

/-- The keywords differ in their first character. -/
theorem Begins.kind_eq (h : Begins kind.keyword line) (h' : Begins kind'.keyword line) :
    kind = kind' := by
  obtain ⟨rest, rfl⟩ := h
  obtain ⟨rest', heq⟩ := h'
  have hhead := congrArg (fun s => s.toList.head?) heq
  cases kind <;> cases kind'
  · rfl
  · simp [MalformedCommand.keyword, directKeyword, groupKeyword] at hhead
  · simp [MalformedCommand.keyword, directKeyword, groupKeyword] at hhead
  · rfl

theorem Begins.ne_empty (h : Begins kind.keyword line) : line ≠ "" := by
  obtain ⟨rest, rfl⟩ := h
  cases kind <;> simp [MalformedCommand.keyword, directKeyword, groupKeyword]

/-! ## What `parse` finds -/

theorem ofList_ne_empty {cs : List Char} (h : cs ≠ []) : String.ofList cs ≠ "" := by
  rwa [Ne, ← String.toList_eq_nil_iff, String.toList_ofList]

/-- Only a space is followed by something. -/
theorem space_mem_of_splitWord {cs : List Char} (h : (splitWord cs).2 ≠ []) : ' ' ∈ cs := by
  refine Classical.byContradiction fun hn => h ?_
  have hall : ∀ x ∈ cs, (x != ' ') = true := fun x hx => by
    rw [bne_iff_ne]; rintro rfl; exact hn hx
  simp [splitWord, List.dropWhile_eq_nil_iff.2 hall]

theorem splitWord_asks {keyword : String} (h : Asks keyword (keyword ++ " " ++ rest) target text) :
    splitWord rest.toList = (target.toList, text.toList) := by
  have hline := h.line_eq
  simp only [String.append_assoc, String.append_right_inj] at hline
  have hrest : rest.toList = target.toList ++ ' ' :: text.toList := by simp [hline]
  rw [hrest, splitWord_append h.isWord]

/-- A target and a text are the only ones: the space between them is the first. -/
theorem Asks.unique {keyword target' text' : String} (h : Asks keyword line target text)
    (h' : Asks keyword line target' text') : target = target' ∧ text = text' := by
  obtain ⟨rest, rfl⟩ := h.begins
  have hparts := (splitWord_asks h).symm.trans (splitWord_asks h')
  rw [Prod.mk.injEq, String.toList_inj, String.toList_inj] at hparts
  exact hparts

theorem complete_of_asks {keyword : String} {make : String → String → Command}
    {malformed : MalformedCommand} (h : Asks keyword (keyword ++ " " ++ rest) target text) :
    complete make malformed (splitWord rest.toList) = .ok (some (make target text)) := by
  rw [splitWord_asks h]
  have htarget := h.target_ne
  have htext := h.text_ne
  rw [Ne, ← String.toList_eq_nil_iff] at htarget htext
  obtain ⟨c, cs, hc⟩ := List.exists_cons_of_ne_nil htarget
  obtain ⟨d, ds, hd⟩ := List.exists_cons_of_ne_nil htext
  rw [hc, hd, complete, ← hc, ← hd, String.ofList_toList, String.ofList_toList]
  · exact nofun
  · exact nofun

theorem complete_of_not_asks {keyword : String} {make : String → String → Command}
    {malformed : MalformedCommand}
    (h : ∀ target text, ¬ Asks keyword (keyword ++ " " ++ rest) target text) :
    complete make malformed (splitWord rest.toList) = .error malformed := by
  obtain ⟨word, more, hparts⟩ : ∃ word more, splitWord rest.toList = (word, more) := ⟨_, _, rfl⟩
  rw [hparts]
  cases word with
  | nil => rfl
  | cons c cs =>
    cases more with
    | nil => rfl
    | cons d ds =>
      -- both are there, so the line asks for something after all
      have hspace : ' ' ∈ rest.toList := space_mem_of_splitWord (by simp [hparts])
      have hrest := append_splitWord hspace
      rw [hparts] at hrest
      refine absurd ?_ (h (.ofList (c :: cs)) (.ofList (d :: ds)))
      refine ⟨?_, ofList_ne_empty nofun, ofList_ne_empty nofun, ?_⟩
      · rw [← String.toList_inj]
        simp [← hrest]
      · have hword : c :: cs = rest.toList.takeWhile (· != ' ') := (congrArg Prod.fst hparts).symm
        rw [String.toList_ofList, hword]
        intro hm
        simpa using List.mem_takeWhile_imp hm

/-- A keyword that is there is found, with what follows its space. -/
theorem keyword?_append (keyword rest : String) :
    keyword? keyword (keyword ++ " " ++ rest).toList = some (splitWord rest.toList) := by
  rw [keyword?, Option.map_eq_some_iff]
  exact ⟨rest.toList, after?_eq_some_iff.2 (by simp), rfl⟩

theorem keyword?_of_not_begins {keyword : String} (h : ¬ Begins keyword line) :
    keyword? keyword line.toList = none := by
  rw [keyword?, Option.map_eq_none_iff, Option.eq_none_iff_forall_ne_some]
  intro rest hrest
  rw [after?_eq_some_iff] at hrest
  exact h ⟨.ofList rest, by simp [← String.toList_inj, hrest]⟩

theorem parse_of_blank (h : trim raw = "") : parse raw = .ok none := by
  simp [parse, h]

theorem parse_of_begins (h : trim raw = kind.keyword ++ " " ++ rest) :
    parse raw = complete kind.command kind (splitWord rest.toList) := by
  have hbegins : Begins kind.keyword (trim raw) := ⟨rest, h⟩
  have hne : (trim raw).toList ≠ [] := mt String.toList_eq_nil_iff.1 hbegins.ne_empty
  rw [parse, if_neg hne]
  cases kind with
  | direct =>
    have hkeyword : keyword? directKeyword (trim raw).toList = some (splitWord rest.toList) := by
      rw [h]
      exact keyword?_append directKeyword rest
    simp only [hkeyword]
    rfl
  | group =>
    have hkeyword : keyword? groupKeyword (trim raw).toList = some (splitWord rest.toList) := by
      rw [h]
      exact keyword?_append groupKeyword rest
    have hother : ¬ Begins MalformedCommand.direct.keyword (trim raw) := fun hdirect =>
      nomatch hbegins.kind_eq hdirect
    have hnone : keyword? directKeyword (trim raw).toList = none := keyword?_of_not_begins hother
    simp only [hnone, hkeyword]
    rfl

theorem parse_of_plain (hne : trim raw ≠ "")
    (h : ∀ kind : MalformedCommand, ¬ Begins kind.keyword (trim raw)) :
    parse raw = .ok (some (.global (dropTerminators raw))) := by
  have hline : (trim raw).toList ≠ [] := mt String.toList_eq_nil_iff.1 hne
  have hdirect : keyword? directKeyword (trim raw).toList = none := keyword?_of_not_begins (h .direct)
  have hgroup : keyword? groupKeyword (trim raw).toList = none := keyword?_of_not_begins (h .group)
  rw [parse, if_neg hline]
  simp only [hdirect, hgroup]

/-! ## One reading -/

theorem parse_of_reads {reading : Except MalformedCommand (Option Command)}
    (h : Reads raw reading) : parse raw = reading := by
  cases h with
  | blank h => exact parse_of_blank h
  | command kind target text h =>
    obtain ⟨rest, hrest⟩ := h.begins
    rw [parse_of_begins hrest]
    rw [hrest] at h
    exact complete_of_asks h
  | malformed kind hbegins hnone =>
    obtain ⟨rest, hrest⟩ := hbegins
    rw [parse_of_begins hrest]
    rw [hrest] at hnone
    exact complete_of_not_asks hnone
  | global text tail hline hother hraw hends htail =>
    rw [parse_of_plain hline hother, dropTerminators_eq_iff.2 ⟨hends, tail, hraw, htail⟩]

theorem reads_parse (raw : String) : Reads raw (parse raw) := by
  by_cases hblank : trim raw = ""
  · rw [parse_of_blank hblank]
    exact .blank hblank
  by_cases hbegins : ∃ kind : MalformedCommand, Begins kind.keyword (trim raw)
  · obtain ⟨kind, hkind⟩ := hbegins
    by_cases hasks : ∃ target text, Asks kind.keyword (trim raw) target text
    · obtain ⟨target, text, h⟩ := hasks
      have hreads := Reads.command kind target text h
      rwa [parse_of_reads hreads]
    · have hreads := Reads.malformed kind hkind fun target text h => hasks ⟨target, text, h⟩
      rwa [parse_of_reads hreads]
  · have hother : ∀ kind : MalformedCommand, ¬ Begins kind.keyword (trim raw) :=
      fun kind h => hbegins ⟨kind, h⟩
    obtain ⟨hends, tail, hraw, htail⟩ := dropTerminators_eq_iff.1 (rfl : dropTerminators raw = _)
    rw [parse_of_plain hblank hother]
    exact .global _ tail hblank hother hraw hends htail

/-- **`parse` finds the reading** of a line, which has no other. -/
theorem parse_eq_iff {reading : Except MalformedCommand (Option Command)} :
    parse raw = reading ↔ Reads raw reading :=
  ⟨fun h => h ▸ reads_parse raw, parse_of_reads⟩

theorem parse_eq_command_iff (kind : MalformedCommand) :
    parse raw = .ok (some (kind.command target text)) ↔ Asks kind.keyword (trim raw) target text := by
  refine ⟨fun h => ?_, fun h => parse_of_reads (.command kind target text h)⟩
  have hreads := reads_parse raw
  generalize parse raw = reading at h hreads
  cases hreads with
  | blank _ => cases h
  | command kind' target' text' hasks =>
    rw [Except.ok.injEq, Option.some.injEq] at h
    obtain ⟨rfl, rfl, rfl⟩ := MalformedCommand.command_inj h
    exact hasks
  | malformed _ _ _ => cases h
  | global _ _ _ _ _ _ _ =>
    rw [Except.ok.injEq, Option.some.injEq] at h
    exact absurd h.symm MalformedCommand.command_ne_global

theorem parse_direct (h : parse raw = .ok (some (.direct target text))) :
    Asks directKeyword (trim raw) target text :=
  (parse_eq_command_iff .direct).1 h

theorem parse_group (h : parse raw = .ok (some (.group target text))) :
    Asks groupKeyword (trim raw) target text :=
  (parse_eq_command_iff .group).1 h

/-- A message to everybody is the line without its terminators, and not empty. -/
theorem parse_global (h : parse raw = .ok (some (.global text))) :
    text = dropTerminators raw ∧ text ≠ "" := by
  have hreads := reads_parse raw
  generalize parse raw = reading at h hreads
  cases hreads with
  | blank _ => cases h
  | command kind target text' _ =>
    rw [Except.ok.injEq, Option.some.injEq] at h
    exact absurd h MalformedCommand.command_ne_global
  | malformed _ _ _ => cases h
  | global _ tail hline _ hraw hends htail =>
    cases h
    have htext := dropTerminators_eq_iff.2 ⟨hends, tail, hraw, htail⟩
    exact ⟨htext.symm, fun hempty => hline (trim_eq_empty_of_dropTerminators (htext.trans hempty))⟩

/-- Where a private command ends, its line ends. -/
theorem endsPlain_of_line {front : String} (h : trim raw = front ++ text) (hne : text ≠ "") :
    EndsPlain text :=
  (endsPlain_append front hne).1 (h ▸ endsPlain_trim raw)

/-! ## Blanks, and writing a command -/

/-- What a reading says, apart from the text of a message to everybody. -/
def outline :
    Except MalformedCommand (Option Command) → Except MalformedCommand (Option Command)
  | .ok (some (.global _)) => .ok (some (.global ""))
  | reading => reading

/-- The blanks around a line say nothing else. -/
theorem outline_parse {raw' : String} (h : trim raw' = trim raw) :
    outline (parse raw') = outline (parse raw) := by
  have hreads := reads_parse raw
  generalize parse raw = reading at hreads
  cases hreads with
  | blank hblank => rw [parse_of_blank (h.trans hblank)]
  | command kind target text hasks => rw [(parse_eq_command_iff kind).2 (h ▸ hasks)]
  | malformed kind hbegins hnone => rw [parse_of_reads (.malformed kind (h ▸ hbegins) (h ▸ hnone))]
  | global text tail hline hother _ _ _ =>
    rw [parse_of_plain (h ▸ hline) (h ▸ hother)]
    rfl

/-- **A private command is read back** from its line, unless its text ends in blanks. -/
theorem parse_line (kind : MalformedCommand) (htarget : target ≠ "") (hword : ' ' ∉ target.toList)
    (htext : text ≠ "") (hends : EndsSolid text) :
    parse (kind.command target text).line = .ok (some (kind.command target text)) := by
  have hline := kind.line_command target text
  have htrimmed : IsTrimmed (kind.command target text).line := by
    constructor
    · rw [hline]
      cases kind <;> simp [BeginsSolid, MalformedCommand.keyword, directKeyword, groupKeyword,
        isBlank]
    · rw [hline]
      exact (endsSolid_append _ htext).2 hends
  refine (parse_eq_command_iff kind).2 ⟨?_, htarget, htext, hword⟩
  rw [htrimmed.trim_eq, hline]

/-- **The grammar of commands.** Every line has exactly one reading (`Reads`), and `parse` finds it.
A message to everybody has a text. Blanks around a line change no more than that text, and a private
command is read back from its line. -/
theorem parse_finds_the_reading (raw : String) :
    (∀ reading, parse raw = reading ↔ Reads raw reading) ∧
    (∃! reading, Reads raw reading) ∧
    (∀ keyword target text target' text', Asks keyword (trim raw) target text →
      Asks keyword (trim raw) target' text' → target = target' ∧ text = text') ∧
    (∀ text, Reads raw (.ok (some (.global text))) → text ≠ "") ∧
    (∀ before after, IsPadding before → IsPadding after →
      outline (parse (before ++ raw ++ after)) = outline (parse raw)) ∧
    ∀ (kind : MalformedCommand) (target text : String), target ≠ "" → ' ' ∉ target.toList →
      text ≠ "" → EndsSolid text →
        parse (kind.command target text).line = .ok (some (kind.command target text)) := by
  refine ⟨fun reading => parse_eq_iff, ⟨parse raw, reads_parse raw, ?_⟩, ?_, ?_, ?_, ?_⟩
  · intro reading hreads
    exact (parse_of_reads hreads).symm
  · intro keyword target text target' text' h h'
    exact h.unique h'
  · intro text hreads
    exact (parse_global (parse_of_reads hreads)).2
  · intro before after hbefore hafter
    exact outline_parse (trim_padded hbefore hafter raw)
  · intro kind target text htarget hword htext hends
    exact parse_line kind htarget hword htext hends

theorem parse_finds_the_reading_bob :
    parse "PRIVMSG bob  hi" = .ok (some (.direct "bob" " hi")) ∧
      outline (parse "\t PRIVMSG bob  hi\r\n") = .ok (some (.direct "bob" " hi")) := by
  obtain ⟨-, -, -, -, hpadded, hline⟩ := parse_finds_the_reading "PRIVMSG bob  hi"
  have hparse : parse "PRIVMSG bob  hi" = .ok (some (.direct "bob" " hi")) :=
    hline .direct "bob" " hi" (by decide) (by decide) (by decide) (by decide)
  have houtline := hpadded "\t " "\r\n" (by decide) (by decide)
  rw [hparse] at houtline
  exact ⟨hparse, houtline⟩

end Command

end ChatRoom
