import DocDrift.Proofs.Docstring.BlankLines
import DocDrift.Proofs.Generated.Header

namespace DocDrift

/-! # Reading a generated section

A generated section is a Google section without a blank line, so it is read as it was written, wherever
sections end.
-/

namespace Generated

open Docstring

/-- Whether a colon stands at the end of a line. -/
def EndsInColon (text : Text) : Prop := [':', '\n'] <:+: text

theorem endsInColon_cons {line rest : Text} (whole : line.IsWhole) (last : line.getLast? ≠ some ':')
    (ends : EndsInColon (line ++ '\n' :: rest)) : EndsInColon rest := by
  rcases @Text.infix_below [':'] line rest (by decide) whole.newline ends with ⟨front, rfl⟩ | below
  · exact absurd List.getLast?_concat last
  · exact below

/-- The section between its header and the end of the docstring. -/
def sectionText (items : List Entry) : Text :=
  items.flatMap (fun entry => entry.line ++ ['\n']) ++ (List.replicate 4 ' ' ++ quotes)

theorem sectionText_cons (entry : Entry) (items : List Entry) :
    sectionText (entry :: items) = entry.line ++ '\n' :: sectionText items := by
  simp [sectionText]

theorem sectionText_eq (items : List Entry) :
    sectionText items = Text.ofLines (items.map Entry.line) (List.replicate 4 ' ' ++ quotes) := by
  rw [sectionText, Text.ofLines, List.flatMap_map]

theorem isLineBreak_of_isPlainChar {c : Char} (plain : isPlainChar c = true) :
    Text.isLineBreak c = false := by
  have tested := forall_ascii (q := fun c => !Text.isLineBreak c) (fun _ => toNat_of_isPlainChar)
    (by decide +kernel) plain
  simpa using tested

theorem Entry.line_whole {entry : Entry} (valid : entry.isValid = true) : entry.line.IsWhole := by
  intro c member
  rcases isPlainChar_of_line valid member with plain | rfl
  · exact isLineBreak_of_isPlainChar plain
  · decide

theorem Entry.line_getLast? (entry : Entry) : entry.line.getLast? = some '.' := by
  rw [line, List.getLast?_append]
  rfl

theorem not_endsInColon {items : List Entry} (valid : ∀ entry ∈ items, entry.isValid = true) :
    ¬ EndsInColon (sectionText items) := by
  induction items with
  | nil =>
      intro ends
      have member : ':' ∈ sectionText [] := ends.subset List.mem_cons_self
      exact absurd member (by decide)
  | cons entry items ih =>
      rw [sectionText_cons]
      intro ends
      have whole := Entry.line_whole (valid entry List.mem_cons_self)
      refine ih (fun other member => valid other (List.mem_cons_of_mem entry member)) ?_
      refine endsInColon_cons whole ?_ ends
      simp [Entry.line_getLast?]

theorem terminators_absent {text : Text} (absent : ¬ EndsInColon text) :
    ∀ needle ∈ Convention.google.terminators, ¬ needle <:+: text := by
  have suffix : ∀ needle ∈ Convention.google.terminators, [':', '\n'] <:+ needle := by
    decide +kernel
  intro needle member inside
  exact absent ((suffix needle member).isInfix.trans inside)

theorem Entry.documented_cons {entry : Entry} (valid : entry.isValid = true) :
    ∃ c rest, entry.documented = c :: rest ∧ isIdentifierChar c = true := by
  obtain ⟨name, type, value⟩ := entry
  simp only [isValid, Bool.and_eq_true] at valid
  obtain ⟨c, rest, rfl, parts⟩ := isIdentifier_cons valid.1.1.1
  cases type with
  | none => exact ⟨c, rest, rfl, parts c List.mem_cons_self⟩
  | some type => exact ⟨c, _, rfl, parts c List.mem_cons_self⟩

theorem isBlank_of_isIdentifierChar {c : Char} (part : isIdentifierChar c = true) :
    Text.isBlank c = false := by
  have delimiter := (identifierChar_facts part).1
  simp only [Token.isDelimiter, Bool.or_eq_false_iff] at delimiter
  exact delimiter.1.1.1

theorem Entry.line_indented {entry : Entry} (valid : entry.isValid = true) :
    ∃ c rest, entry.line = List.replicate 8 ' ' ++ c :: rest ∧ Text.isBlank c = false := by
  obtain ⟨c, rest, same, part⟩ := documented_cons valid
  refine ⟨c, rest ++ [':', ' ', 'd', '.'], ?_, isBlank_of_isIdentifierChar part⟩
  rw [line, same, List.append_assoc, List.cons_append]

theorem sectionText_indented {items : List Entry} (valid : ∀ entry ∈ items, entry.isValid = true) :
    ∃ n c rest, sectionText items = List.replicate n ' ' ++ c :: rest ∧ Text.isBlank c = false := by
  cases items with
  | nil => exact ⟨4, '\x22', ['\x22', '\x22'], rfl, by decide⟩
  | cons entry items =>
      obtain ⟨c, rest, same, first⟩ := Entry.line_indented (valid entry List.mem_cons_self)
      refine ⟨8, c, rest ++ '\n' :: sectionText items, ?_, first⟩
      rw [sectionText_cons, same, List.append_assoc, List.cons_append]

theorem beforeBlankLine_sectionText {items : List Entry}
    (valid : ∀ entry ∈ items, entry.isValid = true) :
    beforeBlankLine (sectionText items) = sectionText items := by
  induction items with
  | nil => decide
  | cons entry items ih =>
      have later : ∀ other ∈ items, other.isValid = true :=
        fun other member => valid other (List.mem_cons_of_mem entry member)
      have whole := Entry.line_whole (valid entry List.mem_cons_self)
      have next : ((sectionText items).dropWhile fun c => c != '\n' && Text.isBlank c).head? ≠
          some '\n' := by
        obtain ⟨n, c, rest, same, first⟩ := sectionText_indented later
        have notNewline : c ≠ '\n' := by rintro rfl; contradiction
        rw [same, List.dropWhile_append_of_pos]
        · simpa [first] using notNewline
        · intro d member
          obtain rfl := List.eq_of_mem_replicate member
          decide
      rw [sectionText_cons, beforeBlankLine_cons whole.newline next, ih later]

/-- The mark of an optional parameter would be a comma outside all brackets. -/
theorem isNested_optionalMark (front : Text) (opened : List Bracket) :
    isNested opened (front ++ optionalMark) = false := by
  induction front generalizing opened with
  | nil =>
      have marked : isNested opened optionalMark = (!opened.isEmpty && opened.isEmpty) := rfl
      rw [List.nil_append, marked, Bool.not_and_self]
  | cons c front ih =>
      simp only [List.cons_append, isNested]
      split
      · exact ih _
      · split
        · simp [ih]
        · rfl
      · simp [ih]
      · exact ih _

theorem not_optionalMark {type : Text} (parts : Expression type) : ¬ optionalMark <:+ type := by
  rintro ⟨front, rfl⟩
  have nested := parts.nested
  rw [isNested_optionalMark] at nested
  contradiction

theorem Entry.name_plain {entry : Entry} (valid : entry.isValid = true) :
    entry.name ≠ [] ∧ ∀ c ∈ entry.name, isIdentifierChar c = true := by
  simp only [isValid, Bool.and_eq_true] at valid
  obtain ⟨c, rest, same, parts⟩ := isIdentifier_cons valid.1.1.1
  rw [same]
  exact ⟨List.cons_ne_nil c rest, parts⟩

theorem Entry.type_expression {entry : Entry} (valid : entry.isValid = true) :
    ∀ type ∈ entry.type, Expression type := by
  simp only [isValid, Bool.and_eq_true] at valid
  obtain ⟨⟨_, validType⟩, _⟩ := valid
  intro type typed
  rw [Option.mem_def.mp typed] at validType
  exact expression validType

/-- The entry with the description that all generated entries have. -/
def Entry.written (entry : Entry) (valid : entry.isValid = true) : Google.Entry 8 where
  name := entry.name
  type := entry.type
  isOptional := false
  description := [' ', 'd', '.']
  below := []
  name_nonempty := (name_plain valid).1
  name_plain c member :=
    ⟨isBlank_of_isIdentifierChar ((name_plain valid).2 c member), by
      rintro rfl
      exact absurd ((name_plain valid).2 _ member) (by decide)⟩
  name_fixed head := absurd ((name_plain valid).2 '*' (List.mem_of_head? head)) (by decide)
  type_plain type typed :=
    ⟨fun c member => isLineBreak_of_isPlainChar ((type_expression valid type typed).plain c member),
      fun member => absurd ((type_expression valid type typed).plain ':' member) (by decide)⟩
  type_unmarked _ type typed := not_optionalMark (type_expression valid type typed)
  description_whole := by decide

theorem Entry.first_written {entry : Entry} (valid : entry.isValid = true) :
    (entry.written valid).first = entry.line := by
  obtain ⟨name, type, value⟩ := entry
  cases type with
  | none => rfl
  | some type => simp [Google.Entry.first, Google.Entry.argument, Google.Entry.mark, written, line, documented]

theorem exists_written {items : List Entry} (valid : ∀ entry ∈ items, entry.isValid = true) :
    ∃ entries : List (Google.Entry 8), entries.flatMap Google.Entry.lines = items.map Entry.line ∧
      entries.map Google.Entry.parameter = items.map Entry.parameter := by
  induction items with
  | nil => exact ⟨[], rfl, rfl⟩
  | cons entry items ih =>
      have own := valid entry List.mem_cons_self
      obtain ⟨entries, lines, parameters⟩ :=
        ih fun other member => valid other (List.mem_cons_of_mem entry member)
      refine ⟨entry.written own :: entries, ?_, ?_⟩
      · rw [List.flatMap_cons, lines, Google.Entry.lines, Entry.first_written]
        rfl
      · rw [List.map_cons, parameters]
        rfl

/-- The docstring is read as a section under the Google convention. -/
theorem parseSection_docstring {items : List Entry}
    (valid : ∀ entry ∈ items, entry.isValid = true) (options : SectionOptions) :
    parseSection .google options (docstring items) = some (items.map Entry.parameter) := by
  obtain ⟨entries, lines, parameters⟩ := exists_written valid
  have shape : docstring items = quotes ++ "Summary.\n\n    ".toList ++
      (Convention.google.header ++ sectionText items) := by
    have split : opening = "Summary.\n\n    ".toList ++ Convention.google.header := by decide +kernel
    simp only [docstring, content, sectionText, split, List.append_assoc]
  have unended := terminators_absent (not_endsInColon valid)
  have unbroken := beforeBlankLine_sectionText valid
  rw [sectionText_eq, ← lines] at unended unbroken
  rw [shape, sectionText_eq, ← lines, ← parameters]
  exact Google.parseSection_entries entries (by decide +kernel) (by decide) (by decide) (by decide) unended
    fun _ => unbroken

end Generated
end DocDrift
