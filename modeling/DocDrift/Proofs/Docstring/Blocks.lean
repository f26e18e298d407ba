import DocDrift.Docstring.Literal
import DocDrift.Proofs.Docstring.Extent

namespace DocDrift.Docstring

/-! # Sections of entries with lines below them

A section is written as blocks of lines.  The first line of a block stands at the indentation of the
section and documents a parameter.  The lines below it never stand there, so reading finds the first lines
only, whatever the convention is.
-/

/-- A line below the first one of a block: a blank one, or one that is deeper than entries are. -/
structure Continuation (indentation : Nat) where
  line : Text
  whole : line.IsWhole
  deeper : (∀ c ∈ line, Text.isBlank c = true) ∨ List.replicate (indentation + 1) ' ' <+: line

structure Block (convention : Convention) (indentation : Nat) where
  first : Text
  below : List (Continuation indentation)
  parameter : Parameter
  whole : first.IsWhole
  opens : isEntry indentation first = true
  reads : convention.entry first = some parameter
  fixed : parameter.name.head? ≠ some '*'

variable {convention : Convention} {indentation : Nat}

def Block.lines (block : Block convention indentation) : List Text :=
  block.first :: block.below.map Continuation.line

theorem isEntry_spaces {text : Text} (trimmed : text.IsTrimmed) (nonempty : text ≠ []) (more : Text) :
    isEntry indentation (List.replicate indentation ' ' ++ (text ++ more)) = true := by
  have long := List.length_pos_iff.mpr nonempty
  simp only [isEntry, trimmed.indentation_spaces nonempty, List.length_append, List.length_replicate,
    Bool.and_eq_true, decide_eq_true_eq, beq_self_eq_true, and_true]
  omega

theorem isEntry_blank {line : Text} (blank : ∀ c ∈ line, Text.isBlank c = true) (indentation : Nat) :
    isEntry indentation line = false := by
  simp only [isEntry, Bool.and_eq_false_iff, decide_eq_false_iff_not, beq_eq_false_iff_ne]
  rw [Text.indentation_blank blank]
  omega

theorem Continuation.not_isEntry (continuation : Continuation indentation) :
    isEntry indentation continuation.line = false := by
  rcases continuation.deeper with blank | indented
  · exact isEntry_blank blank indentation
  · have deeper := Text.le_indentation indented
    simp only [isEntry, Bool.and_eq_false_iff, decide_eq_false_iff_not, beq_eq_false_iff_ne]
    omega

namespace Block

theorem lines_whole (block : Block convention indentation) : ∀ line ∈ block.lines, line.IsWhole := by
  intro line member
  rcases List.mem_cons.mp member with rfl | below
  · exact block.whole
  · obtain ⟨continuation, _, rfl⟩ := List.mem_map.mp below
    exact continuation.whole

theorem documented_lines (block : Block convention indentation) :
    (block.lines.filter (isEntry indentation)).filterMap convention.entry = [block.parameter] := by
  have skipped : (block.below.map Continuation.line).filter (isEntry indentation) = [] := by
    rw [List.filter_eq_nil_iff]
    intro line member
    obtain ⟨continuation, _, rfl⟩ := List.mem_map.mp member
    simp [continuation.not_isEntry]
  simp only [lines, List.filter_cons_of_pos block.opens, skipped, List.filterMap_cons, block.reads,
    List.filterMap_nil]

theorem kept (block : Block convention indentation) (options : SectionOptions) :
    (!(options.skipVariadics && block.parameter.isVariadic)) = true := by
  simp [Parameter.isVariadic, Parameter.isVariadicName, block.fixed]

theorem documented_blocks (blocks : List (Block convention indentation)) :
    ((blocks.flatMap lines).filter (isEntry indentation)).filterMap convention.entry =
      blocks.map parameter := by
  induction blocks with
  | nil => rfl
  | cons block blocks ih =>
      rw [List.flatMap_cons, List.filter_append, List.filterMap_append, documented_lines, ih]
      rfl

/-- The last line may stand where entries do, as long as it documents nothing. -/
theorem filterMap_last {last : Text} (closing : convention.entry last = none) (start : Text → Bool)
    (above : List Text) :
    ((above ++ [last]).filter start).filterMap convention.entry =
      (above.filter start).filterMap convention.entry := by
  have nothing : ([last].filter start).filterMap convention.entry = [] := by
    by_cases starts : start last = true
    · simp [starts, closing]
    · simp [starts]
  rw [List.filter_append, List.filterMap_append, nothing, List.append_nil]

theorem entriesOf_blocks (blocks : List (Block convention indentation)) {last : Text}
    (closing : convention.entry last = none) (options : SectionOptions) :
    entriesOf convention options (blocks.flatMap lines ++ [last]) = blocks.map parameter := by
  have fixed : ∀ found ∈ blocks.map parameter, (!(options.skipVariadics && found.isVariadic)) = true := by
    intro found member
    obtain ⟨block, _, rfl⟩ := List.mem_map.mp member
    exact block.kept options
  rw [entriesOf, filterMap_last closing]
  cases blocks with
  | nil => rfl -- The last line sets the indentation, and no line is left.
  | cons block blocks =>
      have level : Text.indentation (((block :: blocks).flatMap lines ++ [last]).headD []) = indentation := by
        have opens := block.opens
        simp only [isEntry, Bool.and_eq_true, beq_iff_eq] at opens
        exact opens.2
      rw [level, documented_blocks]
      exact List.filter_eq_self.mpr fixed

end Block

theorem closing_whole {quotes : Text} (closing : quotes ∈ delimiters) (spaces : Nat) :
    Text.IsWhole (List.replicate spaces ' ' ++ quotes) ∧ List.replicate spaces ' ' ++ quotes ≠ [] := by
  have plain : ∀ quotes ∈ delimiters, quotes.IsWhole ∧ quotes ≠ [] := by decide
  obtain ⟨whole, nonempty⟩ := plain quotes closing
  exact ⟨(Text.isWhole_replicate spaces).append whole, by simp [nonempty]⟩

/-- A section of blocks documents the parameters of the blocks, in order. -/
theorem parseSection_blocks (blocks : List (Block convention indentation)) {before last : Text}
    {lead : List Text} {options : SectionOptions} (absent : ¬ convention.header <:+: before)
    (leading : lead.length = convention.leadingLines) (whole : ∀ line ∈ lead, line.IsWhole)
    (ends : last.IsWhole) (nonempty : last ≠ []) (closing : convention.entry last = none) :
    let text := Text.ofLines (lead ++ blocks.flatMap Block.lines) last
    (∀ needle ∈ convention.terminators, ¬ needle <:+: text) →
    (options.breakOnBlankLine = true → beforeBlankLine text = text) →
      parseSection convention options (before ++ (convention.header ++ text)) =
        some (blocks.map Block.parameter) := by
  intro text unended unbroken
  have all : ∀ line ∈ lead ++ blocks.flatMap Block.lines, line.IsWhole := by
    intro line member
    rcases List.mem_append.mp member with above | inside
    · exact whole line above
    · obtain ⟨block, _, inside⟩ := List.mem_flatMap.mp inside
      exact block.lines_whole line inside
  have kept : (if options.breakOnBlankLine then beforeBlankLine text else text) = text := by
    split
    · exact unbroken ‹_›
    · rfl
  have lines : (sectionLines convention options text).drop convention.leadingLines =
      blocks.flatMap Block.lines ++ [last] := by
    rw [sectionLines_eq, extent_absent unended, kept, Text.lines_ofLines all ends nonempty, List.append_assoc,
      ← leading, List.drop_left]
  rw [parseSection_header absent, readLines_of_ne_nil (by simp [lines]), lines,
    Block.entriesOf_blocks blocks closing]

end DocDrift.Docstring
