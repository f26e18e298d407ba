import DocDrift.Proofs.Docstring.Google
import DocDrift.Proofs.Docstring.Numpy

namespace DocDrift.Docstring

/-! # Sections that end at blank lines

A blank line is seen between two line feeds.  The first of them may end a line of the section, but it is not
the one that ends the header.
-/

theorem beforeBlankLine_append {line : Text} (whole : '\n' ∉ line) (rest : Text) :
    beforeBlankLine (line ++ rest) = line ++ beforeBlankLine rest := by
  induction line with
  | nil => rfl
  | cons c line ih =>
      simp only [List.mem_cons, not_or] at whole
      obtain ⟨other, later⟩ := whole
      simp [beforeBlankLine, Ne.symm other, ih later]

/-- A line is kept with its end, if what follows does not start with a blank line. -/
theorem beforeBlankLine_cons {line rest : Text} (whole : '\n' ∉ line)
    (next : (rest.dropWhile fun c => c != '\n' && Text.isBlank c).head? ≠ some '\n') :
    beforeBlankLine (line ++ '\n' :: rest) = line ++ '\n' :: beforeBlankLine rest := by
  rw [beforeBlankLine_append whole]
  simp [beforeBlankLine, next]

theorem beforeBlankLine_last {line : Text} (whole : '\n' ∉ line) : beforeBlankLine line = line := by
  have kept := beforeBlankLine_append whole []
  rwa [beforeBlankLine, List.append_nil] at kept

/-- What is dropped starts with a line feed. -/
theorem beforeBlankLine_split (text : Text) :
    beforeBlankLine text = text ∨ ∃ rest, text = beforeBlankLine text ++ '\n' :: rest := by
  induction text with
  | nil => exact .inl rfl
  | cons c rest ih =>
      rw [beforeBlankLine]
      split
      · rename_i blank
        simp only [Bool.and_eq_true, decide_eq_true_eq] at blank
        exact .inr ⟨rest, congrArg (· :: rest) blank.1⟩
      · rcases ih with same | ⟨more, same⟩
        · exact .inl (congrArg (c :: ·) same)
        · exact .inr ⟨more, congrArg (c :: ·) same⟩

theorem head?_dropWhile_newline (front rest : Text) :
    ((front ++ '\n' :: rest).dropWhile fun c => c != '\n' && Text.isBlank c).head? =
      ((front ++ ['\n']).dropWhile fun c => c != '\n' && Text.isBlank c).head? := by
  rw [List.dropWhile_append, List.dropWhile_append]
  split
  · rfl
  · rename_i kept
    rw [List.isEmpty_iff] at kept
    rw [List.head?_append_of_ne_nil _ kept, List.head?_append_of_ne_nil _ kept]

/-- The lines behind a blank one do not matter. -/
theorem beforeBlankLine_blank {blanks : Text} (blank : ∀ c ∈ blanks, Text.isBlank c = true ∧ c ≠ '\n')
    (front rest : Text) :
    beforeBlankLine (front ++ '\n' :: (blanks ++ '\n' :: rest)) = beforeBlankLine (front ++ ['\n', '\n']) := by
  induction front with
  | nil =>
      have passed : (blanks ++ '\n' :: rest).dropWhile (fun c => c != '\n' && Text.isBlank c) =
          '\n' :: rest := by
        rw [List.dropWhile_append_of_pos]
        · rfl
        · intro c member
          simp [blank c member]
      simp [beforeBlankLine, passed]
  | cons c front ih =>
      rw [List.cons_append, List.cons_append, beforeBlankLine, beforeBlankLine, ih, head?_dropWhile_newline,
        head?_dropWhile_newline front ['\n']]

variable {convention : Convention} {options : SectionOptions}

/-! ## Shorter sections -/

theorem entriesOf_append {lines : List Text} (nonempty : lines ≠ []) (more : List Text) :
    entriesOf convention options lines <+: entriesOf convention options (lines ++ more) := by
  -- The indentation is that of the first line, which both have.
  obtain ⟨first, rest, rfl⟩ := List.exists_cons_of_ne_nil nonempty
  apply List.IsPrefix.filter
  apply List.IsPrefix.filterMap
  apply List.IsPrefix.filter
  exact List.prefix_append _ _

theorem readLines_append (lines more : List Text) :
    readLines convention options lines = none ∨ ∃ fewer all, readLines convention options lines = some fewer ∧
      readLines convention options (lines ++ more) = some all ∧ fewer <+: all := by
  by_cases content : lines.drop convention.leadingLines = []
  · exact .inl (by rw [readLines, content])
  · have inside : convention.leadingLines ≤ lines.length := by
      have size := List.length_pos_iff.mpr content
      rw [List.length_drop] at size
      omega
    have longer : (lines ++ more).drop convention.leadingLines = lines.drop convention.leadingLines ++ more :=
      List.drop_append_of_le_length inside
    refine .inr ⟨_, _, readLines_of_ne_nil content, readLines_of_ne_nil ?_, ?_⟩
    · rw [longer]
      exact List.append_ne_nil_of_left_ne_nil content more
    · rw [longer]
      exact entriesOf_append content more

theorem sectionLines_shorter (text : Text) (skipVariadics : Bool) :
    sectionLines convention ⟨true, skipVariadics⟩ text <+: sectionLines convention ⟨false, skipVariadics⟩ text := by
  rw [sectionLines_eq, sectionLines_eq]
  rcases beforeBlankLine_split (extent convention text) with same | ⟨rest, same⟩
  · simp [same]
  · have below := Text.lines_prefix (beforeBlankLine (extent convention text)) rest
    rwa [← same] at below

/-- A section that ends at a blank line documents the first of the parameters, or none is left of it. -/
theorem parse_shorter (convention : Convention) (skipVariadics : Bool) (docstring : Text) :
    parse (.fixed convention) ⟨true, skipVariadics⟩ docstring = none ∨
      ∃ fewer all, parse (.fixed convention) ⟨true, skipVariadics⟩ docstring = some fewer ∧
        parse (.fixed convention) ⟨false, skipVariadics⟩ docstring = some all ∧ fewer <+: all := by
  cases opened : Text.cut convention.header docstring with
  | none => exact .inl (by rw [parse, parseSection, opened])
  | some parts =>
      obtain ⟨before, text⟩ := parts
      obtain ⟨more, same⟩ := @sectionLines_shorter convention text skipVariadics
      rw [parse, parse, parseSection_cut opened, parseSection_cut opened, ← same]
      exact readLines_append _ more

/-! ## The first blank line -/

/-- Behind a blank line below the first line of a section, nothing is read. -/
theorem sectionLines_blank {front blanks : Text} (blank : ∀ c ∈ blanks, Text.isBlank c = true ∧ c ≠ '\n')
    (skipVariadics : Bool) (below other : Text) :
    sectionLines convention ⟨true, skipVariadics⟩ (front ++ '\n' :: (blanks ++ '\n' :: below)) =
      sectionLines convention ⟨true, skipVariadics⟩ (front ++ '\n' :: (blanks ++ '\n' :: other)) := by
  have split : ∀ rest,
      front ++ '\n' :: (blanks ++ '\n' :: rest) = (front ++ '\n' :: blanks) ++ '\n' :: rest := by
    simp
  have alike : beforeBlankLine (extent convention (front ++ '\n' :: (blanks ++ '\n' :: below))) =
      beforeBlankLine (extent convention (front ++ '\n' :: (blanks ++ '\n' :: other))) := by
    rw [split, split]
    -- The section ends before the blank line, or both texts have that line.
    by_cases ended : ∃ terminator ∈ convention.terminators, terminator <:+: (front ++ '\n' :: blanks) ++ ['\n']
    · obtain ⟨terminator, member, inside⟩ := ended
      rw [extent_ended member inside below, extent_ended member inside other]
    · have absent : ∀ terminator ∈ convention.terminators,
          ¬ terminator <:+: (front ++ '\n' :: blanks) ++ ['\n'] :=
        fun terminator member inside => ended ⟨terminator, member, inside⟩
      obtain ⟨more, same⟩ := extent_open absent below
      obtain ⟨otherMore, otherSame⟩ := extent_open absent other
      rw [same, otherSame, ← split, ← split, beforeBlankLine_blank blank, beforeBlankLine_blank blank]
  rw [sectionLines_eq, sectionLines_eq]
  exact congrArg Text.lines alike

theorem endWords_visible {word : Text} (ends : word ∈ convention.endWords) :
    ∃ c ∈ word, Text.isBlank c = false := by
  have visible : ∀ word ∈ convention.endWords, word.all Text.isBlank = false := by
    cases convention <;> decide
  simpa using List.all_eq_false.mp (visible word ends)

section Padded

variable {blanks : Text} (blank : ∀ c ∈ blanks, Text.isBlank c = true ∧ c ≠ '\n')

include blank

/-- A blank first line ends nothing: there the section is as long as the text. -/
theorem sectionLines_padded {last : Text} (whole : '\n' ∉ last) :
    sectionLines convention options (blanks ++ '\n' :: last) =
      Text.lines (blanks ++ ['\n']) ++ Text.lines last := by
  have unbroken : '\n' ∉ blanks := fun member => (blank '\n' member).2 rfl
  have absent : ∀ terminator ∈ convention.terminators, ¬ terminator <:+: blanks ++ '\n' :: last := by
    intro terminator member inside
    obtain ⟨word, ends, rfl⟩ := terminator_word member
    rcases Text.infix_below (endWords_plain word ends).1.newline unbroken inside with above | below
    · obtain ⟨c, inWord, visible⟩ := endWords_visible ends
      have hidden := (blank c (above.subset inWord)).1
      rw [visible] at hidden
      contradiction
    · exact whole (below.subset (by simp))
  have next : (last.dropWhile fun c => c != '\n' && Text.isBlank c).head? ≠ some '\n' := by
    intro first
    exact whole ((List.dropWhile_suffix _).subset (List.mem_of_head? first))
  have kept : beforeBlankLine (blanks ++ '\n' :: last) = blanks ++ '\n' :: last := by
    rw [beforeBlankLine_cons unbroken next, beforeBlankLine_last whole]
  rw [sectionLines_eq, extent_absent absent, kept, ite_self, Text.lines_append_newline]

theorem lines_padded : ∀ line ∈ Text.lines (blanks ++ ['\n']), ∀ c ∈ line, Text.isBlank c = true := by
  intro line member c inLine
  have inLines : c ∈ (Text.lines (blanks ++ ['\n'])).flatten := List.mem_flatten_of_mem member inLine
  rw [Text.flatten_lines] at inLines
  rcases List.mem_append.mp (List.mem_of_mem_filter inLines) with inBlanks | isEnd
  · exact (blank c inBlanks).1
  · obtain rfl := List.mem_singleton.mp isEnd
    decide

end Padded

theorem exists_block (convention : Convention) (indentation : Nat) :
    Nonempty (Block convention indentation) := by
  cases convention with
  | google =>
      let entry : Google.Entry indentation :=
        ⟨['x'], none, false, [], [], by decide, List.forall_mem_singleton.mpr (by decide), by decide, by decide,
          by decide, by decide⟩
      exact ⟨entry.block⟩
  | numpy =>
      let entry : Numpy.Entry indentation :=
        ⟨['x'], none, 0, 0, [], by decide, by decide, ⟨'x', by decide⟩, by decide, by decide⟩
      exact ⟨entry.block⟩

section BlankAbove

variable {above : List Text} (blank : ∀ line ∈ above, ∀ c ∈ line, Text.isBlank c = true)

include blank

theorem filter_blank (indentation : Nat) : above.filter (isEntry indentation) = [] := by
  rw [List.filter_eq_nil_iff]
  intro line member
  simp [isEntry_blank (blank line member)]

theorem entriesOf_blank : entriesOf convention options above = [] := by
  rw [entriesOf, filter_blank blank]
  rfl

/-- Blank lines set the indentation, and only what stands below them is read. -/
theorem entriesOf_below (block : Block convention (Text.indentation (above.headD []))) :
    entriesOf convention options (above ++ [block.first]) = [block.parameter] := by
  have opens := block.opens
  have level : Text.indentation ((above ++ [block.first]).headD []) = Text.indentation (above.headD []) := by
    cases above with
    | nil =>
        simp only [isEntry, Bool.and_eq_true, beq_iff_eq] at opens
        exact opens.2
    | cons line above => rfl
  have documented : ((above ++ [block.first]).filter (isEntry (Text.indentation (above.headD [])))).filterMap
      convention.entry = [block.parameter] := by
    simp only [List.filter_append, filter_blank blank, List.nil_append, List.filter_cons_of_pos opens,
      List.filter_nil, List.filterMap_cons, block.reads, List.filterMap_nil]
  rw [entriesOf, level, documented]
  exact List.filter_cons_of_pos (block.kept options)

/-- A line can be put below blank ones that changes what they document. -/
theorem exists_below (lead : convention.leadingLines ≤ above.length) (options : SectionOptions) :
    ∃ below : Text, below.IsWhole ∧ below ≠ [] ∧
      readLines convention options (above ++ [below]) ≠ readLines convention options above := by
  have inner : ∀ line ∈ above.drop convention.leadingLines, ∀ c ∈ line, Text.isBlank c = true :=
    fun line member => blank line (List.mem_of_mem_drop member)
  obtain ⟨block⟩ :=
    exists_block convention (Text.indentation ((above.drop convention.leadingLines).headD []))
  refine ⟨block.first, block.whole, ?_, ?_⟩
  · intro empty
    have opens := block.opens
    simp [empty, isEntry] at opens
  · have longer : (above ++ [block.first]).drop convention.leadingLines =
        above.drop convention.leadingLines ++ [block.first] :=
      List.drop_append_of_le_length lead
    rw [readLines_of_ne_nil (by simp [longer]), longer, entriesOf_below inner]
    by_cases content : above.drop convention.leadingLines = []
    · simp [readLines, content]
    · simp [readLines_of_ne_nil content, entriesOf_blank inner]

end BlankAbove

/-- A blank line ends a section wherever it stands, except for the first line below the header. -/
theorem parse_blank_line_iff {before above blanks : Text} (absent : ¬ convention.header <:+: before)
    (ends : ∀ c ∈ above.getLast?, c = '\n') (blank : ∀ c ∈ blanks, Text.isBlank c = true ∧ c ≠ '\n')
    (skipVariadics : Bool) :
    (∀ below other,
      parse (.fixed convention) ⟨true, skipVariadics⟩
          (before ++ (convention.header ++ (above ++ (blanks ++ '\n' :: below)))) =
        parse (.fixed convention) ⟨true, skipVariadics⟩
          (before ++ (convention.header ++ (above ++ (blanks ++ '\n' :: other))))) ↔
      above ≠ [] := by
  constructor
  · rintro alike rfl
    have lead : convention.leadingLines ≤ (Text.lines (blanks ++ ['\n'])).length := by
      have content : 0 < (Text.lines (blanks ++ ['\n'])).length :=
        List.length_pos_iff.mpr fun none => absurd (Text.lines_eq_nil none) (by simp)
      cases convention with
      | google => exact Nat.zero_le _
      | numpy => exact content
    obtain ⟨below, whole, nonempty, differ⟩ := exists_below (lines_padded blank) lead ⟨true, skipVariadics⟩
    have same := alike below []
    have empty : Text.lines [] = [] := rfl
    simp only [List.nil_append, parse, parseSection_header absent, sectionLines_padded blank whole.newline,
      sectionLines_padded blank List.not_mem_nil, Text.lines_last whole nonempty, empty,
      List.append_nil] at same
    exact differ same
  · intro nonempty below other
    obtain ⟨front, c, rfl⟩ := (List.eq_nil_or_concat' above).resolve_left nonempty
    obtain rfl : c = '\n' := ends c (by simp)
    have same := @sectionLines_blank convention front blanks blank skipVariadics below other
    rw [List.append_assoc, List.append_assoc, parse, parse, parseSection_header absent,
      parseSection_header absent]
    exact congrArg _ same

/-- A blank line of a tab and a carriage return, below an entry. -/
theorem parse_blank_line_below :
    let above := "---\nx : int\n".toList
    let blanks := ['\t', '\r']
    (¬ Convention.numpy.header <:+: "Parameters: \n".toList) ∧ (∀ c ∈ above.getLast?, c = '\n') ∧
      (∀ c ∈ blanks, Text.isBlank c = true ∧ c ≠ '\n') ∧
      parse (.fixed .numpy) ⟨true, true⟩ ("Parameters: \n".toList ++ (Convention.numpy.header ++
          (above ++ (blanks ++ '\n' :: "y : str\n".toList)))) =
        parse (.fixed .numpy) ⟨true, true⟩ ("Parameters: \n".toList ++ (Convention.numpy.header ++
          (above ++ (blanks ++ '\n' :: [])))) ∧
      parse (.fixed .numpy) ⟨true, true⟩ ("Parameters: \n".toList ++ (Convention.numpy.header ++
          (above ++ (blanks ++ '\n' :: [])))) = some [⟨['x'], some "int".toList⟩] := by
  intro above blanks
  have absent : ¬ Convention.numpy.header <:+: "Parameters: \n".toList := by decide +kernel
  have ends : ∀ c ∈ above.getLast?, c = '\n' := by
    have last : above.getLast? = some '\n' := by decide +kernel
    simp [last]
  have blank : ∀ c ∈ blanks, Text.isBlank c = true ∧ c ≠ '\n' :=
    List.forall_mem_cons.mpr ⟨by decide, List.forall_mem_singleton.mpr (by decide)⟩
  have nonempty : above ≠ [] := by decide +kernel
  exact ⟨absent, ends, blank, (parse_blank_line_iff absent ends blank true).mpr nonempty _ [],
    by decide +kernel⟩

/-- Below a header, a line of nothing does not end the section. -/
theorem parse_blank_first_line :
    parse (.fixed .google) ⟨true, true⟩ (Convention.google.header ++ '\n' :: "x: The x.\n".toList) =
        some [⟨['x'], none⟩] ∧
      parse (.fixed .google) ⟨true, true⟩ (Convention.google.header ++ '\n' :: []) = some [] := by
  decide +kernel

end DocDrift.Docstring
