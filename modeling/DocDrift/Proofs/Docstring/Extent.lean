import DocDrift.Docstring.Section
import DocDrift.Proofs.Text.LineEnds

namespace DocDrift.Docstring

/-! # The extent of a section

A section ends before the first of its terminators.  A terminator is a word and a line feed, so whether one
stands in the lines up to a line feed does not depend on what follows.
-/

/-- The words that end a section when a line feed follows. -/
def Convention.endWords : Convention → List Text
  | google => ["Yields:".toList, "Returns:".toList, "Raises:".toList]
  | numpy => ["Returns".toList]

/-- The text of a section, from below its header to its first terminator. -/
def extent (convention : Convention) (text : Text) : Text := text.take (firstOf convention.terminators text)

/-- What the lines of a section document, if there is one beyond the leading ones. -/
def readLines (convention : Convention) (options : SectionOptions) (lines : List Text) :
    Option (List Parameter) :=
  match lines.drop convention.leadingLines with
  | [] => none
  | lines => some (entriesOf convention options lines)

variable {convention : Convention} {options : SectionOptions}

theorem cut_header {before : Text} (absent : ¬ convention.header <:+: before) (text : Text) :
    Text.cut convention.header (before ++ (convention.header ++ text)) = some (before, text) := by
  cases convention with
  | google => exact Text.cut_behind (by decide) absent text
  | numpy => exact Text.cut_behind (by decide) absent text

theorem parseSection_cut {docstring before text : Text}
    (opened : Text.cut convention.header docstring = some (before, text)) :
    parseSection convention options docstring =
      readLines convention options (sectionLines convention options text) := by
  rw [parseSection, opened]
  rfl

theorem parseSection_header {before : Text} (absent : ¬ convention.header <:+: before) (text : Text) :
    parseSection convention options (before ++ (convention.header ++ text)) =
      readLines convention options (sectionLines convention options text) :=
  parseSection_cut (cut_header absent text)

theorem readLines_of_ne_nil {lines : List Text} (content : lines.drop convention.leadingLines ≠ []) :
    readLines convention options lines =
      some (entriesOf convention options (lines.drop convention.leadingLines)) := by
  rw [readLines]
  split
  · contradiction
  · rfl

theorem sectionLines_eq (text : Text) :
    sectionLines convention options text =
      Text.lines (if options.breakOnBlankLine then beforeBlankLine (extent convention text)
        else extent convention text) := rfl

theorem terminators_eq (convention : Convention) :
    convention.terminators = convention.endWords.map (· ++ ['\n']) := by
  cases convention <;> decide

theorem endWords_plain : ∀ word ∈ convention.endWords, word.IsWhole ∧ word ≠ [] := by
  cases convention <;> decide

theorem terminator_word {terminator : Text} (member : terminator ∈ convention.terminators) :
    ∃ word ∈ convention.endWords, terminator = word ++ ['\n'] := by
  rw [terminators_eq] at member
  obtain ⟨word, ends, same⟩ := List.mem_map.mp member
  exact ⟨word, ends, same.symm⟩

/-! ## The first terminator -/

theorem firstOf_absent {needles : List Text} {text : Text} (absent : ∀ needle ∈ needles, ¬ needle <:+: text) :
    firstOf needles text = text.length := by
  have unfound : needles.filterMap (Text.find · text) = [] := by
    rw [List.filterMap_eq_nil_iff]
    intro needle member
    exact Text.find_eq_none (absent needle member)
  rw [firstOf, unfound]
  rfl

theorem extent_absent {text : Text} (absent : ∀ terminator ∈ convention.terminators, ¬ terminator <:+: text) :
    extent convention text = text := by
  rw [extent, firstOf_absent absent, List.take_length]

theorem le_foldl_min {n start : Nat} {offsets : List Nat} :
    n ≤ offsets.foldl min start ↔ n ≤ start ∧ ∀ i ∈ offsets, n ≤ i := by
  induction offsets generalizing start with
  | nil => simp
  | cons i offsets ih => rw [List.foldl_cons, ih, List.forall_mem_cons, Nat.le_min, and_assoc]

theorem le_firstOf {n : Nat} {needles : List Text} {text : Text} :
    n ≤ firstOf needles text ↔
      n ≤ text.length ∧ ∀ needle ∈ needles, ∀ i, Text.find needle text = some i → n ≤ i := by
  rw [firstOf, le_foldl_min]
  simp only [List.mem_filterMap, forall_exists_index, and_imp]
  constructor
  · intro ⟨inside, before⟩
    exact ⟨inside, fun needle member i found => before i needle member found⟩
  · intro ⟨inside, before⟩
    exact ⟨inside, fun i needle member found => before needle member i found⟩

theorem firstOf_le {needles : List Text} {needle text : Text} {i : Nat} (member : needle ∈ needles)
    (found : Text.find needle text = some i) : firstOf needles text ≤ i :=
  (le_firstOf.mp (Nat.le_refl _)).2 needle member i found

theorem find_terminator {terminator : Text} (member : terminator ∈ convention.terminators) (front rest : Text) :
    Text.find terminator (front ++ '\n' :: rest) =
      (Text.find terminator (front ++ ['\n'])).or
        ((Text.find terminator rest).map (· + (front.length + 1))) := by
  obtain ⟨word, ends, rfl⟩ := terminator_word member
  obtain ⟨whole, nonempty⟩ := endWords_plain word ends
  exact Text.find_newline whole.newline nonempty front rest

theorem firstOf_ended {terminator front : Text} (member : terminator ∈ convention.terminators)
    (inside : terminator <:+: front ++ ['\n']) (rest : Text) :
    firstOf convention.terminators (front ++ '\n' :: rest) =
      firstOf convention.terminators (front ++ ['\n']) := by
  obtain ⟨i, found⟩ := Text.find_of_infix inside
  have short := Text.find_bound found
  have early := firstOf_le member found
  have split : front ++ '\n' :: rest = front ++ ['\n'] ++ rest := List.append_cons front '\n' rest
  apply Nat.le_antisymm
  · have kept : ∀ other ∈ convention.terminators, ∀ j, Text.find other (front ++ ['\n']) = some j →
        firstOf convention.terminators (front ++ '\n' :: rest) ≤ j := by
      intro other otherMember j position
      apply firstOf_le otherMember
      rw [split]
      exact Text.find_append position rest
    have bounded := kept terminator member i found
    exact le_firstOf.mpr ⟨by omega, kept⟩
  · refine le_firstOf.mpr ⟨by rw [split, List.length_append]; omega, fun other otherMember j position => ?_⟩
    rw [find_terminator otherMember] at position
    rcases Option.or_eq_some_iff.mp position with inFront | ⟨_, behind⟩
    · exact firstOf_le otherMember inFront
    · obtain ⟨k, _, rfl⟩ := Option.map_eq_some_iff.mp behind
      rw [List.length_append, List.length_singleton] at short
      omega

/-- What stands behind a terminator does not matter. -/
theorem extent_ended {terminator front : Text} (member : terminator ∈ convention.terminators)
    (inside : terminator <:+: front ++ ['\n']) (rest : Text) :
    extent convention (front ++ '\n' :: rest) = extent convention (front ++ ['\n']) := by
  have fits : firstOf convention.terminators (front ++ ['\n']) ≤ (front ++ ['\n']).length :=
    (le_firstOf.mp (Nat.le_refl _)).1
  rw [extent, extent, firstOf_ended member inside, List.append_cons front '\n' rest,
    List.take_append_of_le_length fits]

/-- Without a terminator up to a line feed, the section goes on behind it. -/
theorem extent_open {front : Text}
    (absent : ∀ terminator ∈ convention.terminators, ¬ terminator <:+: front ++ ['\n']) (rest : Text) :
    ∃ more, extent convention (front ++ '\n' :: rest) = front ++ '\n' :: more := by
  have late : front.length + 1 ≤ firstOf convention.terminators (front ++ '\n' :: rest) := by
    refine le_firstOf.mpr ⟨by simp, fun terminator member i found => ?_⟩
    rw [find_terminator member, Text.find_eq_none (absent terminator member), Option.none_or] at found
    obtain ⟨j, _, rfl⟩ := Option.map_eq_some_iff.mp found
    omega
  obtain ⟨n, size⟩ := Nat.exists_eq_add_of_le' late
  refine ⟨rest.take n, ?_⟩
  rw [extent, size, Nat.add_left_comm, List.take_length_add_append, List.take_succ_cons]

/-! ## Sections and the text around them -/

/-- Neither the text before the header nor the text behind a terminator changes what a section documents. -/
theorem parse_isolated {before terminator : Text} (absent : ¬ convention.header <:+: before)
    (ends : terminator ∈ convention.terminators) (options : SectionOptions) (inside after other : Text) :
    parse (.fixed convention) options (before ++ (convention.header ++ (inside ++ (terminator ++ after)))) =
      parse (.fixed convention) options (convention.header ++ (inside ++ (terminator ++ other))) := by
  obtain ⟨word, _, rfl⟩ := terminator_word ends
  have closed : word ++ ['\n'] <:+: inside ++ word ++ ['\n'] := by
    rw [List.append_assoc]
    exact (List.suffix_append inside _).isInfix
  have alone : ∀ rest, extent convention (inside ++ (word ++ ['\n'] ++ rest)) =
      extent convention (inside ++ (word ++ ['\n'])) := by
    intro rest
    have kept := extent_ended ends closed rest
    rwa [List.append_cons, List.append_assoc inside, List.append_assoc inside] at kept
  have unopened : ¬ convention.header <:+: [] := by cases convention <;> decide
  calc
    parse (.fixed convention) options (before ++ (convention.header ++ (inside ++ (word ++ ['\n'] ++ after)))) =
        readLines convention options (sectionLines convention options (inside ++ (word ++ ['\n'] ++ after))) :=
        parseSection_header absent _
    _ = readLines convention options
          (sectionLines convention options (inside ++ (word ++ ['\n'] ++ other))) := by
        rw [sectionLines_eq, sectionLines_eq, alone, alone]
    _ = parse (.fixed convention) options (convention.header ++ (inside ++ (word ++ ['\n'] ++ other))) :=
        (parseSection_header unopened _).symm

/-- A section in which a header and a terminator stand before the terminator that is meant. -/
theorem parse_isolated_terminators :
    let before := "Args: \n    Args:".toList
    let inside := "    x: Args:\n    y (int): what it Raises:\n    z: Re".toList
    (¬ Convention.google.header <:+: before) ∧ "Returns:\n".toList ∈ Convention.google.terminators ∧
      parse (.fixed .google) ⟨true, true⟩ (before ++ (Convention.google.header ++
          (inside ++ ("Returns:\n".toList ++ "Args:\n    z: c\n".toList)))) =
        parse (.fixed .google) ⟨true, true⟩
          (Convention.google.header ++ (inside ++ ("Returns:\n".toList ++ []))) ∧
      parse (.fixed .google) ⟨true, true⟩
          (Convention.google.header ++ (inside ++ ("Returns:\n".toList ++ []))) =
        some [⟨['x'], none⟩, ⟨['y'], some "int".toList⟩] := by
  intro before inside
  have absent : ¬ Convention.google.header <:+: before := by decide +kernel
  have ends : "Returns:\n".toList ∈ Convention.google.terminators := by decide +kernel
  exact ⟨absent, ends, parse_isolated absent ends ⟨true, true⟩ inside _ [], by decide +kernel⟩

/-! ## Words at the ends of lines -/

/-- Whether a word stands behind other text at the end of a line, before a line feed. -/
def Trails (word : Text) (ended : Text.EndedLine) : Prop :=
  ended.stop = ['\n'] ∧ word <:+ ended.line ∧ Text.trim ended.line ≠ word

instance (word : Text) (ended : Text.EndedLine) : Decidable (Trails word ended) :=
  inferInstanceAs (Decidable (_ ∧ _ ∧ _))

theorem sectionLines_eq_lines_iff {text : Text} {skipVariadics : Bool} :
    sectionLines convention ⟨false, skipVariadics⟩ text = Text.lines text ↔
      ∀ terminator ∈ convention.terminators, ¬ terminator <:+: text := by
  constructor
  · intro same terminator member inside
    obtain ⟨i, found⟩ := Text.find_of_infix inside
    have early := firstOf_le member found
    obtain ⟨word, ends, rfl⟩ := terminator_word member
    obtain ⟨whole, nonempty⟩ := endWords_plain word ends
    obtain ⟨c, inWord⟩ := List.exists_mem_of_ne_nil word nonempty
    have behind : c ∈ text.drop (firstOf convention.terminators text) := by
      apply (List.drop_suffix_drop_left text early).subset
      apply (Text.prefix_of_find found).subset
      exact List.mem_append_left _ inWord
    have breaks := Text.isLineBreak_of_lines_take same c behind
    rw [whole c inWord] at breaks
    contradiction
  · intro absent
    rw [sectionLines_eq, if_neg (by simp), extent_absent absent]

/-- Where no line is a word that ends sections, a terminator stands behind other text. -/
theorem unended_iff {text : Text} (headless : ∀ line ∈ Text.lines text, Text.trim line ∉ convention.endWords) :
    (∀ terminator ∈ convention.terminators, ¬ terminator <:+: text) ↔
      ∀ word ∈ convention.endWords, ∀ ended ∈ Text.endedLines text, ¬ Trails word ended := by
  rw [terminators_eq, List.forall_mem_map]
  refine forall₂_congr fun word ends => ?_
  obtain ⟨whole, nonempty⟩ := endWords_plain word ends
  rw [Text.infix_newline_iff whole nonempty]
  constructor
  · rintro absent ended member ⟨stop, trails, _⟩
    exact absent ⟨ended, member, stop, trails⟩
  · rintro absent ⟨ended, member, stop, trails⟩
    refine absent ended member ⟨stop, trails, ?_⟩
    have isLine : ended.line ∈ Text.lines text := by
      rw [← Text.map_endedLines]
      exact List.mem_map_of_mem member
    intro alone
    exact headless ended.line isLine (alone ▸ ends)

/-- Where no line is a word that ends sections, all lines are read unless such a word trails other text. -/
theorem parseSection_headless {before text : Text} (absent : ¬ convention.header <:+: before)
    (headless : ∀ line ∈ Text.lines text, Text.trim line ∉ convention.endWords) (skipVariadics : Bool) :
    let options : SectionOptions := ⟨false, skipVariadics⟩
    let unended := ∀ word ∈ convention.endWords, ∀ ended ∈ Text.endedLines text, ¬ Trails word ended
    (unended → parseSection convention options (before ++ (convention.header ++ text)) =
        readLines convention options (Text.lines text)) ∧
      (unended ↔ sectionLines convention options text = Text.lines text) := by
  intro options unended
  have whole : unended ↔ sectionLines convention options text = Text.lines text :=
    (unended_iff headless).symm.trans sectionLines_eq_lines_iff.symm
  refine ⟨fun none => ?_, whole⟩
  rw [parseSection_header absent, whole.mp none]

/-- Words within a line, before a carriage return, and at the end of the text. -/
theorem parseSection_headless_words :
    let text := "    x: Returns: a\n    y (int): Raises:\r\n    z: Yields:".toList
    (¬ Convention.google.header <:+: "Summary.\n".toList) ∧
      (∀ line ∈ Text.lines text, Text.trim line ∉ Convention.google.endWords) ∧
      (∀ word ∈ Convention.google.endWords, ∀ ended ∈ Text.endedLines text, ¬ Trails word ended) ∧
      parseSection .google ⟨false, true⟩ ("Summary.\n".toList ++ (Convention.google.header ++ text)) =
        readLines .google ⟨false, true⟩ (Text.lines text) ∧
      readLines .google ⟨false, true⟩ (Text.lines text) =
        some [⟨['x'], none⟩, ⟨['y'], some "int".toList⟩, ⟨['z'], none⟩] := by
  intro text
  have absent : ¬ Convention.google.header <:+: "Summary.\n".toList := by decide +kernel
  have headless : ∀ line ∈ Text.lines text, Text.trim line ∉ Convention.google.endWords := by decide +kernel
  have unended : ∀ word ∈ Convention.google.endWords, ∀ ended ∈ Text.endedLines text, ¬ Trails word ended := by
    decide +kernel
  exact ⟨absent, headless, unended, (parseSection_headless absent headless true).1 unended, by decide +kernel⟩

/-- A description that ends in such a word ends the section, and the parameter below it is lost. -/
theorem parseSection_trailing_word :
    let text := "    x: What it Returns:\n    y: The y.\n".toList
    (∀ line ∈ Text.lines text, Text.trim line ∉ Convention.google.endWords) ∧
      parseSection .google ⟨false, true⟩ (Convention.google.header ++ text) = some [⟨['x'], none⟩] ∧
      readLines .google ⟨false, true⟩ (Text.lines text) = some [⟨['x'], none⟩, ⟨['y'], none⟩] := by
  decide +kernel

end DocDrift.Docstring
