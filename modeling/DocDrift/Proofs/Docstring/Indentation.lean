import DocDrift.Proofs.Docstring.BlankLines
import DocDrift.Proofs.Text.Indentation

namespace DocDrift.Docstring

/-! # Indented docstrings

Spaces in front of the lines of a docstring shift the indentation of all its entries alike.  They neither
make nor break a header, a terminator or a blank line, so each step of reading a section commutes with them.
-/

variable {convention : Convention} {options : SectionOptions} {width : Nat} {after : Text}

/-! ## The header -/

theorem header_eq (convention : Convention) :
    ∃ c word, convention.header = c :: (word ++ ['\n']) ∧ c ≠ ' ' ∧ Text.IsWhole (c :: word) := by
  cases convention with
  | google => exact ⟨'A', "rgs:".toList, by decide⟩
  | numpy => exact ⟨'P', "arameters".toList, by decide⟩

theorem cut_cons (needle : Text) (c : Char) (rest : Text) :
    Text.cut needle (c :: rest) =
      if needle <+: c :: rest then some ([], (c :: rest).drop needle.length)
      else (Text.cut needle rest).map fun parts => (c :: parts.1, parts.2) := by
  simp only [Text.cut, Text.find, List.isPrefixOf_iff_prefix]
  split
  · simp
  · rw [Option.map_map, Option.map_map]
    refine Option.map_congr fun i _ => ?_
    simp [Nat.add_right_comm]

theorem cut_indentBefore {text before rest : Text} (opened : Text.cut convention.header text = some (before, rest)) :
    ∃ front, Text.cut convention.header (Text.indentBefore width after text) =
      some (front, List.replicate width ' ' ++ Text.indentBefore width after rest) := by
  obtain ⟨first, word, same, visible, whole⟩ := header_eq convention
  rw [same] at opened ⊢
  induction text generalizing before with
  | nil => contradiction
  | cons c text ih =>
      rw [cut_cons] at opened
      split at opened
      · rename_i starts
        obtain ⟨tail, split⟩ := starts
        rw [← split, List.drop_left] at opened
        cases opened
        have indented := @Text.indentBefore_word width after _ whole rest
        rw [← split, ← List.cons_append, List.append_assoc, List.singleton_append, indented]
        have found := @Text.cut_first first (word ++ ['\n']) [] List.not_mem_nil
          (List.replicate width ' ' ++ Text.indentBefore width after rest)
        exact ⟨[], by simpa using found⟩
      · -- The spaces that are put behind the character do not begin the header either.
        rename_i other
        obtain ⟨⟨above, _⟩, later, together⟩ := Option.map_eq_some_iff.mp opened
        cases together
        obtain ⟨front, found⟩ := ih later
        have unopened := mt (@Text.prefix_indentBefore width after _ whole (c :: text)).mp other
        have unspaced : first ∉ Text.margin width c (text ++ after) :=
          fun member => visible (Text.eq_of_mem_margin member)
        rw [List.cons_append, Text.indentBefore] at unopened
        rw [Text.indentBefore, cut_cons, if_neg unopened, Text.cut_past unspaced, found]
        exact ⟨_, rfl⟩

/-! ## Terminators -/

def StartsWithAny (needles : List Text) (text : Text) : Prop := ∃ needle ∈ needles, needle <+: text

instance (needles : List Text) : DecidablePred (StartsWithAny needles) :=
  fun text => inferInstanceAs (Decidable (∃ needle ∈ needles, needle <+: text))

theorem firstOf_cons (needles : List Text) (c : Char) (rest : Text) :
    firstOf needles (c :: rest) =
      if StartsWithAny needles (c :: rest) then 0 else firstOf needles rest + 1 := by
  split
  · rename_i starts
    obtain ⟨needle, member, starts⟩ := starts
    have found : Text.find needle (c :: rest) = some 0 := by
      rw [Text.find, if_pos (List.isPrefixOf_iff_prefix.mpr starts)]
    exact Nat.le_zero.mp (firstOf_le member found)
  · rename_i other
    have later : ∀ needle ∈ needles, Text.find needle (c :: rest) = (Text.find needle rest).map (· + 1) := by
      intro needle member
      rw [Text.find, if_neg fun starts => other ⟨needle, member, List.isPrefixOf_iff_prefix.mp starts⟩]
    have offsets : needles.filterMap (Text.find · (c :: rest)) =
        (needles.filterMap (Text.find · rest)).map (· + 1) := by
      rw [List.map_filterMap]
      exact List.filterMap_congr later
    rw [firstOf, firstOf, offsets, List.foldl_map]
    exact List.foldl_hom (· + 1) fun m n => Nat.add_min_add_right m n 1

theorem extent_eq_upTo (text : Text) :
    extent convention text = Text.upTo (StartsWithAny convention.terminators) text := by
  induction text with
  | nil => rw [extent, List.take_nil, Text.upTo]
  | cons c rest ih =>
      rw [extent, firstOf_cons, Text.upTo, ← ih]
      split
      · rw [List.take_zero]
      · rw [List.take_succ_cons, ← extent]

theorem not_terminator_space (rest : Text) : ¬ StartsWithAny convention.terminators (' ' :: rest) := by
  have visible : ∀ terminator ∈ convention.terminators, terminator ≠ [] ∧ ' ' ∉ terminator.head? := by
    cases convention <;> decide
  rintro ⟨terminator, member, starts⟩
  obtain ⟨nonempty, other⟩ := visible terminator member
  obtain ⟨c, word, rfl⟩ := List.exists_cons_of_ne_nil nonempty
  exact other (congrArg some (List.cons_prefix_cons.mp starts).1)

theorem extent_indentBefore (convention : Convention) (width : Nat) (after text : Text) :
    ∃ rest, text = extent convention text ++ rest ∧
      extent convention (Text.indentBefore width after text) =
        Text.indentBefore width (rest ++ after) (extent convention text) := by
  rw [extent_eq_upTo, extent_eq_upTo]
  refine Text.upTo_indentBefore not_terminator_space (fun text => ?_) text
  refine exists_congr fun terminator => and_congr_right fun member => ?_
  obtain ⟨word, ends, rfl⟩ := terminator_word member
  exact Text.prefix_indentBefore (endWords_plain word ends).1 text

/-! ## Blank lines -/

/-- Whether a text starts with the line feed above a blank line. -/
def StartsBlankLine (text : Text) : Prop :=
  text.head? = some '\n' ∧
    (text.tail.dropWhile fun c => c != '\n' && Text.isBlank c).head? = some '\n'

instance : DecidablePred StartsBlankLine := fun _ => inferInstanceAs (Decidable (_ ∧ _))

theorem beforeBlankLine_eq_upTo (text : Text) : beforeBlankLine text = Text.upTo StartsBlankLine text := by
  induction text with
  | nil => rfl
  | cons c rest ih =>
      rw [beforeBlankLine, Text.upTo, ih]
      simp [StartsBlankLine]

theorem dropWhile_spaces {front : Text} (spaces : ∀ c ∈ front, c = ' ') (text : Text) :
    ((front ++ text).dropWhile fun c => c != '\n' && Text.isBlank c) =
      text.dropWhile fun c => c != '\n' && Text.isBlank c := by
  refine List.dropWhile_append_of_pos fun c member => ?_
  rw [spaces c member]
  decide

theorem head?_dropWhile_indentBefore (text : Text) :
    ((Text.indentBefore width after text).dropWhile fun c => c != '\n' && Text.isBlank c).head? =
      (text.dropWhile fun c => c != '\n' && Text.isBlank c).head? := by
  induction text with
  | nil => rfl
  | cons c text ih =>
      rw [Text.indentBefore]
      simp only [List.dropWhile_cons]
      split
      · rw [dropWhile_spaces fun _ => Text.eq_of_mem_margin, ih]
      · rfl

theorem startsBlankLine_indentBefore (text : Text) :
    StartsBlankLine (Text.indentBefore width after text) ↔ StartsBlankLine text := by
  cases text with
  | nil => rfl
  | cons c rest =>
      rw [StartsBlankLine, Text.indentBefore, List.tail_cons, dropWhile_spaces fun _ => Text.eq_of_mem_margin,
        head?_dropWhile_indentBefore]
      rfl

theorem beforeBlankLine_indentBefore (width : Nat) (after text : Text) :
    ∃ rest, text = beforeBlankLine text ++ rest ∧
      beforeBlankLine (Text.indentBefore width after text) =
        Text.indentBefore width (rest ++ after) (beforeBlankLine text) := by
  rw [beforeBlankLine_eq_upTo, beforeBlankLine_eq_upTo]
  exact Text.upTo_indentBefore (by simp [StartsBlankLine]) startsBlankLine_indentBefore text

/-- The lines of a section are indented, and a blank line may follow. -/
theorem sectionLines_indentBefore (convention : Convention) (options : SectionOptions) (width : Nat)
    (after text : Text) :
    ∃ below : List Text, (∀ line ∈ below, ∀ c ∈ line, Text.isBlank c = true) ∧
      sectionLines convention options (List.replicate width ' ' ++ Text.indentBefore width after text) =
        (sectionLines convention options text).map (List.replicate width ' ' ++ ·) ++ below := by
  have spaces : ∀ c ∈ List.replicate width ' ', c = ' ' := fun _ => List.eq_of_mem_replicate
  obtain ⟨rest, _, ended⟩ := extent_indentBefore convention width after text
  have front : extent convention (List.replicate width ' ' ++ Text.indentBefore width after text) =
      List.replicate width ' ' ++ Text.indentBefore width (rest ++ after) (extent convention text) := by
    rw [extent_eq_upTo, Text.upTo_spaces not_terminator_space spaces, ← extent_eq_upTo, ended]
  rw [sectionLines_eq, sectionLines_eq, front]
  split
  · obtain ⟨more, _, unbroken⟩ := beforeBlankLine_indentBefore width (rest ++ after) (extent convention text)
    rw [beforeBlankLine_append (by simp), unbroken]
    exact Text.lines_indentBefore width _ _
  · exact Text.lines_indentBefore width _ _

/-! ## Entries -/

theorem isEntry_indented (indentation : Nat) (line : Text) :
    isEntry (width + indentation) (List.replicate width ' ' ++ line) = isEntry indentation line := by
  rw [Bool.eq_iff_iff]
  simp [isEntry, Text.indentation_indented]

theorem entry_indented (line : Text) :
    convention.entry (List.replicate width ' ' ++ line) = convention.entry line := by
  have cut : Text.cut [':'] (List.replicate width ' ' ++ line) =
      (Text.cut [':'] line).map fun parts => (List.replicate width ' ' ++ parts.1, parts.2) :=
    Text.cut_past (by simp) line
  cases convention with
  | google =>
      simp only [Convention.entry, googleEntry, cut, Option.map_map]
      refine Option.map_congr fun parts _ => ?_
      simp only [Function.comp_apply, Text.trim_indented]
  | numpy =>
      simp only [Convention.entry, numpyEntry, cut, Text.trim_indented]
      cases Text.cut [':'] line <;> simp [Text.trim_indented]

theorem entriesOf_indented {lines below : List Text} (nonempty : lines ≠ [])
    (blank : ∀ line ∈ below, ∀ c ∈ line, Text.isBlank c = true) :
    entriesOf convention options (lines.map (List.replicate width ' ' ++ ·) ++ below) =
      entriesOf convention options lines := by
  obtain ⟨first, more, rfl⟩ := List.exists_cons_of_ne_nil nonempty
  have level : Text.indentation (((first :: more).map (List.replicate width ' ' ++ ·) ++ below).headD []) =
      width + Text.indentation first :=
    Text.indentation_indented width first
  have starts : isEntry (width + Text.indentation first) ∘ (List.replicate width ' ' ++ ·) =
      isEntry (Text.indentation first) :=
    funext fun line => isEntry_indented _ line
  have entries : convention.entry ∘ (List.replicate width ' ' ++ ·) = convention.entry :=
    funext fun line => entry_indented line
  rw [entriesOf, level, List.filter_append, filter_blank blank, List.append_nil, List.filter_map,
    List.filterMap_map, starts, entries]
  rfl

theorem readLines_indented {lines below : List Text} (content : lines.drop convention.leadingLines ≠ [])
    (blank : ∀ line ∈ below, ∀ c ∈ line, Text.isBlank c = true) :
    readLines convention options (lines.map (List.replicate width ' ' ++ ·) ++ below) =
      readLines convention options lines := by
  have inside : convention.leadingLines ≤ (lines.map (List.replicate width ' ' ++ ·)).length := by
    have size := List.length_pos_iff.mpr content
    rw [List.length_drop] at size
    rw [List.length_map]
    omega
  have indented : (lines.map (List.replicate width ' ' ++ ·) ++ below).drop convention.leadingLines =
      (lines.drop convention.leadingLines).map (List.replicate width ' ' ++ ·) ++ below := by
    rw [List.drop_append_of_le_length inside, List.map_drop]
  have nonempty : (lines.map (List.replicate width ' ' ++ ·) ++ below).drop convention.leadingLines ≠ [] := by
    rw [indented]
    exact List.append_ne_nil_of_left_ne_nil (mt List.map_eq_nil_iff.mp content) below
  rw [readLines_of_ne_nil nonempty, readLines_of_ne_nil content, indented, entriesOf_indented content blank]

/-- What a docstring documents does not depend on how far its lines are indented. -/
theorem parse_indentLines {docstring : Text} {parameters : List Parameter}
    (documented : parse (.fixed convention) options docstring = some parameters) (width : Nat) :
    parse (.fixed convention) options (Text.indentLines width docstring) = some parameters := by
  rw [parse] at documented ⊢
  cases opened : Text.cut convention.header docstring with
  | none =>
      rw [parseSection, opened] at documented
      contradiction
  | some parts =>
      obtain ⟨before, text⟩ := parts
      obtain ⟨front, reopened⟩ := @cut_indentBefore _ width [] _ _ _ opened
      obtain ⟨below, blank, lines⟩ := sectionLines_indentBefore convention options width [] text
      rw [parseSection_cut opened] at documented
      rw [Text.indentLines_eq, parseSection_cut reopened, lines, ← documented]
      refine readLines_indented (fun empty => ?_) blank
      -- A section that ends with its header would have been an error.
      rw [readLines, empty] at documented
      contradiction

/-- Entries below a blank line and above other kinds of line ends, the last of which stands before a terminator. -/
theorem parse_indentLines_breaks :
    let docstring := "Sum.\r\n\nArgs:\n x (int): a\r\n   more\u2028 y: b\rReturns:\n z: c\n".toList
    let indented := "Sum.\r\n  \n  Args:\n   x (int): a\r\n     more\u2028   y: b\r  Returns:\n   z: c\n  ".toList
    parse (.fixed .google) ⟨true, true⟩ docstring = some [⟨['x'], some "int".toList⟩, ⟨['y'], none⟩] ∧
      Text.indentLines 2 docstring = indented ∧
      parse (.fixed .google) ⟨true, true⟩ (Text.indentLines 2 docstring) =
        some [⟨['x'], some "int".toList⟩, ⟨['y'], none⟩] := by
  intro docstring indented
  have documented : parse (.fixed .google) ⟨true, true⟩ docstring =
      some [⟨['x'], some "int".toList⟩, ⟨['y'], none⟩] := by decide +kernel
  exact ⟨documented, by decide +kernel, parse_indentLines documented 2⟩

end DocDrift.Docstring
