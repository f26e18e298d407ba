import DocDrift.Proofs.Text.Lines

namespace DocDrift.Text

/-! # Ends of lines

Where a text is cut at a line feed, the lines and the searches of its two parts do not meet.
-/

theorem unifyLineEnds_clean (text : Text) : '\r' ∉ unifyLineEnds text := by
  fun_induction unifyLineEnds text with
  | case1 => simp
  | case2 rest ih => simpa using ih
  | case3 c rest _ ih =>
      simp only [List.mem_cons, not_or]
      refine ⟨?_, ih⟩
      split
      · decide
      · rename_i other
        exact fun same => other same.symm

theorem unifyLineEnds_eq {text : Text} (clean : '\r' ∉ text) : unifyLineEnds text = text := by
  fun_induction unifyLineEnds text with
  | case1 => rfl
  | case2 rest ih => simp at clean
  | case3 c rest other ih =>
      simp only [List.mem_cons, not_or] at clean
      rw [ih clean.2, if_neg (Ne.symm clean.1)]

theorem lines_of_break {c : Char} {rest : Text} (breaks : isLineBreak c = true)
    (single : ∀ more, c = '\r' → rest ≠ '\n' :: more) : lines (c :: rest) = [] :: lines rest := by
  rw [lines.eq_def]
  split
  · contradiction
  · rename_i same
    cases same
    exact absurd rfl (single _ rfl)
  · rename_i same
    cases same
    rw [if_pos breaks]

theorem lines_eq_nil {text : Text} (none : lines text = []) : text = [] := by
  fun_induction lines text with
  | case1 => rfl
  | case2 | case3 | case4 | case5 => contradiction

/-- A line feed ends the last line before it, or a line of its own, whatever follows. -/
theorem lines_newline (front : Text) :
    ∃ last, ∀ rest, lines (front ++ '\n' :: rest) = lines front ++ (last ++ lines rest) := by
  fun_induction lines front with
  | case1 => exact ⟨[[]], fun rest => rfl⟩
  | case2 front ih =>
      obtain ⟨last, split⟩ := ih
      exact ⟨last, fun rest => congrArg ([] :: ·) (split rest)⟩
  | case3 c front single breaks ih =>
      obtain ⟨last, split⟩ := ih
      by_cases pair : c = '\r' ∧ front = []
      · -- The line feed joins the carriage return before it.
        obtain ⟨rfl, rfl⟩ := pair
        exact ⟨[], fun rest => rfl⟩
      · refine ⟨last, fun rest => ?_⟩
        rw [List.cons_append, lines_of_break breaks, split]
        · rfl
        · intro more first same
          cases front with
          | nil => exact pair ⟨first, rfl⟩
          | cons d front =>
              obtain ⟨rfl, _⟩ := List.cons.inj same
              exact single front first rfl
  | case4 c front single plain none ih =>
      obtain rfl := lines_eq_nil none
      refine ⟨[], fun rest => ?_⟩
      rw [List.cons_append, lines_of_plain (Bool.eq_false_iff.mpr plain)]
      rfl
  | case5 c front single plain line more same ih =>
      obtain ⟨last, split⟩ := ih
      refine ⟨last, fun rest => ?_⟩
      rw [List.cons_append, lines_of_plain (Bool.eq_false_iff.mpr plain), split, same]
      rfl

theorem lines_prefix (front rest : Text) : lines front <+: lines (front ++ '\n' :: rest) := by
  obtain ⟨last, split⟩ := lines_newline front
  rw [split]
  exact List.prefix_append _ _

theorem lines_append_newline (front rest : Text) :
    lines (front ++ '\n' :: rest) = lines (front ++ ['\n']) ++ lines rest := by
  obtain ⟨last, split⟩ := lines_newline front
  rw [split, split, List.append_assoc, List.append_assoc]
  rfl

/-- Only the characters that end lines are not in lines. -/
theorem flatten_lines (text : Text) : (lines text).flatten = text.filter (!isLineBreak ·) := by
  fun_induction lines text with
  | case1 => rfl
  | case2 rest ih => exact ih
  | case3 c rest single breaks ih =>
      rw [List.filter_cons_of_neg (by simp [breaks]), ← ih]
      rfl
  | case4 c rest single plain none ih =>
      rw [List.filter_cons_of_pos (by simp [plain]), ← ih, none]
      rfl
  | case5 c rest single plain line more same ih =>
      rw [List.filter_cons_of_pos (by simp [plain]), ← ih, same]
      rfl

/-- What can be cut off without a change to the lines is no text of theirs. -/
theorem isLineBreak_of_lines_take {text : Text} {n : Nat} (same : lines (text.take n) = lines text) :
    ∀ c ∈ text.drop n, isLineBreak c = true := by
  have kept := congrArg List.flatten same
  have split := List.filter_append (p := (!isLineBreak ·)) (text.take n) (text.drop n)
  rw [flatten_lines, flatten_lines] at kept
  rw [List.take_append_drop, ← kept] at split
  intro c behind
  simpa using List.filter_eq_nil_iff.mp (List.self_eq_append_right.mp split) c behind

/-! ## Searches -/

/-- What a line feed ends does not reach behind one before it. -/
theorem isPrefixOf_newline {word : Text} (inWord : '\n' ∉ word) (front rest : Text) :
    (word ++ ['\n']).isPrefixOf (front ++ '\n' :: rest) = (word ++ ['\n']).isPrefixOf (front ++ ['\n']) := by
  rw [Bool.eq_iff_iff, List.isPrefixOf_iff_prefix, List.isPrefixOf_iff_prefix, List.append_cons front '\n' rest]
  constructor
  · intro starts
    rcases List.prefix_or_prefix_of_prefix starts (List.prefix_append _ rest) with inside | longer
    · exact inside
    · rcases List.prefix_concat_iff.mp longer with same | early
      · exact same ▸ List.prefix_rfl
      · exact absurd (early.subset (by simp)) inWord
  · intro starts
    exact starts.trans (List.prefix_append _ rest)

/-- What a line feed ends is found up to another line feed, or behind it. -/
theorem find_newline {word : Text} (inWord : '\n' ∉ word) (nonempty : word ≠ []) (front rest : Text) :
    find (word ++ ['\n']) (front ++ '\n' :: rest) =
      (find (word ++ ['\n']) (front ++ ['\n'])).or
        ((find (word ++ ['\n']) rest).map (· + (front.length + 1))) := by
  induction front with
  | nil =>
      have other : ¬ (word ++ ['\n']).isPrefixOf ['\n'] = true := by
        rw [List.isPrefixOf_iff_prefix]
        intro starts
        have fits := starts.length_le
        simp [nonempty] at fits
      have first := isPrefixOf_newline inWord [] rest
      rw [List.nil_append, List.nil_append] at first
      rw [List.nil_append, List.nil_append, find, find, first, if_neg other, if_neg other]
      simp [find, nonempty]
  | cons c front ih =>
      have first := isPrefixOf_newline inWord (c :: front) rest
      rw [List.cons_append, List.cons_append] at first
      rw [List.cons_append, List.cons_append, find, find, first, ih]
      split
      · rfl
      · rw [Option.map_or, Option.map_map]
        rfl

/-! ## Lines with their ends -/

structure EndedLine where
  line : Text
  /-- The line break, or nothing at the end of a text. -/
  stop : Text
  deriving DecidableEq, Repr

def endedLines : Text → List EndedLine
  | [] => []
  | '\r' :: '\n' :: rest => ⟨[], ['\r', '\n']⟩ :: endedLines rest
  | c :: rest =>
    if isLineBreak c then ⟨[], [c]⟩ :: endedLines rest
    else match endedLines rest with
      | [] => [⟨[c], []⟩]
      | first :: more => ⟨c :: first.line, first.stop⟩ :: more

theorem map_endedLines (text : Text) : (endedLines text).map EndedLine.line = lines text := by
  fun_induction endedLines text with
  | case1 => rfl
  | case2 rest ih => exact congrArg ([] :: ·) ih
  | case3 c rest single breaks ih =>
      rw [lines_of_break breaks (fun more first => (single more first ·)), ← ih]
      rfl
  | case4 c rest single plain none ih =>
      rw [lines_of_plain (Bool.eq_false_iff.mpr plain), ← ih, none]
      rfl
  | case5 c rest single plain first more same ih =>
      rw [lines_of_plain (Bool.eq_false_iff.mpr plain), ← ih, same]
      rfl

/-- Lines with their ends make up the text. -/
theorem flatMap_endedLines (text : Text) :
    (endedLines text).flatMap (fun ended => ended.line ++ ended.stop) = text := by
  fun_induction endedLines text with
  | case1 => rfl
  | case2 rest ih => exact congrArg (['\r', '\n'] ++ ·) ih
  | case3 c rest single breaks ih => exact congrArg (c :: ·) ih
  | case4 c rest single plain none ih =>
      rw [none] at ih
      rw [← ih]
      rfl
  | case5 c rest single plain first more same ih =>
      rw [same] at ih
      exact congrArg (c :: ·) ih

theorem endedLines_of_plain {c : Char} (plain : isLineBreak c = false) (rest : Text) :
    endedLines (c :: rest) =
      match endedLines rest with
      | [] => [⟨[c], []⟩]
      | first :: more => ⟨c :: first.line, first.stop⟩ :: more := by
  rw [endedLines.eq_def]
  split
  · contradiction
  · rename_i same
    cases same
    contradiction
  · rename_i same
    cases same
    rw [plain]
    rfl

theorem endedLines_cons {line : Text} (whole : line.IsWhole) (rest : Text) :
    endedLines (line ++ '\n' :: rest) = ⟨line, ['\n']⟩ :: endedLines rest := by
  induction line with
  | nil => rfl
  | cons c line ih =>
      rw [List.cons_append, endedLines_of_plain (whole c List.mem_cons_self),
        ih fun d member => whole d (List.mem_cons_of_mem c member)]

theorem exists_longer {c : Char} {rest : Text} {ended : EndedLine} (member : ended ∈ endedLines rest)
    (nonempty : ended.line ≠ []) :
    ∃ longer ∈ endedLines (c :: rest), longer.stop = ended.stop ∧ ended.line <:+ longer.line := by
  rw [endedLines.eq_def]
  split
  · contradiction
  · rename_i more same
    cases same
    -- Only the empty line between the two characters is lost.
    rcases List.mem_cons.mp member with rfl | later
    · contradiction
    · exact ⟨ended, List.mem_cons_of_mem _ later, rfl, List.suffix_rfl⟩
  · rename_i same
    cases same
    split
    · exact ⟨ended, List.mem_cons_of_mem _ member, rfl, List.suffix_rfl⟩
    · split
      · rename_i none
        rw [none] at member
        contradiction
      · rename_i first more split
        rw [split] at member
        rcases List.mem_cons.mp member with rfl | later
        · exact ⟨_, List.mem_cons_self, rfl, List.suffix_cons c _⟩
        · exact ⟨ended, List.mem_cons_of_mem _ later, rfl, List.suffix_rfl⟩

/-- A word that a line feed follows stands at the end of a line, and there only. -/
theorem infix_newline_iff {word text : Text} (whole : word.IsWhole) (nonempty : word ≠ []) :
    word ++ ['\n'] <:+: text ↔ ∃ ended ∈ endedLines text, ended.stop = ['\n'] ∧ word <:+ ended.line := by
  constructor
  · rintro ⟨above, below, rfl⟩
    induction above with
    | nil =>
        refine ⟨⟨word, ['\n']⟩, ?_, rfl, List.suffix_rfl⟩
        rw [List.nil_append, List.append_assoc, List.singleton_append, endedLines_cons whole]
        exact List.mem_cons_self
    | cons c above ih =>
        obtain ⟨ended, member, stop, ends⟩ := ih
        obtain ⟨longer, member, same, longerEnds⟩ := exists_longer member (ends.ne_nil nonempty)
        exact ⟨longer, member, same.trans stop, ends.trans longerEnds⟩
  · rintro ⟨ended, member, stop, front, same⟩
    have inside : ended.line ++ ended.stop <:+: text := by
      rw [← flatMap_endedLines text]
      exact List.infix_of_mem_flatten (List.mem_map_of_mem member)
    rw [← same, stop, List.append_assoc] at inside
    exact (List.suffix_append front _).isInfix.trans inside

end DocDrift.Text
