import DocDrift.Proofs.Text.LineEnds

namespace DocDrift.Text

/-! # Indented lines

Spaces that are put behind the ends of lines go in front of the lines that follow.  A line end may stand at
the end of a piece of text, so whether one stands there depends on what follows the piece: a carriage return
ends no line before a line feed.
-/

/-- The text with spaces behind every line end. -/
def indentLines (width : Nat) (text : Text) : Text :=
  (endedLines text).flatMap fun ended =>
    ended.line ++ (ended.stop ++ if ended.stop = [] then [] else List.replicate width ' ')

/-- Whether a line ends behind a character. -/
def endsLine (c : Char) (after : Text) : Bool :=
  isLineBreak c && !(c == '\r' && after.head? == some '\n')

/-- The spaces that are put behind a character. -/
def margin (width : Nat) (c : Char) (after : Text) : Text :=
  if endsLine c after then List.replicate width ' ' else []

/-- A piece of a text with spaces behind every line end, where `after` follows the piece. -/
def indentBefore (width : Nat) (after : Text) : Text → Text
  | [] => []
  | c :: rest => c :: (margin width c (rest ++ after) ++ indentBefore width after rest)

variable {width : Nat} {after : Text}

theorem margin_of_plain {c : Char} (plain : isLineBreak c = false) (after : Text) :
    margin width c after = [] := by
  rw [margin, endsLine, plain]
  rfl

theorem margin_of_break {c : Char} (breaks : isLineBreak c = true)
    (single : ∀ more, c = '\r' → after ≠ '\n' :: more) : margin width c after = List.replicate width ' ' := by
  have ends : endsLine c after = true := by
    cases after with
    | nil => simp [endsLine, breaks]
    | cons d more =>
        have other : ¬ (c = '\r' ∧ d = '\n') := fun pair => single more pair.1 (by rw [pair.2])
        simpa [endsLine, breaks, Decidable.imp_iff_not_or] using other
  rw [margin, if_pos ends]

theorem eq_of_mem_margin {c d : Char} (member : d ∈ margin width c after) : d = ' ' := by
  rw [margin] at member
  split at member
  · exact List.eq_of_mem_replicate member
  · contradiction

theorem indentLines_eq (width : Nat) (text : Text) : indentLines width text = indentBefore width [] text := by
  rw [indentLines]
  fun_induction endedLines text with
  | case1 => rfl
  | case2 rest ih => exact congrArg (fun below => '\r' :: '\n' :: (List.replicate width ' ' ++ below)) ih
  | case3 c rest single breaks ih =>
      rw [indentBefore, List.append_nil, margin_of_break breaks (fun more first => (single more first ·)), ← ih]
      rfl
  | case4 c rest single plain none ih =>
      rw [none] at ih
      rw [indentBefore, margin_of_plain (Bool.eq_false_iff.mpr plain), ← ih]
      rfl
  | case5 c rest single plain first more same ih =>
      rw [same] at ih
      rw [indentBefore, margin_of_plain (Bool.eq_false_iff.mpr plain), ← ih]
      rfl

theorem head?_indentBefore (text : Text) : (indentBefore width after text).head? = text.head? := by
  cases text <;> rfl

theorem indentBefore_word {word : Text} (whole : word.IsWhole) (rest : Text) :
    indentBefore width after (word ++ '\n' :: rest) =
      word ++ '\n' :: (List.replicate width ' ' ++ indentBefore width after rest) := by
  induction word with
  | nil => rfl
  | cons c word ih =>
      rw [List.cons_append, indentBefore, margin_of_plain (whole c List.mem_cons_self),
        ih fun d member => whole d (List.mem_cons_of_mem c member)]
      rfl

/-- What a line feed ends stands at the front of a piece no matter how the piece is indented. -/
theorem prefix_indentBefore {word : Text} (whole : word.IsWhole) (text : Text) :
    word ++ ['\n'] <+: indentBefore width after text ↔ word ++ ['\n'] <+: text := by
  induction word generalizing text with
  | nil => cases text <;> simp [indentBefore, List.cons_prefix_cons]
  | cons c word ih =>
      cases text with
      | nil => rfl
      | cons d rest =>
          rw [List.cons_append, indentBefore, List.cons_prefix_cons, List.cons_prefix_cons]
          refine and_congr_right fun same => ?_
          subst same
          rw [margin_of_plain (whole c List.mem_cons_self), List.nil_append]
          exact ih (fun e member => whole e (List.mem_cons_of_mem c member)) rest

/-! ## The front of a text -/

/-- The text before the first place where the rest of it has some form. -/
def upTo (form : Text → Prop) [DecidablePred form] : Text → Text
  | [] => []
  | c :: rest => if form (c :: rest) then [] else c :: upTo form rest

section UpTo

variable {form : Text → Prop} [DecidablePred form] (unspaced : ∀ rest, ¬ form (' ' :: rest))

include unspaced

theorem upTo_spaces {front : Text} (spaces : ∀ c ∈ front, c = ' ') (text : Text) :
    upTo form (front ++ text) = front ++ upTo form text := by
  induction front with
  | nil => rfl
  | cons c front ih =>
      obtain ⟨rfl, later⟩ := List.forall_mem_cons.mp spaces
      rw [List.cons_append, upTo, if_neg (unspaced _), ih later]
      rfl

/-- A form that indentation neither makes nor breaks is met at the same place. -/
theorem upTo_indentBefore (alike : ∀ text, form (indentBefore width after text) ↔ form text) (text : Text) :
    ∃ rest, text = upTo form text ++ rest ∧
      upTo form (indentBefore width after text) = indentBefore width (rest ++ after) (upTo form text) := by
  induction text with
  | nil => exact ⟨[], rfl, rfl⟩
  | cons c text ih =>
      obtain ⟨rest, split, same⟩ := ih
      have first := alike (c :: text)
      rw [indentBefore] at first
      by_cases stops : form (c :: text)
      · rw [indentBefore, upTo, upTo, if_pos stops, if_pos (first.mpr stops)]
        exact ⟨c :: text, rfl, rfl⟩
      · have next : upTo form text ++ (rest ++ after) = text ++ after := by
          rw [← List.append_assoc, ← split]
        refine ⟨rest, ?_, ?_⟩
        · rw [upTo, if_neg stops]
          exact congrArg (c :: ·) split
        · rw [indentBefore, upTo, upTo, if_neg stops, if_neg (mt first.mp stops),
            upTo_spaces unspaced fun _ => eq_of_mem_margin, same, indentBefore, next]

end UpTo

/-! ## Lines -/

theorem lines_append {line : Text} (whole : line.IsWhole) (rest : Text) :
    lines (line ++ rest) =
      match lines rest with
      | [] => if line = [] then [] else [line]
      | first :: more => (line ++ first) :: more := by
  induction line with
  | nil =>
      rw [List.nil_append]
      cases lines rest <;> rfl
  | cons c line ih =>
      rw [List.cons_append, lines_of_plain (whole c List.mem_cons_self),
        ih fun d member => whole d (List.mem_cons_of_mem c member)]
      cases lines rest with
      | nil => cases line <;> rfl
      | cons first more => rfl

/-- The lines are those of the text behind the spaces, and a line of nothing but spaces may follow. -/
theorem lines_indentBefore (width : Nat) (after text : Text) :
    ∃ below : List Text, (∀ line ∈ below, ∀ c ∈ line, isBlank c = true) ∧
      lines (List.replicate width ' ' ++ indentBefore width after text) =
        (lines text).map (List.replicate width ' ' ++ ·) ++ below := by
  have spaces := isWhole_replicate width
  fun_induction lines text with
  | case1 =>
      refine ⟨lines (List.replicate width ' '), ?_, by simp [indentBefore]⟩
      intro line member c inLine
      have inLines := List.mem_flatten_of_mem member inLine
      rw [flatten_lines] at inLines
      exact isBlank_of_replicate (List.mem_of_mem_filter inLines)
  | case2 rest ih =>
      obtain ⟨below, blank, same⟩ := ih
      refine ⟨below, blank, ?_⟩
      have pair : lines (indentBefore width after ('\r' :: '\n' :: rest)) =
          [] :: lines (List.replicate width ' ' ++ indentBefore width after rest) := rfl
      rw [lines_append spaces, pair, same]
      simp
  | case3 c rest single breaks ih =>
      by_cases joins : ∃ more, c = '\r' ∧ rest ++ after = '\n' :: more
      · -- The line feed that the carriage return belongs to follows the whole piece.
        obtain ⟨more, rfl, next⟩ := joins
        have empty : rest = [] := by
          cases rest with
          | nil => rfl
          | cons d rest => exact absurd (congrArg (· :: rest) (List.cons.inj next).1) (single rest rfl)
        subst empty
        have unended : margin width '\r' ([] ++ after) = [] := by
          rw [next]
          rfl
        exact ⟨[], by simp, by rw [indentBefore, unended, lines_append spaces]; rfl⟩
      · have ended : margin width c (rest ++ after) = List.replicate width ' ' :=
          margin_of_break breaks fun more first next => joins ⟨more, first, next⟩
        have alone : lines (c :: (List.replicate width ' ' ++ indentBefore width after rest)) =
            [] :: lines (List.replicate width ' ' ++ indentBefore width after rest) := by
          refine lines_of_break breaks fun more first next => ?_
          cases width with
          | zero =>
              have head := @head?_indentBefore 0 after rest
              rw [List.replicate_zero, List.nil_append] at next
              rw [next] at head
              obtain ⟨others, rfl⟩ := List.head?_eq_some_iff.mp head.symm
              exact single others first rfl
          | succ width => cases next
        obtain ⟨below, blank, same⟩ := ih
        refine ⟨below, blank, ?_⟩
        rw [indentBefore, ended, lines_append spaces, alone, same]
        simp
  | case4 c rest single plain none ih =>
      obtain rfl := lines_eq_nil none
      refine ⟨[], by simp, ?_⟩
      rw [indentBefore, margin_of_plain (Bool.eq_false_iff.mpr plain), lines_append spaces]
      rw [List.nil_append, indentBefore, lines_of_plain (Bool.eq_false_iff.mpr plain), none]
      rfl
  | case5 c rest single plain first more same ih =>
      obtain ⟨below, blank, inner⟩ := ih
      refine ⟨below, blank, ?_⟩
      rw [same, lines_append spaces] at inner
      rw [indentBefore, margin_of_plain (Bool.eq_false_iff.mpr plain), lines_append spaces, List.nil_append,
        lines_of_plain (Bool.eq_false_iff.mpr plain)]
      cases split : lines (indentBefore width after rest) with
      | nil =>
          have empty : indentBefore width after rest = [] := lines_eq_nil split
          cases rest with
          | nil => cases same
          | cons d rest => cases empty
      | cons line others =>
          rw [split] at inner
          simp only [List.map_cons, List.cons_append, List.cons.injEq, List.append_cancel_left_eq] at inner
          obtain ⟨rfl, rfl⟩ := inner
          rfl

end DocDrift.Text
