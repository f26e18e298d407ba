import DocDrift.Syntax.Scanner

namespace DocDrift.Syntax

/-! # Lexemes make up the source

Every step of the scanner cuts its lexemes off the front of the text.
-/

/-- Lexemes that are cut off the front of a text one after the other, among which names are not
empty. -/
structure Cuts (lexemes : List Lexeme) (text rest : Text) : Prop where
  split : text = lexemes.flatMap (·.text) ++ rest
  named : ∀ lexeme ∈ lexemes, lexeme.kind = .name → lexeme.text ≠ []

namespace Cuts

theorem single {lexeme : Lexeme} {text rest : Text} (split : text = lexeme.text ++ rest)
    (named : lexeme.kind = .name → lexeme.text ≠ []) : Cuts [lexeme] text rest :=
  ⟨by rw [split, List.flatMap_singleton], List.forall_mem_singleton.mpr named⟩

theorem append {left right : List Lexeme} {text middle rest : Text} (first : Cuts left text middle)
    (second : Cuts right middle rest) : Cuts (left ++ right) text rest :=
  ⟨by rw [first.split, second.split, List.flatMap_append, List.append_assoc],
    List.forall_mem_append.mpr ⟨first.named, second.named⟩⟩

/-- Layout covers no text. -/
theorem layout {kinds : List Lexeme} (empty : ∀ lexeme ∈ kinds, lexeme.text = [] ∧ lexeme.kind ≠ .name)
    (text : Text) : Cuts kinds text text := by
  have bare : kinds.flatMap (·.text) = [] := List.flatMap_eq_nil_iff.mpr fun lexeme member =>
    (empty lexeme member).1
  exact ⟨by rw [bare, List.nil_append], fun lexeme member name => absurd name (empty lexeme member).2⟩

end Cuts

namespace Number

theorem splitGrouped_append (isDigit : Char → Bool) (text : Text) :
    text = (splitGrouped isDigit text).1 ++ (splitGrouped isDigit text).2 := by
  fun_induction splitGrouped isDigit text with
  | case1 d rest _ digits after same ih =>
      rw [same] at ih
      rw [ih]
      rfl
  | case2 | case4 | case5 => rfl
  | case3 d rest _ _ digits after same ih =>
      rw [same] at ih
      rw [ih]
      rfl

theorem splitDigits_append (isDigit : Char → Bool) (text : Text) :
    text = (splitDigits isDigit text).1 ++ (splitDigits isDigit text).2 := by
  unfold splitDigits
  split
  · exact splitGrouped_append isDigit text
  · rfl

theorem splitFraction_append (text : Text) : text = (splitFraction text).1 ++ (splitFraction text).2 := by
  unfold splitFraction
  split
  · exact congrArg ('.' :: ·) (splitDigits_append Char.isDigit _)
  · rfl

theorem splitImaginary_append (text : Text) :
    text = (splitImaginary text).1 ++ (splitImaginary text).2 := by
  unfold splitImaginary
  split
  · split <;> rfl
  · rfl

theorem splitExponent_append (text : Text) : text = (splitExponent text).1 ++ (splitExponent text).2 := by
  unfold splitExponent
  split
  · rename_i e rest
    split
    · have tail {sign unsigned digits after : Text} (signed : rest = sign ++ unsigned)
          (found : splitDigits Char.isDigit unsigned = (digits, after)) :
          e :: rest = e :: sign ++ digits ++ after := by
        have cut := splitDigits_append Char.isDigit unsigned
        rw [found] at cut
        rw [signed, cut, List.cons_append, List.cons_append, List.append_assoc]
      cases rest with
      | nil => rfl
      | cons s more =>
          by_cases mark : (s = '+' || s = '-') = true
          · simp only [if_pos mark]
            split
            · rfl
            · rename_i found
              exact @tail [s] _ _ _ rfl found
          · simp only [if_neg mark]
            split
            · rfl
            · rename_i found
              exact @tail [] _ _ _ rfl found
    · rfl
  · rfl

theorem splitDecimal_append {text number after : Text} (found : splitDecimal text = some (number, after)) :
    text = number ++ after := by
  have whole := splitDigits_append Char.isDigit text
  have fraction := splitFraction_append (splitDigits Char.isDigit text).2
  have exponent := splitExponent_append (splitFraction (splitDigits Char.isDigit text).2).2
  have imaginary := splitImaginary_append
    (splitExponent (splitFraction (splitDigits Char.isDigit text).2).2).2
  simp only [splitDecimal] at found
  split at found
  · contradiction
  · cases found
    rw [List.append_assoc, List.append_assoc, List.append_assoc, ← imaginary, ← exponent, ← fraction, ← whole]

theorem split_append {text number after : Text} (found : split text = some (number, after)) :
    text = number ++ after := by
  unfold split at found
  split at found
  · rename_i base rest
    split at found
    · rename_i isDigit _
      have cut := splitGrouped_append isDigit rest
      split at found
      · contradiction
      · rename_i grouped
        cases found
        rw [grouped] at cut
        exact congrArg (fun rest => '0' :: base :: rest) cut
    · exact splitDecimal_append found
  · exact splitDecimal_append found

end Number

namespace Scanner

/-- What is put in front of the first half of a cut comes from the front of the text. -/
theorem append_of_map {inner : Option (Text × Text)} (front : Text) {rest body after : Text}
    (cut : ∀ {body after}, inner = some (body, after) → rest = body ++ after)
    (found : inner.map (fun (body, after) => (front ++ body, after)) = some (body, after)) :
    front ++ rest = body ++ after := by
  obtain ⟨⟨body, after⟩, same, rfl, rfl⟩ := Option.map_eq_some_iff.mp found
  rw [cut same, List.append_assoc]

theorem closeString_append {quote : Char} {triple : Bool} {text closed after : Text}
    (found : closeString quote triple text = some (closed, after)) : text = closed ++ after := by
  fun_induction closeString quote triple text generalizing closed after with
  | case1 | case6 => contradiction
  | case2 rest ih => exact append_of_map ['\\', '\r', '\n'] ih found
  | case3 c rest _ ih => exact append_of_map ['\\', c] ih found
  | case4 c rest _ _ closes =>
      cases found
      simp only [Bool.and_eq_true] at closes
      obtain ⟨more, same⟩ := List.isPrefixOf_iff_prefix.mp closes.2
      cases same
      rfl
  | case5 =>
      cases found
      rfl
  | case7 c rest _ _ _ _ _ ih => exact append_of_map [c] ih found

theorem splitFieldText_append {literal : OpenString} {named : Bool} {text body after : Text}
    (found : splitFieldText literal named text = some (body, after)) : text = body ++ after := by
  fun_induction splitFieldText literal named text generalizing body after with
  | case1 | case3 | case8 => contradiction
  | case2 | case9 | case11 | case13 | case15 =>
      cases found
      rfl
  | case4 | case6 | case16 => exact append_of_map [_] (by assumption) found
  | case5 =>
      rename_i escape _ _ _ _ _
      simp only [Bool.and_eq_true, decide_eq_true_eq] at escape
      obtain ⟨rfl, _⟩ := escape
      exact append_of_map ['\\', 'N', '\x7b'] (by assumption) found
  | case7 =>
      rename_i escape d _ _ _ _ _ _
      simp only [Bool.and_eq_true, decide_eq_true_eq] at escape
      obtain ⟨rfl, _⟩ := escape
      exact append_of_map ['\\', d] (by assumption) found
  | case10 => exact append_of_map ['\x7b', '\x7b'] (by assumption) found
  | case12 => exact append_of_map ['\x7d'] (by assumption) found
  | case14 => exact append_of_map ['\x7d', '\x7d'] (by assumption) found

/-- The quotes that open a literal, and the text behind them. -/
theorem opening_append (quote : Char) (rest : Text) :
    (if [quote, quote].isPrefixOf rest then [quote, quote, quote] else [quote]) ++
      (if [quote, quote].isPrefixOf rest then rest.drop 2 else rest) = quote :: rest := by
  split
  · rename_i triple
    obtain ⟨more, rfl⟩ := List.isPrefixOf_iff_prefix.mp triple
    rfl
  · rfl

/-- A step whose lexemes come off the front of the text. -/
abbrev Advances (text : Text) (step : Step) : Prop := Cuts step.1 text step.2.1

theorem stepString_advances {scanner : Scanner} {letters text : Text} {step : Step}
    (found : scanner.stepString letters text = some step) : Advances (letters ++ text) step := by
  cases text with
  | nil => cases found
  | cons quote rest =>
      have whole := opening_append quote rest
      simp only [stepString] at found
      split at found
      · cases found
        exact .single (by simp only [List.append_assoc, whole]) (by simp)
      · obtain ⟨⟨closed, after⟩, closes, same⟩ := Option.map_eq_some_iff.mp found
        cases same
        refine .single ?_ (by simp)
        rw [← whole, closeString_append closes, ← List.append_assoc, ← List.append_assoc]

theorem isIdentifierPart_of_isIdentifierStart {c : Char} (start : Text.isIdentifierStart c = true) :
    Text.isIdentifierPart c = true := by
  unfold Text.isIdentifierStart at start
  unfold Text.isIdentifierPart
  split at start
  · rename_i small
    simp only [if_pos small, Bool.or_eq_true, Char.isAlphanum] at start ⊢
    exact start.imp_left .inl
  · rename_i large
    simp only [if_neg large, Bool.or_eq_true]
    exact .inl start

theorem stepName_advances {scanner : Scanner} {c : Char} {rest : Text} {step : Step}
    (start : Text.isIdentifierStart c = true) (found : scanner.stepName (c :: rest) = some step) :
    Advances (c :: rest) step := by
  have split : (c :: rest).takeWhile Text.isIdentifierPart ++
      (c :: rest).dropWhile Text.isIdentifierPart = c :: rest := List.takeWhile_append_dropWhile
  have nonempty : (c :: rest).takeWhile Text.isIdentifierPart ≠ [] := by
    rw [List.takeWhile_cons_of_pos (isIdentifierPart_of_isIdentifierStart start)]
    exact List.cons_ne_nil _ _
  simp only [stepName] at found
  split at found
  · have advances := stepString_advances found
    rwa [split] at advances
  · cases found
    exact .single split.symm fun _ => nonempty

theorem stepOperator_advances {scanner : Scanner} {text : Text} {step : Step}
    (found : scanner.stepOperator text = some step) : Advances text step := by
  simp only [stepOperator] at found
  split at found
  · rename_i format
    cases found
    simp only [Bool.and_eq_true, beq_iff_eq] at format
    have colon : text = [':'] ++ text.drop 1 := by
      cases text with
      | nil => simp at format
      | cons c rest => simp_all
    exact .single colon (by simp)
  · obtain ⟨operator, chosen, rfl⟩ := Option.map_eq_some_iff.mp found
    have starts : operator.isPrefixOf text = true := by simpa using List.find?_some chosen
    obtain ⟨more, rfl⟩ := List.isPrefixOf_iff_prefix.mp starts
    rw [List.drop_left]
    exact .single rfl (by simp)

theorem stepField_advances {scanner : Scanner} {literal : OpenString} {outer : List OpenString}
    {text : Text} {step : Step} (found : scanner.stepField literal outer text = some step) :
    Advances text step := by
  simp only [stepField] at found
  split at found
  · contradiction
  · rename_i split
    cases found
    exact .single (splitFieldText_append split) (by simp)
  · rename_i rest split
    obtain rfl : text = rest := splitFieldText_append split
    split at found
    · rename_i closes
      cases found
      obtain ⟨more, rfl⟩ := List.isPrefixOf_iff_prefix.mp closes
      rw [List.drop_left]
      exact .single rfl (by simp)
    · split at found
      · split at found
        · contradiction
        · exact stepOperator_advances found
      · exact stepOperator_advances found

theorem splitNewline_append {text newline next : Text}
    (found : splitNewline text = some (newline, next)) : text = newline ++ next := by
  unfold splitNewline at found
  split at found <;> cases found <;> rfl

theorem indent_layout {indents kept : List (Nat × Nat)} {blanks : Text} {layout : List Lexeme}
    (found : indent indents blanks = some (layout, kept)) :
    ∀ lexeme ∈ layout, lexeme.text = [] ∧ lexeme.kind ≠ .name := by
  simp only [indent] at found
  split at found
  · split at found
    · cases found
      exact List.forall_mem_singleton.mpr ⟨rfl, by simp⟩
    · contradiction
  · split at found
    · cases found
      intro lexeme member
      obtain rfl := List.eq_of_mem_replicate member
      exact ⟨rfl, by simp⟩
    · contradiction

theorem stepLineStart_advances {scanner : Scanner} {text : Text} {step : Step}
    (found : scanner.stepLineStart text = some step) : Advances text step := by
  have blanks : text.takeWhile isSpace ++ text.dropWhile isSpace = text :=
    List.takeWhile_append_dropWhile
  obtain ⟨comment, chosen, cut⟩ : ∃ comment,
      (if (text.dropWhile isSpace).head? == some '#' then
        (text.dropWhile isSpace).takeWhile (!isNewline ·) else []) = comment ∧
      comment ++ (text.dropWhile isSpace).drop comment.length = text.dropWhile isSpace := by
    refine ⟨_, rfl, ?_⟩
    split
    · exact List.prefix_iff_eq_append.mp (List.takeWhile_prefix _)
    · rfl
  simp only [stepLineStart, chosen] at found
  split at found
  · rename_i newline next ends
    cases found
    refine .single ?_ (by simp)
    rw [splitNewline_append ends] at cut
    simp only [List.append_assoc, cut, blanks]
  · split at found
    · rename_i last
      cases found
      refine .single ?_ (by simp)
      rw [last] at cut
      simp only [List.append_assoc, cut, blanks]
    · obtain ⟨⟨layout, indents⟩, layouts, same⟩ := Option.map_eq_some_iff.mp found
      cases same
      have first : Cuts [⟨.gap, text.takeWhile isSpace⟩] text (text.dropWhile isSpace) :=
        .single blanks.symm (by simp)
      exact first.append (.layout (indent_layout layouts) _)

theorem stepInLine_advances {scanner : Scanner} {text : Text} {step : Step}
    (found : scanner.stepInLine text = some step) : Advances text step := by
  cases text with
  | nil => contradiction
  | cons c rest =>
      have cut (p : Char → Bool) : c :: rest = (c :: rest.takeWhile p) ++ rest.dropWhile p :=
        congrArg (c :: ·) List.takeWhile_append_dropWhile.symm
      simp only [stepInLine] at found
      split at found
      · cases found
        exact .single (cut _) (by simp)
      · split at found
        · cases found
          exact .single (cut _) (by simp)
        · split at found
          · split at found
            · rename_i ends
              split at found
              · contradiction
              · cases found
                exact .single (congrArg (c :: ·) (splitNewline_append ends)) (by simp)
            · contradiction
          · split at found
            · rename_i ends
              split at found
              · cases found
                exact .single (splitNewline_append ends) (by simp)
              · cases found
                exact .single (splitNewline_append ends) (by simp)
            · split at found
              · rename_i start
                exact stepName_advances start found
              · split at found
                · obtain ⟨⟨number, after⟩, digits, same⟩ := Option.map_eq_some_iff.mp found
                  cases same
                  exact .single (Number.split_append digits) (by simp)
                · split at found
                  · exact stepString_advances found
                  · exact stepOperator_advances found

theorem step_advances {scanner : Scanner} {text : Text} {step : Step}
    (found : scanner.step text = some step) : Advances text step := by
  unfold Scanner.step at found
  split at found
  · split at found
    · exact stepInLine_advances found
    · exact stepField_advances found
  · split at found
    · exact stepLineStart_advances found
    · exact stepInLine_advances found

theorem finish_layout {scanner : Scanner} {lexemes : List Lexeme}
    (found : scanner.finish = some lexemes) :
    ∀ lexeme ∈ lexemes, lexeme.text = [] ∧ lexeme.kind ≠ .name := by
  unfold finish at found
  split at found
  · cases found
    intro lexeme member
    simp only [List.mem_append, List.mem_singleton] at member
    rcases member with (first | step) | rfl
    · split at first
      · contradiction
      · obtain rfl := List.mem_singleton.mp first
        exact ⟨rfl, by simp⟩
    · obtain rfl := List.eq_of_mem_replicate step
      exact ⟨rfl, by simp⟩
    · exact ⟨rfl, by simp⟩
  · contradiction

theorem runUpTo_cuts {count : Nat} {scanner : Scanner} {text : Text} {lexemes : List Lexeme}
    (found : runUpTo count scanner text = some lexemes) : Cuts lexemes text [] := by
  induction count generalizing scanner text lexemes with
  | zero => cases text <;> contradiction
  | succ count ih =>
      cases text with
      | nil => exact .layout (finish_layout found) []
      | cons c rest =>
          simp only [runUpTo] at found
          split at found
          · contradiction
          · rename_i first after next stepped
            obtain ⟨later, run, rfl⟩ := Option.map_eq_some_iff.mp found
            exact (step_advances stepped).append (ih run)

end Scanner

/-- The lexemes of a source are cut off it one after the other, down to its end. -/
theorem scan_cuts {source : Text} {lexemes : List Lexeme} (found : scan source = some lexemes) :
    Cuts lexemes source [] :=
  Scanner.runUpTo_cuts found

end DocDrift.Syntax
