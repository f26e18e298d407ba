import DocDrift.Proofs.Text.Slices
import DocDrift.Proofs.Token.Pieces

namespace DocDrift.Token

/-! # Tokens partition every text

The forms of a piece are tried in order, and each of them may fail.  One of them fits wherever a
character is left, so scanning reaches the end of every text; its tokens stand apart, in order, and
only blanks and whole comments stand between them.
-/

/-- A form that may stand at the front of a text, and what follows it there. -/
abbrev Attempt := Text → Option (Piece × Text)

def blanks? : Attempt
  | c :: rest =>
      if Text.isBlank c then
        some (.gap (c :: rest.takeWhile Text.isBlank), rest.dropWhile Text.isBlank)
      else none
  | [] => none

def comment? : Attempt
  | '#' :: rest => some (.gap ('#' :: rest.takeWhile (· ≠ '\n')), rest.dropWhile (· ≠ '\n'))
  | _ => none

def literal? : Attempt := fun text =>
  (Literal.split text).map fun (literal, after) => (.token (.ofWord literal) literal, after)

def operator? : Attempt
  | '=' :: '=' :: rest => some (.token .text ['=', '='], rest)
  | ':' :: '=' :: rest => some (.token .text [':', '='], rest)
  | _ => none

def punctuation? : Attempt
  | c :: rest => (Kind.ofChar? c).map fun kind => (.token kind [c], rest)
  | [] => none

/-- A word starts with a character that ends no word. -/
def word? : Attempt
  | c :: rest =>
      if isDelimiter c then none
      else
        let (word, after) := splitWord c rest
        some (.token (.ofWord (c :: word)) (c :: word), after)
  | [] => none

def quote? : Attempt
  | c :: rest => if Literal.isQuote c then some (.token .text [c], rest) else none
  | [] => none

def attempts : List Attempt :=
  [blanks?, comment?, literal?, operator?, punctuation?, word?, quote?]

/-- Scans a text form by form, with at most `count` pieces.  The error is the offset at which no
form fits or the count is used up. -/
def attemptUpTo : Nat → Nat → Text → Except Nat (List Token)
  | _, _, [] => .ok []
  | 0, offset, _ => .error offset
  | count + 1, offset, text =>
      match attempts.findSome? (· text) with
      | none => .error offset
      | some (piece, after) =>
          match attemptUpTo count (offset + piece.text.length) after with
          | .error stuck => .error stuck
          | .ok later => .ok (Piece.place offset [piece] ++ later)

theorem comment?_of_ne {c : Char} (rest : Text) (other : c ≠ '#') : comment? (c :: rest) = none := by
  unfold comment?
  split <;> simp_all

theorem operator?_cons (c : Char) (rest : Text) :
    operator? (c :: rest) =
      if (c = '=' || c = ':') && rest.head? = some '=' then
        some (.token .text [c, '='], rest.drop 1)
      else none := by
  unfold operator?
  split
  · simp_all
  · simp_all
  · rename_i notEquals notWalrus
    cases rest with
    | nil => simp
    | cons d more =>
        by_cases equals : d = '='
        · subst equals
          have first : c ≠ '=' := fun same => notEquals more (by rw [same])
          have second : c ≠ ':' := fun same => notWalrus more (by rw [same])
          simp [first, second]
        · simp [equals]

theorem isDelimiter_of_word {c : Char} (notBlank : ¬ Text.isBlank c = true) (notComment : c ≠ '#')
    (notMark : Kind.ofChar? c = none) (notQuote : ¬ Literal.isQuote c = true) :
    isDelimiter c = false := by
  simp_all [isDelimiter]

/-- Wherever a character is left, one of the forms fits, and the first that does is the piece. -/
theorem attempts_fit (c : Char) (rest : Text) :
    attempts.findSome? (· (c :: rest)) = some (splitPiece c rest) := by
  unfold splitPiece
  by_cases blank : Text.isBlank c = true
  · simp [attempts, blanks?, blank]
  · have noBlanks : blanks? (c :: rest) = none := by simp [blanks?, blank]
    by_cases comment : c = '#'
    · subst comment
      simp [attempts, noBlanks, blank, comment?]
    · have noComment := comment?_of_ne rest comment
      cases literal : Literal.split (c :: rest) with
      | some found => simp [attempts, noBlanks, noComment, blank, comment, literal?, literal]
      | none =>
          have noLiteral : literal? (c :: rest) = none := by simp [literal?, literal]
          simp only [attempts, List.findSome?_cons, noBlanks, noComment, noLiteral, operator?_cons,
            if_neg blank, if_neg comment]
          by_cases pair : ((c = '=' || c = ':') && rest.head? = some '=') = true
          · simp only [if_pos pair]
          · simp only [if_neg pair, punctuation?]
            cases mark : Kind.ofChar? c with
            | some kind => rfl
            | none =>
                by_cases quote : Literal.isQuote c = true
                · have delimiter : isDelimiter c = true := by simp [isDelimiter, quote]
                  simp [word?, quote?, quote, delimiter]
                · have plain := isDelimiter_of_word blank comment mark quote
                  simp [word?, quote, plain]

theorem attemptUpTo_eq {count : Nat} (offset : Nat) {text : Text} (enough : text.length ≤ count) :
    attemptUpTo count offset text = .ok (Piece.place offset (pieces text)) := by
  induction count generalizing offset text with
  | zero =>
      have empty : text = [] := List.length_eq_zero_iff.mp (by omega)
      subst text
      rfl
  | succ count ih =>
      cases text with
      | nil => rfl
      | cons c rest =>
          have shorter := splitPiece_shorter c rest
          simp only [List.length_cons] at enough
          simp only [attemptUpTo, attempts_fit, pieces_cons]
          rw [ih _ (by omega)]
          cases (splitPiece c rest).1 <;> rfl

/-- Blanks and comments, as they stand before `after`.  A comment goes on to the end of its line. -/
inductive Skipped : Text → Text → Prop where
  | nil {after : Text} : Skipped [] after
  | blank {c : Char} {gap after : Text} (isBlank : Text.isBlank c = true)
      (later : Skipped gap after) : Skipped (c :: gap) after
  | comment {body gap after : Text} (oneLine : '\n' ∉ body)
      (lineEnds : gap ++ after = [] ∨ ∃ rest, gap ++ after = '\n' :: rest)
      (later : Skipped gap after) : Skipped ('#' :: body ++ gap) after

theorem Skipped.cons_piece {text gap after : Text}
    (fits : Piece.Fits (gap ++ after) (.gap text)) (later : Skipped gap after) :
    Skipped (text ++ gap) after := by
  rcases fits with blanks | ⟨body, rfl, oneLine, lineEnds⟩
  · induction text with
    | nil => exact later
    | cons c rest ih =>
        exact .blank (blanks c (by simp)) (ih fun d member => blanks d (by simp [member]))
  · exact .comment oneLine lineEnds later

/-- Tokens cut a text that stands at `offset`: each follows some skipped text and covers at least
one character, and skipped text ends the whole. -/
inductive Cuts : Nat → List Token → Text → Prop where
  | last {offset : Nat} {gap : Text} (skipped : Skipped gap []) : Cuts offset [] gap
  | token {offset : Nat} {gap word rest : Text} {kind : Kind} {tokens : List Token}
      (skipped : Skipped gap (word ++ rest)) (filled : word ≠ [])
      (fits : Piece.Fits rest (.token kind word))
      (later : Cuts (offset + gap.length + word.length) tokens rest) :
      Cuts offset (⟨kind, offset + gap.length, word⟩ :: tokens) (gap ++ (word ++ rest))

theorem Cuts.cons_gap {text rest : Text} {offset : Nat} {tokens : List Token}
    (fits : Piece.Fits rest (.gap text)) (later : Cuts (offset + text.length) tokens rest) :
    Cuts offset tokens (text ++ rest) := by
  cases later with
  | last skipped => exact .last (.cons_piece (by simpa using fits) skipped)
  | @token _ gap word rest kind tokens skipped filled tokenFits later =>
      rw [← List.append_assoc, Nat.add_assoc, ← List.length_append]
      refine .token (.cons_piece fits skipped) filled tokenFits ?_
      simpa only [List.length_append, Nat.add_assoc] using later

theorem place_cuts (offset : Nat) (text : Text) : Cuts offset (Piece.place offset (pieces text)) text := by
  induction length : text.length using Nat.strongRecOn generalizing offset text with
  | ind n ih =>
      cases text with
      | nil => exact .last .nil
      | cons c rest =>
          obtain ⟨whole, filled, fits⟩ := splitPiece_text c rest
          have shorter := splitPiece_shorter c rest
          simp only [List.length_cons] at length
          rw [pieces_cons, ← whole]
          cases piece : (splitPiece c rest).1 with
          | gap text =>
              rw [piece] at fits
              exact .cons_gap fits (ih _ (by omega) _ _ rfl)
          | token kind word =>
              rw [piece] at fits filled
              exact @Cuts.token offset [] _ _ _ _ .nil filled fits (ih _ (by omega) _ _ rfl)

theorem Cuts.bounds {offset : Nat} {tokens : List Token} {text : Text}
    (cuts : Cuts offset tokens text) {token : Token} (member : token ∈ tokens) :
    offset ≤ token.start ∧ token.start < token.stop ∧ token.stop ≤ offset + text.length := by
  induction cuts with
  | last => contradiction
  | token skipped filled _ later ih =>
      have positive := List.length_pos_iff.mpr filled
      simp only [List.length_append]
      rcases List.mem_cons.mp member with rfl | member
      · simp only [Token.stop]
        omega
      · have := ih member
        omega

theorem Cuts.apart {offset : Nat} {tokens : List Token} {text : Text}
    (cuts : Cuts offset tokens text) :
    tokens.Pairwise fun earlier later => earlier.start < later.start ∧ earlier.stop ≤ later.start := by
  induction cuts with
  | last => exact .nil
  | token skipped filled _ later ih =>
      refine .cons (fun token member => ?_) ih
      have bounds := later.bounds member
      have positive := List.length_pos_iff.mpr filled
      simp only [Token.stop]
      omega

/-- Any two members of an ordered list are the same, or one comes before the other. -/
theorem related_of_pairwise {α : Type} {before : α → α → Prop} {items : List α}
    (ordered : items.Pairwise before) {first second : α} (left : first ∈ items) (right : second ∈ items) :
    first = second ∨ before first second ∨ before second first := by
  have indexed := List.pairwise_iff_getElem.mp ordered
  obtain ⟨i, inside, rfl⟩ := List.getElem_of_mem left
  obtain ⟨j, within, rfl⟩ := List.getElem_of_mem right
  rcases Nat.lt_trichotomy i j with earlier | same | later
  · exact .inr (.inl (indexed i j inside within earlier))
  · subst same
    exact .inl rfl
  · exact .inr (.inr (indexed j i within inside later))

theorem Cuts.text_eq {offset : Nat} {tokens : List Token} {text : Text}
    (cuts : Cuts offset tokens text) {token : Token} (member : token ∈ tokens) :
    (text.drop (token.start - offset)).take token.text.length = token.text := by
  induction cuts with
  | last => contradiction
  | @token offset gap word rest kind tokens skipped filled _ later ih =>
      rcases List.mem_cons.mp member with rfl | member
      · simp
      · have bounds := later.bounds member
        have same := ih member
        have distance : token.start - offset =
            (gap ++ word).length + (token.start - (offset + gap.length + word.length)) := by
          simp only [List.length_append]
          omega
        rw [distance, ← List.append_assoc, ← List.drop_drop, List.drop_left]
        exact same

/-- A stretch that no token meets and that cannot be made longer: tokens or the ends of the text
stand on both sides of it. -/
structure Uncovered (tokens : List Token) (length start stop : Nat) : Prop where
  ordered : start ≤ stop
  bounded : stop ≤ length
  clear : ∀ token ∈ tokens, token.stop ≤ start ∨ stop ≤ token.start
  opens : start = 0 ∨ ∃ token ∈ tokens, token.stop = start
  closes : stop = length ∨ ∃ token ∈ tokens, token.start = stop

/-- The uncovered stretches of a text that tokens cut hold skipped text only. -/
theorem Cuts.skipped {offset start stop : Nat} {tokens : List Token} {text : Text}
    (cuts : Cuts offset tokens text) (ordered : start ≤ stop)
    (clear : ∀ token ∈ tokens, token.stop ≤ start ∨ stop ≤ token.start)
    (opens : start = offset ∨ ∃ token ∈ tokens, token.stop = start)
    (closes : stop = offset + text.length ∨ ∃ token ∈ tokens, token.start = stop) :
    Skipped ((text.take (stop - offset)).drop (start - offset)) (text.drop (stop - offset)) := by
  induction cuts with
  | @last offset gap skipped =>
      obtain rfl : start = offset := by simpa using opens
      obtain rfl : stop = start + gap.length := by simpa using closes
      simpa using skipped
  | @token offset gap word rest kind tokens skipped filled fits later ih =>
      have positive := List.length_pos_iff.mpr filled
      have first := clear _ List.mem_cons_self
      simp only [Token.stop] at first
      simp only [List.mem_cons, or_and_right, exists_or, exists_eq_left, Token.stop] at opens
      simp only [List.mem_cons, or_and_right, exists_or, exists_eq_left, List.length_append] at closes
      by_cases before : start = offset
      · -- The stretch begins with the text, so it ends where the first token starts.
        have ends : stop = offset + gap.length := by
          rcases closes with whole | same | ⟨token, member, same⟩
          · omega
          · exact same.symm
          · have := later.bounds member
            omega
        subst before ends
        simpa using skipped
      · -- The stretch lies after the first token.
        have behind : offset + gap.length + word.length ≤ start := by
          rcases opens with same | same | ⟨token, member, same⟩
          · contradiction
          · exact Nat.le_of_eq same
          · have := later.bounds member
            simp only [Token.stop] at this
            omega
        have shorter : Skipped
            ((rest.take (stop - (offset + gap.length + word.length))).drop
              (start - (offset + gap.length + word.length)))
            (rest.drop (stop - (offset + gap.length + word.length))) := by
          apply ih (fun token member => clear token (by simp [member]))
          · exact (opens.resolve_left before).imp_left Eq.symm
          · rcases closes with whole | same | within
            · exact .inl (by omega)
            · omega
            · exact .inr within
        have startSplit : start - offset =
            (gap ++ word).length + (start - (offset + gap.length + word.length)) := by
          simp only [List.length_append]
          omega
        have stopSplit : stop - offset =
            (gap ++ word).length + (stop - (offset + gap.length + word.length)) := by
          simp only [List.length_append]
          omega
        rw [startSplit, stopSplit, ← List.append_assoc, List.take_length_add_append,
          List.drop_length_add_append, List.drop_length_add_append]
        exact shorter

theorem Cuts.fits {offset : Nat} {tokens : List Token} {text : Text} (cuts : Cuts offset tokens text)
    {token : Token} (member : token ∈ tokens) :
    token.kind = .ofWord token.text ∨ ∃ c, token.text = [c] ∧ Kind.ofChar? c = some token.kind := by
  induction cuts with
  | last => contradiction
  | token _ _ fits _ ih =>
      rcases List.mem_cons.mp member with rfl | member
      · exact fits
      · exact ih member

theorem Kind.ofChar?_ne_word {c : Char} {kind : Kind} (mark : Kind.ofChar? c = some kind) :
    kind ≠ .define ∧ kind ≠ .text := by
  unfold Kind.ofChar? at mark
  split at mark <;> simp_all <;> subst kind <;> simp

theorem scan_cuts (source : Text) : Cuts 0 (scan source) source := place_cuts 0 source

/-- Every text is scanned to its end.  Its tokens cover at least one character each, lie inside the
text, in order and apart; the stretches that they leave uncovered are blanks and whole comments; a
punctuation token is its character, and a token defines a function exactly when it is that word. -/
theorem scan_partitions (source : Text) :
    attemptUpTo source.length 0 source = .ok (scan source) ∧
      (∀ token ∈ scan source, token.text ≠ [] ∧ token.stop ≤ source.length ∧
        source.slice token.start token.stop = token.text) ∧
      ((scan source).Pairwise fun earlier later =>
        earlier.start < later.start ∧ earlier.stop ≤ later.start) ∧
      (∀ start stop, Uncovered (scan source) source.length start stop →
        Skipped (source.slice start stop) (source.drop stop)) ∧
      (∀ token ∈ scan source, token.kind ≠ .define → token.kind ≠ .text →
        ∃ c, token.text = [c] ∧ Kind.ofChar? c = some token.kind) ∧
      (∀ token ∈ scan source, token.kind = .define ↔ token.text = ['d', 'e', 'f']) := by
  have cuts := scan_cuts source
  refine ⟨attemptUpTo_eq 0 (Nat.le_refl _), ?_, cuts.apart, ?_, ?_, ?_⟩
  · intro token member
    have bounds := cuts.bounds member
    have same := cuts.text_eq member
    refine ⟨fun empty => ?_, by omega, ?_⟩
    · simp only [Token.stop, empty, List.length_nil] at bounds
      omega
    · rw [Text.slice_natCast, Token.stop, List.drop_take, Nat.add_sub_cancel_left]
      exact same
  · intro start stop ⟨ordered, _, clear, opens, closes⟩
    have skipped := cuts.skipped ordered clear opens (by simpa using closes)
    rw [Text.slice_natCast]
    exact skipped
  · intro token member notDefine notText
    rcases cuts.fits member with word | mark
    · rw [word, Kind.ofWord] at notDefine notText
      split at notDefine <;> simp_all
    · exact mark
  · intro token member
    rcases cuts.fits member with word | ⟨c, text, mark⟩
    · rw [word, Kind.ofWord]
      split <;> simp_all
    · simp [text, (Kind.ofChar?_ne_word mark).1]

/-- The stretch between two words that holds a blank and a comment. -/
theorem scan_partitions_comment :
    Uncovered (scan "x #d\ny".toList) 6 1 5 ∧ Skipped " #d\n".toList ['y'] := by
  have uncovered : Uncovered (scan "x #d\ny".toList) 6 1 5 :=
    ⟨by decide, by decide, by decide, .inr (by decide), .inr (by decide)⟩
  exact ⟨uncovered, (scan_partitions "x #d\ny".toList).2.2.2.1 1 5 uncovered⟩

end DocDrift.Token
