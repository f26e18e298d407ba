import DocDrift.Proofs.Token.Partition

namespace DocDrift.Token

/-! # Scanning one text after another

No form looks past the end of its line, triple-quoted literals apart.  So a text that ends its last
line outside every token can be continued by any other text, and each of the two keeps its tokens.
-/

/-- A text whose last character ends a line. -/
def EndsLine (text : Text) : Prop := text.getLast? = some '\n'

instance (text : Text) : Decidable (EndsLine text) :=
  inferInstanceAs (Decidable (text.getLast? = some '\n'))

theorem EndsLine.ne_nil {text : Text} (ends : EndsLine text) : text ≠ [] := by
  intro empty
  simp [EndsLine, empty] at ends

theorem EndsLine.of_cons {c : Char} {rest : Text} (ends : EndsLine (c :: rest)) (other : c ≠ '\n') :
    EndsLine rest := by
  cases rest with
  | nil => simp_all [EndsLine]
  | cons d more => simpa [EndsLine, List.getLast?_cons_cons] using ends

theorem EndsLine.of_append (front : Text) {back : Text} (ends : EndsLine (front ++ back))
    (filled : back ≠ []) : EndsLine back := by
  rw [EndsLine, List.getLast?_append] at ends
  cases last : back.getLast? with
  | none => simp_all
  | some c => simpa [EndsLine, last] using ends

theorem EndsLine.behind (front : Text) {back : Text} (ends : front ++ back = [] ∨ EndsLine (front ++ back)) :
    back = [] ∨ EndsLine back := by
  rcases ends with empty | ends
  · exact .inl (List.append_eq_nil_iff.mp empty).2
  · by_cases filled : back = []
    · exact .inl filled
    · exact .inr (EndsLine.of_append front ends filled)

namespace Literal

theorem isQuote_ne {c : Char} (quoted : isQuote c = true) : c ≠ '\n' ∧ c ≠ '\\' := by
  rcases eq_of_isQuote quoted with rfl | rfl <;> decide

theorem isPrefixLetter_ne {c : Char} (letter : isPrefixLetter c = true) : c ≠ '\n' := by
  rintro rfl
  contradiction

theorem splitPrefix_append_right {text : Text} (ends : EndsLine text) (more : Text) :
    splitPrefix (text ++ more) = ((splitPrefix text).1, (splitPrefix text).2 ++ more) := by
  match text with
  | [] => exact absurd rfl ends.ne_nil
  | [a] =>
      have plain : isPrefixLetter a = false := by
        obtain rfl : a = '\n' := by simpa [EndsLine] using ends
        decide
      cases more <;> simp [splitPrefix, plain]
  | a :: b :: rest =>
      simp only [List.cons_append, splitPrefix]
      by_cases first : isPrefixLetter a = true <;> by_cases second : isPrefixLetter b = true <;>
        simp [first, second]

theorem splitPrefix_endsLine {text : Text} (ends : EndsLine text) : EndsLine (splitPrefix text).2 := by
  fun_cases splitPrefix text with
  | case1 a b rest first second =>
      exact (ends.of_cons (isPrefixLetter_ne first)).of_cons (isPrefixLetter_ne second)
  | case2 a b rest first _ => exact ends.of_cons (isPrefixLetter_ne first)
  | case3 => exact ends
  | case4 a first => exact ends.of_cons (isPrefixLetter_ne first)
  | case5 => exact ends
  | case6 => exact ends

theorem ne_backslash {c : Char} {rest : Text} (notLast : c = '\\' → rest = [] → False)
    (notPair : ∀ d more, c = '\\' → rest = d :: more → False) : c ≠ '\\' := by
  intro same
  cases rest with
  | nil => exact notLast same rfl
  | cons d more => exact notPair d more same rfl

theorem closeTriple_length {quote : Char} {text body after : Text}
    (closed : closeTriple quote text = some (body, after)) (filled : after ≠ []) :
    3 ≤ body.length := by
  fun_induction closeTriple quote text generalizing body after with
  | case1 => simp_all
  | case2 => contradiction
  | case3 c rest ih =>
      obtain ⟨⟨inner, outer⟩, found, same⟩ := Option.map_eq_some_iff.mp closed
      cases same
      have := ih found filled
      simp only [List.length_cons]
      omega
  | case4 => cases closed; simp
  | case5 c rest _ _ _ ih =>
      obtain ⟨⟨inner, outer⟩, found, same⟩ := Option.map_eq_some_iff.mp closed
      cases same
      have := ih found filled
      simp only [List.length_cons]
      omega

/-- A triple-quoted literal that is closed before the end of a text stays as it is. -/
theorem closeTriple_append_right {quote : Char} {text body after : Text}
    (closed : closeTriple quote text = some (body, after)) (filled : after ≠ []) (more : Text) :
    closeTriple quote (text ++ more) = some (body, after ++ more) := by
  fun_induction closeTriple quote text generalizing body after with
  | case1 => simp_all
  | case2 => contradiction
  | case3 c rest ih =>
      obtain ⟨⟨inner, outer⟩, found, same⟩ := Option.map_eq_some_iff.mp closed
      cases same
      simp [closeTriple, ih found filled]
  | case4 c rest notLast notPair opens =>
      have plain := ne_backslash notLast notPair
      obtain ⟨tail, split⟩ := List.isPrefixOf_iff_prefix.mp opens
      cases closed
      cases split
      simp [closeTriple_plain _ _ plain]
  | case5 c rest notLast notPair other ih =>
      have plain := ne_backslash notLast notPair
      obtain ⟨⟨inner, outer⟩, found, same⟩ := Option.map_eq_some_iff.mp closed
      cases same
      have long : [quote, quote, quote].length ≤ (c :: rest).length := by
        have := closeTriple_length found filled
        have := congrArg List.length (closeTriple_append found)
        simp only [List.length_append, List.length_cons, List.length_nil] at *
        omega
      rw [List.cons_append, closeTriple_plain _ _ plain, ← List.cons_append,
        Text.isPrefixOf_append long, if_neg other, ih found filled]
      rfl

/-- The closing quotes are looked for up to the end of the text only. -/
theorem closeTriple_endsLine (quote : Char) {text : Text} (ends : text = [] ∨ EndsLine text) :
    ∃ pair, closeTriple quote text = some pair := by
  fun_induction closeTriple quote text with
  | case1 => exact ⟨_, rfl⟩
  | case2 =>
      rcases ends with empty | ends
      · contradiction
      · exact absurd ends (by decide)
  | case3 c rest ih =>
      obtain ⟨pair, found⟩ := ih (EndsLine.behind ['\\', c] ends)
      exact ⟨_, by rw [found]; rfl⟩
  | case4 => exact ⟨_, rfl⟩
  | case5 c rest _ _ _ ih =>
      obtain ⟨pair, found⟩ := ih (EndsLine.behind [c] ends)
      exact ⟨_, by rw [found]; rfl⟩

/-- A single-quoted literal is decided before the line ends. -/
theorem closeSingle_append_right {quote : Char} {text : Text} (ends : EndsLine text) (more : Text) :
    closeSingle quote (text ++ more) =
      (closeSingle quote text).map fun pair => (pair.1, pair.2 ++ more) := by
  fun_induction closeSingle quote text with
  | case1 => exact absurd rfl ends.ne_nil
  | case2 => exact absurd ends (by decide)
  | case3 => simp [closeSingle]
  | case4 c rest other ih =>
      have later : EndsLine rest := (ends.of_cons (by decide)).of_cons other
      simp only [List.cons_append, closeSingle, if_neg other, ih later, Option.map_map]
      rfl
  | case5 rest notLast notPair =>
      have plain := ne_backslash notLast notPair
      simp [closeSingle_plain _ _ plain]
  | case6 rest notLast notPair other =>
      rw [List.cons_append, closeSingle_plain _ _ (by decide), if_neg other, if_pos rfl]
      rfl
  | case7 c rest notLast notPair other inLine ih =>
      have plain := ne_backslash notLast notPair
      rw [List.cons_append, closeSingle_plain _ _ plain, if_neg other, if_neg inLine,
        ih (ends.of_cons inLine), Option.map_map, Option.map_map]
      rfl

theorem doubled_append {quote : Char} {rest : Text} (other : quote ≠ '\n') (ends : EndsLine rest)
    (more : Text) : [quote, quote].isPrefixOf (rest ++ more) = [quote, quote].isPrefixOf rest := by
  match rest with
  | [] => exact absurd rfl ends.ne_nil
  | [c] =>
      obtain rfl : c = '\n' := by simpa [EndsLine] using ends
      simp [List.isPrefixOf, other]
  | _ :: _ :: _ => exact Text.isPrefixOf_append (by simp) more

/-- A literal on a text that ends its last line depends on that text only, unless it runs to the
end of it. -/
theorem splitQuoted_append_right {text : Text} (ends : EndsLine text)
    (inside : ∀ body, splitQuoted text ≠ some (body, [])) (more : Text) :
    splitQuoted (text ++ more) = (splitQuoted text).map fun pair => (pair.1, pair.2 ++ more) := by
  cases text with
  | nil => exact absurd rfl ends.ne_nil
  | cons quote rest =>
      by_cases quoted : isQuote quote = true
      · have other := (isQuote_ne quoted).1
        have later := ends.of_cons other
        simp only [List.cons_append, splitQuoted, if_pos quoted, doubled_append other later more]
          at inside ⊢
        by_cases doubled : [quote, quote].isPrefixOf rest = true
        · obtain ⟨tail, rfl⟩ : ∃ tail, rest = quote :: quote :: tail :=
            (List.isPrefixOf_iff_prefix.mp doubled).imp fun _ => Eq.symm
          have tailEnds : EndsLine tail := (later.of_cons other).of_cons other
          obtain ⟨⟨body, after⟩, closed⟩ := closeTriple_endsLine quote (.inr tailEnds)
          simp only [if_pos doubled, List.cons_append, List.drop_succ_cons, List.drop_zero,
            closed] at inside ⊢
          rw [closeTriple_append_right closed (fun empty => inside _ (by rw [empty])) more]
          rfl
        · simp only [if_neg doubled, closeSingle_append_right later, Option.map_map]
          rfl
      · simp [splitQuoted, quoted]

theorem split_append_right {text : Text} (ends : EndsLine text)
    (inside : ∀ literal, split text ≠ some (literal, [])) (more : Text) :
    split (text ++ more) = (split text).map fun pair => (pair.1, pair.2 ++ more) := by
  have quotedInside : ∀ body, splitQuoted (splitPrefix text).2 ≠ some (body, []) := by
    intro body found
    exact inside ((splitPrefix text).1 ++ body) (by
      change (splitQuoted (splitPrefix text).2).map _ = _
      rw [found]
      rfl)
  change (splitQuoted (splitPrefix (text ++ more)).2).map
    (fun pair => ((splitPrefix (text ++ more)).1 ++ pair.1, pair.2)) = _
  rw [splitPrefix_append_right ends,
    splitQuoted_append_right (splitPrefix_endsLine ends) quotedInside]
  change _ = ((splitQuoted (splitPrefix text).2).map
    (fun pair => ((splitPrefix text).1 ++ pair.1, pair.2))).map _
  simp only [Option.map_map]
  rfl

end Literal

theorem splitWord_append_right {previous : Char} {text : Text}
    (inside : (splitWord previous text).2 ≠ []) (more : Text) :
    splitWord previous (text ++ more) =
      ((splitWord previous text).1, (splitWord previous text).2 ++ more) := by
  induction text generalizing previous with
  | nil => exact absurd rfl inside
  | cons c rest ih =>
      simp only [List.cons_append, splitWord] at inside ⊢
      split
      · rename_i goes
        simp only [if_pos goes] at inside
        rw [ih inside]
      · rfl

theorem takeWhile_dropWhile_append {p : Char → Bool} {text : Text} (stops : text.dropWhile p ≠ [])
    (more : Text) : (text ++ more).takeWhile p = text.takeWhile p ∧
      (text ++ more).dropWhile p = text.dropWhile p ++ more := by
  induction text with
  | nil => exact absurd rfl stops
  | cons c rest ih =>
      by_cases goes : p c = true
      · simp only [List.dropWhile_cons, if_pos goes] at stops
        simp [goes, ih stops]
      · simp [goes]

/-- A first piece that leaves something of a text that ends its last line is the first piece of
every longer text too. -/
theorem splitPiece_append_right {c : Char} {rest : Text} (ends : EndsLine (c :: rest))
    (inside : (splitPiece c rest).2 ≠ []) (more : Text) :
    splitPiece c (rest ++ more) = ((splitPiece c rest).1, (splitPiece c rest).2 ++ more) := by
  unfold splitPiece at inside ⊢
  by_cases blank : Text.isBlank c = true
  · simp only [if_pos blank] at inside ⊢
    obtain ⟨front, back⟩ := takeWhile_dropWhile_append inside more
    rw [front, back]
  · simp only [if_neg blank] at inside ⊢
    have other : c ≠ '\n' := by
      rintro rfl
      exact blank (by decide)
    have later := ends.of_cons other
    by_cases comment : c = '#'
    · simp only [if_pos comment] at inside ⊢
      obtain ⟨front, back⟩ := takeWhile_dropWhile_append inside more
      rw [front, back]
    · simp only [if_neg comment] at inside ⊢
      have head : (rest ++ more).head? = rest.head? := by
        cases rest with
        | nil => exact absurd rfl later.ne_nil
        | cons => rfl
      have literalInside : ∀ literal, Literal.split (c :: rest) ≠ some (literal, []) := by
        intro literal found
        rw [found] at inside
        exact inside rfl
      rw [← List.cons_append, Literal.split_append_right ends literalInside, head]
      cases found : Literal.split (c :: rest) with
      | some pair => rfl
      | none =>
          simp only [found, Option.map_none] at inside ⊢
          by_cases pair : ((c = '=' || c = ':') && rest.head? = some '=') = true
          · have long : 1 ≤ rest.length := List.length_pos_iff.mpr later.ne_nil
            simp only [if_pos pair, List.drop_append_of_le_length long]
          · simp only [if_neg pair] at inside ⊢
            cases mark : Kind.ofChar? c with
            | some kind => rfl
            | none =>
                simp only [mark] at inside ⊢
                by_cases quote : Literal.isQuote c = true
                · simp only [if_pos quote]
                · simp only [if_neg quote] at inside ⊢
                  rw [splitWord_append_right inside]

/-- A piece that takes all of a text that ends its last line is a token or blanks. -/
theorem splitPiece_whole {c : Char} {rest : Text} (ends : EndsLine (c :: rest))
    (whole : (splitPiece c rest).2 = []) :
    (∃ kind, (splitPiece c rest).1 = .token kind (c :: rest)) ∨
      ∀ d ∈ c :: rest, Text.isBlank d = true := by
  obtain ⟨same, _, fits⟩ := splitPiece_text c rest
  rw [whole, List.append_nil] at same
  cases piece : (splitPiece c rest).1 with
  | token kind text =>
      rw [piece] at same
      exact .inl ⟨kind, by rw [← same]; rfl⟩
  | gap text =>
      rw [piece] at same fits
      obtain rfl : text = c :: rest := same
      rcases fits with blanks | ⟨body, comment, oneLine, _⟩
      · exact .inr blanks
      · rw [comment] at ends
        have member := List.mem_of_getLast? ends
        simp only [List.mem_cons, oneLine, or_false] at member
        contradiction

/-- Blanks before a text move its tokens and change nothing else. -/
theorem place_pieces_blanks {blanks : Text} (all : ∀ c ∈ blanks, Text.isBlank c = true)
    (offset : Nat) (text : Text) :
    Piece.place offset (pieces (blanks ++ text)) =
      Piece.place (offset + blanks.length) (pieces text) := by
  cases blanks with
  | nil => rfl
  | cons c rest =>
      have first : Text.isBlank c = true := all c (by simp)
      have others : ∀ d ∈ rest, Text.isBlank d = true := fun d member => all d (by simp [member])
      rw [List.cons_append, pieces_cons]
      simp only [splitPiece, if_pos first, List.takeWhile_append_of_pos others,
        List.dropWhile_append_of_pos others, Piece.place]
      cases text with
      | nil => simp [Piece.place]
      | cons d more =>
          by_cases blank : Text.isBlank d = true
          · simp only [pieces_cons, splitPiece, if_pos blank, List.takeWhile_cons_of_pos blank,
              List.dropWhile_cons_of_pos blank, Piece.place, List.length_cons, List.length_append]
            congr 1
            omega
          · simp [blank]

/-- A token, `distance` characters further on. -/
def shift (distance : Nat) (token : Token) : Token := { token with start := token.start + distance }

@[simp] theorem shift_kind (distance : Nat) (token : Token) : (token.shift distance).kind = token.kind := rfl

@[simp] theorem shift_text (distance : Nat) (token : Token) : (token.shift distance).text = token.text := rfl

@[simp] theorem shift_start (distance : Nat) (token : Token) :
    (token.shift distance).start = token.start + distance := rfl

@[simp] theorem shift_stop (distance : Nat) (token : Token) :
    (token.shift distance).stop = token.stop + distance := by
  simp only [Token.stop, shift_start, shift_text]
  omega

@[simp] theorem shift_zero : shift 0 = id := rfl

theorem place_shift (offset distance : Nat) (pieces : List Piece) :
    Piece.place (offset + distance) pieces = (Piece.place offset pieces).map (shift distance) := by
  induction pieces generalizing offset with
  | nil => rfl
  | cons piece rest ih =>
      cases piece <;>
        simp only [Piece.place, List.map_cons, ← ih, shift, Nat.add_right_comm offset distance]

/-- The last token of a text leaves at least its last character uncovered. -/
def Settled (offset : Nat) (text : Text) (tokens : List Token) : Prop :=
  ∀ token ∈ tokens.getLast?, token.stop < offset + text.length

instance (offset : Nat) (text : Text) (tokens : List Token) : Decidable (Settled offset text tokens) :=
  inferInstanceAs (Decidable (∀ token ∈ tokens.getLast?, token.stop < offset + text.length))

theorem place_pieces_append {offset : Nat} {left : Text} (ends : EndsLine left)
    (settled : Settled offset left (Piece.place offset (pieces left))) (right : Text) :
    Piece.place offset (pieces (left ++ right)) =
      Piece.place offset (pieces left) ++ Piece.place (offset + left.length) (pieces right) := by
  -- On the length, since the first piece may take any number of characters.
  induction length : left.length using Nat.strongRecOn generalizing offset left with
  | ind n ih =>
      cases left with
      | nil => exact absurd rfl ends.ne_nil
      | cons c rest =>
          obtain ⟨whole, _, _⟩ := splitPiece_text c rest
          have shorter := splitPiece_shorter c rest
          by_cases taken : (splitPiece c rest).2 = []
          · rcases splitPiece_whole ends taken with ⟨kind, piece⟩ | blanks
            · -- A token that takes everything would leave no character uncovered.
              rw [pieces_cons, taken, piece] at settled
              have := settled ⟨kind, offset, c :: rest⟩ rfl
              simp only [Token.stop] at this
              omega
            · have alone := place_pieces_blanks blanks offset []
              rw [List.append_nil] at alone
              rw [place_pieces_blanks blanks, alone, length]
              rfl
          · have later : EndsLine (splitPiece c rest).2 := by
              rw [← whole] at ends
              exact EndsLine.of_append _ ends taken
            have lengths := congrArg List.length whole
            simp only [List.length_append, List.length_cons] at lengths length
            rw [List.cons_append, pieces_cons, splitPiece_append_right ends taken, pieces_cons c rest]
            rw [pieces_cons] at settled
            have front := fun (place : Nat) (settled : Settled place (splitPiece c rest).2
                (Piece.place place (pieces (splitPiece c rest).2))) =>
              ih _ (by omega) later settled rfl
            cases piece : (splitPiece c rest).1 with
            | gap text =>
                rw [piece] at settled lengths
                simp only [Piece.place, Piece.text] at settled lengths ⊢
                rw [front _ fun token last => ?_]
                · rw [← length, ← lengths, Nat.add_assoc]
                · have := settled token last
                  simp only [List.length_cons] at this
                  omega
            | token kind text =>
                rw [piece] at settled lengths
                simp only [Piece.place, Piece.text] at settled lengths ⊢
                rw [front _ fun token last => ?_]
                · rw [← length, ← lengths, Nat.add_assoc]
                  rfl
                · have := settled token (by rw [List.getLast?_cons, last]; rfl)
                  simp only [List.length_cons] at this
                  omega

/-- A text that ends its last line outside every token keeps its tokens before any other text, and
that text keeps its own. -/
theorem scan_append {left : Text} (ends : EndsLine left) (settled : Settled 0 left (scan left))
    (right : Text) : scan (left ++ right) = scan left ++ (scan right).map (shift left.length) := by
  rw [scan, place_pieces_append ends settled, place_shift]
  rfl

end DocDrift.Token
