import DocDrift.Token.Scanner

namespace DocDrift.Token

/-! # The pieces of a text

What the scanner takes off the front of a text is a nonempty part of it, and the rest is scanned
from a fresh start.  Everything else about tokens follows from `splitPiece_text` and `pieces_cons`.
-/

namespace Literal

theorem splitPrefix_append (text : Text) : (splitPrefix text).1 ++ (splitPrefix text).2 = text := by
  fun_cases splitPrefix text <;> simp_all

theorem closeTriple_plain (quote : Char) {c : Char} (rest : Text) (plain : c ≠ '\\') :
    closeTriple quote (c :: rest) =
      if [quote, quote, quote].isPrefixOf (c :: rest) then
        some ([quote, quote, quote], rest.drop 2)
      else (closeTriple quote rest).map fun pair => (c :: pair.1, pair.2) := by
  rw [closeTriple]
  · exact fun same => absurd same plain
  · exact fun _ _ same => absurd same plain

theorem closeSingle_plain (quote : Char) {c : Char} (rest : Text) (plain : c ≠ '\\') :
    closeSingle quote (c :: rest) =
      if c = quote then some ([c], rest)
      else if c = '\n' then none
      else (closeSingle quote rest).map fun pair => (c :: pair.1, pair.2) := by
  rw [closeSingle]
  · exact fun same => absurd same plain
  · exact fun _ _ same => absurd same plain

theorem closeTriple_append {quote : Char} {text body after : Text}
    (closed : closeTriple quote text = some (body, after)) : body ++ after = text := by
  fun_induction closeTriple quote text generalizing body after with
  | case1 => simp_all
  | case2 => contradiction
  | case3 c rest ih =>
      obtain ⟨⟨inner, outer⟩, found, same⟩ := Option.map_eq_some_iff.mp closed
      cases same
      simp [ih found]
  | case4 c rest _ _ opens =>
      obtain ⟨more, split⟩ := List.isPrefixOf_iff_prefix.mp opens
      cases closed
      rw [← split]
      cases split
      rfl
  | case5 c rest _ _ _ ih =>
      obtain ⟨⟨inner, outer⟩, found, same⟩ := Option.map_eq_some_iff.mp closed
      cases same
      simp [ih found]

theorem closeSingle_append {quote : Char} {text body after : Text}
    (closed : closeSingle quote text = some (body, after)) : body ++ after = text := by
  fun_induction closeSingle quote text generalizing body after with
  | case1 => contradiction
  | case2 => contradiction
  | case3 => contradiction
  | case4 c rest _ ih =>
      obtain ⟨⟨inner, outer⟩, found, same⟩ := Option.map_eq_some_iff.mp closed
      cases same
      simp [ih found]
  | case5 rest =>
      cases closed
      rfl
  | case6 => contradiction
  | case7 c rest _ _ _ _ ih =>
      obtain ⟨⟨inner, outer⟩, found, same⟩ := Option.map_eq_some_iff.mp closed
      cases same
      simp [ih found]

theorem splitQuoted_append {text body after : Text}
    (found : splitQuoted text = some (body, after)) :
    body ++ after = text ∧ ∃ quote rest, isQuote quote = true ∧ body = quote :: rest := by
  cases text with
  | nil => contradiction
  | cons quote rest =>
      simp only [splitQuoted] at found
      split at found
      · rename_i quoted
        have single {body after : Text}
            (closed : (closeSingle quote rest).map (fun pair => (quote :: pair.1, pair.2)) =
              some (body, after)) :
            body ++ after = quote :: rest ∧
              ∃ mark rest, isQuote mark = true ∧ body = mark :: rest := by
          obtain ⟨⟨inner, outer⟩, found, same⟩ := Option.map_eq_some_iff.mp closed
          cases same
          exact ⟨by simp [closeSingle_append found], quote, inner, quoted, rfl⟩
        split at found
        · rename_i doubled
          split at found
          · rename_i inner outer closed
            obtain ⟨more, split⟩ := List.isPrefixOf_iff_prefix.mp doubled
            cases found
            cases split
            exact ⟨by simp [closeTriple_append closed], quote, _, quoted, rfl⟩
          · exact single found
        · exact single found
      · contradiction

theorem split_append {text literal after : Text} (found : split text = some (literal, after)) :
    literal ++ after = text ∧ ∃ quote ∈ literal, isQuote quote = true := by
  change (splitQuoted (splitPrefix text).2).map
    (fun pair => ((splitPrefix text).1 ++ pair.1, pair.2)) = some (literal, after) at found
  obtain ⟨⟨body, outer⟩, quoted, same⟩ := Option.map_eq_some_iff.mp found
  cases same
  obtain ⟨whole, quote, rest, isQuoted, rfl⟩ := splitQuoted_append quoted
  refine ⟨?_, quote, by simp, isQuoted⟩
  rw [List.append_assoc, whole, splitPrefix_append]

end Literal

theorem splitWord_append (previous : Char) (text : Text) :
    (splitWord previous text).1 ++ (splitWord previous text).2 = text := by
  induction text generalizing previous with
  | nil => rfl
  | cons c rest ih =>
      simp only [splitWord]
      split
      · simp [ih c]
      · rfl

/-- What a piece may be: a gap of blanks or a comment, which the text after it does not continue,
or a token whose kind fits its text. -/
def Piece.Fits (after : Text) : Piece → Prop
  | .gap text =>
      (∀ c ∈ text, Text.isBlank c = true) ∨
        ∃ body, text = '#' :: body ∧ '\n' ∉ body ∧ (after = [] ∨ ∃ rest, after = '\n' :: rest)
  | .token kind text =>
      (kind = .ofWord text) ∨ ∃ c, text = [c] ∧ Kind.ofChar? c = some kind

theorem dropWhile_ne_newline (text : Text) :
    text.dropWhile (· ≠ '\n') = [] ∨ ∃ rest, text.dropWhile (· ≠ '\n') = '\n' :: rest := by
  cases dropped : text.dropWhile (· ≠ '\n') with
  | nil => exact .inl rfl
  | cons c rest =>
      have filled : text.dropWhile (· ≠ '\n') ≠ [] := by rw [dropped]; exact List.cons_ne_nil c rest
      have stopped := List.head_dropWhile_not (· ≠ '\n') filled
      simp only [dropped, List.head_cons] at stopped
      exact .inr ⟨rest, by simp_all⟩

/-- The first piece and what follows it make up the text. -/
theorem splitPiece_text (c : Char) (rest : Text) :
    (splitPiece c rest).1.text ++ (splitPiece c rest).2 = c :: rest ∧
      (splitPiece c rest).1.text ≠ [] ∧ Piece.Fits (splitPiece c rest).2 (splitPiece c rest).1 := by
  unfold splitPiece
  split
  · rename_i blank
    refine ⟨by simp [Piece.text], by simp [Piece.text], .inl ?_⟩
    intro d member
    rcases List.mem_cons.mp member with rfl | member
    · exact blank
    · exact List.all_eq_true.mp List.all_takeWhile d member
  · split
    · rename_i comment
      refine ⟨by simp [Piece.text], by simp [Piece.text], .inr ⟨_, by rw [comment], ?_, ?_⟩⟩
      · intro member
        have := List.all_eq_true.mp List.all_takeWhile _ member
        simp at this
      · exact dropWhile_ne_newline rest
    · split
      · rename_i literal after found
        obtain ⟨whole, quote, member, _⟩ := Literal.split_append found
        exact ⟨whole, fun empty => by simp_all [Piece.text], .inl rfl⟩
      · split
        · rename_i pair
          obtain ⟨_, equals⟩ := Bool.and_eq_true_iff.mp pair
          obtain ⟨more, rfl⟩ : ∃ more, rest = '=' :: more := by
            cases rest <;> simp_all
          refine ⟨rfl, by simp [Piece.text], .inl ?_⟩
          simp [Kind.ofWord]
        · split
          · rename_i kind found
            exact ⟨rfl, by simp [Piece.text], .inr ⟨c, rfl, found⟩⟩
          · split
            · rename_i quoted
              refine ⟨rfl, by simp [Piece.text], .inl ?_⟩
              simp [Kind.ofWord]
            · exact ⟨by simp [Piece.text, splitWord_append], by simp [Piece.text], .inl rfl⟩

theorem splitPiece_shorter (c : Char) (rest : Text) :
    (splitPiece c rest).2.length ≤ rest.length := by
  obtain ⟨whole, filled, _⟩ := splitPiece_text c rest
  have lengths := congrArg List.length whole
  have positive := List.length_pos_iff.mpr filled
  simp only [List.length_append, List.length_cons] at lengths
  omega

theorem piecesUpTo_eq_pieces {count : Nat} {text : Text} (enough : text.length ≤ count) :
    piecesUpTo count text = pieces text := by
  -- Both runs take the same first piece, so it is enough that neither count runs out.
  suffices same : ∀ (more : Nat) (text : Text), text.length ≤ more → ∀ count, text.length ≤ count →
      piecesUpTo count text = piecesUpTo more text from
    same text.length text (Nat.le_refl _) count enough
  intro more
  induction more with
  | zero =>
      intro text bound count _
      have empty : text = [] := List.length_eq_zero_iff.mp (by omega)
      subst text
      cases count <;> rfl
  | succ more ih =>
      intro text bound count enough
      cases text with
      | nil => cases count <;> rfl
      | cons c rest =>
          have shorter := splitPiece_shorter c rest
          simp only [List.length_cons] at bound enough
          obtain ⟨count, rfl⟩ : ∃ fewer, count = fewer + 1 := ⟨count - 1, by omega⟩
          simp only [piecesUpTo]
          rw [ih _ (by omega) count (by omega)]

theorem pieces_cons (c : Char) (rest : Text) :
    pieces (c :: rest) = (splitPiece c rest).1 :: pieces (splitPiece c rest).2 := by
  have shorter := splitPiece_shorter c rest
  simp only [pieces, List.length_cons, piecesUpTo]
  rw [piecesUpTo_eq_pieces shorter]
  rfl

/-! ## From an offset

Scanning goes on from the end of each token as if the text began there.
-/

/-- The tokens from an offset at which one of them may start. -/
def scanFrom (source : Text) (offset : Nat) : List Token :=
  Piece.place offset (pieces (source.drop offset))

variable {source rest : Text} {offset : Nat}

theorem scanFrom_cons {c : Char} (front : source.drop offset = c :: rest) :
    scanFrom source offset =
      match (splitPiece c rest).1 with
      | .gap text => scanFrom source (offset + text.length)
      | .token kind text => ⟨kind, offset, text⟩ :: scanFrom source (offset + text.length) := by
  obtain ⟨whole, _⟩ := splitPiece_text c rest
  have after : (splitPiece c rest).2 =
      source.drop (offset + (splitPiece c rest).1.text.length) := by
    rw [← List.drop_drop, front, ← whole, List.drop_left]
  rw [scanFrom, front, pieces_cons, after]
  cases (splitPiece c rest).1 <;> rfl

/-- A token starts at every character that belongs to no gap. -/
theorem scanFrom_visible {c : Char} (front : source.drop offset = c :: rest)
    (visible : Text.isBlank c = false ∧ c ≠ '#') :
    ∃ kind text, (splitPiece c rest).1 = .token kind text ∧
      scanFrom source offset = ⟨kind, offset, text⟩ :: scanFrom source (offset + text.length) := by
  have token : ∃ kind text, (splitPiece c rest).1 = .token kind text := by
    simp only [splitPiece, visible.1, visible.2, if_false, Bool.false_eq_true]
    split
    · exact ⟨_, _, rfl⟩
    · split
      · exact ⟨_, _, rfl⟩
      · split
        · exact ⟨_, _, rfl⟩
        · split
          · exact ⟨_, _, rfl⟩
          · exact ⟨_, _, rfl⟩
  obtain ⟨kind, text, piece⟩ := token
  refine ⟨kind, text, piece, ?_⟩
  rw [scanFrom_cons front, piece]

end DocDrift.Token
