import DocDrift.Proofs.Docstring.Literal
import DocDrift.Proofs.Token.Forms
import DocDrift.Signature.Reader

namespace DocDrift

/-! # Docstrings inside their tokens

The end of a docstring is looked for in the source, past backslashes and without regard to tokens.
Yet it never lies outside the token that opens the docstring: that token ends with the delimiter, or
it runs to the end of the source.
-/

namespace Token

/-- A token is the first piece of the text that stands at its offset. -/
theorem piece_of_mem_scanFrom {source : Text} {offset : Nat} {token : Token}
    (member : token ∈ scanFrom source offset) :
    ∃ c rest, source.drop token.start = c :: rest ∧
      (splitPiece c rest).1 = .token token.kind token.text := by
  induction length : (source.drop offset).length using Nat.strongRecOn generalizing offset with
  | ind n ih =>
      cases front : source.drop offset with
      | nil =>
          rw [scanFrom, front] at member
          contradiction
      | cons c rest =>
          obtain ⟨_, filled, _⟩ := splitPiece_text c rest
          have shorter : ∀ text, (splitPiece c rest).1.text = text →
              (source.drop (offset + text.length)).length < n := by
            rintro text rfl
            have positive := List.length_pos_iff.mpr filled
            have total := congrArg List.length front
            simp only [List.length_drop, List.length_cons] at total length ⊢
            omega
          rw [scanFrom_cons front] at member
          cases piece : (splitPiece c rest).1 with
          | gap text =>
              rw [piece] at member
              exact ih _ (shorter text (by rw [piece]; rfl)) member rfl
          | token kind text =>
              rw [piece] at member
              rcases List.mem_cons.mp member with rfl | later
              · exact ⟨c, rest, front, piece⟩
              · exact ih _ (shorter text (by rw [piece]; rfl)) later rfl

namespace Literal

theorem closeTriple_ends {quote : Char} {text body after : Text}
    (closed : closeTriple quote text = some (body, after)) :
    [quote, quote, quote] <:+ body ∨ after = [] := by
  fun_induction closeTriple quote text generalizing body after with
  | case1 => simp_all
  | case2 => contradiction
  | case3 c rest ih =>
      obtain ⟨⟨inner, outer⟩, found, same⟩ := Option.map_eq_some_iff.mp closed
      cases same
      exact (ih found).imp_left fun ends => ends.trans (List.suffix_append ['\\', c] inner)
  | case4 =>
      cases closed
      exact .inl (List.suffix_refl _)
  | case5 c rest _ _ _ ih =>
      obtain ⟨⟨inner, outer⟩, found, same⟩ := Option.map_eq_some_iff.mp closed
      cases same
      exact (ih found).imp_left fun ends => ends.trans (List.suffix_cons c inner)

end Literal

/-- A token that opens with three quotes is a literal: it ends with three quotes too, or it runs to the
end of the text. -/
theorem tripled_of_mem_scan {source : Text} {token : Token} (member : token ∈ scan source) {quote : Char}
    (quotes : Literal.isQuote quote = true) (opens : [quote, quote, quote] <+: token.text) :
    ∃ body after, token.text = [quote, quote, quote] ++ body ∧
      source.drop token.start = token.text ++ after ∧ ([quote, quote, quote] <:+ body ∨ after = []) := by
  obtain ⟨c, rest, front, piece⟩ := piece_of_mem_scanFrom member
  obtain ⟨whole, _⟩ := splitPiece_text c rest
  rw [piece] at whole
  obtain ⟨tail, split⟩ := opens
  obtain ⟨rfl, text, rfl⟩ : c = quote ∧ ∃ text, rest = quote :: quote :: text := by
    simp only [Piece.text, ← split, List.cons_append, List.nil_append, List.cons.injEq] at whole
    exact ⟨whole.1.symm, _, whole.2.symm⟩
  cases closed : Literal.closeTriple c text with
  | none =>
      have short : token.text = [c, c] := by
        rw [splitPiece_untripled quotes closed] at piece
        exact (Piece.token.inj piece).2.symm
      simp [short] at split
  | some pair =>
      obtain ⟨body, after⟩ := pair
      have own : token.text = [c, c, c] ++ body := by
        rw [splitPiece_triple quotes closed] at piece
        exact (Piece.token.inj piece).2.symm
      refine ⟨body, after, own, ?_, Literal.closeTriple_ends closed⟩
      rw [front, own, ← Literal.closeTriple_append closed]
      rfl

/-- A part of a token's text stands in the source behind the token's offset. -/
theorem slice_of_mem_scan {source : Text} {token : Token} (member : token ∈ scan source) {length : Nat}
    (inside : length ≤ token.text.length) :
    source.slice token.start (token.start + length : Nat) = token.text.take length := by
  have whole := (scan_cuts source).text_eq member
  rw [Nat.sub_zero] at whole
  rw [Text.slice_natCast, List.drop_take, Nat.add_sub_cancel_left, ← whole, List.take_take,
    Nat.min_eq_left inside]

end Token

namespace Docstring

/-- A literal that ends with its delimiter, or with the text, holds the end of its docstring. -/
theorem find_closed {delimiter body after : Text} (ends : delimiter <:+ body ∨ after = []) :
    Text.find delimiter (body ++ after) = Text.find delimiter body := by
  rcases ends with ⟨front, rfl⟩ | rfl
  · obtain ⟨i, found⟩ := Text.find_suffix delimiter front
    rw [found, Text.find_append found]
  · rw [List.append_nil]

theorem opensDocstring_iff {token : Token} :
    Reading.opensDocstring token = true ↔
      ∃ quote, (quote = '\x22' ∨ quote = '\x27') ∧ [quote, quote, quote] <+: token.text := by
  simp [Reading.opensDocstring, delimiters]

/-- The docstring at a token is the docstring of the token's own text. -/
theorem locate_token {source : Text} {token : Token} (member : token ∈ Token.scan source)
    (opens : Reading.opensDocstring token = true) :
    locate source token.start none = (locate token.text (0 : Nat) none).map (·.shift token.start) := by
  obtain ⟨quote, quotes, starts⟩ := opensDocstring_iff.mp opens
  have isQuote : Token.Literal.isQuote quote = true := by simpa [Token.Literal.isQuote] using quotes
  obtain ⟨body, after, text, front, ends⟩ := Token.tripled_of_mem_scan member isQuote starts
  have behind : source.drop (token.start + 3) = body ++ after := by
    rw [← List.drop_drop, front, text]
    rfl
  rw [locate_natCast, locate_natCast, behind, front, List.drop_zero, text, List.append_assoc,
    opening?_quotes quotes, opening?_quotes quotes, Option.bind_some, Option.bind_some, find_closed ends,
    Option.map_map]
  congr 1
  funext i
  simp [Span.shift]
  omega

theorem locate_bounds {text : Text} {start : Nat} {span : Span} (found : locate text start none = some span) :
    ∃ stop : Nat, span = ⟨start, stop⟩ ∧ stop ≤ text.length := by
  obtain ⟨stop, _, same, _, inside, _⟩ := locate_spec found
  exact ⟨stop, same, inside⟩

/-- So the text of a docstring is a matter of the token that opens it. -/
theorem resolve_token {source : Text} {token : Token} (member : token ∈ Token.scan source)
    (opens : Reading.opensDocstring token = true) :
    (locate source token.start none).map (·.resolve source) = extract token.text := by
  have own : extract token.text = (locate token.text (0 : Nat) none).map (·.resolve token.text) := rfl
  rw [locate_token member opens, own, Option.map_map]
  refine Option.map_congr fun span found => ?_
  obtain ⟨stop, rfl, inside⟩ := locate_bounds found
  have part := Token.slice_of_mem_scan member inside
  have moved : (⟨(0 : Nat), stop⟩ : Span).shift token.start = ⟨token.start, (token.start + stop : Nat)⟩ := by
    simp [Span.shift]
    omega
  rw [Function.comp_apply, moved, Span.resolve, part, Span.resolve, Text.slice_natCast, List.drop_zero]

end Docstring
end DocDrift
