import DocDrift.Proofs.Token.Forms

namespace DocDrift.Token

/-! # String literals are single tokens

A string literal is written as a body between delimiters, and the body as characters that stand alone
or behind a backslash.  The scanner takes every such literal at the front of a text as one piece,
with one exception: on a line of its own it gives up at a line feed, even at an escaped one.
-/

/-- A character of a literal's body, on its own or behind the backslash that escapes it. -/
inductive Glyph where
  | plain (c : Char)
  | escaped (c : Char)
  deriving DecidableEq, Repr

namespace Glyph

def text : Glyph → Text
  | plain c => [c]
  | escaped c => ['\\', c]

def spell (body : List Glyph) : Text := body.flatMap text

@[simp] theorem spell_nil : spell [] = [] := rfl

@[simp] theorem spell_plain (c : Char) (body : List Glyph) : spell (plain c :: body) = c :: spell body := rfl

@[simp] theorem spell_escaped (c : Char) (body : List Glyph) :
    spell (escaped c :: body) = '\\' :: c :: spell body := rfl

/-- Whether the delimiter behind a body is the first one that no backslash escapes. -/
def runsUpTo (delimiter : Text) : List Glyph → Bool
  | [] => true
  | glyph :: body =>
      !delimiter.isPrefixOf (spell (glyph :: body) ++ delimiter) && runsUpTo delimiter body

end Glyph

/-- A string literal as it is written: prefix letters, and a body between one quote or three on
either side.  Between single quotes the body has no line feed but an escaped one. -/
structure StringLiteral where
  letters : Text
  quote : Char
  tripled : Bool
  body : List Glyph
  few : letters.length ≤ 2 := by decide
  lettered : letters.all Literal.isPrefixLetter = true := by decide
  quoted : Literal.isQuote quote = true := by decide
  bare : .plain '\\' ∉ body := by decide
  inLine : tripled = false → .plain '\n' ∉ body := by decide
  closed : Glyph.runsUpTo (List.replicate (if tripled then 3 else 1) quote) body = true := by decide

namespace StringLiteral

def delimiter (literal : StringLiteral) : Text :=
  List.replicate (if literal.tripled then 3 else 1) literal.quote

def core (literal : StringLiteral) : Text :=
  literal.delimiter ++ (Glyph.spell literal.body ++ literal.delimiter)

def text (literal : StringLiteral) : Text := literal.letters ++ literal.core

/-- Whether the scanner can take the literal: between single quotes it follows no escaped line feed. -/
def isTaken (literal : StringLiteral) : Bool :=
  literal.tripled || !literal.body.contains (.escaped '\n')

end StringLiteral

namespace Literal

variable {quote : Char} {body : List Glyph}

theorem closeTriple_spell (bare : .plain '\\' ∉ body)
    (closed : Glyph.runsUpTo [quote, quote, quote] body = true) (escape : quote ≠ '\\') (rest : Text) :
    closeTriple quote (Glyph.spell body ++ quote :: quote :: quote :: rest) =
      some (Glyph.spell body ++ [quote, quote, quote], rest) := by
  induction body with
  | nil =>
      rw [Glyph.spell_nil, List.nil_append, closeTriple_plain quote _ escape]
      simp
  | cons glyph body ih =>
      simp only [Glyph.runsUpTo, Bool.and_eq_true, Bool.not_eq_true'] at closed
      simp only [List.mem_cons, not_or] at bare
      have later := ih bare.2 closed.2
      cases glyph with
      | escaped c =>
          simp only [Glyph.spell_escaped, List.cons_append, closeTriple, later]
          rfl
      | plain c =>
          have plain : c ≠ '\\' := by
            rintro rfl
            exact bare.1 rfl
          have other : [quote, quote, quote].isPrefixOf
              (c :: (Glyph.spell body ++ quote :: quote :: quote :: rest)) = false := by
            have fits : [quote, quote, quote].length ≤
                (Glyph.spell (.plain c :: body) ++ [quote, quote, quote]).length := by simp
            have same := Text.isPrefixOf_append fits rest
            rwa [closed.1, List.append_assoc] at same
          rw [Glyph.spell_plain, List.cons_append, closeTriple_plain quote _ plain, other, later]
          rfl

/-- Between single quotes an escaped line feed ends the search, and nothing else in a body does. -/
theorem closeSingle_spell (bare : .plain '\\' ∉ body) (inLine : .plain '\n' ∉ body)
    (closed : Glyph.runsUpTo [quote] body = true) (escape : quote ≠ '\\') (rest : Text) :
    closeSingle quote (Glyph.spell body ++ quote :: rest) =
      if .escaped '\n' ∈ body then none else some (Glyph.spell body ++ [quote], rest) := by
  induction body with
  | nil =>
      rw [Glyph.spell_nil, List.nil_append, closeSingle_plain quote _ escape]
      simp
  | cons glyph body ih =>
      simp only [Glyph.runsUpTo, Bool.and_eq_true, Bool.not_eq_true'] at closed
      simp only [List.mem_cons, not_or] at bare inLine
      have later := ih bare.2 inLine.2 closed.2
      cases glyph with
      | escaped c =>
          simp only [Glyph.spell_escaped, List.cons_append, closeSingle, later]
          by_cases newline : c = '\n'
          · simp [newline]
          · have other : '\n' ≠ c := fun same => newline same.symm
            by_cases deeper : Glyph.escaped '\n' ∈ body <;> simp [newline, other, deeper]
      | plain c =>
          have plain : c ≠ '\\' := by
            rintro rfl
            exact bare.1 rfl
          have newline : c ≠ '\n' := by
            rintro rfl
            exact inLine.1 rfl
          have other : c ≠ quote := by
            rintro rfl
            simp at closed
          rw [Glyph.spell_plain, List.cons_append, closeSingle_plain quote _ plain, if_neg other,
            if_neg newline, later]
          by_cases deeper : Glyph.escaped '\n' ∈ body <;> simp [deeper]

theorem splitQuoted_tripled (quoted : isQuote quote = true) (bare : .plain '\\' ∉ body)
    (closed : Glyph.runsUpTo [quote, quote, quote] body = true) (rest : Text) :
    splitQuoted (quote :: quote :: quote :: (Glyph.spell body ++ quote :: quote :: quote :: rest)) =
      some (quote :: quote :: quote :: (Glyph.spell body ++ [quote, quote, quote]), rest) := by
  have inner := closeTriple_spell bare closed (isQuote_ne quoted).2 rest
  simp only [splitQuoted, quoted, if_true, List.isPrefixOf, BEq.rfl, Bool.and_self, List.drop_succ_cons,
    List.drop_zero, inner]

theorem splitQuoted_single (quoted : isQuote quote = true) (bare : .plain '\\' ∉ body)
    (inLine : .plain '\n' ∉ body) (closed : Glyph.runsUpTo [quote] body = true) {rest : Text}
    (apart : rest.head? ≠ some quote) :
    splitQuoted (quote :: (Glyph.spell body ++ quote :: rest)) =
      if .escaped '\n' ∈ body then none else some (quote :: (Glyph.spell body ++ [quote]), rest) := by
  have escape := (isQuote_ne quoted).2
  -- The opening quote is not the first of three: a body has no bare quote, and none follows the literal.
  have alone : [quote, quote].isPrefixOf (Glyph.spell body ++ quote :: rest) = false := by
    match body with
    | [] =>
        cases rest with
        | nil => simp [List.isPrefixOf]
        | cons c rest =>
            have other : quote ≠ c := fun same => apart (by rw [same]; rfl)
            simp [List.isPrefixOf, other]
    | .escaped c :: body => simp [List.isPrefixOf, escape]
    | .plain c :: body =>
        simp only [Glyph.runsUpTo, Glyph.spell_plain, List.cons_append, List.isPrefixOf,
          Bool.and_true, Bool.and_eq_true, Bool.not_eq_true', beq_eq_false_iff_ne] at closed
        simp [List.isPrefixOf, closed.1]
  simp only [splitQuoted, quoted, if_true, alone, Bool.false_eq_true, if_false,
    closeSingle_spell bare inLine closed escape rest]
  by_cases newline : Glyph.escaped '\n' ∈ body <;> simp [newline]

theorem splitPrefix_letters {letters : Text} {c : Char} (few : letters.length ≤ 2)
    (lettered : letters.all isPrefixLetter = true) (other : isPrefixLetter c = false)
    (rest : Text) : splitPrefix (letters ++ c :: rest) = (letters, c :: rest) := by
  match letters with
  | [] => exact splitPrefix_of_ne rest other
  | [a] =>
      simp only [List.all_cons, List.all_nil, Bool.and_true] at lettered
      simp [splitPrefix, lettered, other]
  | [a, b] =>
      simp only [List.all_cons, List.all_nil, Bool.and_true, Bool.and_eq_true] at lettered
      simp [splitPrefix, lettered.1, lettered.2]
  | _ :: _ :: _ :: _ =>
      simp only [List.length_cons] at few
      omega

theorem isPrefixLetter_of_isQuote {c : Char} (quoted : isQuote c = true) : isPrefixLetter c = false := by
  apply isPrefixLetter_of_isDelimiter
  simp [isDelimiter, quoted]

end Literal

namespace StringLiteral

variable {literal : StringLiteral} {rest : Text}

theorem splitQuoted_core (apart : rest.head? ≠ some literal.quote) :
    Literal.splitQuoted (literal.core ++ rest) =
      if literal.isTaken then some (literal.core, rest) else none := by
  obtain ⟨letters, quote, tripled, body, few, lettered, quoted, bare, inLine, closed⟩ := literal
  cases tripled with
  | true =>
      have split := Literal.splitQuoted_tripled quoted bare closed rest
      simpa [core, delimiter, isTaken, List.replicate] using split
  | false =>
      have split := Literal.splitQuoted_single quoted bare (inLine rfl) closed apart
      simpa [core, delimiter, isTaken, List.replicate] using split

theorem core_eq_cons (literal : StringLiteral) :
    ∃ more, more ≠ [] ∧ literal.core = literal.quote :: more := by
  unfold core delimiter
  cases literal.tripled with
  | false => exact ⟨Glyph.spell literal.body ++ [literal.quote], by simp, rfl⟩
  | true => exact ⟨_, by simp, rfl⟩

theorem split_text (apart : rest.head? ≠ some literal.quote) :
    Literal.split (literal.text ++ rest) =
      if literal.isTaken then some (literal.text, rest) else none := by
  have quoted := splitQuoted_core apart
  obtain ⟨more, _, core⟩ := literal.core_eq_cons
  have letters : Literal.splitPrefix (literal.text ++ rest) = (literal.letters, literal.core ++ rest) := by
    rw [text, List.append_assoc, core, List.cons_append]
    exact Literal.splitPrefix_letters literal.few literal.lettered
      (Literal.isPrefixLetter_of_isQuote literal.quoted) (more ++ rest)
  simp only [Literal.split, letters, quoted]
  split <;> rfl

end StringLiteral

theorem isQuote_of_mem_splitWord {previous c : Char} {text : Text}
    (member : c ∈ (splitWord previous text).1) : Literal.isQuote c = false := by
  induction text generalizing previous with
  | nil => contradiction
  | cons d text ih =>
      simp only [splitWord] at member
      split at member
      · rename_i goes
        rcases List.mem_cons.mp member with rfl | later
        · rcases Bool.or_eq_true_iff.mp goes with plain | equals
          · exact isQuote_of_not_isDelimiter (by simpa using plain)
          · obtain ⟨same, _⟩ := Bool.and_eq_true_iff.mp equals
            rw [of_decide_eq_true same]
            decide
        · exact ih later
      · contradiction

/-- Where no literal stands, a quote is in a token only if it is the whole of it. -/
theorem splitPiece_quote {c quote : Char} {rest text : Text} {kind : Kind}
    (none : Literal.split (c :: rest) = none) (piece : (splitPiece c rest).1 = .token kind text)
    (quoted : Literal.isQuote quote = true) (member : quote ∈ text) : text = [quote] := by
  have notEquals : quote ≠ '=' := by
    rintro rfl
    contradiction
  simp only [splitPiece, none] at piece
  split at piece
  · contradiction
  · split at piece
    · contradiction
    · split at piece
      · rename_i pair
        cases piece
        obtain ⟨first, _⟩ := Bool.and_eq_true_iff.mp pair
        obtain rfl : quote = c := by simpa [notEquals] using member
        rcases Bool.or_eq_true_iff.mp first with same | same <;>
          rw [of_decide_eq_true same] at quoted <;> contradiction
      · split at piece
        · cases piece
          rw [List.mem_singleton.mp member]
        · split at piece
          · cases piece
            rw [List.mem_singleton.mp member]
          · rename_i unquoted
            cases piece
            rcases List.mem_cons.mp member with rfl | later
            · contradiction
            · rw [isQuote_of_mem_splitWord later] at quoted
              contradiction

namespace StringLiteral

theorem quote_mem (literal : StringLiteral) : literal.quote ∈ literal.text := by
  obtain ⟨more, _, core⟩ := literal.core_eq_cons
  rw [text, core]
  simp

theorem ofWord_text (literal : StringLiteral) : Kind.ofWord literal.text = .text := by
  rw [Kind.ofWord, if_neg]
  intro same
  have member := literal.quote_mem
  have quoted := literal.quoted
  rw [same] at member
  simp only [List.mem_cons, List.not_mem_nil, or_false] at member
  rcases member with letter | letter | letter <;> rw [letter] at quoted <;> contradiction

/-- A literal is longer than its first character, which begins neither blanks nor a comment. -/
theorem text_eq_cons (literal : StringLiteral) :
    ∃ c more, literal.text = c :: more ∧ more ≠ [] ∧ Text.isBlank c = false ∧ c ≠ '#' := by
  obtain ⟨more, filled, core⟩ := literal.core_eq_cons
  rw [text, core]
  cases front : literal.letters with
  | nil =>
      refine ⟨literal.quote, more, rfl, filled, ?_⟩
      rcases Literal.eq_of_isQuote literal.quoted with same | same <;> rw [same] <;> decide
  | cons c letters =>
      have letter := List.all_eq_true.mp literal.lettered c (by simp [front])
      have plain := Literal.isDelimiter_of_isPrefixLetter letter
      simp only [isDelimiter, Bool.or_eq_false_iff, decide_eq_false_iff_not] at plain
      exact ⟨c, letters ++ literal.quote :: more, rfl, by simp, plain.1.1.1, plain.1.2⟩

/-- At the front of a text a literal is a token, if the scanner can take it, and never else. -/
theorem mem_scan_front (literal : StringLiteral) {rest : Text}
    (apart : rest.head? ≠ some literal.quote) :
    (⟨.text, 0, literal.text⟩ : Token) ∈ scan (literal.text ++ rest) ↔ literal.isTaken = true := by
  obtain ⟨c, more, text, filled, visible⟩ := literal.text_eq_cons
  have split := split_text apart
  have front : (literal.text ++ rest).drop 0 = c :: (more ++ rest) := by rw [text]; rfl
  obtain ⟨kind, word, piece, scanned⟩ := scanFrom_visible front visible
  have tokens : scan (literal.text ++ rest) = ⟨kind, 0, word⟩ :: scanFrom (literal.text ++ rest) (0 + word.length) :=
    scanned
  have literalFront : literal.text ++ rest = c :: (more ++ rest) := front
  by_cases taken : literal.isTaken = true
  · rw [if_pos taken, literalFront] at split
    simp only [splitPiece, visible.1, visible.2, split, literal.ofWord_text] at piece
    cases piece
    rw [tokens]
    simp [taken]
  · rw [if_neg taken, literalFront] at split
    refine iff_of_false (fun member => ?_) taken
    have ordered := (scan_cuts (literal.text ++ rest)).apart
    rw [tokens] at member ordered
    rcases List.mem_cons.mp member with same | later
    · have whole : word = literal.text := (congrArg Token.text same).symm
      have alone := splitPiece_quote split piece literal.quoted (whole ▸ literal.quote_mem)
      rw [whole, text] at alone
      exact filled (List.cons.inj alone).2
    · exact absurd ((List.pairwise_cons.mp ordered).1 _ later).1 (Nat.lt_irrefl 0)

end StringLiteral

/-- The text behind a finished line keeps exactly its own tokens. -/
theorem mem_scan_behind {front : Text} (settled : front = [] ∨ EndsLine front ∧ Settled 0 front (scan front))
    (rest : Text) (kind : Kind) (word : Text) :
    (⟨kind, front.length, word⟩ : Token) ∈ scan (front ++ rest) ↔ (⟨kind, 0, word⟩ : Token) ∈ scan rest := by
  rcases settled with rfl | ⟨ends, settled⟩
  · rfl
  · rw [scan_append ends settled, List.mem_append, List.mem_map]
    constructor
    · rintro (before | ⟨token, member, same⟩)
      · have bounds := (scan_cuts front).bounds before
        simp only [Token.stop] at bounds
        omega
      · obtain rfl : token = ⟨kind, 0, word⟩ := by
          obtain ⟨ownKind, start, ownText⟩ := token
          simp only [shift, Token.mk.injEq] at same
          simp only [Token.mk.injEq]
          exact ⟨same.1, by omega, same.2.2⟩
        exact member
    · intro member
      exact .inr ⟨_, member, by simp [shift]⟩

/-- Behind a finished line, a string literal that its own quote does not follow is one token exactly
if it is in triple quotes or escapes no line feed, and then no other token meets it. -/
theorem scan_literal_iff (literal : StringLiteral) {front rest : Text}
    (settled : front = [] ∨ EndsLine front ∧ Settled 0 front (scan front))
    (apart : rest.head? ≠ some literal.quote) :
    ((⟨.text, front.length, literal.text⟩ : Token) ∈ scan (front ++ (literal.text ++ rest)) ↔
        literal.tripled = true ∨ .escaped '\n' ∉ literal.body) ∧
      (literal.tripled = true ∨ .escaped '\n' ∉ literal.body →
        ∀ token ∈ scan (front ++ (literal.text ++ rest)),
          token = ⟨.text, front.length, literal.text⟩ ∨ token.stop ≤ front.length ∨
            front.length + literal.text.length ≤ token.start) := by
  have found : (⟨.text, front.length, literal.text⟩ : Token) ∈ scan (front ++ (literal.text ++ rest)) ↔
      literal.tripled = true ∨ .escaped '\n' ∉ literal.body := by
    rw [mem_scan_behind settled, literal.mem_scan_front apart, StringLiteral.isTaken]
    simp
  refine ⟨found, fun taken token member => ?_⟩
  have ordered := (scan_cuts (front ++ (literal.text ++ rest))).apart
  rcases related_of_pairwise ordered member (found.mpr taken) with same | before | behind
  · exact .inl same
  · exact .inr (.inl before.2)
  · exact .inr (.inr behind.2)

/-- A literal with two letters that holds an escaped delimiter, a line feed and a bracket. -/
theorem scan_literal_iff_escaped :
    let literal : StringLiteral :=
      { letters := ['r', 'b'], quote := '\x22', tripled := true
        body := [.escaped '\x22', .plain '\x22', .plain '\x22', .plain '\n', .plain '('] }
    let front := "x,\n".toList
    EndsLine front ∧ Settled 0 front (scan front) ∧
      (⟨.text, 3, literal.text⟩ : Token) ∈ scan (front ++ (literal.text ++ [')'])) := by
  intro literal front
  have ends : EndsLine front := by decide
  have settled : Settled 0 front (scan front) := by decide
  have apart : [')'].head? ≠ some literal.quote := by decide
  have found := scan_literal_iff literal (.inr ⟨ends, settled⟩) apart
  exact ⟨ends, settled, found.1.mpr (.inl rfl)⟩

/-- Single quotes around an escaped line feed and the word that defines a function. -/
theorem scan_literal_escaped_newline :
    let literal : StringLiteral :=
      { letters := [], quote := '\x27', tripled := false
        body := [.escaped '\n', .plain 'd', .plain 'e', .plain 'f', .plain ' ', .plain 'f'] }
    (⟨.text, 0, literal.text⟩ : Token) ∉ scan literal.text ∧
      (⟨.define, 3, ['d', 'e', 'f']⟩ : Token) ∈ scan literal.text := by
  decide

end DocDrift.Token
