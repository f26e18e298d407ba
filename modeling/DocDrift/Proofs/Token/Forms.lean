import DocDrift.Proofs.Token.Concatenation

namespace DocDrift.Token

/-! # Forms at the front of a text

One equation for each form: which piece it is, and that the rest is scanned from a fresh start.
-/

namespace Literal

theorem isDelimiter_of_isPrefixLetter {c : Char} (letter : isPrefixLetter c = true) :
    isDelimiter c = false := by
  simp only [isPrefixLetter, Bool.or_eq_true, decide_eq_true_eq] at letter
  rcases letter with ((((((rfl | rfl) | rfl) | rfl) | rfl) | rfl) | rfl) | rfl <;> decide

theorem isPrefixLetter_of_isDelimiter {c : Char} (delimiter : isDelimiter c = true) :
    isPrefixLetter c = false := by
  cases letter : isPrefixLetter c with
  | false => rfl
  | true => simp [isDelimiter_of_isPrefixLetter letter] at delimiter

theorem splitQuoted_of_ne {c : Char} (rest : Text) (other : isQuote c = false) :
    splitQuoted (c :: rest) = none := by
  simp [splitQuoted, other]

theorem split_eq_none {text : Text} (absent : splitQuoted (splitPrefix text).2 = none) :
    split text = none := by
  change (splitQuoted (splitPrefix text).2).map _ = none
  rw [absent]
  rfl

end Literal

/-- A word ends before `rest`: at the end of the text, or at a character that is no part of it. -/
def EndsWord (last : Char) (rest : Text) : Prop :=
  ∀ c ∈ rest.head?, isDelimiter c = true ∧ Literal.isQuote c = false ∧
    ¬ (c = '=' ∧ isOperatorChar last = true)

theorem isQuote_of_not_isDelimiter {c : Char} (plain : isDelimiter c = false) :
    Literal.isQuote c = false := by
  simp_all [isDelimiter]

theorem splitPrefix_of_ne {c : Char} (rest : Text) (other : Literal.isPrefixLetter c = false) :
    Literal.splitPrefix (c :: rest) = ([], c :: rest) := by
  cases rest <;> simp [Literal.splitPrefix, other]

/-- No literal starts with a word that is not followed by a quote. -/
theorem split_word {c last : Char} {word rest : Text} (plain : ∀ d ∈ c :: word, isDelimiter d = false)
    (ends : EndsWord last rest) : Literal.split (c :: word ++ rest) = none := by
  have noQuote {d : Char} (member : d ∈ c :: word) := isQuote_of_not_isDelimiter (plain d member)
  have stop : Literal.splitQuoted rest = none := by
    cases rest with
    | nil => rfl
    | cons d more => exact Literal.splitQuoted_of_ne more (ends d rfl).2.1
  have head {d : Char} {more : Text} (same : rest = d :: more) : Literal.isPrefixLetter d = false :=
    Literal.isPrefixLetter_of_isDelimiter (ends d (by rw [same]; rfl)).1
  apply Literal.split_eq_none
  by_cases first : Literal.isPrefixLetter c = true
  · match word, rest with
    | [], [] => simpa [Literal.splitPrefix, first] using stop
    | [], d :: more => simpa [Literal.splitPrefix, first, head rfl] using stop
    | [d], rest =>
        by_cases second : Literal.isPrefixLetter d = true
        · simpa [Literal.splitPrefix, first, second] using stop
        · simpa [Literal.splitPrefix, first, second] using
            Literal.splitQuoted_of_ne rest (noQuote (d := d) (by simp))
    | d :: e :: word, rest =>
        by_cases second : Literal.isPrefixLetter d = true
        · simpa [Literal.splitPrefix, first, second] using
            Literal.splitQuoted_of_ne (word ++ rest) (noQuote (d := e) (by simp))
        · simpa [Literal.splitPrefix, first, second] using
            Literal.splitQuoted_of_ne (e :: word ++ rest) (noQuote (d := d) (by simp))
  · rw [List.cons_append, splitPrefix_of_ne _ (by simpa using first)]
    exact Literal.splitQuoted_of_ne _ (noQuote (by simp))

theorem splitWord_word {c : Char} {word rest : Text} (plain : ∀ d ∈ word, isDelimiter d = false)
    (ends : EndsWord ((c :: word).getLast (List.cons_ne_nil c word)) rest) :
    splitWord c (word ++ rest) = (word, rest) := by
  induction word generalizing c with
  | nil =>
      cases rest with
      | nil => rfl
      | cons d more =>
          obtain ⟨delimiter, _, apart⟩ := ends d rfl
          simp only [List.getLast_singleton] at apart
          simp only [List.nil_append, splitWord]
          rw [if_neg]
          simp only [delimiter, Bool.not_true, Bool.false_or, Bool.and_eq_true, decide_eq_true_eq]
          exact apart
  | cons d word ih =>
      have first : isDelimiter d = false := plain d (by simp)
      have later := ih (c := d) (fun e member => plain e (by simp [member])) ends
      simp [splitWord, first, later]

theorem pieces_word {c : Char} {word rest : Text} (plain : ∀ d ∈ c :: word, isDelimiter d = false)
    (ends : EndsWord ((c :: word).getLast (List.cons_ne_nil c word)) rest) :
    pieces (c :: word ++ rest) =
      .token (.ofWord (c :: word)) (c :: word) :: pieces rest := by
  have first := plain c (by simp)
  simp only [isDelimiter, Bool.or_eq_false_iff, decide_eq_false_iff_not] at first
  obtain ⟨⟨⟨notBlank, notMark⟩, notComment⟩, notQuote⟩ := first
  have mark : Kind.ofChar? c = none := by simpa using notMark
  have notEquals : c ≠ '=' := by rintro rfl; contradiction
  have notColon : c ≠ ':' := by rintro rfl; contradiction
  have noLiteral := split_word plain ends
  have split := splitWord_word (fun d member => plain d (by simp [member])) ends
  rw [List.cons_append] at noLiteral ⊢
  rw [pieces_cons]
  simp [splitPiece, notBlank, notComment, noLiteral, mark, notQuote, split, notEquals, notColon]

/-- A punctuation character is a piece of its own, unless it begins an operator. -/
theorem pieces_mark {c : Char} {kind : Kind} {rest : Text} (mark : Kind.ofChar? c = some kind)
    (alone : (c = '=' ∨ c = ':') → rest.head? ≠ some '=') :
    pieces (c :: rest) = .token kind [c] :: pieces rest := by
  have delimiter : isDelimiter c = true := by simp [isDelimiter, mark]
  have notBlank : Text.isBlank c = false ∧ c ≠ '#' ∧ Literal.isQuote c = false := by
    unfold Kind.ofChar? at mark
    split at mark <;> first | contradiction | decide
  have noLiteral : Literal.split (c :: rest) = none :=
    Literal.split_eq_none (by
      rw [splitPrefix_of_ne rest (Literal.isPrefixLetter_of_isDelimiter delimiter)]
      exact Literal.splitQuoted_of_ne rest notBlank.2.2)
  have noPair : ((c = '=' || c = ':') && rest.head? = some '=') = false := by
    simp only [Bool.and_eq_false_imp, Bool.or_eq_true, decide_eq_true_eq, decide_eq_false_iff_not]
    exact alone
  rw [pieces_cons]
  simp only [splitPiece, notBlank.1, notBlank.2.1, noLiteral, noPair, mark]
  simp

theorem closeTriple_quotes {quote : Char} {body : Text} (plain : ∀ c ∈ body, c ≠ '\\' ∧ c ≠ quote)
    (escape : quote ≠ '\\') (rest : Text) :
    Literal.closeTriple quote (body ++ quote :: quote :: quote :: rest) =
      some (body ++ [quote, quote, quote], rest) := by
  induction body with
  | nil =>
      rw [List.nil_append, Literal.closeTriple_plain quote _ escape]
      simp
  | cons c body ih =>
      obtain ⟨notEscape, notQuote⟩ := plain c (by simp)
      rw [List.cons_append, Literal.closeTriple_plain quote _ notEscape,
        ih fun d member => plain d (by simp [member])]
      simp [List.isPrefixOf, notQuote.symm]

theorem pieces_tripleQuoted {body : Text} (plain : ∀ c ∈ body, c ≠ '\\' ∧ c ≠ '\x22') (rest : Text) :
    pieces (['\x22', '\x22', '\x22'] ++ body ++ ['\x22', '\x22', '\x22'] ++ rest) =
      .token .text (['\x22', '\x22', '\x22'] ++ body ++ ['\x22', '\x22', '\x22']) ::
        pieces rest := by
  have closed := closeTriple_quotes plain (by decide) rest
  have literal : Literal.split
      ('\x22' :: '\x22' :: '\x22' :: (body ++ '\x22' :: '\x22' :: '\x22' :: rest)) =
      some ('\x22' :: '\x22' :: '\x22' :: (body ++ ['\x22', '\x22', '\x22']), rest) := by
    have letters := splitPrefix_of_ne (c := '\x22')
      ('\x22' :: '\x22' :: (body ++ '\x22' :: '\x22' :: '\x22' :: rest)) (by decide)
    simp [Literal.split, letters, Literal.splitQuoted, Literal.isQuote, closed]
  simp only [List.append_assoc, List.cons_append, List.nil_append]
  rw [pieces_cons]
  simp [splitPiece, literal, Kind.ofWord, Text.isBlank, Text.inRanges, Text.blankRanges]

theorem isQuote_facts {quote : Char} (quotes : Literal.isQuote quote = true) :
    Text.isBlank quote = false ∧ quote ≠ '#' ∧ Literal.isPrefixLetter quote = false ∧ quote ≠ 'd' := by
  rcases Literal.eq_of_isQuote quotes with rfl | rfl <;> decide

theorem splitPiece_triple {quote : Char} {text closed after : Text} (quotes : Literal.isQuote quote = true)
    (closes : Literal.closeTriple quote text = some (closed, after)) :
    (splitPiece quote (quote :: quote :: text)).1 = .token .text (quote :: quote :: quote :: closed) := by
  have facts := isQuote_facts quotes
  have literal : Literal.split (quote :: quote :: quote :: text) =
      some (quote :: quote :: quote :: closed, after) := by
    have letters := splitPrefix_of_ne (quote :: quote :: text) facts.2.2.1
    simp [Literal.split, letters, Literal.splitQuoted, quotes, closes]
  simp [splitPiece, facts.1, facts.2.1, literal, Kind.ofWord, facts.2.2.2]

theorem splitPiece_untripled {quote : Char} {text : Text} (quotes : Literal.isQuote quote = true)
    (fails : Literal.closeTriple quote text = none) :
    (splitPiece quote (quote :: quote :: text)).1 = .token .text [quote, quote] := by
  have facts := isQuote_facts quotes
  have literal : Literal.split (quote :: quote :: quote :: text) =
      some ([quote, quote], quote :: text) := by
    have letters := splitPrefix_of_ne (quote :: quote :: text) facts.2.2.1
    have single : Literal.closeSingle quote (quote :: quote :: text) = some ([quote], quote :: text) := by
      rw [Literal.closeSingle_plain quote _ (Literal.isQuote_ne quotes).2, if_pos rfl]
    simp [Literal.split, letters, Literal.splitQuoted, quotes, fails, single]
  simp [splitPiece, facts.1, facts.2.1, literal, Kind.ofWord]

end DocDrift.Token
