import DocDrift.Proofs.Docstring.Literal
import DocDrift.Proofs.Generated.Source
import DocDrift.Proofs.Source.Lines
import DocDrift.Proofs.Signature.Nesting

namespace DocDrift.Generated

open Token

/-! # Reading a generated header

The reader takes the text of a header one form after the other.  It hands out each parameter with the
text that the header was written from.
-/

theorem identifierChar_facts {c : Char} (part : isIdentifierChar c = true) :
    isDelimiter c = false ∧ isOperatorChar c = false := by
  have tested := forall_ascii (q := fun c => !isDelimiter c && !isOperatorChar c)
    (fun _ => toNat_of_isIdentifierChar) (by decide +kernel) part
  simpa using tested

/-- How a plain character is scanned. -/
inductive PlainForm (c : Char) : Prop where
  | space (same : c = ' ')
  | opening (bracket : Bracket) (mark : Kind.ofChar? c = some (.opening bracket))
  | closing (bracket : Bracket) (mark : Kind.ofChar? c = some (.closing bracket))
  | comma (mark : Kind.ofChar? c = some .comma)
  | word (plain : isDelimiter c = false)

theorem plainForm {c : Char} (plain : isPlainChar c = true) : PlainForm c := by
  simp only [isPlainChar, Bool.or_eq_true, decide_eq_true_eq] at plain
  rcases plain with (((((((((part | rfl) | rfl) | rfl) | rfl) | rfl) | rfl) | rfl) | rfl) | rfl) | rfl
  · exact .word (identifierChar_facts part).1
  · exact .word (by decide)
  · exact .word (by decide)
  · exact .comma rfl
  · exact .space rfl
  · exact .opening .round rfl
  · exact .closing .round rfl
  · exact .opening .square rfl
  · exact .closing .square rfl
  · exact .opening .curly rfl
  · exact .closing .curly rfl

theorem isNested_word {word : Text} (plain : ∀ c ∈ word, isDelimiter c = false)
    (opened : List Bracket) (rest : Text) : isNested opened (word ++ rest) = isNested opened rest := by
  induction word with
  | nil => rfl
  | cons c word ih =>
      have first := plain c (by simp)
      simp only [isDelimiter, Bool.or_eq_false_iff] at first
      have mark : Kind.ofChar? c = none := by simpa using first.1.1.2
      simp only [List.cons_append, isNested, mark]
      exact ih fun d member => plain d (by simp [member])

theorem mark_alone {c : Char} {kind : Kind} (mark : Kind.ofChar? c = some kind)
    (other : kind ≠ .equals ∧ kind ≠ .colon) (rest : Text) :
    (c = '=' ∨ c = ':') → rest.head? ≠ some '=' := by
  rintro (rfl | rfl)
  · cases mark
    exact absurd rfl other.1
  · cases mark
    exact absurd rfl other.2

theorem exists_word (text : Text) : ∃ word rest, text = word ++ rest ∧
    (∀ c ∈ word, isDelimiter c = false) ∧ ∀ c ∈ rest.head?, isDelimiter c = true := by
  induction text with
  | nil => exact ⟨[], [], rfl, by simp, by simp⟩
  | cons c text ih =>
      cases delimiter : isDelimiter c with
      | true => exact ⟨[], c :: text, rfl, by simp, by simpa using delimiter⟩
      | false =>
          obtain ⟨word, rest, rfl, plain, ends⟩ := ih
          exact ⟨c :: word, rest, rfl, by simpa [delimiter] using plain, ends⟩

theorem isQuote_of_isPlainChar {c : Char} (plain : isPlainChar c = true) :
    Literal.isQuote c = false ∧ c ≠ '=' := by
  have tested := forall_ascii (q := fun c => !Literal.isQuote c && c ≠ '=')
    (fun _ => toNat_of_isPlainChar) (by decide +kernel) plain
  simpa using tested

theorem nest_ofWord (part : EntryPart) (opened : List Bracket) (word : Text) :
    part.nest opened (.ofWord word) = some opened := by
  unfold Kind.ofWord
  split <;> rfl

end DocDrift.Generated

namespace DocDrift

namespace Reader

/-- A run over the text that stands at an offset. -/
def runText (reading : Reading) (reader : Reader) (offset : Nat) (text : Text) : Extraction :=
  run reading reader (Piece.place offset (Token.pieces text))

variable {reading : Reading} {reader next : Reader} {offset : Nat}

theorem runText_blank {c : Char} (blank : Text.isBlank c = true) (rest : Text) :
    runText reading reader offset (c :: rest) = runText reading reader (offset + 1) rest := by
  have all : ∀ d ∈ [c], Text.isBlank d = true := by simpa using blank
  rw [runText, ← List.singleton_append, Token.place_pieces_blanks all]
  rfl

theorem runText_mark {c : Char} {kind : Token.Kind} {rest : Text}
    (mark : Token.Kind.ofChar? c = some kind) (alone : (c = '=' ∨ c = ':') → rest.head? ≠ some '=')
    (step : reader.step reading ⟨kind, offset, [c]⟩ = .ok (next, none)) :
    runText reading reader offset (c :: rest) = runText reading next (offset + 1) rest := by
  rw [runText, Token.pieces_mark mark alone, Piece.place, run, step]
  rfl

theorem runText_word {c : Char} {word rest : Text}
    (plain : ∀ d ∈ c :: word, Token.isDelimiter d = false)
    (ends : Token.EndsWord ((c :: word).getLast (List.cons_ne_nil c word)) rest)
    (step : reader.step reading ⟨.ofWord (c :: word), offset, c :: word⟩ = .ok (next, none)) :
    runText reading reader offset (c :: word ++ rest) =
      runText reading next (offset + (c :: word).length) rest := by
  rw [runText, Token.pieces_word plain ends, Piece.place, run, step]
  rfl

/-- No word of a generated text goes on in the text that follows. -/
def Stops (rest : Text) : Prop :=
  ∀ c ∈ rest.head?, Token.isDelimiter c = true ∧ Token.Literal.isQuote c = false ∧ c ≠ '='

theorem Stops.endsWord {rest : Text} (stops : Stops rest) (last : Char) : Token.EndsWord last rest :=
  fun c head => ⟨(stops c head).1, (stops c head).2.1, fun equals => (stops c head).2.2 equals.1⟩

open Generated Token

variable {reading : Reading} {heading : Heading} {params : List Parameter} {name : Text}
  {type : Option Text} {part : EntryPart} {start offset : Nat} {opened : List Bracket}
  {text rest : Text}

/-- The reader passes over a plain text that closes all open brackets. -/
theorem runText_nested (plain : ∀ c ∈ text, isPlainChar c = true)
    (nested : isNested opened text = true) (stops : Stops rest) :
    runText reading (inside heading params name type part start (.ofStack opened)) offset
        (text ++ rest) =
      runText reading (inside heading params name type part start (.ofStack []))
        (offset + text.length) rest := by
  -- On the length, since a word is read as one token.
  induction length : text.length using Nat.strongRecOn generalizing text opened offset with
  | ind n ih =>
      cases text with
      | nil =>
          obtain rfl : opened = [] := by simpa [isNested] using nested
          subst length
          rfl
      | cons c more =>
          have later : ∀ d ∈ more, isPlainChar d = true := fun d member => plain d (by simp [member])
          simp only [List.length_cons] at length
          have shift : offset + 1 + more.length = offset + n := by omega
          cases plainForm (plain c (by simp)) with
          | space same =>
              subst same
              rw [List.cons_append, runText_blank (by decide), ih _ (by omega) later nested rfl, shift]
          | opening bracket mark =>
              simp only [isNested, mark] at nested
              rw [List.cons_append, runText_mark mark (mark_alone mark (by simp) _)
                (step_nest rfl), ih _ (by omega) later nested rfl, shift]
          | closing bracket mark =>
              simp only [isNested, mark] at nested
              match opened with
              | [] => contradiction
              | top :: below =>
                  simp only [Bool.and_eq_true, decide_eq_true_eq] at nested
                  obtain ⟨rfl, nested⟩ := nested
                  have leaves : part.nest (top :: below) (.closing top) = some below := if_pos rfl
                  rw [List.cons_append, runText_mark mark (mark_alone mark (by simp) _)
                    (step_nest leaves), ih _ (by omega) later nested rfl, shift]
          | comma mark =>
              simp only [isNested, mark, Bool.and_eq_true, Bool.not_eq_true', List.isEmpty_eq_false_iff]
                at nested
              have stays : part.nest opened .comma = some opened := if_neg nested.1
              rw [List.cons_append, runText_mark mark (mark_alone mark (by simp) _)
                (step_nest stays), ih _ (by omega) later nested.2 rfl, shift]
          | word first =>
              obtain ⟨word, tail, rfl, others, delimited⟩ := exists_word more
              have all : ∀ d ∈ c :: word, isDelimiter d = false := by simpa [first] using others
              have ends : EndsWord ((c :: word).getLast (List.cons_ne_nil c word)) (tail ++ rest) := by
                cases tail with
                | nil => exact stops.endsWord _
                | cons d tail =>
                    intro e head
                    cases head
                    have apart := isQuote_of_isPlainChar (later d (by simp))
                    exact ⟨delimited d rfl, apart.1, fun equals => apart.2 equals.1⟩
              rw [← List.cons_append, isNested_word all] at nested
              rw [← List.cons_append, List.append_assoc,
                runText_word all ends (step_nest (nest_ofWord part opened _)),
                ih tail.length (by rw [List.length_append] at length; omega)
                  (fun d member => later d (by simp [member])) nested rfl]
              congr 1
              simp only [List.length_cons, List.length_append] at length ⊢
              omega

/-- A name is one token, whatever punctuation follows it. -/
theorem runText_identifier {reader next : Reader} (identifier : isIdentifier name = true)
    (other : name ≠ "def".toList)
    (ends : ∀ c ∈ rest.head?, isDelimiter c = true ∧ Literal.isQuote c = false)
    (step : reader.step reading ⟨.text, offset, name⟩ = .ok (next, none)) :
    runText reading reader offset (name ++ rest) =
      runText reading next (offset + name.length) rest := by
  obtain ⟨c, word, rfl, parts⟩ := isIdentifier_cons identifier
  have last := identifierChar_facts (parts _ (List.getLast_mem (List.cons_ne_nil c word)))
  have kind : Kind.ofWord (c :: word) = .text := if_neg other
  refine runText_word (fun d member => (identifierChar_facts (parts d member)).1) ?_ (kind ▸ step)
  intro d head
  exact ⟨(ends d head).1, (ends d head).2, fun operator => by simp [last.2] at operator⟩

/-- A reader that has read an entry up to the token that ends it. -/
structure Finishes (reading : Reading) (reader : Reader) (stop : Nat) (heading : Heading)
    (params : List Parameter) : Prop where
  comma : ∀ text, reader.step reading ⟨.comma, stop, text⟩ = .ok (entries heading params, none)
  close : ∀ text, reader.step reading ⟨.closing .round, stop, text⟩ =
    .ok (closing heading params 0, none)

theorem finishes_named {stop : Nat} : Finishes reading (named heading params name) stop heading
    (reading.keep params name none) :=
  ⟨fun _ => rfl, fun _ => rfl⟩

theorem finishes_inside {stop : Nat} {known : Option Text}
    (read : readPart reading type part start stop = known) :
    Finishes reading (inside heading params name type part start (.ofStack [])) stop heading
      (reading.keep params name known) := by
  subst read
  exact ⟨fun _ => step_comma rfl, fun _ => step_close rfl⟩

end Reader

namespace Generated

open Token

structure Expression (text : Text) : Prop where
  nonempty : text ≠ []
  plain : ∀ c ∈ text, isPlainChar c = true
  head : ∀ c ∈ text.head?, Text.isBlank c = false
  last : ∀ c ∈ text.getLast?, Text.isBlank c = false
  nested : isNested [] text = true

theorem isBlank_of_isPlainChar {c : Char} (plain : isPlainChar c = true) (other : c ≠ ' ') :
    Text.isBlank c = false := by
  have tested := forall_ascii (q := fun c => !Text.isBlank c || c = ' ')
    (fun _ => toNat_of_isPlainChar) (by decide +kernel) plain
  simpa [other] using tested

theorem expression {text : Text} (valid : isExpression text = true) : Expression text := by
  simp only [isExpression, Bool.and_eq_true, Bool.not_eq_true', List.isEmpty_eq_false_iff,
    List.all_eq_true, bne_iff_ne] at valid
  obtain ⟨⟨⟨⟨nonempty, plain⟩, head⟩, last⟩, nested⟩ := valid
  refine ⟨nonempty, plain, fun c first => ?_, fun c final => ?_, nested⟩
  · exact isBlank_of_isPlainChar (plain c (List.mem_of_head? first)) fun space =>
      head (space ▸ first)
  · exact isBlank_of_isPlainChar (plain c (List.mem_of_getLast? final)) fun space =>
      last (space ▸ final)

theorem keep_identifier (reading : Reading) (params : List Parameter) {name : Text}
    (identifier : isIdentifier name = true)
    (other : name ∉ ["def".toList, "self".toList, "cls".toList]) (type : Option Text) :
    reading.keep params name type = params ++ [⟨name, type⟩] := by
  obtain ⟨c, rest, rfl, parts⟩ := isIdentifier_cons identifier
  have first := parts c (by simp)
  have notStar : c ≠ '*' := by rintro rfl; contradiction
  have notSlash : c ≠ '/' := by rintro rfl; contradiction
  have receiver : c :: rest ∉ Parameter.receivers := fun member =>
    other (List.mem_cons_of_mem _ member)
  have mark : c :: rest ∉ Parameter.marks := by simp [Parameter.marks, notStar, notSlash]
  have variadic : Parameter.isVariadicName (c :: rest) = false := by
    simp [Parameter.isVariadicName, notStar]
  have kept : Parameter.isKept reading.skipVariadics (c :: rest) = true := by
    simp [Parameter.isKept, receiver, mark, variadic]
  exact if_pos kept

end Generated

namespace Reader

open Generated Token

/-- A text in the place of an entry gives one parameter. -/
def Reads (reading : Reading) (heading : Heading) (params : List Parameter) (offset : Nat)
    (text rest : Text) (parameter : Parameter) : Prop :=
  ∃ reader, Finishes reading reader (offset + text.length) heading (params ++ [parameter]) ∧
    runText reading (entries heading params) offset (text ++ rest) =
      runText reading reader (offset + text.length) rest

variable {reading : Reading} {heading : Heading} {params : List Parameter}
  {name type value front rest : Text} {offset : Nat}

theorem runText_colon (identifier : isIdentifier name = true) (other : name ≠ "def".toList)
    (parts : Expression type) (stops : Stops rest) :
    runText reading (entries heading params) offset (name ++ ':' :: ' ' :: (type ++ rest)) =
      runText reading (inside heading params name none .type (offset + name.length + 1) (.ofStack []))
        (offset + name.length + 1 + 1 + type.length) rest := by
  have read : (entries heading params).step reading ⟨.text, offset, name⟩ =
      .ok (named heading params name, none) := rfl
  have mark : (named heading params name).step reading ⟨.colon, offset + name.length, [':']⟩ =
      .ok (inside heading params name none .type (offset + name.length + 1) (.ofStack []), none) :=
    rfl
  rw [runText_identifier identifier other (by simp; decide) read, runText_mark rfl (by simp) mark,
    runText_blank (by decide), runText_nested parts.plain parts.nested stops]

theorem textBetween_type {before after back : Text} {start stop : Nat} (parts : Expression type)
    (blank : ∀ c ∈ after, Text.isBlank c = true)
    (source : reading.source = before ++ (' ' :: type ++ after) ++ back)
    (begins : start = before.length) (ends : stop = before.length + (' ' :: type ++ after).length) :
    reading.textBetween start stop = type := by
  rw [Reading.textBetween, source, begins, ends, Text.slice_between]
  change Text.trim ([' '] ++ (type ++ after)) = type
  exact Text.trim_between (List.forall_mem_singleton.mpr rfl) blank parts.head parts.last

theorem head_of_expression (parts : Expression value) (more : Text) :
    (value ++ more).head? ≠ some '=' := by
  cases value with
  | nil => exact absurd rfl parts.nonempty
  | cons c value => simpa using (isQuote_of_isPlainChar (parts.plain c (by simp))).2

theorem reads_name (identifier : isIdentifier name = true)
    (other : name ∉ ["def".toList, "self".toList, "cls".toList]) (stops : Stops rest) :
    Reads reading heading params offset name rest ⟨name, none⟩ := by
  refine ⟨named heading params name, ?_, ?_⟩
  · exact keep_identifier reading params identifier other none ▸ finishes_named
  · exact runText_identifier identifier (fun same => other (by simp [same]))
      (fun c head => ⟨(stops c head).1, (stops c head).2.1⟩) rfl

theorem reads_typed (identifier : isIdentifier name = true)
    (other : name ∉ ["def".toList, "self".toList, "cls".toList]) (parts : Expression type)
    (source : reading.source = front ++ (name ++ ':' :: ' ' :: type) ++ rest) (stops : Stops rest) :
    Reads reading heading params front.length (name ++ ':' :: ' ' :: type) rest
      ⟨name, some type⟩ := by
  have length : front.length + (name ++ ':' :: ' ' :: type).length =
      front.length + name.length + 1 + 1 + type.length := by
    simp only [List.length_append, List.length_cons]
    omega
  have split : reading.source = front ++ name ++ [':'] ++ (' ' :: type ++ []) ++ rest := by
    simpa using source
  have read : reading.textBetween (front.length + name.length + 1)
      (front.length + name.length + 1 + 1 + type.length) = type :=
    textBetween_type parts (by simp) split (by simp; omega) (by simp; omega)
  refine ⟨inside heading params name none .type (front.length + name.length + 1) (.ofStack []),
    ?_, ?_⟩
  · rw [← keep_identifier reading params identifier other, length]
    exact finishes_inside (congrArg some read)
  · rw [length, List.append_assoc, List.cons_append, List.cons_append]
    exact runText_colon identifier (fun same => other (by simp [same])) parts stops

theorem reads_valued (identifier : isIdentifier name = true)
    (other : name ∉ ["def".toList, "self".toList, "cls".toList]) (parts : Expression value)
    (stops : Stops rest) :
    Reads reading heading params offset (name ++ '=' :: value) rest ⟨name, none⟩ := by
  have length : offset + (name ++ '=' :: value).length = offset + name.length + 1 + value.length := by
    simp only [List.length_append, List.length_cons]
    omega
  have read : (entries heading params).step reading ⟨.text, offset, name⟩ =
      .ok (named heading params name, none) := rfl
  have mark : (named heading params name).step reading ⟨.equals, offset + name.length, ['=']⟩ =
      .ok (inside heading params name none .value (offset + name.length + 1) (.ofStack []), none) :=
    rfl
  refine ⟨inside heading params name none .value (offset + name.length + 1) (.ofStack []), ?_, ?_⟩
  · rw [← keep_identifier reading params identifier other, length]
    exact finishes_inside rfl
  · rw [length, List.append_assoc, List.cons_append,
      runText_identifier identifier (fun same => other (by simp [same])) (by simp; decide) read,
      runText_mark rfl (fun _ => head_of_expression parts rest) mark,
      runText_nested parts.plain parts.nested stops]

theorem reads_typed_valued (identifier : isIdentifier name = true)
    (other : name ∉ ["def".toList, "self".toList, "cls".toList]) (typeParts : Expression type)
    (valueParts : Expression value)
    (source : reading.source =
      front ++ (name ++ ':' :: ' ' :: type ++ ' ' :: '=' :: ' ' :: value) ++ rest)
    (stops : Stops rest) :
    Reads reading heading params front.length
      (name ++ ':' :: ' ' :: type ++ ' ' :: '=' :: ' ' :: value) rest ⟨name, some type⟩ := by
  have length : front.length + (name ++ ':' :: ' ' :: type ++ ' ' :: '=' :: ' ' :: value).length =
      front.length + name.length + 1 + 1 + type.length + 1 + 1 + 1 + value.length := by
    simp only [List.length_append, List.length_cons]
    omega
  have split : reading.source =
      front ++ name ++ [':'] ++ (' ' :: type ++ [' ']) ++ ('=' :: ' ' :: value ++ rest) := by
    simpa using source
  have read : reading.textBetween (front.length + name.length + 1)
      (front.length + name.length + 1 + 1 + type.length + 1) = type :=
    textBetween_type typeParts (List.forall_mem_singleton.mpr rfl) split (by simp; omega) (by simp; omega)
  have inner : Stops (' ' :: '=' :: ' ' :: (value ++ rest)) := by
    intro c head
    cases head
    decide
  have mark : (inside heading params name none .type (front.length + name.length + 1)
        (.ofStack [])).step reading
          ⟨.equals, front.length + name.length + 1 + 1 + type.length + 1, ['=']⟩ =
      .ok (inside heading params name (some type) .value
        (front.length + name.length + 1 + 1 + type.length + 1 + 1) (.ofStack []), none) := by
    rw [step_equals rfl, read]
    rfl
  refine ⟨inside heading params name (some type) .value
    (front.length + name.length + 1 + 1 + type.length + 1 + 1) (.ofStack []), ?_, ?_⟩
  · rw [← keep_identifier reading params identifier other, length]
    exact finishes_inside rfl
  · rw [length]
    simp only [List.append_assoc, List.cons_append]
    rw [runText_colon identifier (fun same => other (by simp [same])) typeParts inner,
      runText_blank (by decide), runText_mark rfl (by simp) mark, runText_blank (by decide),
      runText_nested valueParts.plain valueParts.nested stops]

/-- The reader takes in a declaration as it was written. -/
theorem reads_declaration {entry : Entry} (valid : entry.isValid = true)
    (source : reading.source = front ++ entry.declaration ++ rest) (stops : Stops rest) :
    Reads reading heading params front.length entry.declaration rest entry.parameter := by
  obtain ⟨name, type, value⟩ := entry
  simp only [Entry.isValid, Bool.and_eq_true, Bool.not_eq_true', List.contains_eq_mem,
    decide_eq_false_iff_not] at valid
  obtain ⟨⟨⟨identifier, other⟩, validType⟩, validValue⟩ := valid
  cases type with
  | none =>
      cases value with
      | none => exact reads_name identifier other stops
      | some value => exact reads_valued identifier other (expression validValue) stops
  | some type =>
      cases value with
      | none => exact reads_typed identifier other (expression validType) source stops
      | some value =>
          exact reads_typed_valued identifier other (expression validType) (expression validValue)
            source stops

theorem stops_comma (more : Text) : Stops (',' :: more) := by
  intro c head
  cases head
  decide

theorem stops_close (more : Text) : Stops (')' :: more) := by
  intro c head
  cases head
  decide

theorem declarations_cons (entry next : Entry) (items : List Entry) :
    declarations (entry :: next :: items) =
      entry.declaration ++ ',' :: ' ' :: declarations (next :: items) := by
  simp [declarations, Text.join]

theorem runText_declarations {items : List Entry} (valid : ∀ entry ∈ items, entry.isValid = true)
    (source : reading.source = front ++ declarations items ++ ')' :: rest) :
    runText reading (entries heading params) front.length (declarations items ++ ')' :: rest) =
      runText reading (closing heading (params ++ items.map Entry.parameter) 0)
        (front.length + (declarations items).length + 1) rest := by
  induction items generalizing front params with
  | nil =>
      simp only [List.map_nil, List.append_nil]
      exact runText_mark rfl (by simp) rfl
  | cons entry items ih =>
      have first := valid entry (by simp)
      cases items with
      | nil =>
          have reads : Reads reading heading params front.length entry.declaration (')' :: rest)
              entry.parameter := reads_declaration first source (stops_close rest)
          obtain ⟨reader, finishes, run⟩ := reads
          change runText reading _ _ (entry.declaration ++ ')' :: rest) = _
          rw [run, runText_mark rfl (by simp) (finishes.close _)]
          rfl
      | cons next items =>
          rw [declarations_cons] at source ⊢
          have reads : Reads reading heading params front.length entry.declaration
              (',' :: ' ' :: (declarations (next :: items) ++ ')' :: rest)) entry.parameter :=
            reads_declaration first (by simpa using source) (stops_comma _)
          obtain ⟨reader, finishes, run⟩ := reads
          have split : reading.source =
              front ++ entry.declaration ++ [',', ' '] ++ declarations (next :: items) ++
                ')' :: rest := by
            simpa using source
          have here : front.length + entry.declaration.length + 1 + 1 =
              (front ++ entry.declaration ++ [',', ' ']).length := by
            simp
            omega
          simp only [List.append_assoc, List.cons_append]
          rw [run, runText_mark rfl (by simp) (finishes.comma _), runText_blank (by decide), here,
            ih (fun entry member => valid entry (by simp [member])) split]
          congr 1
          · simp
          · simp
            omega

end Reader

namespace Generated

open Token Reader

theorem locate_docstring {items : List Entry} (valid : ∀ entry ∈ items, entry.isValid = true)
    (front back : Text) :
    Docstring.locate (front ++ docstring items ++ back) front.length none =
      some ⟨front.length, (front.length + (docstring items).length : Nat)⟩ := by
  have absent : '\x22' ∉ content items := by
    intro member
    have := isPlainChar_of_content valid member
    revert this
    decide
  have window : (front ++ docstring items ++ back).drop front.length = docstring items ++ back := by
    rw [List.append_assoc, List.drop_left]
  have behind : (front ++ docstring items ++ back).drop (front.length + 3) =
      content items ++ (quotes ++ back) := by
    rw [← List.drop_drop, window]
    simp [docstring, quotes]
  rw [Docstring.locate_natCast, window, behind]
  have opens : Docstring.opening? (docstring items ++ back) = some quotes := by
    simp [Docstring.opening?, docstring, quotes, Docstring.delimiters]
  have closes : Text.find quotes (content items ++ (quotes ++ back)) = some (content items).length :=
    Text.find_first absent back
  rw [opens, Option.bind_some, closes]
  simp [docstring, quotes]
  omega

theorem runText_blanks {reading : Reading} {reader : Reader} {blanks : Text}
    (blank : ∀ c ∈ blanks, Text.isBlank c = true) (offset : Nat) (rest : Text) :
    runText reading reader offset (blanks ++ rest) =
      runText reading reader (offset + blanks.length) rest := by
  rw [runText, Token.place_pieces_blanks blank]
  rfl

theorem runText_docstring {reading : Reading} {heading : Heading} {params : List Parameter}
    {items : List Entry} (valid : ∀ entry ∈ items, entry.isValid = true) {front : Text}
    (source : reading.source = front ++ docstring items ++ ['\n']) :
    runText reading (body heading params) front.length (docstring items ++ ['\n']) =
      ⟨[reading.signature heading params
        (some ⟨front.length, (front.length + (docstring items).length : Nat)⟩)], none⟩ := by
  have plain : ∀ c ∈ content items, c ≠ '\\' ∧ c ≠ '\x22' := by
    intro c member
    have allowed := isPlainChar_of_content valid member
    constructor <;> rintro rfl <;> revert allowed <;> decide
  have opens : Reading.opensDocstring ⟨.text, front.length, docstring items⟩ = true := by
    simp [Reading.opensDocstring, Docstring.delimiters, docstring, quotes]
  have step : (body heading params).step reading ⟨.text, front.length, docstring items⟩ =
      .ok (outside, some (reading.signature heading params
        (some ⟨front.length, (front.length + (docstring items).length : Nat)⟩))) := by
    simp only [Reader.step, opens, source, locate_docstring valid]
    rfl
  have pieces : Token.pieces (docstring items ++ ['\n']) =
      [.token .text (docstring items), .gap ['\n']] :=
    Token.pieces_tripleQuoted plain ['\n']
  rw [runText, pieces, Piece.place, Reader.run, step]
  rfl

/-- The source up to the list of parameters. -/
def listFront (name : Text) : Text := ['d', 'e', 'f', ' '] ++ name ++ ['(']

/-- The source up to the docstring. -/
def docstringFront (name : Text) (items : List Entry) : Text :=
  listFront name ++ declarations items ++ (')' :: ':' :: indent)

def heading (name : Text) : Heading := ⟨⟨.define, 0, "def".toList⟩, ⟨.text, 4, name⟩⟩

theorem source_docstring (name : Text) (items : List Entry) :
    source name items = docstringFront name items ++ docstring items ++ ['\n'] := by
  simp only [source, docstringFront, listFront, List.append_assoc, List.cons_append, List.nil_append]

theorem source_list (name : Text) (items : List Entry) :
    source name items = listFront name ++ declarations items ++
      ')' :: (':' :: (indent ++ (docstring items ++ ['\n']))) := by
  simp [source, listFront]

/-- Over the header, to its body. -/
theorem runText_source {reading : Reading} {name : Text} (identifier : isIdentifier name = true)
    (other : name ≠ "def".toList) {items : List Entry}
    (valid : ∀ entry ∈ items, entry.isValid = true) (whole : reading.source = source name items) :
    runText reading outside 0 (source name items) =
      runText reading (body (heading name) (items.map Entry.parameter))
        (docstringFront name items).length (docstring items ++ ['\n']) := by
  have text : source name items = 'd' :: ['e', 'f'] ++ (' ' :: (name ++ '(' :: (declarations items ++
      ')' :: (':' :: (indent ++ (docstring items ++ ['\n'])))))) := by
    simp [source]
  have plain : ∀ c ∈ 'd' :: ['e', 'f'], Token.isDelimiter c = false :=
    List.forall_mem_cons.mpr ⟨rfl, List.forall_mem_cons.mpr ⟨rfl, List.forall_mem_singleton.mpr rfl⟩⟩
  have define : outside.step reading ⟨.ofWord ['d', 'e', 'f'], 0, ['d', 'e', 'f']⟩ =
      .ok (defining (heading name).define, none) := rfl
  have named : (defining (heading name).define).step reading ⟨.text, 4, name⟩ =
      .ok (unopened (heading name), none) := rfl
  have opened : (unopened (heading name)).step reading ⟨.opening .round, 4 + name.length, ['(']⟩ =
      .ok (entries (heading name) [], none) := rfl
  have closed : (closing (heading name) (items.map Entry.parameter) 0).step reading
      ⟨.colon, (listFront name).length + (declarations items).length + 1, [':']⟩ =
      .ok (body (heading name) (items.map Entry.parameter), none) := rfl
  have start : 4 + name.length + 1 = (listFront name).length := by
    simp [listFront]
    omega
  have stop : (listFront name).length + (declarations items).length + 1 + 1 + indent.length =
      (docstringFront name items).length := by
    simp [docstringFront]
    omega
  calc
    _ = runText reading (defining (heading name).define) 4 (name ++ '(' :: (declarations items ++
          ')' :: (':' :: (indent ++ (docstring items ++ ['\n']))))) := by
        rw [text, runText_word plain (by simp [EndsWord]; decide) define, runText_blank (by decide)]
        rfl
    _ = runText reading (entries (heading name) []) (listFront name).length (declarations items ++
          ')' :: (':' :: (indent ++ (docstring items ++ ['\n'])))) := by
        rw [runText_identifier identifier other (by simp; decide) named,
          runText_mark rfl (by simp) opened, start]
    _ = _ := by
        rw [runText_declarations valid (whole.trans (source_list name items)), List.nil_append,
          runText_mark rfl (by simp [indent]) closed, runText_blanks (List.all_eq_true.mp (by decide)), stop]

/-- The header gives the function's parameters, and the docstring is found in whole. -/
theorem extract_source {name : Text} (identifier : isIdentifier name = true)
    (other : name ≠ "def".toList) {items : List Entry}
    (valid : ∀ entry ∈ items, entry.isValid = true) (skipVariadics : Bool) :
    ∃ signature : Signature,
      Reading.extract ⟨source name items, skipVariadics⟩ = ⟨[signature], none⟩ ∧
      signature.name = name ∧ signature.line = 1 ∧
      signature.params = items.map Entry.parameter ∧
      signature.docstring = some (docstring items) := by
  have whole := source_docstring name items
  have header : runText ⟨source name items, skipVariadics⟩ outside 0 (source name items) = _ :=
    runText_source identifier other valid rfl
  refine ⟨_, header.trans (runText_docstring valid whole), ?_, ?_, rfl, ?_⟩
  · have named : source name items =
        ['d', 'e', 'f', ' '] ++ name ++ ('(' :: declarations items ++ ')' :: ':' :: indent ++
          docstring items ++ ['\n']) := by
      simp only [source, List.append_assoc]
    simp only [Signature.name, Reading.signature, Span.resolve, named]
    exact Text.slice_between ['d', 'e', 'f', ' '] name _
  · exact congrArg Int.ofNat (LineIndex.lineOf_zero (source name items))
  · simp only [Signature.docstring, Reading.signature, Option.map_some, Span.resolve, whole]
    exact congrArg some (Text.slice_between (docstringFront name items) (docstring items) ['\n'])

end Generated
end DocDrift
