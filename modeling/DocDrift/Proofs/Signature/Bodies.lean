import DocDrift.Proofs.Signature.Docstrings
import DocDrift.Proofs.Signature.Passages

namespace DocDrift

/-! # The front of a body

Behind a header, the first text token decides whether the body opens with a docstring.  A docstring that is
found stands inside this token, so spans never overlap.  Opening quotes that are never closed are an error,
unless the scanner gave them up for an empty literal: it does where the source ends in a lone backslash.
-/

namespace Span

/-- Spans of text, one behind the other from an offset on. -/
inductive InRow : Int → List Span → Prop where
  | nil {offset : Int} : InRow offset []
  | cons {offset : Int} {span : Span} {spans : List Span} (behind : offset ≤ span.start)
      (filled : span.start < span.stop) (later : InRow span.stop spans) : InRow offset (span :: spans)

variable {offset : Int} {spans : List Span}

theorem InRow.weaken (row : InRow offset spans) {earlier : Int} (before : earlier ≤ offset) :
    InRow earlier spans := by
  cases row with
  | nil => exact .nil
  | cons behind filled later => exact .cons (Int.le_trans before behind) filled later

theorem InRow.bounds (row : InRow offset spans) : ∀ span ∈ spans, offset ≤ span.start ∧ span.start < span.stop := by
  induction row with
  | nil => simp
  | cons behind filled later ih =>
      refine List.forall_mem_cons.mpr ⟨⟨behind, filled⟩, fun span member => ?_⟩
      have bounds := ih span member
      omega

theorem InRow.pairwise (row : InRow offset spans) :
    spans.Pairwise fun earlier later => earlier.stop ≤ later.start := by
  induction row with
  | nil => exact .nil
  | cons behind filled later ih => exact .cons (fun span member => (later.bounds span member).1) ih

end Span

def Signature.spans (signature : Signature) : List Span := signature.nameSpan :: signature.docstringSpan.toList

namespace Reader

variable {reading : Reading} {reader next : Reader} {token : Token} {tokens : List Token}
  {found : List Signature} {heading : Heading} {params : List Parameter}

/-- A docstring is found with the text token that opens it. -/
structure Opens (reading : Reading) (token : Token) (span : Span) : Prop where
  text : token.kind = .text
  opens : Reading.opensDocstring token = true
  located : Docstring.locate reading.source token.start none = some span

theorem step_found {signature : Signature} (stepped : reader.step reading token = .ok (next, some signature)) :
    ∃ heading params docstring, reader = body heading params ∧ next.heading? = none ∧
      signature = reading.signature heading params docstring ∧
      ∀ span ∈ docstring, Opens reading token span := by
  cases step_move stepped with
  | @complete heading params docstring text =>
      refine ⟨heading, params, docstring, rfl, rfl, rfl, ?_⟩
      simp only [step, text] at stepped
      split at stepped
      · rename_i opens
        cases located : Docstring.locate reading.source token.start none with
        | none =>
            rw [located] at stepped
            contradiction
        | some span =>
            rw [located] at stepped
            cases stepped
            intro span same
            cases same
            exact ⟨text, opens, located⟩
      · cases stepped
        simp
  | @nested heading params => exact ⟨heading, params, none, rfl, rfl, rfl, by simp⟩

theorem Opens.bounds {span : Span} (opened : Opens reading token span) (member : token ∈ Token.scan reading.source) :
    span.start = token.start ∧ span.start < span.stop ∧ span.stop ≤ token.stop := by
  obtain ⟨_, _, same, long, _, _⟩ := Docstring.locate_spec opened.located
  -- The token holds the docstring that is found in its own text.
  have inToken := Docstring.locate_token member opened.opens
  rw [opened.located] at inToken
  obtain ⟨own, located, shifted⟩ := Option.map_eq_some_iff.mp inToken.symm
  obtain ⟨stop, rfl, inside⟩ := Docstring.locate_bounds located
  subst same
  have stops := congrArg Span.stop shifted
  simp only [Span.shift] at stops
  refine ⟨rfl, ?_⟩
  simp only [Token.stop]
  omega

theorem run_inRow {offset : Nat} (within : ∀ token ∈ tokens, token ∈ Token.scan reading.source)
    (apart : tokens.Pairwise fun earlier later => earlier.start < later.start ∧ earlier.stop ≤ later.start)
    (bounded : ∀ token ∈ tokens, offset ≤ token.start)
    (named : ∀ heading ∈ reader.heading?, offset ≤ heading.name.start ∧
      heading.name.start < heading.name.stop ∧ ∀ token ∈ tokens, heading.name.stop ≤ token.start) :
    Span.InRow offset ((run reading reader tokens).signatures.flatMap Signature.spans) := by
  -- A name stands in the reader until its function is found, so the bound on it goes through the induction.
  induction tokens generalizing reader offset with
  | nil => exact .nil
  | cons token rest ih =>
      obtain ⟨here, within⟩ := List.forall_mem_cons.mp within
      obtain ⟨first, bounded⟩ := List.forall_mem_cons.mp bounded
      obtain ⟨ahead, apart⟩ := List.pairwise_cons.mp apart
      have filled := ((Token.scan_cuts reading.source).bounds here).2.1
      rw [run]
      cases stepped : reader.step reading token with
      | error error => exact .nil
      | ok result =>
          obtain ⟨next, found⟩ := result
          cases found with
          | none =>
              refine ih within apart bounded fun heading stands => ?_
              cases step_move stepped with
              | pass | define => contradiction
              | name =>
                  cases stands
                  exact ⟨first, filled, fun later member => (ahead later member).2⟩
              | stay before after =>
                  obtain rfl := Option.some.inj (after.symm.trans stands)
                  obtain ⟨lower, long, behind⟩ := named _ before
                  exact ⟨lower, long, fun later member => behind later (List.mem_cons_of_mem token member)⟩
          | some signature =>
              obtain ⟨heading, params, docstring, rfl, closed, rfl, opens⟩ := step_found stepped
              obtain ⟨lower, long, behind⟩ := named heading rfl
              have name := behind token List.mem_cons_self
              have later : Span.InRow (token.stop : Nat) ((run reading next rest).signatures.flatMap Signature.spans) := by
                refine ih within apart (fun other member => (ahead other member).2) ?_
                rw [closed]
                simp
              refine .cons (Int.ofNat_le.mpr lower) (Int.ofNat_lt.mpr long) ?_
              cases docstring with
              | none => exact later.weaken (by simp only [Reading.signature]; omega)
              | some span =>
                  obtain ⟨starts, positive, ends⟩ := (opens span rfl).bounds here
                  exact .cons (by simp only [Reading.signature]; omega) positive (later.weaken ends)

end Reader

/-- The docstrings that a scan finds, whether or not it comes to its end: each is a literal at the front of the
first text token behind the colon of its header and does not reach behind this token.  So the names and
docstrings of a source stand apart, one behind the other. -/
theorem extract_docstrings (reading : Reading) :
    (∀ signature ∈ reading.extract.signatures, ∀ span, signature.docstringSpan = some span →
      ∃ (passage : Passage) (front gap after : List Token) (token : Token) (earlier : List Signature)
        (params : List Parameter) (delimiter : Text),
        Token.scan reading.source = front ++ passage.tokens ++ gap ++ token :: after ∧
          passage.IsRead reading front earlier params ∧
          signature = reading.signature passage.heading params (some span) ∧
          (∀ other ∈ gap, other.kind ≠ .define ∧ other.kind ≠ .text) ∧ token.kind = .text ∧
          span.start = token.start ∧ span.stop ≤ token.stop ∧
          Docstring.IsLiteral reading.source span delimiter) ∧
      (reading.extract.signatures.flatMap Signature.spans).Pairwise
        (fun earlier later => earlier.stop ≤ later.start) ∧
      ∀ span ∈ reading.extract.signatures.flatMap Signature.spans, 0 ≤ span.start ∧ span.start < span.stop := by
  have row : Span.InRow (0 : Nat) (reading.extract.signatures.flatMap Signature.spans) :=
    Reader.run_inRow (fun _ member => member) (Token.scan_cuts reading.source).apart
      (fun _ _ => Nat.zero_le _) (by simp [Reader.heading?])
  refine ⟨?_, row.pairwise, row.bounds⟩
  intro signature found span documented
  obtain ⟨before, token, after, earlier, reader, next, whole, chain, stepped⟩ := Reader.steps_of_found found
  obtain ⟨heading, params, docstring, rfl, _, rfl, opens⟩ := Reader.step_found stepped
  obtain rfl : docstring = some span := documented
  obtain ⟨passage, front, gap, rfl, rfl, read, plain⟩ := chain.passage
  have opened := opens span rfl
  have member : token ∈ Token.scan reading.source := by simp [whole]
  obtain ⟨starts, _, ends⟩ := opened.bounds member
  obtain ⟨_, delimiter, _, _, _, literal⟩ := Docstring.locate_spec opened.located
  exact ⟨passage, front, gap, after, token, earlier, params, delimiter, whole, read, rfl, plain, opened.text,
    starts, ends, literal⟩

/-! ## Opening quotes -/

namespace Token.Literal

/-- A text that ends in a lone backslash before the delimiter stands anywhere but behind a backslash. -/
inductive Dangling (delimiter : Text) : Text → Prop where
  | last : Dangling delimiter ['\\']
  | escaped {rest : Text} (c : Char) (later : Dangling delimiter rest) : Dangling delimiter ('\\' :: c :: rest)
  | plain {c : Char} {rest : Text} (other : c ≠ '\\') (unclosed : ¬ delimiter <+: c :: rest)
      (later : Dangling delimiter rest) : Dangling delimiter (c :: rest)

theorem dangling_cons {delimiter : Text} {c : Char} {rest : Text} (other : c ≠ '\\') :
    Dangling delimiter (c :: rest) ↔ ¬ delimiter <+: c :: rest ∧ Dangling delimiter rest := by
  constructor
  · rintro (_ | ⟨_, later⟩ | ⟨_, unclosed, later⟩)
    · contradiction
    · contradiction
    · exact ⟨unclosed, later⟩
  · intro ⟨unclosed, later⟩
    exact .plain other unclosed later

theorem closeTriple_eq_none_iff {quote : Char} {text : Text} :
    closeTriple quote text = none ↔ Dangling [quote, quote, quote] text := by
  fun_induction closeTriple quote text with
  | case1 => exact iff_of_false (by simp) (by rintro ⟨⟩)
  | case2 => exact iff_of_true rfl .last
  | case3 c rest ih =>
      rw [Option.map_eq_none_iff, ih]
      constructor
      · exact .escaped c
      · rintro (_ | ⟨_, later⟩ | ⟨other, _, _⟩)
        · exact later
        · contradiction
  | case4 c rest lone escapes closes =>
      rw [dangling_cons (ne_backslash lone escapes)]
      exact iff_of_false (by simp) fun dangling => dangling.1 (List.isPrefixOf_iff_prefix.mp closes)
  | case5 c rest lone escapes unclosed ih =>
      rw [List.isPrefixOf_iff_prefix] at unclosed
      rw [dangling_cons (ne_backslash lone escapes), Option.map_eq_none_iff, ih, and_iff_right unclosed]

end Token.Literal

/-- A token at opening quotes holds them all, unless the scanner gave them up. -/
theorem Reading.opensDocstring_iff {source text : Text} {token : Token} {quote : Char}
    (member : token ∈ Token.scan source) (quotes : Token.Literal.isQuote quote = true)
    (front : source.drop token.start = quote :: quote :: quote :: text) :
    Reading.opensDocstring token = true ↔ ¬ Token.Literal.Dangling [quote, quote, quote] text := by
  obtain ⟨c, rest, split, piece⟩ := Token.piece_of_mem_scanFrom member
  obtain ⟨rfl, rfl⟩ := List.cons.inj (split.symm.trans front)
  rw [← Token.Literal.closeTriple_eq_none_iff, Docstring.opensDocstring_iff]
  cases closed : Token.Literal.closeTriple c text with
  | none =>
      rw [Token.splitPiece_untripled quotes closed] at piece
      have short : token.text = [c, c] := (Piece.token.inj piece).2.symm
      refine iff_of_false (fun ⟨other, _, starts⟩ => ?_) (by simp)
      have fits := starts.length_le
      simp [short] at fits
  | some pair =>
      rw [Token.splitPiece_triple quotes closed] at piece
      have own : token.text = [c, c, c] ++ pair.1 := (Piece.token.inj piece).2.symm
      refine iff_of_true ⟨c, ?_, own ▸ List.prefix_append _ _⟩ (by simp)
      simpa [Token.Literal.isQuote] using quotes

namespace Reader

variable {reading : Reading} {token : Token} {after : List Token} {heading : Heading} {params : List Parameter}

theorem run_body_plain (text : token.kind = .text) (plain : Reading.opensDocstring token = false) :
    run reading (body heading params) (token :: after) =
      .found (some (reading.signature heading params none)) (run reading outside after) := by
  simp [run, step, text, plain]

theorem run_body_located (text : token.kind = .text) (opens : Reading.opensDocstring token = true) {span : Span}
    (located : Docstring.locate reading.source token.start none = some span) :
    run reading (body heading params) (token :: after) =
      .found (some (reading.signature heading params (some span))) (run reading outside after) := by
  simp [run, step, text, opens, located]

theorem run_body_unterminated (text : token.kind = .text) (opens : Reading.opensDocstring token = true)
    (missing : Docstring.locate reading.source token.start none = none) :
    run reading (body heading params) (token :: after) =
      .failed (.scan (.unterminatedDocstring token.start)) := by
  simp [run, step, text, opens, missing]

end Reader

theorem Passage.IsRead.extract_eq {reading : Reading} {passage : Passage} {front gap after : List Token}
    {found : List Signature} {params : List Parameter} (read : passage.IsRead reading front found params)
    (plain : ∀ other ∈ gap, other.kind ≠ .define ∧ other.kind ≠ .text)
    (whole : Token.scan reading.source = front ++ passage.tokens ++ gap ++ after) :
    reading.extract =
      ⟨found ++ (Reader.run reading (.body passage.heading params) after).signatures,
        (Reader.run reading (.body passage.heading params) after).fault⟩ := by
  rw [Reading.extract, whole]
  exact (Reader.steps_of_isRead read plain).run_append after

theorem Passage.IsRead.next_iff {reading : Reading} {passage : Passage} {front gap after : List Token}
    {found : List Signature} {params : List Parameter} (read : passage.IsRead reading front found params)
    (plain : ∀ other ∈ gap, other.kind ≠ .define ∧ other.kind ≠ .text)
    (whole : Token.scan reading.source = front ++ passage.tokens ++ gap ++ after) {docstring : Option Span}
    {later : Extraction} (runs : Reader.run reading (.body passage.heading params) after =
      .found (some (reading.signature passage.heading params docstring)) later) (other : Option Span) :
    found ++ [reading.signature passage.heading params other] <+: reading.extract.signatures ↔
      other = docstring := by
  rw [read.extract_eq plain whole, runs]
  simp [Extraction.found, Reading.signature, List.prefix_append_right_inj, List.cons_prefix_cons]

theorem not_next {found : List Signature} (signature : Signature) : ¬ found ++ [signature] <+: found := by
  intro next
  have fits := next.length_le
  rw [List.length_append] at fits
  exact Nat.not_succ_le_self _ fits

/-- Where a text token stands at three quotes, behind the colon of a header and before any other text, the
docstring at the quotes is found or the scan ends in an error there.  The one exception is a source that ends
in a lone backslash before the quotes are closed: there, the function has no docstring. -/
theorem extract_docstring_iff {reading : Reading} {passage : Passage} {front gap after : List Token} {token : Token}
    {found : List Signature} {params : List Parameter} {delimiter : Text}
    (whole : Token.scan reading.source = front ++ passage.tokens ++ gap ++ token :: after)
    (read : passage.IsRead reading front found params)
    (plain : ∀ other ∈ gap, other.kind ≠ .define ∧ other.kind ≠ .text) (text : token.kind = .text)
    (opened : Docstring.opening? (reading.source.drop token.start) = some delimiter) :
    let behind := reading.source.drop (token.start + 3)
    let documented := ∃ span, Docstring.locate reading.source token.start none = some span ∧
      found ++ [reading.signature passage.heading params (some span)] <+: reading.extract.signatures
    let refused := ¬ delimiter <:+: behind ∧
      reading.extract = ⟨found, some (.scan (.unterminatedDocstring token.start))⟩
    let undocumented := found ++ [reading.signature passage.heading params none] <+: reading.extract.signatures
    (documented ∨ refused ↔ ¬ Token.Literal.Dangling delimiter behind) ∧
      (undocumented ↔ Token.Literal.Dangling delimiter behind) := by
  intro behind documented refused undocumented
  have closed := Docstring.not_infix_of_locate opened
  obtain ⟨quote, quotes, rfl, starts⟩ := Docstring.drop_opening opened
  have isQuote : Token.Literal.isQuote quote = true := by simpa [Token.Literal.isQuote] using quotes
  have opens : Reading.opensDocstring token = true ↔ ¬ Token.Literal.Dangling [quote, quote, quote] behind :=
    Reading.opensDocstring_iff (by simp [whole]) isQuote starts
  by_cases dangling : Token.Literal.Dangling [quote, quote, quote] behind
  · have missed : Reading.opensDocstring token = false := by
      rw [Bool.eq_false_iff]
      exact fun opened => opens.mp opened dangling
    have next := read.next_iff plain whole (Reader.run_body_plain text missed)
    have shown := (next none).mpr rfl
    refine ⟨iff_of_false ?_ (not_not_intro dangling), iff_of_true shown dangling⟩
    rintro (⟨span, _, other⟩ | ⟨_, stopped⟩)
    · have absent := (next (some span)).mp other
      contradiction
    · rw [stopped] at shown
      exact not_next _ shown
  · cases located : Docstring.locate reading.source token.start none with
    | some span =>
        have next := read.next_iff plain whole (Reader.run_body_located text (opens.mpr dangling) located)
        refine ⟨iff_of_true (.inl ⟨span, located, (next _).mpr rfl⟩) dangling, iff_of_false ?_ dangling⟩
        intro shown
        have absent := (next none).mp shown
        contradiction
    | none =>
        have stopped := read.extract_eq plain whole
        rw [Reader.run_body_unterminated text (opens.mpr dangling) located, Extraction.failed,
          List.append_nil] at stopped
        refine ⟨iff_of_true (.inr ⟨closed located, stopped⟩) dangling, iff_of_false ?_ dangling⟩
        intro (shown : found ++ [_] <+: reading.extract.signatures)
        rw [stopped] at shown
        exact not_next _ shown

/-- The header `def f():`. -/
def emptyHeader : Passage where
  heading := ⟨⟨.define, 0, ['d', 'e', 'f']⟩, ⟨.text, 4, ['f']⟩⟩
  inner := [⟨.opening .round, 5, ['(']⟩, ⟨.closing .round, 6, [')']⟩]
  colon := ⟨.colon, 7, [':']⟩

/-- The scanner reads on behind the escaped quote to the end of the source.  The docstring ends before. -/
theorem extract_docstring_escaped :
    let reading : Reading := ⟨"def f(): (\x27\x27\x27a\\\x27\x27\x27b".toList, true⟩
    let token : Token := ⟨.text, 10, reading.source.drop 10⟩
    Token.scan reading.source = emptyHeader.tokens ++ [⟨.opening .round, 9, ['(']⟩] ++ [token] ∧
      Docstring.opening? (reading.source.drop 10) = some ['\x27', '\x27', '\x27'] ∧
      ¬ Token.Literal.Dangling ['\x27', '\x27', '\x27'] (reading.source.drop 13) ∧
      ∃ span, Docstring.locate reading.source 10 none = some span ∧ span.resolve reading.source ≠ token.text ∧
        [reading.signature emptyHeader.heading [] (some span)] <+: reading.extract.signatures := by
  intro reading token
  have whole : Token.scan reading.source =
      [] ++ emptyHeader.tokens ++ [⟨.opening .round, 9, ['(']⟩] ++ [token] := by decide +kernel
  have reached : Reader.Steps reading .outside emptyHeader.opening [] (.closing emptyHeader.heading [] 0) :=
    .quiet rfl (.quiet rfl (.quiet rfl (.quiet rfl .nil)))
  have opened : Docstring.opening? (reading.source.drop 10) = some ['\x27', '\x27', '\x27'] := by decide +kernel
  have located : Docstring.locate reading.source 10 none = some ⟨10, 18⟩ := by decide +kernel
  have closes : ¬ Token.Literal.Dangling ['\x27', '\x27', '\x27'] (reading.source.drop 13) := by
    rw [← Token.Literal.closeTriple_eq_none_iff]
    decide +kernel
  have decided := (extract_docstring_iff whole ⟨rfl, rfl, rfl, reached⟩ (by simp) rfl opened).1.mpr closes
  refine ⟨whole, opened, closes, ?_⟩
  rcases decided with ⟨span, same, shown⟩ | ⟨absent, _⟩
  · obtain rfl : span = ⟨10, 18⟩ := Option.some.inj (same.symm.trans located)
    exact ⟨_, located, by decide +kernel, shown⟩
  · exact absurd (show ['\x27', '\x27', '\x27'] <:+: reading.source.drop 13 by decide +kernel) absent

/-- The scan accepts opening quotes before a lone backslash at the end of the source, and the function has
no docstring. -/
theorem extract_dangling_docstring :
    let reading : Reading := ⟨"def f():\n    \x22\x22\x22abc\\".toList, true⟩
    Token.scan reading.source =
        emptyHeader.tokens ++
          [⟨.text, 13, ['\x22', '\x22']⟩, ⟨.text, 15, ['\x22']⟩, ⟨.text, 16, ['a', 'b', 'c', '\\']⟩] ∧
      emptyHeader.IsRead reading [] [] [] ∧
      Docstring.opening? (reading.source.drop 13) = some ['\x22', '\x22', '\x22'] ∧
      ¬ ['\x22', '\x22', '\x22'] <:+: reading.source.drop 16 ∧
      reading.extract = ⟨[reading.signature emptyHeader.heading [] none], none⟩ := by
  intro reading
  have reached : Reader.Steps reading .outside emptyHeader.opening [] (.closing emptyHeader.heading [] 0) :=
    .quiet rfl (.quiet rfl (.quiet rfl (.quiet rfl .nil)))
  exact ⟨by decide +kernel, ⟨rfl, rfl, rfl, reached⟩, by decide +kernel, by decide +kernel, by decide +kernel⟩

end DocDrift
