import DocDrift.Proofs.Docstring.Literal
import DocDrift.Proofs.Signature.Steps
import DocDrift.Proofs.Source.Lines
import DocDrift.Proofs.Token.Concatenation

namespace DocDrift

/-! # Forward scans of one text after another

The reader looks at the source only between offsets of tokens that it has seen, and for the end of a
docstring.  So reading a text inside a longer one finds the same signatures, moved with the text.
-/

/-- The same error in a text that stands `distance` characters further on. -/
def ScanError.shift (distance : Nat) : ScanError → ScanError
  | sourceEnded context length => sourceEnded context (length + distance)
  | nameExpected found offset => nameExpected found (offset + distance)
  | unexpectedInList found offset => unexpectedInList found (offset + distance)
  | separatorExpected name offset => separatorExpected name (offset + distance)
  | unbalancedBrackets offset => unbalancedBrackets (offset + distance)
  | unclosedList length => unclosedList (length + distance)
  | unterminatedDocstring offset => unterminatedDocstring (offset + distance)
  | unparsable report => unparsable report

@[simp] theorem ScanError.message_shift (distance : Nat) (error : ScanError) :
    (error.shift distance).message = error.message := by
  cases error <;> rfl

@[simp] theorem ScanError.offset?_shift (distance : Nat) (error : ScanError) :
    (error.shift distance).offset? = error.offset?.map (· + distance) := by
  cases error <;> rfl

/-- The same fault in a text that stands `distance` characters further on. -/
def Fault.shift (distance : Nat) : Fault → Fault
  | scan error => scan (error.shift distance)
  | invariant text => invariant text
  | uncaught => uncaught

/-- A signature of a text that stands in `source`, `distance` characters and `lines` lines on. -/
def Signature.moved (source : Text) (distance lines : Nat) (signature : Signature) : Signature where
  source := source
  nameSpan := signature.nameSpan.shift distance
  line := signature.line + lines
  params := signature.params
  docstringSpan := signature.docstringSpan.map (·.shift distance)

/-- The name of a signature is a stretch of the first `length` characters. -/
def Signature.NameWithin (length : Nat) (signature : Signature) : Prop :=
  ∃ start stop : Nat, signature.nameSpan = ⟨start, stop⟩ ∧ stop ≤ length

def Heading.shift (distance : Nat) (heading : Heading) : Heading :=
  ⟨heading.define.shift distance, heading.name.shift distance⟩

namespace Reader

/-- The same state in a text that stands `distance` characters further on. -/
def shift (distance : Nat) : Reader → Reader
  | outside => outside
  | defining define => defining (define.shift distance)
  | unopened heading => unopened (heading.shift distance)
  | entries heading params => entries (heading.shift distance) params
  | named heading params name => named (heading.shift distance) params name
  | inside heading params name type part start depth =>
      inside (heading.shift distance) params name type part (start + distance) depth
  | closing heading params depth => closing (heading.shift distance) params depth
  | body heading params => body (heading.shift distance) params

@[simp] theorem shift_zero (reader : Reader) : reader.shift 0 = reader := by
  cases reader <;> rfl

/-- The header that the reader stands in begins before `length`, and its name ends by then. -/
def Within (length : Nat) (reader : Reader) : Prop :=
  (∀ define, reader = defining define → define.start < length) ∧
    ∀ heading, reader.heading? = some heading →
      heading.define.start < length ∧ heading.name.stop ≤ length

theorem within_outside (length : Nat) : outside.Within length :=
  ⟨fun _ other => (nomatch other), fun _ other => (nomatch other)⟩

end Reader

/-- A text and its place in a longer one, as the reader sees them. -/
structure Embeds (small large : Reading) (distance lines : Nat) : Prop where
  variadics : large.skipVariadics = small.skipVariadics
  slice : ∀ start stop : Nat, stop ≤ small.source.length →
    large.source.slice (start + distance : Nat) (stop + distance : Nat) =
      small.source.slice start stop
  line : ∀ offset : Nat, offset < small.source.length →
    (LineIndex.ofText large.source).lineOf (offset + distance : Nat) =
      (LineIndex.ofText small.source).lineOf offset + lines

namespace Embeds

variable {small large : Reading} {distance lines : Nat} (embeds : Embeds small large distance lines)

include embeds

theorem keep (params : List Parameter) (name : Text) (type : Option Text) :
    large.keep params name type = small.keep params name type := by
  simp only [Reading.keep, embeds.variadics]

theorem signature {heading : Heading} (params : List Parameter) (docstring : Option Span)
    (within : heading.define.start < small.source.length) :
    large.signature (heading.shift distance) params (docstring.map (·.shift distance)) =
      (small.signature heading params docstring).moved large.source distance lines := by
  have line := embeds.line _ within
  simp only [Reading.signature, Signature.moved, Heading.shift, Token.shift_start, Token.shift_stop,
    Span.shift, line]
  simp

theorem stepInside {heading : Heading} {params : List Parameter} {name : Text}
    {type : Option Text} {part : EntryPart} {start : Nat} {depth : Depth} {token : Token}
    (bounded : token.start ≤ small.source.length) :
    Reader.stepInside large (heading.shift distance) params name type part (start + distance) depth
        (token.shift distance) =
      match Reader.stepInside small heading params name type part start depth token with
      | .ok next => .ok (next.shift distance)
      | .error error => .error (error.shift distance) := by
  have between : large.textBetween (start + distance) (token.start + distance) =
      small.textBetween start token.start :=
    congrArg Text.trim (embeds.slice start token.start bounded)
  simp only [Reader.stepInside, Token.shift_kind, Token.shift_start, Token.shift_stop, between,
    embeds.keep]
  cases token.kind with
  | closing bracket =>
      simp only
      cases depth.leave? bracket with
      | some inner => rfl
      | none =>
          simp only
          split <;> rfl
  | comma =>
      simp only
      split <;> rfl
  | equals =>
      simp only
      split <;> rfl
  | _ => rfl

/-- One step in the longer text.  Only a token that opens a docstring looks further ahead. -/
theorem step {reader : Reader} {token : Token} (within : reader.Within small.source.length)
    (bounded : token.start ≤ small.source.length)
    (docstring : ∀ heading params, reader = .body heading params → token.kind = .text →
      Reading.opensDocstring token = true →
      Docstring.locate large.source (token.start + distance : Nat) none =
        (Docstring.locate small.source token.start none).map (·.shift distance)) :
    (reader.shift distance).step large (token.shift distance) =
      match reader.step small token with
      | .ok (next, found) =>
          .ok (next.shift distance, found.map (·.moved large.source distance lines))
      | .error error => .error (error.shift distance) := by
  cases reader with
  | outside =>
      by_cases defines : token.kind = .define <;> simp [Reader.shift, Reader.step, defines]
  | defining define =>
      by_cases named : token.kind = .text <;>
        simp [Reader.shift, Reader.step, named, Heading.shift, ScanError.shift]
  | unopened heading =>
      by_cases opens : token.kind = .opening .round <;> simp [Reader.shift, Reader.step, opens]
  | entries heading params =>
      simp only [Reader.shift, Reader.step, Token.shift_kind]
      split <;> rfl
  | named heading params name =>
      simp only [Reader.shift, Reader.step, Token.shift_kind, embeds.keep, Token.shift_stop]
      split <;> rfl
  | inside heading params name type part start depth =>
      simp only [Reader.shift, Reader.step, embeds.stepInside bounded]
      cases Reader.stepInside small heading params name type part start depth token <;> rfl
  | closing heading params depth =>
      simp only [Reader.shift, Reader.step, Token.shift_kind]
      cases token.kind with
      | colon => by_cases flat : depth = 0 <;> simp [flat]
      | _ => rfl
  | body heading params =>
      have signature := fun span => embeds.signature params span (within.2 heading rfl).1
      have without := signature none
      simp only [Reader.shift, Reader.step, Token.shift_kind]
      cases kind : token.kind with
      | text =>
          simp only
          have opens : Reading.opensDocstring (token.shift distance) = Reading.opensDocstring token := rfl
          rw [opens]
          split
          · rename_i opensDocstring
            have located := docstring heading params rfl kind opensDocstring
            rw [Token.shift_start, located]
            cases found : Docstring.locate small.source token.start none with
            | none => rfl
            | some span =>
                simp only [Option.map_some]
                rw [← signature (some span)]
                rfl
          · simp only [Option.map_some]
            rw [← without]
            rfl
      | define =>
          simp only [Option.map_some]
          rw [← without]
          rfl
      | _ => rfl

theorem name {signature : Signature} (bounded : signature.NameWithin small.source.length)
    (same : signature.source = small.source) :
    (signature.moved large.source distance lines).name = signature.name := by
  obtain ⟨start, stop, span, inside⟩ := bounded
  have moved := embeds.slice start stop inside
  simp only [Signature.name, Signature.moved, span, Span.shift, Span.resolve, same]
  exact_mod_cast moved

end Embeds

namespace Reader

variable {reading : Reading} {reader next last : Reader} {token : Token} {tokens : List Token}
  {found : Option Signature} {signatures : List Signature} {length : Nat}

theorem within_step (within : reader.Within length) (inside : token.start < length)
    (bounded : token.stop ≤ length) (stepped : reader.step reading token = .ok (next, found)) :
    next.Within length := by
  cases step_move stepped with
  | pass => exact within_outside length
  | define | nested =>
      refine ⟨fun define same => ?_, fun _ other => (nomatch other)⟩
      cases same
      exact inside
  | @name define =>
      refine ⟨fun _ other => (nomatch other), fun heading same => ?_⟩
      cases same
      exact ⟨within.1 define rfl, bounded⟩
  | @stay _ _ heading before after =>
      refine ⟨fun define same => ?_, fun other same => ?_⟩
      · subst same
        contradiction
      · rw [after] at same
        cases same
        exact within.2 heading before
  | complete => exact within_outside length

theorem found_within (within : reader.Within length) {signature : Signature}
    (stepped : reader.step reading token = .ok (next, some signature)) :
    signature.NameWithin length ∧ signature.source = reading.source := by
  cases step_move stepped with
  | @complete heading => exact ⟨⟨_, _, rfl, (within.2 heading rfl).2⟩, rfl⟩
  | @nested heading => exact ⟨⟨_, _, rfl, (within.2 heading rfl).2⟩, rfl⟩

theorem run_within (within : reader.Within length)
    (bounded : ∀ token ∈ tokens, token.start < length ∧ token.stop ≤ length) :
    ∀ signature ∈ (run reading reader tokens).signatures,
      signature.NameWithin length ∧ signature.source = reading.source := by
  induction tokens generalizing reader with
  | nil => simp [run]
  | cons token rest ih =>
      intro signature member
      obtain ⟨inside, stops⟩ := bounded token (by simp)
      simp only [run] at member
      cases first : reader.step reading token with
      | error error =>
          rw [first] at member
          contradiction
      | ok result =>
          obtain ⟨next, found⟩ := result
          rw [first] at member
          simp only [Extraction.found, List.mem_append, Option.mem_toList] at member
          rcases member with here | later
          · rw [here] at first
            exact found_within within first
          · exact ih (within_step within inside stops first)
              (fun token member => bounded token (by simp [member])) signature later

end Reader

namespace Embeds

open Reader

variable {small large : Reading} {distance lines : Nat} {reader last : Reader} {tokens : List Token}
  {signatures : List Signature}

/-- A chain of steps in the longer text.  It needs no docstring beyond those that are closed. -/
theorem steps (embeds : Embeds small large distance lines)
    (docstring : ∀ (start : Nat) (span : Span), Docstring.locate small.source start none = some span →
      Docstring.locate large.source (start + distance : Nat) none = some (span.shift distance))
    (within : reader.Within small.source.length)
    (bounded : ∀ token ∈ tokens,
      token.start < small.source.length ∧ token.stop ≤ small.source.length)
    (chain : Steps small reader tokens signatures last) :
    Steps large (reader.shift distance) (tokens.map (Token.shift distance))
      (signatures.map (·.moved large.source distance lines)) (last.shift distance) := by
  induction chain with
  | nil => exact .nil
  | @cons reader next last token tokens found signatures first later ih =>
      obtain ⟨inside, stops⟩ := bounded token (by simp)
      have stepped := embeds.step within (Nat.le_of_lt inside) (fun heading params same text opens => by
        -- An unclosed docstring would have been an error of the step.
        cases located : Docstring.locate small.source token.start none with
        | some span => rw [docstring _ span located, Option.map_some]
        | none =>
            simp only [same, Reader.step, text, opens, located, if_true] at first
            contradiction)
      rw [first] at stepped
      have rest := ih (within_step within inside stops first)
        (fun token member => bounded token (by simp [member]))
      have chain := Steps.cons stepped rest
      cases found <;> exact chain

theorem run (embeds : Embeds small large distance lines)
    (lengths : large.source.length = small.source.length + distance)
    (docstring : ∀ start : Nat, Docstring.locate large.source (start + distance : Nat) none =
      (Docstring.locate small.source start none).map (·.shift distance))
    (within : reader.Within small.source.length)
    (bounded : ∀ token ∈ tokens,
      token.start < small.source.length ∧ token.stop ≤ small.source.length) :
    Reader.run large (reader.shift distance) (tokens.map (Token.shift distance)) =
      ⟨(Reader.run small reader tokens).signatures.map (·.moved large.source distance lines),
        (Reader.run small reader tokens).fault.map (Fault.shift distance)⟩ := by
  induction tokens generalizing reader with
  | nil =>
      simp only [List.map_nil, Reader.run, lengths]
      cases reader <;> rfl
  | cons token rest ih =>
      obtain ⟨inside, stops⟩ := bounded token (by simp)
      have stepped := embeds.step within (Nat.le_of_lt inside) fun _ _ _ _ _ => docstring token.start
      simp only [List.map_cons, Reader.run, stepped]
      cases first : reader.step small token with
      | error error => rfl
      | ok result =>
          obtain ⟨next, found⟩ := result
          simp only [ih (within_step within inside stops first)
            (fun token member => bounded token (by simp [member]))]
          cases found <;> rfl

theorem left (first second : Text) (skip : Bool) :
    Embeds ⟨first, skip⟩ ⟨first ++ second, skip⟩ 0 0 where
  variadics := rfl
  slice start _ inside := Text.slice_append_left second start inside
  line _ inside := LineIndex.lineOf_append_left second inside

theorem right (first second : Text) (skip : Bool) :
    Embeds ⟨second, skip⟩ ⟨first ++ second, skip⟩ first.length (first.count '\n') where
  variadics := rfl
  slice start stop _ := Text.slice_append_right first second start stop
  line offset _ := LineIndex.lineOf_append_right first second offset

end Embeds

theorem Token.scan_bounded {source : Text} {token : Token} (member : token ∈ scan source) :
    token.start < source.length ∧ token.stop ≤ source.length := by
  have bounds := (scan_cuts source).bounds member
  omega

theorem Reading.extract_within (reading : Reading) :
    ∀ signature ∈ reading.extract.signatures,
      signature.NameWithin reading.source.length ∧ signature.source = reading.source :=
  Reader.run_within (Reader.within_outside _) fun _ => Token.scan_bounded

/-- Extraction of one text after another.  If the first ends its last line outside every token and is
scanned without a fault, then both keep their signatures, those of the second moved behind the first,
and the whole ends as the second does. -/
theorem extract_append (skip : Bool) (first second : Text) (ends : Token.EndsLine first)
    (settled : Token.Settled 0 first (Token.scan first))
    (finished : (Reading.extract ⟨first, skip⟩).fault = none) :
    (Reading.extract ⟨first ++ second, skip⟩).signatures =
        (Reading.extract ⟨first, skip⟩).signatures.map (·.moved (first ++ second) 0 0) ++
          (Reading.extract ⟨second, skip⟩).signatures.map
            (·.moved (first ++ second) first.length (first.count '\n')) ∧
      (Reading.extract ⟨first ++ second, skip⟩).signatures.map (·.name) =
        (Reading.extract ⟨first, skip⟩).signatures.map (·.name) ++
          (Reading.extract ⟨second, skip⟩).signatures.map (·.name) ∧
      ((Reading.extract ⟨second, skip⟩).fault = none →
        (Reading.extract ⟨first ++ second, skip⟩).fault = none) ∧
      (∀ error, (Reading.extract ⟨second, skip⟩).fault = some (.scan error) →
        ∃ moved, (Reading.extract ⟨first ++ second, skip⟩).fault = some (.scan moved) ∧
          moved.message = error.message ∧
          moved.offset? = error.offset?.map (· + first.length)) := by
  have chain := Reader.steps_of_run finished
  have front := (Embeds.left first second skip).steps
    (fun _ span found => by
      have same : span.shift (0 : Nat) = span := by simp [Span.shift]
      rw [same]
      exact Docstring.locate_append_left found second)
    (Reader.within_outside _) (fun _ => Token.scan_bounded) chain
  have back := (Embeds.right first second skip).run (by simp [Nat.add_comm])
    (Docstring.locate_append_right first second) (Reader.within_outside _)
    (fun _ => Token.scan_bounded)
  have whole : Reading.extract ⟨first ++ second, skip⟩ =
      ⟨(Reading.extract ⟨first, skip⟩).signatures.map (·.moved (first ++ second) 0 0) ++
          (Reading.extract ⟨second, skip⟩).signatures.map
            (·.moved (first ++ second) first.length (first.count '\n')),
        (Reading.extract ⟨second, skip⟩).fault.map (Fault.shift first.length)⟩ := by
    simp only [Token.shift_zero, List.map_id, Reader.shift_zero] at front
    rw [Reading.extract, Token.scan_append ends settled, front.run_append]
    exact congrArg (fun later : Extraction =>
      (⟨(Reading.extract ⟨first, skip⟩).signatures.map (·.moved (first ++ second) 0 0) ++
        later.signatures, later.fault⟩ : Extraction)) back
  refine ⟨by rw [whole], ?_, ?_, ?_⟩
  · rw [whole]
    simp only [List.map_append, List.map_map]
    congr 1
    · refine List.map_congr_left fun signature member => ?_
      obtain ⟨bounded, same⟩ := Reading.extract_within ⟨first, skip⟩ signature member
      exact (Embeds.left first second skip).name bounded same
    · refine List.map_congr_left fun signature member => ?_
      obtain ⟨bounded, same⟩ := Reading.extract_within ⟨second, skip⟩ signature member
      exact (Embeds.right first second skip).name bounded same
  · intro none
    rw [whole, none]
    rfl
  · intro error fault
    refine ⟨error.shift first.length, ?_, by simp, by simp⟩
    rw [whole, fault]
    rfl

/-- A complete function before one whose header breaks off. -/
theorem extract_append_unfinished :
    let first := "def f(x):\n    pass\n".toList
    let second := "\ndef g(y): 0\ndef h(".toList
    Token.EndsLine first ∧ Token.Settled 0 first (Token.scan first) ∧
      (Reading.extract ⟨first ++ second, true⟩).signatures.map (·.name) = [['f'], ['g']] ∧
      ∃ moved, (Reading.extract ⟨first ++ second, true⟩).fault = some (.scan moved) ∧
        moved.offset? = some 38 := by
  intro first second
  have ends : Token.EndsLine first := by decide
  have settled : Token.Settled 0 first (Token.scan first) := by decide
  obtain ⟨_, names, _, fault⟩ := extract_append true first second ends settled (by decide)
  obtain ⟨moved, found, _, offset⟩ :=
    fault (.sourceEnded "inside a parameter list" second.length) (by decide)
  exact ⟨ends, settled, names.trans (by decide), moved, found, offset.trans (by decide)⟩

end DocDrift
