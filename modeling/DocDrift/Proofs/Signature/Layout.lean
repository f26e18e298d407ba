import Mathlib.Data.List.Forall2
import DocDrift.Proofs.Signature.Docstrings
import DocDrift.Proofs.Signature.Nesting

namespace DocDrift

/-! # Layout

Blanks and comments move the tokens of a source but do not change them.  Two readers that meet the same
tokens at different offsets go in step: what they know differs only in offsets, in line numbers and in
the text of annotations, which may itself hold blanks and comments.
-/

/-- A parameter up to the text of its annotation. -/
def Parameter.outline (parameter : Parameter) : Text × Bool := (parameter.name, parameter.type.isSome)

/-- Signatures that say the same of a function, wherever it stands. -/
structure Signature.Alike (one other : Signature) : Prop where
  name : one.name = other.name
  params : one.params.map Parameter.outline = other.params.map Parameter.outline
  docstring : one.docstring = other.docstring

/-- Extractions that find the same functions and then both finish, or both stop with one message. -/
structure Extraction.Alike (one other : Extraction) : Prop where
  signatures : List.Forall₂ Signature.Alike one.signatures other.signatures
  faults : (one.fault = none ∧ other.fault = none) ∨
    ∃ error failure, one.fault = some (.scan error) ∧ other.fault = some (.scan failure) ∧
      error.message = failure.message

theorem Extraction.Alike.found {one other : Extraction} (alike : one.Alike other)
    {signature counterpart : Option Signature} (same : Option.Rel Signature.Alike signature counterpart) :
    (found signature one).Alike (found counterpart other) := by
  refine ⟨?_, alike.faults⟩
  cases same with
  | none => exact alike.signatures
  | some same => exact .cons same alike.signatures

/-- Two results that are both values, and related, or both errors, with one message. -/
inductive ScanError.Lifts {α : Type} (related : α → α → Prop) :
    Except ScanError α → Except ScanError α → Prop where
  | ok {one other : α} (values : related one other) : Lifts related (.ok one) (.ok other)
  | error {error failure : ScanError} (message : error.message = failure.message) :
      Lifts related (.error error) (.error failure)

theorem ScanError.Lifts.map {α β : Type} {related : α → α → Prop} {relates : β → β → Prop}
    {one other : Except ScanError α} (lifts : Lifts related one other) {image : α → β}
    (images : ∀ {a b}, related a b → relates (image a) (image b)) :
    Lifts relates (one.map image) (other.map image) := by
  cases lifts with
  | ok values => exact .ok (images values)
  | error message => exact .error message

def Token.content (token : Token) : Token.Kind × Text := (token.kind, token.text)

/-- A token of each text, the same but for the place. -/
structure Token.Twin (left right : Text) (one other : Token) : Prop where
  here : one ∈ scan left
  there : other ∈ scan right
  kind : one.kind = other.kind
  text : one.text = other.text

theorem Token.twins_of_content {left right : Text} {tokens words : List Token}
    (same : tokens.map Token.content = words.map Token.content) (here : ∀ token ∈ tokens, token ∈ scan left)
    (there : ∀ word ∈ words, word ∈ scan right) : List.Forall₂ (Twin left right) tokens words := by
  induction tokens generalizing words with
  | nil =>
      rw [List.map_eq_nil_iff.mp same.symm]
      exact .nil
  | cons token rest ih =>
      cases words with
      | nil => contradiction
      | cons word others =>
          obtain ⟨first, later⟩ := List.cons.inj same
          obtain ⟨kind, text⟩ := Prod.mk.inj first
          simp only [List.forall_mem_cons] at here there
          exact .cons ⟨here.1, there.1, kind, text⟩ (ih later here.2 there.2)

namespace Reader

/-- What two readers know of one header: its name, and its parameters up to the text of annotations. -/
structure Known (left right : Text) (heading twin : Heading) (params others : List Parameter) : Prop where
  name : left.slice heading.name.start heading.name.stop = right.slice twin.name.start twin.name.stop
  params : params.map Parameter.outline = others.map Parameter.outline

/-- Readers that stand at the same point of one header. -/
inductive Alike (left right : Text) : Reader → Reader → Prop where
  | outside : Alike left right outside outside
  | defining {define other : Token} : Alike left right (defining define) (defining other)
  | unopened {heading twin : Heading} (known : Known left right heading twin [] []) :
      Alike left right (unopened heading) (unopened twin)
  | entries {heading twin : Heading} {params others : List Parameter}
      (known : Known left right heading twin params others) :
      Alike left right (entries heading params) (entries twin others)
  | named {heading twin : Heading} {params others : List Parameter} {name : Text}
      (known : Known left right heading twin params others) :
      Alike left right (named heading params name) (named twin others name)
  | inside {heading twin : Heading} {params others : List Parameter} {name : Text}
      {type variant : Option Text} {part : EntryPart} {start position : Nat} {depth : Depth}
      (known : Known left right heading twin params others) (types : type.isSome = variant.isSome) :
      Alike left right (inside heading params name type part start depth)
        (inside twin others name variant part position depth)
  | closing {heading twin : Heading} {params others : List Parameter} {depth : Int}
      (known : Known left right heading twin params others) :
      Alike left right (closing heading params depth) (closing twin others depth)
  | body {heading twin : Heading} {params others : List Parameter}
      (known : Known left right heading twin params others) :
      Alike left right (body heading params) (body twin others)

/-- What two readers come to at a token: alike readers, and alike signatures if the token completes one. -/
def Progress (left right : Text) (one other : Reader × Option Signature) : Prop :=
  one.1.Alike left right other.1 ∧ Option.Rel Signature.Alike one.2 other.2

variable {left right : Text} {skip : Bool} {heading twin : Heading} {params others : List Parameter}
  {token word : Token}

namespace Known

theorem ofTwin {define other : Token} (twins : token.Twin left right word) :
    Known left right ⟨define, token⟩ ⟨other, word⟩ [] [] := by
  have here := Token.slice_of_mem_scan twins.here (Nat.le_refl _)
  have there := Token.slice_of_mem_scan twins.there (Nat.le_refl _)
  rw [List.take_length] at here there
  exact ⟨here.trans (twins.text.trans there.symm), rfl⟩

theorem keep (known : Known left right heading twin params others) (skip : Bool) (name : Text)
    {type variant : Option Text} (types : type.isSome = variant.isSome) :
    Known left right heading twin (Reading.keep ⟨left, skip⟩ params name type)
      (Reading.keep ⟨right, skip⟩ others name variant) := by
  refine ⟨known.name, ?_⟩
  simp only [Reading.keep]
  split
  · simp only [List.map_append, known.params, List.map_cons, List.map_nil, Parameter.outline, types]
  · exact known.params

theorem signature (known : Known left right heading twin params others) {docstring span : Option Span}
    (docstrings : docstring.map (·.resolve left) = span.map (·.resolve right)) :
    (Reading.signature ⟨left, skip⟩ heading params docstring).Alike
      (Reading.signature ⟨right, skip⟩ twin others span) :=
  ⟨known.name, known.params, docstrings⟩

theorem stepInside (known : Known left right heading twin params others) {name : Text}
    {type variant : Option Text} {part : EntryPart} {start position : Nat} {depth : Depth}
    (types : type.isSome = variant.isSome) (kinds : token.kind = word.kind) :
    ScanError.Lifts (Alike left right)
      (stepInside ⟨left, skip⟩ heading params name type part start depth token)
      (stepInside ⟨right, skip⟩ twin others name variant part position depth word) := by
  -- A part that is an annotation has read some text, and which text does not matter here.
  have reads : (readPart ⟨left, skip⟩ type part start token.start).isSome =
      (readPart ⟨right, skip⟩ variant part position word.start).isSome := by
    cases part with
    | type => rfl
    | value => exact types
  have stay : ∀ depth, ScanError.Lifts (Alike left right)
      (.ok (.inside heading params name type part start depth))
      (.ok (.inside twin others name variant part position depth)) :=
    fun depth => .ok (.inside known types)
  simp only [Reader.stepInside, ← kinds]
  cases token.kind with
  | opening bracket => exact stay _
  | closing bracket =>
      cases leaves : depth.leave? bracket with
      | some inner =>
          simp only [leaves]
          exact stay inner
      | none =>
          by_cases ends : (bracket = .round && depth.isFlat) = true
          · simp only [leaves, if_pos ends]
            exact .ok (.closing (known.keep skip name reads))
          · simp only [leaves, if_neg ends]
            exact .error rfl
  | comma =>
      by_cases flat : depth.isFlat = true
      · simp only [if_pos flat]
        exact .ok (.entries (known.keep skip name reads))
      · simp only [if_neg flat]
        exact stay depth
  | equals =>
      by_cases ends : (depth.isFlat && part = .type) = true
      · simp only [if_pos ends]
        exact .ok (.inside known reads)
      · simp only [if_neg ends]
        exact stay depth
  | define => exact stay depth
  | colon => exact stay depth
  | text => exact stay depth

/-- The text that opens a body holds the same docstring in both sources, or ends neither's. -/
theorem stepBody (known : Known left right heading twin params others) (twins : token.Twin left right word)
    (kind : token.kind = .text) :
    ScanError.Lifts (Progress left right) ((body heading params).step ⟨left, skip⟩ token)
      ((body twin others).step ⟨right, skip⟩ word) := by
  have opened : Reading.opensDocstring word = Reading.opensDocstring token := by
    simp only [Reading.opensDocstring, twins.text]
  simp only [step, ← twins.kind, kind, opened]
  by_cases opens : Reading.opensDocstring token = true
  · rw [if_pos opens, if_pos opens]
    -- The sources are searched for the end, but neither search leaves its token.
    have same : (Docstring.locate left token.start none).map (·.resolve left) =
        (Docstring.locate right word.start none).map (·.resolve right) := by
      rw [Docstring.resolve_token twins.here opens, Docstring.resolve_token twins.there (opened.trans opens),
        twins.text]
    cases here : Docstring.locate left token.start none with
    | none =>
        rw [here] at same
        rw [Option.map_eq_none_iff.mp same.symm]
        exact .error rfl
    | some span =>
        rw [here] at same
        obtain ⟨_, there, _⟩ := Option.map_eq_some_iff.mp same.symm
        rw [there] at same ⊢
        exact .ok ⟨.outside, .some (known.signature same)⟩
  · rw [if_neg opens, if_neg opens]
    exact .ok ⟨.outside, .some (known.signature rfl)⟩

end Known

theorem Alike.step {reader other : Reader} (alike : reader.Alike left right other)
    (twins : token.Twin left right word) :
    ScanError.Lifts (Progress left right) (reader.step ⟨left, skip⟩ token)
      (other.step ⟨right, skip⟩ word) := by
  have kinds := twins.kind
  cases alike with
  | outside =>
      simp only [Reader.step, ← kinds]
      split
      · exact .ok ⟨.defining, .none⟩
      · exact .ok ⟨.outside, .none⟩
  | defining =>
      simp only [Reader.step, ← kinds, ← twins.text]
      split
      · exact .ok ⟨.unopened (.ofTwin twins), .none⟩
      · exact .error rfl
  | unopened known =>
      simp only [Reader.step, ← kinds]
      split
      · exact .ok ⟨.entries known, .none⟩
      · exact .ok ⟨.unopened known, .none⟩
  | entries known =>
      simp only [Reader.step, ← kinds, ← twins.text]
      split
      · exact .ok ⟨.closing known, .none⟩
      · exact .ok ⟨.named known, .none⟩
      · exact .error rfl
  | named known =>
      simp only [Reader.step, ← kinds]
      split
      · exact .ok ⟨.inside known rfl, .none⟩
      · exact .ok ⟨.inside known rfl, .none⟩
      · exact .ok ⟨.entries (known.keep skip _ rfl), .none⟩
      · exact .ok ⟨.closing (known.keep skip _ rfl), .none⟩
      · exact .error rfl
  | inside known types => exact (known.stepInside types kinds).map fun next => ⟨next, .none⟩
  | closing known =>
      simp only [Reader.step, ← kinds]
      split
      · exact .ok ⟨.closing known, .none⟩
      · exact .ok ⟨.closing known, .none⟩
      · split
        · exact .ok ⟨.body known, .none⟩
        · exact .ok ⟨.closing known, .none⟩
      · exact .ok ⟨.closing known, .none⟩
  | body known =>
      cases kind : token.kind with
      | text => exact known.stepBody twins kind
      | define =>
          simp only [Reader.step, ← kinds, kind]
          exact .ok ⟨.defining, .some (known.signature rfl)⟩
      | _ =>
          simp only [Reader.step, ← kinds, kind]
          exact .ok ⟨.body known, .none⟩

theorem Alike.ended {reader other : Reader} (alike : reader.Alike left right other) :
    Extraction.Alike ⟨[], (reader.ended left.length).map .scan⟩
      ⟨[], (other.ended right.length).map .scan⟩ := by
  refine ⟨.nil, ?_⟩
  cases alike with
  | outside => exact .inl ⟨rfl, rfl⟩
  | _ => exact .inr ⟨_, _, rfl, rfl, rfl⟩

/-- A run from alike readers finds the same and ends the same. -/
theorem Alike.run {tokens words : List Token} (twins : List.Forall₂ (Token.Twin left right) tokens words)
    {reader other : Reader} (alike : reader.Alike left right other) :
    (run ⟨left, skip⟩ reader tokens).Alike (run ⟨right, skip⟩ other words) := by
  induction twins generalizing reader other with
  | nil => exact alike.ended
  | @cons token word _ _ twin _ ih =>
      have stepped : ScanError.Lifts (Progress left right) (reader.step ⟨left, skip⟩ token)
        (other.step ⟨right, skip⟩ word) := alike.step twin
      simp only [Reader.run]
      generalize reader.step ⟨left, skip⟩ token = result, other.step ⟨right, skip⟩ word = outcome at stepped ⊢
      cases stepped with
      | ok progress => exact (ih progress.1).found progress.2
      | error message => exact ⟨.nil, .inr ⟨_, _, rfl, rfl, message⟩⟩

end Reader

/-- A forward scan finds the same in two sources with the same tokens, whatever stands between them. -/
theorem extract_layout (skip : Bool) {left right : Text}
    (same : (Token.scan left).map Token.content = (Token.scan right).map Token.content) :
    (Reading.extract ⟨left, skip⟩).Alike (Reading.extract ⟨right, skip⟩) := by
  have twins := Token.twins_of_content same (fun _ member => member) (fun _ member => member)
  exact Reader.Alike.run twins .outside

/-- A docstring with an escaped delimiter, and one that never ends, in two layouts. -/
theorem extract_layout_comments :
    let docstring := "\x22\x22\x22d\\\x22\x22\x22\x22".toList
    let left := "def f(a:dict[x,y],b=(1,2)):".toList ++ docstring ++ "\ndef g():'''".toList
    let right := "# one\ndef f( a: dict[x, y],  # (\n b = (1,2) ) :\n  ".toList ++ docstring ++
      "\n\ndef g() :\n  '''".toList
    (Token.scan left).map Token.content = (Token.scan right).map Token.content ∧
      (Reading.extract ⟨left, true⟩).signatures.length = 1 ∧
      (Reading.extract ⟨left, true⟩).Alike (Reading.extract ⟨right, true⟩) := by
  intro docstring left right
  have same : (Token.scan left).map Token.content = (Token.scan right).map Token.content := by decide
  exact ⟨same, by decide, extract_layout true same⟩

end DocDrift
