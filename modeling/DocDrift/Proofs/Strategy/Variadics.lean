import DocDrift.Docstring.Section
import DocDrift.Proofs.Run.Results
import DocDrift.Proofs.Syntax.Parser

namespace DocDrift

/-! # Variadic parameters are filtered out

To skip variadic parameters is to drop them at the end.  Neither the section of a docstring nor the
header of a function is read differently, so what is found otherwise, and where reading stops, does
not depend on it.
-/

def Parameter.withoutVariadics (params : List Parameter) : List Parameter :=
  params.filter (!·.isVariadic)

def Signature.withoutVariadics (signature : Signature) : Signature :=
  { signature with params := Parameter.withoutVariadics signature.params }

/-- The same functions and the same fault, with variadic parameters dropped. -/
def Extraction.withoutVariadics (extraction : Extraction) : Extraction :=
  { extraction with signatures := extraction.signatures.map Signature.withoutVariadics }

theorem Parameter.isKept_true (name : Text) :
    isKept true name = (isKept false name && !isVariadicName name) := by
  simp [isKept]

namespace Docstring

/-- The text of a line in front of its colon, or the whole line, without the blanks around it. -/
def argumentOf (line : Text) : Text := Text.trim ((Text.cut [':'] line).elim line (·.1))

theorem isVariadicName_cut {argument name type : Text} (split : Text.cut [' '] argument = some (name, type)) :
    Parameter.isVariadicName name = Parameter.isVariadicName argument := by
  obtain ⟨i, found, cut⟩ := Option.map_eq_some_iff.mp split
  obtain ⟨rfl, rfl⟩ := Prod.mk.inj cut
  cases argument with
  | nil => contradiction
  | cons first rest =>
      cases i with
      | zero =>
          have blank : ' ' = first := by
            simp only [Text.find] at found
            split at found
            · rename_i front
              simpa using front
            · simp at found
          subst blank
          rfl
      | succ i => rfl

/-- Whether an entry is variadic shows in its line before a type is split off. -/
theorem entry_isVariadic (convention : Convention) {line : Text} {parameter : Parameter}
    (read : convention.entry line = some parameter) :
    parameter.isVariadic = Parameter.isVariadicName (argumentOf line) := by
  cases convention with
  | google =>
      obtain ⟨⟨argument, description⟩, split, rfl⟩ := Option.map_eq_some_iff.mp read
      simp only [argumentOf, split, Option.elim_some]
      cases typed : Text.cut [' '] (Text.trim argument) with
      | none => rfl
      | some parts => exact isVariadicName_cut typed
  | numpy =>
      simp only [Convention.entry, numpyEntry] at read
      split at read
      · contradiction
      · cases split : Text.cut [':'] line with
        | none =>
            rw [split] at read
            cases read
            simp only [argumentOf, split, Option.elim_none]
            rfl
        | some parts =>
            rw [split] at read
            cases read
            simp only [argumentOf, split, Option.elim_some]
            rfl

theorem entriesOf_skip (convention : Convention) (breaks : Bool) (lines : List Text) :
    entriesOf convention ⟨breaks, true⟩ lines =
      Parameter.withoutVariadics (entriesOf convention ⟨breaks, false⟩ lines) := by
  simp [entriesOf, Parameter.withoutVariadics]

theorem parseSection_skip (convention : Convention) (breaks : Bool) (docstring : Text) :
    parseSection convention ⟨breaks, true⟩ docstring =
      (parseSection convention ⟨breaks, false⟩ docstring).map Parameter.withoutVariadics := by
  simp only [parseSection]
  cases Text.cut convention.header docstring with
  | none => rfl
  | some parts =>
      simp only [show sectionLines convention ⟨breaks, true⟩ parts.2 =
        sectionLines convention ⟨breaks, false⟩ parts.2 from rfl]
      cases (sectionLines convention ⟨breaks, false⟩ parts.2).drop convention.leadingLines with
      | nil => rfl
      | cons line rest =>
          -- Whether there is a section is settled by its lines, before any entry is dropped.
          exact congrArg some (entriesOf_skip convention breaks (line :: rest))

theorem parse_skip (style : Style) (breaks : Bool) (docstring : Text) :
    parse style ⟨breaks, true⟩ docstring =
      (parse style ⟨breaks, false⟩ docstring).map Parameter.withoutVariadics := by
  cases style with
  | fixed convention => exact parseSection_skip convention breaks docstring
  | auto =>
      simp only [parse, parseSection_skip]
      cases parseSection .google ⟨breaks, false⟩ docstring <;> rfl

end Docstring

namespace Reader

variable (source : Text)

theorem keep_skip (params : List Parameter) (name : Text) (type : Option Text) :
    Reading.keep ⟨source, true⟩ (Parameter.withoutVariadics params) name type =
      Parameter.withoutVariadics (Reading.keep ⟨source, false⟩ params name type) := by
  simp only [Reading.keep, Parameter.isKept_true]
  cases kept : Parameter.isKept false name with
  | false => rfl
  | true =>
      simp only [Bool.true_and, if_true, Parameter.withoutVariadics, List.filter_append]
      cases variadic : Parameter.isVariadicName name <;> simp [Parameter.isVariadic, variadic]

/-- The state of a reader that drops the variadic parameters it has met. -/
def withoutVariadics : Reader → Reader
  | entries heading params => entries heading (Parameter.withoutVariadics params)
  | named heading params name => named heading (Parameter.withoutVariadics params) name
  | inside heading params name type part start depth =>
    inside heading (Parameter.withoutVariadics params) name type part start depth
  | closing heading params depth => closing heading (Parameter.withoutVariadics params) depth
  | body heading params => body heading (Parameter.withoutVariadics params)
  | reader => reader

def dropVariadics (result : Reader × Option Signature) : Reader × Option Signature :=
  (result.1.withoutVariadics, result.2.map Signature.withoutVariadics)

theorem stepInside_skip (heading : Heading) (params : List Parameter) (name : Text) (type : Option Text)
    (part : EntryPart) (start : Nat) (depth : Depth) (token : Token) :
    stepInside ⟨source, true⟩ heading (Parameter.withoutVariadics params) name type part start depth token =
      (stepInside ⟨source, false⟩ heading params name type part start depth token).map
        withoutVariadics := by
  simp only [stepInside, keep_skip]
  repeat' split
  all_goals rfl

theorem step_skip (reader : Reader) (token : Token) :
    reader.withoutVariadics.step ⟨source, true⟩ token =
      (reader.step ⟨source, false⟩ token).map dropVariadics := by
  cases reader with
  | outside | unopened =>
      simp only [withoutVariadics, step]
      split <;> rfl
  | defining define =>
      simp only [withoutVariadics, step]
      split <;> rfl
  | entries heading params =>
      simp only [withoutVariadics, step]
      split <;> rfl
  | named heading params name =>
      simp only [withoutVariadics, step, keep_skip]
      split <;> rfl
  | inside heading params name type part start depth =>
      simp only [withoutVariadics, step, stepInside_skip]
      cases stepInside ⟨source, false⟩ heading params name type part start depth token <;> rfl
  | closing heading params depth =>
      simp only [withoutVariadics, step]
      repeat' split
      all_goals rfl
  | body heading params =>
      simp only [withoutVariadics, step]
      repeat' split
      all_goals rfl

theorem run_skip (reader : Reader) (tokens : List Token) :
    run ⟨source, true⟩ reader.withoutVariadics tokens =
      (run ⟨source, false⟩ reader tokens).withoutVariadics := by
  induction tokens generalizing reader with
  | nil => cases reader <;> rfl
  | cons token rest ih =>
      simp only [run, step_skip]
      cases reader.step ⟨source, false⟩ token with
      | error error => rfl
      | ok result =>
          obtain ⟨next, signature⟩ := result
          simp only [Except.map, dropVariadics, ih, Extraction.found, Extraction.withoutVariadics,
            List.map_append]
          cases signature <;> rfl

end Reader

namespace Walk

open Cst

variable {Id : Type} {source : Text} {positions : Positions Id} {index : LineIndex}

/-- Where every type can be read, the parameters that are kept are read alike. -/
theorem readParameters_skip {params : List (Text × Param Id)}
    (typed : ∀ entry ∈ params, ∃ type, readType source positions index entry.2 = .ok type) :
    readParameters true source positions index params =
      (readParameters false source positions index params).map Parameter.withoutVariadics := by
  induction params with
  | nil => rfl
  | cons entry params ih =>
      obtain ⟨⟨type, read⟩, others⟩ := List.forall_mem_cons.mp typed
      obtain ⟨stars, param⟩ := entry
      rw [readParameters, readParameters, ih others, read, Parameter.isKept_true]
      cases kept : Parameter.isKept false (stars ++ param.name.value) with
      | false => rfl
      | true =>
          cases variadic : Parameter.isVariadicName (stars ++ param.name.value) <;>
            cases readParameters false source positions index params <;>
            simp [Except.map, bind, Except.bind, Parameter.withoutVariadics, Parameter.isVariadic, variadic]

/-- What is read after the parameters does not depend on them. -/
theorem signature_skip {definition : FunctionDef Id}
    (typed : ∀ entry ∈ iterParams definition.params,
      ∃ type, readType source positions (.ofText source) entry.2 = .ok type) :
    signature true source positions definition =
      (signature false source positions definition).map Signature.withoutVariadics := by
  simp only [signature, readParameters_skip typed, bind, Except.bind, Except.map]
  cases readParameters false source positions (.ofText source) (iterParams definition.params) with
  | error fault => rfl
  | ok params =>
      cases spanOf positions (.ofText source) definition.node with
      | error fault => rfl
      | ok whole =>
          cases firstStatement definition with
          | error fault => rfl
          | ok first =>
              simp only
              cases spanOf positions (.ofText source) first with
              | error fault => rfl
              | ok block =>
                  cases rangeOf positions definition.name.node with
                  | error fault => rfl
                  | ok range =>
                      simp only
                      cases toSpan (.ofText source) range <;> rfl

theorem mapM_image {α β : Type} {read other : α → Except Fault β} {image : β → β} {items : List α}
    (same : ∀ item ∈ items, other item = (read item).map image) :
    items.mapM other = (items.mapM read).map (List.map image) := by
  induction items with
  | nil => rfl
  | cons item items ih =>
      obtain ⟨first, others⟩ := List.forall_mem_cons.mp same
      rw [List.mapM_cons, List.mapM_cons, first, ih others]
      cases read item with
      | error fault => rfl
      | ok value => cases items.mapM read <;> rfl

theorem extract_skip [Parser] (clean : '\r' ∉ source) (counts : Parser.CountsLines)
    (locates : Parser.LocatesNodes) : extract true source = (extract false source).withoutVariadics := by
  unfold extract
  cases parsed : Parser.parse source with
  | error failure => cases failure <;> rfl
  | ok module =>
      have read : ∀ definition ∈ module.tree.definitions,
          signature true source module.positions definition =
            (signature false source module.positions definition).map Signature.withoutVariadics := by
        intro definition member
        refine signature_skip fun entry declared => ?_
        refine readType_exists fun node annotated => spanOf_exists clean (counts source module parsed) ?_
        refine locates source module parsed definition member node ?_
        have listed : node ∈ (iterParams definition.params).filterMap (·.2.type) :=
          List.mem_filterMap.mpr ⟨entry, declared, annotated⟩
        simp [FunctionDef.nodes, List.mem_append_left _ listed]
      simp only [visit_eq, mapM_image read]
      cases module.tree.definitions.mapM (signature false source module.positions) <;> rfl

end Walk

/-- To skip variadic parameters is to filter the parameters that are found.  A docstring documents
the same entries less those whose names begin with a star, which shows before a type is split off,
and has a section or none all the same.  Both strategies find the same functions and stop with the
same fault, each parameter list being filtered; the walk needs a position for every type it reads. -/
theorem skipVariadics_filters [Cst.Parser] :
    (∀ style breaks docstring, Docstring.parse style ⟨breaks, true⟩ docstring =
      (Docstring.parse style ⟨breaks, false⟩ docstring).map Parameter.withoutVariadics) ∧
    (∀ (convention : Docstring.Convention) line parameter, convention.entry line = some parameter →
      parameter.isVariadic = Parameter.isVariadicName (Docstring.argumentOf line)) ∧
    (∀ source, Strategy.lexer.extract true source = (Strategy.lexer.extract false source).withoutVariadics) ∧
    (Cst.Parser.CountsLines → Cst.Parser.LocatesNodes → ∀ source, '\r' ∉ source →
      Strategy.tree.extract true source = (Strategy.tree.extract false source).withoutVariadics) := by
  refine ⟨Docstring.parse_skip, fun convention _ _ => Docstring.entry_isVariadic convention, ?_, ?_⟩
  · exact fun source => Reader.run_skip source .outside (Token.scan source)
  · exact fun counts locates source clean => Walk.extract_skip clean counts locates

/-- A method with parameters of every kind, and an entry with a type in front of its colon. -/
theorem skipVariadics_filters_method :
    let source := "class C:\n def f(self, a, *b: int, c=1, **d: str): pass\n".toList
    let line := "    **d (str): D.".toList
    '\r' ∉ source ∧
      (Strategy.tree.extract false source).signatures.map (·.params.map (·.name)) =
        [[['a'], ['*', 'b'], ['c'], ['*', '*', 'd']]] ∧
      (Strategy.tree.extract true source).signatures.map (·.params.map (·.name)) = [[['a'], ['c']]] ∧
      Strategy.tree.extract true source = (Strategy.tree.extract false source).withoutVariadics ∧
      Docstring.Convention.google.entry line = some ⟨"**d".toList, some "str".toList⟩ ∧
      Parameter.isVariadicName (Docstring.argumentOf line) = true := by
  intro source line
  have clean : '\r' ∉ source := by decide +kernel
  have read : Docstring.Convention.google.entry line = some ⟨"**d".toList, some "str".toList⟩ := by
    decide +kernel
  have variadic := skipVariadics_filters.2.1 .google line _ read
  have filtered := skipVariadics_filters.2.2.2 Syntax.parser_countsLines Syntax.parser_locatesNodes source clean
  exact ⟨clean, by decide +kernel, by decide +kernel, filtered, read, variadic.symm.trans rfl⟩

end DocDrift
