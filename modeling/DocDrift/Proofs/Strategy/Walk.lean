import DocDrift.Proofs.Source.Lines
import DocDrift.Proofs.Strategy.Library
import DocDrift.Proofs.Text.LineEnds

namespace DocDrift

/-! # The walk over any tree

The visit of a tree is one reading after the other of its definitions.  Where positions count the lines
of the line index, no reading asks the index for a line that it does not have.
-/

theorem Text.lineCount_eq {source : Text} (clean : '\r' ∉ source) :
    lineCount source = (LineIndex.ofText source).starts.length := by
  rw [lineCount, unifyLineEnds_eq clean, LineIndex.ofText, List.length_cons, LineIndex.length_startsAfter,
    Nat.add_comm]

/-- A position on a line of the source is on a line of the index, which gives an offset to it. -/
theorem Position.offset?_exists {source : Text} (clean : '\r' ∉ source) {position : Position}
    (first : 1 ≤ position.line) (last : position.line ≤ Text.lineCount source) :
    ∃ row start, position.line = row + 1 ∧ (LineIndex.ofText source).starts[row]? = some start ∧
      position.offset? (LineIndex.ofText source) = some (start + position.column : Int) := by
  have inside : position.line - 1 < (LineIndex.ofText source).starts.length := by
    rw [Text.lineCount_eq clean] at last
    omega
  have found := List.getElem?_eq_getElem inside
  refine ⟨_, _, by omega, found, ?_⟩
  have index : (position.line : Int) - 1 = (position.line - 1 : Nat) := by omega
  simp only [offset?, LineIndex.offsetOf?, LineIndex.startOf?, index, Int.natCast_nonneg, if_true,
    Int.toNat_natCast, found]
  rfl

namespace Walk

open Cst

variable {Id : Type} {source : Text} {skip : Bool} {positions : Positions Id}

section Order

mutual

theorem visit_eq : ∀ tree : Cst.Tree Id,
    visit skip source positions tree = tree.definitions.mapM (signature skip source positions)
  | .code _ => rfl
  | .node parts => visitAll_eq parts
  | .function definition _ _ _ body => by
      rw [visit, visitAll_eq body, Tree.definitions, List.mapM_cons]
      rfl

theorem visitAll_eq : ∀ trees : List (Cst.Tree Id),
    visitAll skip source positions trees = (Tree.definitionsOf trees).mapM (signature skip source positions)
  | [] => rfl
  | tree :: rest => by
      rw [visitAll, visit_eq tree, visitAll_eq rest, Tree.definitionsOf, List.mapM_append]
      rfl

end

end Order

section Lines

/-- A reading that ends well or with a fault that checking catches. -/
def Caught {α : Type} (reading : Except Fault α) : Prop := reading ≠ .error .uncaught

theorem Caught.ok {α : Type} (value : α) : Caught (.ok value) := fun same => by contradiction

theorem Caught.invariant {α : Type} (text : String) : @Caught α (.error (.invariant text)) := by
  simp [Caught]

theorem Caught.bind {α β : Type} {reading : Except Fault α} {more : α → Except Fault β}
    (first : Caught reading) (later : ∀ value, Caught (more value)) : Caught (reading >>= more) := by
  cases reading with
  | error fault => simpa [Caught, Bind.bind, Except.bind] using first
  | ok value => exact later value

variable {module : Module Id}

theorem toSpan_exists (clean : '\r' ∉ source) (counts : module.CountsLines source) {node : Node Id}
    {range : CodeRange} (recorded : module.positions node = some range) :
    ∃ span, toSpan (.ofText source) range = .ok span := by
  obtain ⟨first, last⟩ := counts node range recorded range.start (by simp)
  obtain ⟨_, _, _, _, start⟩ := Position.offset?_exists clean first last
  obtain ⟨first, last⟩ := counts node range recorded range.stop (by simp)
  obtain ⟨_, _, _, _, stop⟩ := Position.offset?_exists clean first last
  simp only [toSpan, start, stop]
  exact ⟨_, rfl⟩

theorem spanOf_exists (clean : '\r' ∉ source) (counts : module.CountsLines source) {node : Node Id}
    (located : (module.positions node).isSome) :
    ∃ span, spanOf module.positions (.ofText source) node = .ok span := by
  obtain ⟨range, recorded⟩ := Option.isSome_iff_exists.mp located
  obtain ⟨span, found⟩ := toSpan_exists clean counts recorded
  exact ⟨span, by simp only [spanOf, rangeOf, recorded, Except.bind, found]⟩

theorem spanOf_caught (clean : '\r' ∉ source) (counts : module.CountsLines source) (node : Node Id) :
    Caught (spanOf module.positions (.ofText source) node) := by
  cases recorded : module.positions node with
  | none =>
      simp only [spanOf, rangeOf, recorded]
      exact .invariant _
  | some range =>
      obtain ⟨span, found⟩ := @spanOf_exists _ _ module clean counts node (by rw [recorded]; rfl)
      rw [found]
      exact .ok span

theorem readType_exists {index : LineIndex} {param : Param Id}
    (spanned : ∀ node ∈ param.type, ∃ span, spanOf positions index node = .ok span) :
    ∃ type, readType source positions index param = .ok type := by
  unfold readType
  split
  · rename_i node _ annotated
    obtain ⟨span, found⟩ := spanned node annotated
    exact ⟨some (span.resolve source), by rw [found]; rfl⟩
  · exact ⟨none, rfl⟩

theorem readType_caught (clean : '\r' ∉ source) (counts : module.CountsLines source) (param : Param Id) :
    Caught (readType source module.positions (.ofText source) param) := by
  unfold readType
  split
  · rename_i node _ _
    exact (spanOf_caught clean counts node).bind fun span => .ok (some (span.resolve source))
  · exact .ok none

theorem readParameters_caught (skip : Bool) (clean : '\r' ∉ source) (counts : module.CountsLines source)
    (params : List (Text × Param Id)) :
    Caught (readParameters skip source module.positions (.ofText source) params) := by
  induction params with
  | nil => exact .ok []
  | cons entry params ih =>
      obtain ⟨stars, param⟩ := entry
      rw [readParameters]
      split
      · exact (readType_caught clean counts param).bind fun _ => ih.bind fun _ => .ok _
      · exact ih

theorem signature_caught (skip : Bool) (clean : '\r' ∉ source) (counts : module.CountsLines source)
    (definition : FunctionDef Id) : Caught (signature skip source module.positions definition) := by
  have spanned := spanOf_caught clean counts
  refine (readParameters_caught skip clean counts _).bind fun params => ?_
  refine (spanned definition.node).bind fun whole => ?_
  refine Caught.bind ?_ fun first => (spanned first).bind fun block => ?_
  · unfold firstStatement
    split
    · exact .invariant _
    · exact .ok _
  · unfold rangeOf
    cases recorded : module.positions definition.name.node with
    | none => exact .invariant _
    | some range =>
        obtain ⟨span, found⟩ := toSpan_exists clean counts recorded
        simp only [Bind.bind, Except.bind, found]
        exact .ok _

theorem exists_of_mapM_error {α β : Type} {read : α → Except Fault β} {fault : Fault} {items : List α}
    (failed : items.mapM read = .error fault) : ∃ item ∈ items, read item = .error fault := by
  induction items with
  | nil => contradiction
  | cons item items ih =>
      rw [List.mapM_cons] at failed
      cases first : read item with
      | error other =>
          rw [first] at failed
          cases failed
          exact ⟨item, List.mem_cons_self, first⟩
      | ok value =>
          cases rest : items.mapM read with
          | error other =>
              rw [first, rest] at failed
              cases failed
              obtain ⟨later, member, found⟩ := ih rest
              exact ⟨later, List.mem_cons_of_mem item member, found⟩
          | ok values =>
              rw [first, rest] at failed
              contradiction

/-- A parser that fails with syntax errors only and counts lines as documented leaves no fault uncaught
in a source without carriage returns. -/
theorem extract_caught [Parser] (skip : Bool) (clean : '\r' ∉ source) (fails : Parser.FailsOnSyntax)
    (counts : Parser.CountsLines) : (extract skip source).fault ≠ some .uncaught := by
  unfold extract
  cases parsed : Parser.parse source with
  | error failure =>
      obtain ⟨report, rfl⟩ := fails source failure parsed
      simp [Extraction.failed]
  | ok module =>
      simp only [visit_eq]
      cases read : module.tree.definitions.mapM (signature skip source module.positions) with
      | ok signatures => simp
      | error fault =>
          obtain ⟨definition, _, found⟩ := exists_of_mapM_error read
          intro same
          cases same
          exact signature_caught skip clean (counts source module parsed) definition found

end Lines

end Walk
end DocDrift
