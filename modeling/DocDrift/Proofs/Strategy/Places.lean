import DocDrift.Proofs.Docstring.Literal
import DocDrift.Proofs.Source.Positions
import DocDrift.Proofs.Strategy.Walk
import DocDrift.Proofs.Syntax.Concrete
import DocDrift.Signature.Strategy
import Mathlib.Data.List.Forall2

namespace DocDrift

/-! # Where the signatures of a walk point

Each signature points at its own definition: at the name, at the line of the name, and at the first
statement of the body.  The text of a definition follows that of the one before it or is part of its
body, so the names stand one after the other, and so do the signatures.
-/

namespace Cst

variable {Id : Type}

/-- The parts of a definition stand in a text one after the other. -/
structure Placed.Stands (text : Text) (placed : Placed Id) : Prop where
  name : placed.start ≤ placed.name
  named : (text.take (placed.name + placed.definition.name.value.length)).drop placed.name =
    placed.definition.name.value
  body : placed.name + placed.definition.name.value.length ≤ placed.body
  stop : placed.body ≤ placed.stop
  inside : placed.stop ≤ text.length

namespace Tree

mutual

theorem placed_definitions : ∀ (tree : Tree Id) (offset : Nat),
    (tree.placed offset).map (·.definition) = tree.definitions
  | code _, _ => rfl
  | node parts, offset => placedOf_definitions parts offset
  | function definition _ _ _ body, offset => by
      rw [placed, definitions, List.map_cons, placedOf_definitions body]

theorem placedOf_definitions : ∀ (trees : List (Tree Id)) (offset : Nat),
    (placedOf offset trees).map (·.definition) = definitionsOf trees
  | [], _ => rfl
  | tree :: rest, offset => by
      rw [placedOf, definitionsOf, List.map_append, placed_definitions tree, placedOf_definitions rest]

end

theorem function_length (definition : FunctionDef Id) (front before keywords header : Text) :
    (front ++ (before ++ (keywords ++ (definition.name.value ++ header)))).length =
      front.length + before.length + keywords.length + definition.name.value.length + header.length := by
  simp [Nat.add_assoc]

mutual

/-- Wherever the text of a tree stands, its definitions stand inside it. -/
theorem placed_stands : ∀ (tree : Tree Id) (front rest : Text), ∀ placed ∈ tree.placed front.length,
    placed.Stands (front ++ (tree.source ++ rest)) ∧ front.length ≤ placed.start ∧
      placed.stop ≤ front.length + tree.source.length
  | code _, _, _, _, member => by contradiction
  | node parts, front, rest, placed, member => placedOf_stands parts front rest placed member
  | function definition before keywords header body, front, rest, placed, member => by
      have split : front ++ ((function definition before keywords header body).source ++ rest) =
          (front ++ (before ++ (keywords ++ (definition.name.value ++ header)))) ++ (sourceOf body ++ rest) := by
        simp [source]
      have width : (function definition before keywords header body).source.length =
          before.length + (keywords.length + (definition.name.value.length +
            (header.length + (sourceOf body).length))) := by
        simp [source]
      rcases List.mem_cons.mp member with rfl | below
      · refine ⟨⟨Nat.le_add_right _ _, ?_, ?_, Nat.le_add_right _ _, ?_⟩, Nat.le_add_right _ _, ?_⟩
        · have parts : front ++ ((function definition before keywords header body).source ++ rest) =
              (front ++ (before ++ keywords)) ++ (definition.name.value ++ (header ++ (sourceOf body ++ rest))) := by
            simp [source]
          have length : (front ++ (before ++ keywords)).length = front.length + before.length + keywords.length := by
            simp [Nat.add_assoc]
          rw [parts, ← length, List.take_length_add_append, List.drop_left, List.take_left]
        · exact Nat.le_add_right _ _
        · simp only [List.length_append, width]
          omega
        · simp only [width]
          omega
      · have length := function_length definition front before keywords header
        rw [← length] at below
        obtain ⟨stands, start, stop⟩ := placedOf_stands body _ rest placed below
        rw [split, width]
        refine ⟨stands, ?_, ?_⟩ <;> omega

theorem placedOf_stands : ∀ (trees : List (Tree Id)) (front rest : Text),
    ∀ placed ∈ placedOf front.length trees,
      placed.Stands (front ++ (sourceOf trees ++ rest)) ∧ front.length ≤ placed.start ∧
        placed.stop ≤ front.length + (sourceOf trees).length
  | [], _, _, _, member => by contradiction
  | tree :: more, front, rest, placed, member => by
      rw [sourceOf, List.length_append]
      rcases List.mem_append.mp member with first | later
      · obtain ⟨stands, start, stop⟩ := placed_stands tree front (sourceOf more ++ rest) placed first
        rw [List.append_assoc]
        exact ⟨stands, start, by omega⟩
      · rw [← List.length_append] at later
        obtain ⟨stands, start, stop⟩ := placedOf_stands more (front ++ tree.source) rest placed later
        rw [List.length_append] at start stop
        simp only [List.append_assoc] at stands ⊢
        exact ⟨stands, by omega, by omega⟩

end

mutual

/-- Names that are not empty stand one after the other. -/
theorem placed_increasing : ∀ (tree : Tree Id) (front : Text),
    (∀ placed ∈ tree.placed front.length, placed.definition.name.value ≠ []) →
      (tree.placed front.length).Pairwise fun first second => first.name < second.name
  | code _, _, _ => .nil
  | node parts, front, named => placedOf_increasing parts front named
  | function definition before keywords header body, front, named => by
      rw [placed] at named ⊢
      obtain ⟨own, inner⟩ := List.forall_mem_cons.mp named
      have filled := List.length_pos_iff.mpr own
      rw [← function_length] at inner ⊢
      refine List.pairwise_cons.mpr ⟨fun other below => ?_, placedOf_increasing body _ inner⟩
      obtain ⟨stands, start, _⟩ := placedOf_stands body _ [] other below
      have name := stands.name
      rw [function_length] at start
      simp only at filled ⊢
      omega

theorem placedOf_increasing : ∀ (trees : List (Tree Id)) (front : Text),
    (∀ placed ∈ placedOf front.length trees, placed.definition.name.value ≠ []) →
      (placedOf front.length trees).Pairwise fun first second => first.name < second.name
  | [], _, _ => .nil
  | tree :: more, front, named => by
      rw [placedOf] at named ⊢
      obtain ⟨first, later⟩ := List.forall_mem_append.mp named
      rw [← List.length_append] at later ⊢
      refine List.pairwise_append.mpr ⟨placed_increasing tree front first,
        placedOf_increasing more _ later, fun one here other there => ?_⟩
      obtain ⟨stands, _, stop⟩ := placed_stands tree front [] one here
      obtain ⟨behind, start, _⟩ := placedOf_stands more (front ++ tree.source) [] other there
      have filled := List.length_pos_iff.mpr (first one here)
      have own := stands.body
      have ends := stands.stop
      have name := behind.name
      rw [List.length_append] at start
      omega

end

end Tree

variable {source : Text} {positions : Positions Id} {placed : Placed Id} {skip : Bool}

theorem toSpan_between {start stop : Nat} (clean : '\r' ∉ source) (order : start ≤ stop)
    (inside : stop ≤ source.length) :
    Walk.toSpan (.ofText source) (.between source start stop) = .ok ⟨start, stop⟩ := by
  simp only [Walk.toSpan, CodeRange.between, Position.offset?_ofOffset clean inside,
    Position.offset?_ofOffset clean (Nat.le_trans order inside)]

theorem spanOf_between {node : Node Id} {start stop : Nat} (clean : '\r' ∉ source) (order : start ≤ stop)
    (inside : stop ≤ source.length) (recorded : positions node = some (.between source start stop)) :
    Walk.spanOf positions (.ofText source) node = .ok ⟨start, stop⟩ := by
  simp only [Walk.spanOf, Walk.rangeOf, recorded, Except.bind, toSpan_between clean order inside]

theorem readParameters_exists {params : List (Text × Param Id)}
    (typed : ∀ entry ∈ params, ∃ type, Walk.readType source positions (.ofText source) entry.2 = .ok type) :
    ∃ read, Walk.readParameters skip source positions (.ofText source) params = .ok read := by
  induction params with
  | nil => exact ⟨[], rfl⟩
  | cons entry params ih =>
      obtain ⟨⟨type, first⟩, others⟩ := List.forall_mem_cons.mp typed
      obtain ⟨later, rest⟩ := ih others
      obtain ⟨stars, param⟩ := entry
      rw [Walk.readParameters]
      split
      · exact ⟨⟨stars ++ param.name.value, type⟩ :: later, by simp only [first, rest]; rfl⟩
      · exact ⟨later, rest⟩

end Cst

/-- A signature whose name, line and docstring are those of a definition.  The docstring begins with the
first statement of the body, behind the header, and ends inside the definition. -/
structure Signature.PointsAt {Id : Type} (source : Text) (positions : Cst.Positions Id)
    (placed : Cst.Placed Id) (signature : Signature) : Prop where
  nameSpan : signature.nameSpan = ⟨placed.name, placed.name + placed.definition.name.value.length⟩
  name : signature.nameSpan.resolve source = placed.definition.name.value
  line : signature.line = 1 + (source.take placed.name).count '\n'
  docstring : ∀ span ∈ signature.docstringSpan, ∃ statement more start stop last,
    placed.definition.body = statement :: more ∧
      positions statement.opening = some (.between source start stop) ∧
      positions placed.definition.node = some (.between source placed.start last) ∧
      span.start = start ∧ placed.start ≤ start ∧ placed.body ≤ start ∧ span.stop ≤ last ∧
      last ≤ placed.stop

namespace Cst

variable {Id : Type} {source : Text} {positions : Positions Id} {placed : Placed Id}

/-- A definition that stands in the source, at its recorded positions, gives a signature that points at
it. -/
theorem Placed.IsRecorded.signature (clean : '\r' ∉ source) (recorded : placed.IsRecorded source positions)
    (stands : placed.Stands source) (skip : Bool) :
    ∃ signature, Walk.signature skip source positions placed.definition = .ok signature ∧
      signature.PointsAt source positions placed := by
  obtain ⟨last, after, within, whole⟩ := recorded.extent
  obtain ⟨statement, more, start, stop, body, behind, order, bound, opened⟩ := recorded.body
  have name := stands.name
  have header := stands.body
  have inside := stands.inside
  have ends := stands.stop
  have typed : ∀ entry ∈ Walk.iterParams placed.definition.params,
      ∃ type, Walk.readType source positions (.ofText source) entry.2 = .ok type := by
    intro entry declared
    refine Walk.readType_exists fun node annotated => ?_
    obtain ⟨first, second, order, bound, found⟩ := recorded.types node
      (List.mem_filterMap.mpr ⟨entry, declared, annotated⟩)
    exact ⟨⟨first, second⟩, spanOf_between clean order (Nat.le_trans bound inside) found⟩
  obtain ⟨params, read⟩ := @readParameters_exists Id source positions skip _ typed
  have extent := spanOf_between clean (show placed.start ≤ last by omega) (Nat.le_trans within inside) whole
  have block := spanOf_between clean order (Nat.le_trans bound inside) opened
  have named := @toSpan_between source placed.name (placed.name + placed.definition.name.value.length) clean
    (Nat.le_add_right _ _) (by omega)
  refine ⟨{
    source := source
    nameSpan := ⟨placed.name, placed.name + placed.definition.name.value.length⟩
    line := (Position.ofOffset source placed.name).line
    params := params
    docstringSpan := Docstring.locate source start (some (last : Int)) }, ?_, rfl, ?_, ?_, ?_⟩
  · simp only [Walk.signature, read, extent, Walk.firstStatement, body, block, Walk.rangeOf, recorded.name,
      named, bind, Except.bind]
    rfl
  · exact (Text.slice_natCast _ _ _).trans stands.named
  · exact congrArg Int.ofNat (Position.line_ofOffset clean placed.name)
  · intro span found
    obtain ⟨begins, stops⟩ := Docstring.locate_within (Nat.le_trans within inside) found
    exact ⟨statement, more, start, stop, last, body, opened, whole, begins, by omega, behind, stops, within⟩

theorem mapM_forall₂ {α β : Type} {read : α → Except Fault β} {related : α → β → Prop} {items : List α}
    (each : ∀ item ∈ items, ∃ value, read item = .ok value ∧ related item value) :
    ∃ values, items.mapM read = .ok values ∧ List.Forall₂ related items values := by
  induction items with
  | nil => exact ⟨[], rfl, .nil⟩
  | cons item items ih =>
      obtain ⟨⟨value, first, own⟩, others⟩ := List.forall_mem_cons.mp each
      obtain ⟨values, rest, all⟩ := ih others
      exact ⟨value :: values, by rw [List.mapM_cons, first, rest]; rfl, .cons own all⟩

end Cst

namespace Strategy

section Parsed

variable [Cst.Parser] {source : Text} {skip : Bool} {module : Cst.Module Cst.Parser.Id}

/-- Where the parser gives a tree of the source with its positions, the walk finds one signature for each
function definition, at any depth, and each points at its own. -/
theorem tree_extract_places (clean : '\r' ∉ source) (parsed : Cst.Parser.parse source = .ok module)
    (placed : module.IsPlaced source) :
    let places := module.tree.placed 0
    let found := Strategy.tree.extract skip source
    places.map (·.definition) = module.tree.definitions ∧ found.fault = none ∧
      List.Forall₂ (Signature.PointsAt source module.positions) places found.signatures ∧
      found.signatures.Pairwise fun first second => first.nameSpan.start < second.nameSpan.start := by
  intro places found
  have definitions := module.tree.placed_definitions 0
  have stands : ∀ place ∈ places, place.Stands source := by
    intro place member
    have inside := (module.tree.placed_stands [] [] place member).1
    rwa [List.nil_append, List.append_nil, placed.regenerates] at inside
  obtain ⟨signatures, read, points⟩ := Cst.mapM_forall₂ fun place member =>
    (placed.recorded place member).signature clean (stands place member) skip
  have extracted : found = ⟨signatures, none⟩ := by
    have visited : module.tree.definitions.mapM (Walk.signature skip source module.positions) = .ok signatures := by
      rw [← definitions, List.mapM_map]
      exact read
    simp only [found, Strategy.extract, Walk.extract, parsed, Walk.visit_eq, visited]
  rw [extracted]
  refine ⟨definitions, rfl, points, ?_⟩
  have increasing := module.tree.placed_increasing [] fun place member => (placed.recorded place member).named
  have starts : places.map (fun place => (place.name : Int)) = signatures.map (·.nameSpan.start) := by
    rw [← List.forall₂_eq_eq_eq, List.forall₂_map_left_iff, List.forall₂_map_right_iff]
    exact points.imp fun {place signature} point => (congrArg Span.start point.nameSpan).symm
  have ordered : (signatures.map (·.nameSpan.start)).Pairwise (· < ·) := by
    rw [← starts, List.pairwise_map]
    exact increasing.imp Int.ofNat_lt.mpr
  exact List.pairwise_map.mp ordered

end Parsed

/-- A decorated method, a function under a condition inside it, and a function on one line. -/
def scatteredProgram : Text :=
  "class C:\n @d\n async def f(self):\n  '''F.'''\n  if x:\n   def g(): pass\ndef h(): '''H.'''\n".toList

theorem tree_extract_places_scattered :
    '\r' ∉ scatteredProgram ∧ ∃ module, Syntax.parser.parse scatteredProgram = .ok module ∧
      module.IsPlaced scatteredProgram ∧
      List.Forall₂ (Signature.PointsAt scatteredProgram module.positions) (module.tree.placed 0)
        (Strategy.tree.extract true scatteredProgram).signatures ∧
      (Strategy.tree.extract true scatteredProgram).signatures.map
          (fun signature => (signature.name, signature.line, signature.docstring)) =
        [(['f'], 3, some "'''F.'''".toList), (['g'], 6, none), (['h'], 7, some "'''H.'''".toList)] := by
  have clean : '\r' ∉ scatteredProgram := by decide +kernel
  have unmarked : scatteredProgram.head? ≠ some '\ufeff' := by decide +kernel
  have parses : (Syntax.parse (Walk.withoutMark scatteredProgram)).isSome = true := by decide +kernel
  obtain ⟨module, parsed⟩ := Syntax.parse_exists parses
  have placed := Syntax.parser_placed unmarked parsed
  obtain ⟨_, _, places, _⟩ := @tree_extract_places Syntax.parser scatteredProgram true module clean parsed placed
  exact ⟨clean, module, parsed, placed, places, by decide +kernel⟩

end Strategy
end DocDrift
