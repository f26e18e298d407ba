import DocDrift.Proofs.Syntax.Nodes
import DocDrift.Proofs.Syntax.Parser

namespace DocDrift.Syntax

/-! # The concrete tree of a program

The concrete tree of a source gives the source back, and the nodes of its definitions are recorded where
they stand.
-/

namespace Tree

variable {source : Text}

theorem between_append {start middle stop : Nat} (first : start ≤ middle) (second : middle ≤ stop) :
    between source start middle ++ between source middle stop = between source start stop := by
  obtain ⟨front, rfl⟩ := Nat.exists_eq_add_of_le first
  obtain ⟨back, rfl⟩ := Nat.exists_eq_add_of_le second
  simp only [between, List.drop_take]
  rw [Nat.add_sub_cancel_left, Nat.add_sub_cancel_left, Nat.add_assoc, Nat.add_sub_cancel_left, List.take_add,
    List.drop_drop]

theorem length_between {start stop : Nat} (inside : stop ≤ source.length) :
    (between source start stop).length = stop - start := by
  rw [between, List.length_drop, List.length_take, Nat.min_eq_left inside]

mutual

theorem stopFrom_eq : ∀ (tree : Tree) (offset : Nat), tree.stopFrom offset = lastStop offset tree.leaves
  | leaf _, _ => rfl
  | node _ children, offset => stopsFrom_eq children offset

theorem stopsFrom_eq : ∀ (trees : List Tree) (offset : Nat),
    stopsFrom offset trees = lastStop offset (leavesOf trees)
  | [], _ => rfl
  | tree :: rest, offset => by
      rw [stopsFrom, leavesOf, lastStop_append, stopFrom_eq tree, stopsFrom_eq rest]

end

/-- A tree that is made concrete without loss, wherever it stands in the source. -/
def IsConcrete (source : Text) (tree : Tree) : Prop :=
  ∀ offset, Stand source offset tree.leaves →
    (tree.concrete source offset).source = between source offset (lastStop offset tree.leaves) ∧
      ∀ placed ∈ (tree.concrete source offset).placed offset,
        placed.IsRecorded source (Walk.locateIn source)

theorem concretes_spec {trees : List Tree} (each : ∀ tree ∈ trees, tree.IsConcrete source) {offset : Nat}
    (stands : Stand source offset (leavesOf trees)) :
    Cst.Tree.sourceOf (concretes source offset trees) =
        between source offset (lastStop offset (leavesOf trees)) ∧
      ∀ placed ∈ Cst.Tree.placedOf offset (concretes source offset trees),
        placed.IsRecorded source (Walk.locateIn source) := by
  induction trees generalizing offset with
  | nil => simp [concretes, Cst.Tree.sourceOf, Cst.Tree.placedOf, leavesOf, lastStop, between]
  | cons tree trees ih =>
      obtain ⟨first, others⟩ := List.forall_mem_cons.mp each
      rw [leavesOf] at stands
      obtain ⟨here, later⟩ := stands.append
      obtain ⟨source_eq, recorded⟩ := first offset here
      obtain ⟨rest_eq, recordedRest⟩ := ih others later
      have behind : offset + (tree.concrete source offset).source.length = lastStop offset tree.leaves := by
        rw [source_eq, length_between here.lastStop_le]
        exact Nat.add_sub_cancel' here.le_lastStop
      rw [concretes, stopFrom_eq, leavesOf, lastStop_append]
      constructor
      · rw [Cst.Tree.sourceOf, source_eq, rest_eq]
        exact between_append here.le_lastStop later.le_lastStop
      · rw [Cst.Tree.placedOf, behind]
        exact List.forall_mem_append.mpr ⟨recorded, recordedRest⟩

theorem concreteBlock_append {front : List Tree} (free : ∀ tree ∈ front, tree.hasForm .block = false)
    (offset : Nat) (body : List Tree) :
    concreteBlock source offset (front ++ [.node .block body]) = concretes source offset body := by
  induction front with
  | nil => rfl
  | cons tree front ih =>
      obtain ⟨first, others⟩ := List.forall_mem_cons.mp free
      rw [List.cons_append, concreteBlock]
      · exact ih others
      · rintro children rfl
        contradiction

end Tree

namespace Header

variable {header : Header} {source : Text} {offset : Nat}

/-- A function node becomes a definition, whose text is split where its keywords, its name and its body
start. -/
theorem IsFormed.concrete (formed : header.IsFormed) (source : Text) (offset : Nat) :
    Tree.concrete source offset (.node .function header.parts) =
      .function header.definition (Tree.between source offset header.definition.node.id.start)
        (Tree.between source header.definition.node.id.start header.name.start)
        (Tree.between source header.name.stop header.colon.stop)
        (Tree.concretes source header.colon.stop header.body) := by
  have free : ∀ tree ∈ header.front, tree.hasForm .block = false := by
    have none : header.front.filter (·.hasForm .block) = [] := formed.filter_front rfl
    simpa using List.filter_eq_nil_iff.mp none
  have front : header.parts.takeWhile (!·.hasForm .block) = header.front := by
    rw [parts, List.takeWhile_append_of_pos (by simpa using free)]
    exact List.append_nil _
  rw [Tree.concrete]
  simp only [if_true, formed.functionDefinition?, front, Tree.stopsFrom_eq, lastStop_front]
  rw [parts, Tree.concreteBlock_append free]
  rfl

theorem IsFormed.isRecorded (formed : header.IsFormed)
    (stands : Stand source offset (Tree.leavesOf header.parts)) :
    Cst.Placed.IsRecorded source (Walk.locateIn source)
      ⟨header.definition, header.definition.node.id.start, header.name.start, header.colon.stop,
        header.stop offset⟩ := by
  obtain ⟨_, _, colon, whole⟩ := node_stands stands formed
  obtain ⟨statement, more, body, behind, order, inside⟩ := statement_stands stands formed
  have named : header.name.kind = .name := by
    have name := formed.name
    simp only [Token.isName, Bool.and_eq_true, beq_iff_eq] at name
    exact name.1
  exact
    { named := (stand_name stands).2.1.named named
      name := rfl
      extent := ⟨header.definition.node.id.stop, colon, whole, rfl⟩
      body := ⟨statement, more, _, _, body, behind, order, inside, rfl⟩
      types := fun node member =>
        ⟨_, _, (types_stand stands member).1, (types_stand stands member).2, rfl⟩ }

end Header

theorem Tree.Proper.isConcrete {source : Text} {tree : Tree} (proper : tree.Proper) :
    tree.IsConcrete source := by
  induction proper with
  | leaf => exact fun offset _ => ⟨rfl, fun _ member => by contradiction⟩
  | @node form children plain _ ih =>
      intro offset stands
      have same : Tree.concrete source offset (Tree.node form children) =
          Cst.Tree.node (Tree.concretes source offset children) := by
        rw [concrete, if_neg plain]
      rw [same]
      exact concretes_spec ih stands
  | @function header formed _ ih =>
      intro offset stands
      obtain ⟨start, keywords, _, _⟩ := Header.node_stands stands formed
      obtain ⟨_, here, inner⟩ := Header.stand_name stands
      have body := Header.stand_body stands
      obtain ⟨regenerates, recorded⟩ := concretes_spec ih body
      have behind := body.le_lastStop
      have inside := body.lastStop_le
      rw [Header.lastStop_body header offset] at regenerates behind inside
      have named := header.name.start_le_stop
      have name : header.definition.name.value = between source header.name.start header.name.stop :=
        here.text.symm
      rw [formed.concrete]
      constructor
      · rw [Cst.Tree.source, regenerates, name, between_append inner behind,
          between_append named (Nat.le_trans inner behind), between_append keywords (by omega),
          between_append start (by omega)]
        rfl
      · have starts : offset + (between source offset header.definition.node.id.start).length =
            header.definition.node.id.start := by
          rw [length_between (by omega)]
          exact Nat.add_sub_cancel' start
        have names : header.definition.node.id.start +
            (between source header.definition.node.id.start header.name.start).length = header.name.start := by
          rw [length_between (by omega)]
          exact Nat.add_sub_cancel' keywords
        have opens : header.name.start + header.definition.name.value.length +
            (between source header.name.stop header.colon.stop).length = header.colon.stop := by
          rw [length_between (by omega)]
          exact Nat.add_sub_cancel' inner
        have stops : header.colon.stop + (between source header.colon.stop (header.stop offset)).length =
            header.stop offset := by
          rw [length_between inside]
          exact Nat.add_sub_cancel' behind
        rw [Cst.Tree.placed]
        simp only [regenerates, starts, names, opens, stops]
        exact List.forall_mem_cons.mpr ⟨formed.isRecorded stands, recorded⟩

/-- The parser of the program gives a tree of the source with its positions. -/
theorem parser_placed {source : Text} {module : Cst.Module Extent} (unmarked : source.head? ≠ some '\ufeff')
    (parsed : parser.parse source = .ok module) : module.IsPlaced source := by
  obtain ⟨trees, found, rfl⟩ := parse_eq_ok parsed
  rw [withoutMark_eq unmarked] at found ⊢
  have stands := stand_of_parse found
  obtain ⟨regenerates, recorded⟩ := Tree.concretes_spec
    (fun tree member => (proper_of_parse found tree member).isConcrete) stands
  constructor
  · simp only [moduleOf, Cst.Tree.source, Cst.Tree.sourceOf, regenerates, Tree.stopsFrom_eq, Tree.between,
      List.drop_zero, List.append_nil]
    exact List.take_append_drop _ _
  · intro placed member
    simp only [moduleOf, Cst.Tree.placed, Cst.Tree.placedOf, List.append_nil] at member
    exact recorded placed member

end DocDrift.Syntax
