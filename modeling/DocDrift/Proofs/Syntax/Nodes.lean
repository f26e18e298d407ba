import DocDrift.Proofs.Strategy.Library
import DocDrift.Proofs.Syntax.Tokens

namespace DocDrift.Syntax

/-! # The nodes of a function definition

A header that stands in the source makes a definition, and the nodes of the definition lie between the
tokens of the header.
-/

namespace Tree

theorem leaves_core (tree : Tree) : tree.core.leaves.Sublist tree.leaves := by
  fun_induction core tree with
  | case1 opening inner closing ih => exact ih.trans (leaves_sublist (by simp))
  | case2 => exact .refl _

/-- Without tokens, a node lies at the front of everything. -/
theorem spanning_ordered {source : Text} {offset : Nat} {tokens part : List Token}
    (stands : Stand source offset tokens) (inside : part.Sublist tokens) (kind : String) :
    (spanning kind 0 part).id.start ≤ (spanning kind 0 part).id.stop ∧
      (spanning kind 0 part).id.stop ≤ lastStop offset tokens := by
  by_cases filled : part = []
  · subst filled
    exact ⟨Nat.le_refl _, Nat.zero_le _⟩
  · exact (stands.spanning inside filled kind).2

theorem expressionNode_ordered {source : Text} {offset : Nat} {tokens : List Token} {tree : Tree}
    (stands : Stand source offset tokens) (inside : tree.leaves.Sublist tokens) :
    tree.expressionNode.id.start ≤ tree.expressionNode.id.stop ∧
      tree.expressionNode.id.stop ≤ lastStop offset tokens := by
  have core := tree.leaves_core.trans inside
  unfold expressionNode
  split
  · rename_i children same
    rw [same] at core
    refine ⟨Nat.le_refl _, ?_⟩
    cases final : (leavesOf children).getLast? with
    | none => exact Nat.zero_le _
    | some closing =>
        have stop := (stands.of_mem (core.subset (List.mem_of_getLast? final))).2.2
        exact Nat.le_trans closing.start_le_stop stop
  · exact spanning_ordered stands core _

/-- All parameters of a list have a property. -/
structure Each (holds : Cst.Param Extent → Prop) (params : Cst.Parameters Extent) : Prop where
  posonly : ∀ param ∈ params.posonlyParams, holds param
  plain : ∀ param ∈ params.params, holds param
  star : ∀ param, params.starArg = .param param → holds param
  kwonly : ∀ param ∈ params.kwonlyParams, holds param
  doubleStar : ∀ param ∈ params.starKwarg, holds param

variable {holds : Cst.Param Extent → Prop} {params : Cst.Parameters Extent}

theorem Each.iterParams (each : Each holds params) :
    ∀ entry ∈ Walk.iterParams params, holds entry.2 := by
  simp only [Walk.iterParams, List.forall_mem_append, List.forall_mem_map]
  refine ⟨⟨⟨⟨each.posonly, each.plain⟩, ?_⟩, each.kwonly⟩, ?_⟩
  · split
    · rename_i param star
      exact List.forall_mem_singleton.mpr (each.star param star)
    · simp
  · intro entry member
    obtain ⟨param, given, rfl⟩ := Option.map_eq_some_iff.mp (Option.mem_toList.mp member)
    exact each.doubleStar param given

/-- An item of a parameter list adds at most one parameter, which is made of its own parts. -/
theorem Each.declare {item : Tree} (each : Each holds params)
    (made : ∀ name parts, parts ⊆ item.children → holds (paramOf name parts)) :
    Each holds (declare params item) := by
  have last {before : List (Cst.Param Extent)} (name : Token) {parts : List Tree}
      (all : ∀ param ∈ before, holds param) (inside : parts ⊆ item.children) :
      ∀ param ∈ before ++ [paramOf name parts], holds param :=
    List.forall_mem_append.mpr ⟨all, List.forall_mem_singleton.mpr (made name parts inside)⟩
  unfold Tree.declare
  split
  · split
    · exact { each with posonly := each.plain, plain := by simp }
    · split
      · exact { each with star := by simp }
      · exact each
  · rename_i form stars name parts
    have given := made name parts (by simp [children])
    simp only
    split
    · exact { each with star := by simp [given] }
    · exact { each with doubleStar := by simp [given] }
  · rename_i form name parts _
    have inside : parts ⊆ children (node form (leaf name :: parts)) := by simp [children]
    simp only
    split
    · exact { each with plain := last name each.plain inside }
    · exact { each with kwonly := last name each.kwonly inside }
  · exact each

theorem Each.foldl {items : List Tree} (each : Each holds params)
    (made : ∀ item ∈ items, ∀ name parts, parts ⊆ item.children → holds (paramOf name parts)) :
    Each holds (items.foldl Tree.declare params) := by
  induction items generalizing params with
  | nil => exact each
  | cons item items ih =>
      obtain ⟨first, others⟩ := List.forall_mem_cons.mp made
      exact ih (each.declare first) others

theorem type_paramOf {name : Token} {parts : List Tree} {node : Node}
    (annotated : node ∈ (paramOf name parts).type) :
    ∃ colon type, Tree.node .typing [colon, type] ∈ parts ∧ node = type.expressionNode := by
  obtain ⟨part, member, found⟩ := List.exists_of_findSome?_eq_some annotated
  split at found
  · rename_i colon type
    exact ⟨colon, type, member, (Option.some.inj found).symm⟩
  · contradiction

theorem Opens.statement {source : Text} {offset : Nat} {tokens : List Token} {tree : Tree}
    (opens : Opens tree) (stands : Stand source offset tokens) (inside : tree.leaves.Sublist tokens) :
    offset ≤ tree.statement.opening.id.start ∧
      tree.statement.opening.id.start ≤ tree.statement.opening.id.stop ∧
      tree.statement.opening.id.stop ≤ lastStop offset tokens := by
  cases opens with
  | @line first more filled =>
      have part : first.leaves.Sublist (leavesOf (first :: more)) := List.sublist_append_left _ _
      exact stands.spanning (part.trans inside) filled _
  | compound filled =>
      rw [Tree.statement]
      · exact stands.spanning ((leavesOf_sublist List.filter_sublist).trans inside) filled _
      · simp

end Tree

theorem Token.text_of_isWord {token : Token} {word : Text} (same : token.isWord word = true) :
    token.text = word := by
  simp only [isWord, Bool.and_eq_true, beq_iff_eq] at same
  exact same.2

theorem Token.isName_of_isWord {token : Token} {word : Text} (same : token.isWord word = true)
    (reserved : word ∈ reservedWords) : token.isName = false := by
  simp [isName, text_of_isWord same, reserved]

theorem Token.isLayout_of_isWord {token : Token} {word : Text} (same : token.isWord word = true) :
    token.isLayout = false := by
  obtain ⟨kind, text, start⟩ := token
  cases kind <;> simp_all [isWord, isLayout]

namespace Header

variable {header : Header} {source : Text} {offset : Nat}

/-- The definition that the parts of a header make. -/
def definition (header : Header) : Cst.FunctionDef Extent where
  node := Tree.spanning "FunctionDef" 0 (Tree.textTokens header.parts)
  name := Tree.nameOf header.name
  params := header.items.foldl Tree.declare {}
  body := (header.body.filter fun tree => tree.hasForm .line || tree.hasForm .compound).map Tree.statement

/-- Of the parts that only functions have, a header has its parameter list and its block. -/
theorem IsFormed.filter_front (formed : header.IsFormed) {form : Form}
    (part : Tree.isFunctionForm form = true) :
    header.front.filter (·.hasForm form) = [Tree.node .parameters header.items].filter (·.hasForm form) := by
  have types := formed.typeParams.filter part
  have returns := formed.returns.filter part
  have modifier : (header.modifier.toList.map Tree.leaf).filter (·.hasForm form) = [] := by
    cases header.modifier <;> rfl
  have leaf (token : Token) : (Tree.leaf token).hasForm form = false := rfl
  simp only [front, inner, List.filter_append, List.filter_cons, modifier, types, returns, leaf,
    List.nil_append, List.append_nil, List.filter_nil, Bool.false_eq_true, if_false]

theorem IsFormed.functionDefinition? (formed : header.IsFormed) :
    Tree.functionDefinition? header.parts = some header.definition := by
  have items : (header.parts.filter (·.hasForm .parameters)).flatMap Tree.children = header.items := by
    rw [parts, List.filter_append, formed.filter_front rfl]
    exact List.append_nil _
  have body : (header.parts.filter (·.hasForm .block)).flatMap Tree.children = header.body := by
    rw [parts, List.filter_append, formed.filter_front rfl]
    exact List.append_nil _
  have defines : header.define.isName = false := Token.isName_of_isWord formed.define (by decide +kernel)
  have name : ∀ {leaf? : Tree → Option Token}, (∀ token, leaf? (.leaf token) = some token) →
      (header.parts.filterMap leaf?).find? (·.isName) = some header.name := by
    intro leaf? leaves
    cases modifier : header.modifier with
    | none => simp [parts, front, inner, modifier, leaves, defines, formed.name]
    | some token =>
        have other := Token.isName_of_isWord (formed.modifier token modifier) (by decide +kernel)
        simp [parts, front, inner, modifier, leaves, other, defines, formed.name]
  unfold Tree.functionDefinition?
  split
  · rename_i missing
    exact absurd (missing.symm.trans (name fun _ => rfl)) (by simp)
  · rename_i found same
    obtain rfl : header.name = found := Option.some.inj ((name fun _ => rfl).symm.trans same)
    simp only [items, body]
    rfl

theorem leavesOf_front (header : Header) :
    Tree.leavesOf header.front = header.modifier.toList ++ header.define :: header.name ::
      (Tree.leavesOf header.typeParams ++ header.opening :: (Tree.leavesOf header.items ++
        header.closing :: (Tree.leavesOf header.returns ++ [header.colon]))) := by
  simp [front, inner, Tree.leavesOf, Tree.leaves, Tree.leavesOf_append, Tree.leavesOf_map_leaf]

theorem leavesOf_parts (header : Header) :
    Tree.leavesOf header.parts = Tree.leavesOf header.front ++ Tree.leavesOf header.body := by
  rw [parts, Tree.leavesOf_append, Tree.leavesOf_node]

theorem lastStop_front (header : Header) (offset : Nat) :
    lastStop offset (Tree.leavesOf header.front) = header.colon.stop := by
  simp [leavesOf_front, lastStop]

/-- Where the text of a header stops, if it starts at an offset. -/
def stop (header : Header) (offset : Nat) : Nat := lastStop offset (Tree.leavesOf header.parts)

theorem lastStop_body (header : Header) (offset : Nat) :
    lastStop header.colon.stop (Tree.leavesOf header.body) = header.stop offset := by
  rw [stop, leavesOf_parts, lastStop_append, lastStop_front]

variable (stands : Stand source offset (Tree.leavesOf header.parts))

include stands

theorem stand_body : Stand source header.colon.stop (Tree.leavesOf header.body) := by
  rw [leavesOf_parts] at stands
  rw [← lastStop_front header offset]
  exact stands.append.2

theorem stand_name : header.define.stop ≤ header.name.start ∧ header.name.Stands source ∧
    header.name.stop ≤ header.colon.stop := by
  rw [leavesOf_parts] at stands
  have front := stands.append.1
  have stop := lastStop_front header offset
  rw [leavesOf_front] at front stop
  rw [lastStop_append] at stop
  obtain ⟨behind, here, later⟩ := front.append.2.2.2
  exact ⟨behind, here, Nat.le_trans later.le_lastStop (Nat.le_of_eq stop)⟩

/-- A definition starts with its keywords and reaches over the colon. -/
theorem node_stands (formed : header.IsFormed) :
    offset ≤ header.definition.node.id.start ∧ header.definition.node.id.start ≤ header.name.start ∧
      header.colon.stop ≤ header.definition.node.id.stop ∧
      header.definition.node.id.stop ≤ header.stop offset := by
  have texts : (Tree.textTokens header.parts).Sublist (Tree.leavesOf header.parts) := List.filter_sublist
  have visible {token : Token} {word : Text} (inside : token ∈ Tree.leavesOf header.front)
      (same : token.isWord word = true) (other : word ≠ [';']) :
      token ∈ Tree.textTokens header.parts := by
    refine List.mem_filter.mpr ⟨?_, ?_⟩
    · rw [leavesOf_parts]
      exact List.mem_append_left _ inside
    · have semicolon : token.isWord [';'] = false := by
        simp [Token.isWord, Token.text_of_isWord same, other]
      simp [Token.isLayout_of_isWord same, semicolon]
  have define := visible (by simp [leavesOf_front]) formed.define (by decide)
  have colon := visible (by simp [leavesOf_front]) formed.colon (by decide)
  obtain ⟨start, _, stop⟩ := stands.spanning texts (List.ne_nil_of_mem define) "FunctionDef"
  have keywords := ((stands.of_sublist texts).spanning_covers define "FunctionDef").1
  have reaches := ((stands.of_sublist texts).spanning_covers colon "FunctionDef").2
  have name := Nat.le_trans header.define.start_le_stop (stand_name stands).1
  exact ⟨start, Nat.le_trans keywords name, reaches, stop⟩

theorem statement_stands (formed : header.IsFormed) :
    ∃ statement more, header.definition.body = statement :: more ∧
      header.colon.stop ≤ statement.opening.id.start ∧
      statement.opening.id.start ≤ statement.opening.id.stop ∧
      statement.opening.id.stop ≤ header.stop offset := by
  obtain ⟨layout, statement, rest, body, opens⟩ := formed.body
  have skipped : (layout.map Tree.leaf).filter (fun tree => tree.hasForm .line || tree.hasForm .compound) =
      [] := by
    simp [Tree.hasForm]
  have kept : (statement.hasForm .line || statement.hasForm .compound) = true := by
    cases opens <;> rfl
  have inside : statement.leaves.Sublist (Tree.leavesOf header.body) :=
    Tree.leaves_sublist (by simp [body])
  obtain ⟨more, first⟩ : ∃ more, header.definition.body = statement.statement :: more :=
    ⟨_, by rw [definition, body, List.filter_append, skipped, List.nil_append, List.filter_cons, if_pos kept,
      List.map_cons]⟩
  refine ⟨statement.statement, more, first, ?_⟩
  rw [← lastStop_body]
  exact opens.statement (stand_body stands) inside

theorem types_stand {node : Node}
    (member : node ∈ (Walk.iterParams header.definition.params).filterMap (·.2.type)) :
    node.id.start ≤ node.id.stop ∧ node.id.stop ≤ header.stop offset := by
  have each : Tree.Each (fun param => ∀ node ∈ param.type,
      node.id.start ≤ node.id.stop ∧ node.id.stop ≤ header.stop offset) header.definition.params := by
    refine Tree.Each.foldl ⟨by simp, by simp, by simp, by simp, by simp⟩ ?_
    intro item member name given inside node annotated
    obtain ⟨colon, type, typing, rfl⟩ := Tree.type_paramOf annotated
    have list : Tree.node .parameters header.items ∈ header.parts := by simp [parts, front, inner]
    have within : type.leaves.Sublist (Tree.leavesOf header.parts) := by
      have inType : type.leaves.Sublist (Tree.node .typing [colon, type]).leaves :=
        Tree.leaves_sublist (by simp)
      have inItem : (Tree.node .typing [colon, type]).leaves.Sublist item.leaves := by
        cases item with
        | leaf token => exact absurd (inside typing) List.not_mem_nil
        | node form children => exact Tree.leaves_sublist (inside typing)
      exact ((inType.trans inItem).trans (Tree.leaves_sublist member)).trans (Tree.leaves_sublist list)
    exact Tree.expressionNode_ordered stands within
  obtain ⟨entry, declared, annotated⟩ := List.mem_filterMap.mp member
  exact each.iterParams entry declared node annotated

end Header
end DocDrift.Syntax
