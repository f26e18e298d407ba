import DocDrift.Syntax.Grammar

namespace DocDrift.Syntax

/-! # Derivations of a grammar

What a pattern builds is derived rule by rule, without fuel.  Every fact about parsed trees comes
from such a derivation.
-/

namespace Pattern

variable {rule : Type}

/-- How a pattern builds trees from the front of some tokens, by a derivation of at most the given
height. -/
inductive Matches (grammar : rule → Pattern rule) :
    Nat → Pattern rule → List Token → List Tree → List Token → Prop where
  | empty {height : Nat} {input : List Token} : Matches grammar (height + 1) empty input [] input
  | token {height : Nat} {accepts : Token → Bool} {first : Token} {rest : List Token} :
      accepts first = true →
        Matches grammar (height + 1) (token accepts) (first :: rest) [.leaf first] rest
  | call {height : Nat} {name : rule} {input rest : List Token} {trees : List Tree} :
      Matches grammar height (grammar name) input trees rest →
        Matches grammar (height + 1) (call name) input trees rest
  | seq {height : Nat} {first second : Pattern rule} {input middle rest : List Token}
      {trees more : List Tree} :
      Matches grammar height first input trees middle →
        Matches grammar height second middle more rest →
          Matches grammar (height + 1) (seq first second) input (trees ++ more) rest
  | left {height : Nat} {first second : Pattern rule} {input rest : List Token} {trees : List Tree} :
      Matches grammar height first input trees rest →
        Matches grammar (height + 1) (alt first second) input trees rest
  | right {height : Nat} {first second : Pattern rule} {input rest : List Token} {trees : List Tree} :
      Matches grammar height second input trees rest →
        Matches grammar (height + 1) (alt first second) input trees rest
  | stop {height : Nat} {item : Pattern rule} {input : List Token} :
      Matches grammar (height + 1) (many item) input [] input
  | again {height : Nat} {item : Pattern rule} {input middle rest : List Token}
      {trees more : List Tree} :
      Matches grammar height item input trees middle →
        Matches grammar height (many item) middle more rest →
          Matches grammar (height + 1) (many item) input (trees ++ more) rest
  | absent {height : Nat} {item : Pattern rule} {input : List Token} :
      item.parse grammar height input = none →
        Matches grammar (height + 1) (absent item) input [] input
  | build {height : Nat} {form : Form} {item : Pattern rule} {input rest : List Token}
      {trees : List Tree} :
      Matches grammar height item input trees rest →
        Matches grammar (height + 1) (build form item) input [.node form trees] rest
  | alone {height : Nat} {form : Form} {first more : Pattern rule} {input rest : List Token}
      {trees : List Tree} :
      Matches grammar height first input trees rest →
        Matches grammar (height + 1) (extend form first more) input trees rest
  | extend {height : Nat} {form : Form} {first more : Pattern rule} {input middle rest : List Token}
      {trees further : List Tree} :
      Matches grammar height first input trees middle →
        Matches grammar height more middle further rest →
          Matches grammar (height + 1) (extend form first more) input [.node form (trees ++ further)]
            rest
  | check {height : Nat} {test : List Tree → Bool} {item : Pattern rule} {input rest : List Token}
      {trees : List Tree} :
      Matches grammar height item input trees rest → test trees = true →
        Matches grammar (height + 1) (check test item) input trees rest

theorem matches_of_parse {grammar : rule → Pattern rule} {fuel : Nat} {pattern : Pattern rule}
    {input rest : List Token} {trees : List Tree}
    (found : pattern.parse grammar fuel input = some (trees, rest)) :
    Matches grammar fuel pattern input trees rest := by
  -- On the fuel and not on the pattern, since a call goes on with the pattern of its rule.
  induction fuel generalizing pattern input rest trees with
  | zero => contradiction
  | succ fuel ih =>
      cases pattern with
      | empty =>
          cases found
          exact .empty
      | token accepts =>
          cases input with
          | nil => contradiction
          | cons first rest =>
              simp only [parse] at found
              split at found
              · rename_i accepted
                cases found
                exact .token accepted
              · contradiction
      | call name => exact .call (ih found)
      | seq first second =>
          simp only [parse] at found
          split at found
          · contradiction
          · rename_i one
            split at found
            · contradiction
            · rename_i two
              cases found
              exact .seq (ih one) (ih two)
      | alt first second =>
          simp only [parse] at found
          split at found
          · rename_i one
            cases found
            exact .left (ih one)
          · exact .right (ih found)
      | many item =>
          simp only [parse] at found
          split at found
          · cases found
            exact .stop
          · rename_i one
            split at found
            · contradiction
            · rename_i two
              cases found
              exact .again (ih one) (ih two)
      | absent item =>
          simp only [parse] at found
          split at found
          · contradiction
          · rename_i fails
            cases found
            exact .absent fails
      | build form item =>
          simp only [parse] at found
          split at found
          · contradiction
          · rename_i one
            cases found
            exact .build (ih one)
      | extend form first more =>
          simp only [parse] at found
          split at found
          · contradiction
          · rename_i one
            split at found
            · cases found
              exact .alone (ih one)
            · rename_i two
              cases found
              exact .extend (ih one) (ih two)
      | check test item =>
          simp only [parse] at found
          split at found
          · contradiction
          · rename_i one
            split at found
            · rename_i passed
              cases found
              exact .check (ih one) passed
            · contradiction

end Pattern

namespace Tree

theorem leavesOf_append (left right : List Tree) :
    leavesOf (left ++ right) = leavesOf left ++ leavesOf right := by
  induction left with
  | nil => rfl
  | cons tree left ih => rw [List.cons_append, leavesOf, ih, leavesOf, List.append_assoc]

theorem leavesOf_map_leaf (tokens : List Token) : leavesOf (tokens.map leaf) = tokens := by
  induction tokens with
  | nil => rfl
  | cons token tokens ih =>
      rw [List.map_cons, leavesOf, ih]
      rfl

theorem leavesOf_sublist {left right : List Tree} (inside : left.Sublist right) :
    (leavesOf left).Sublist (leavesOf right) := by
  induction inside with
  | slnil => exact .slnil
  | cons tree _ ih => exact ih.trans (List.sublist_append_right _ _)
  | cons_cons tree _ ih => exact ih.append_left tree.leaves

theorem leaves_sublist {tree : Tree} {trees : List Tree} (member : tree ∈ trees) :
    tree.leaves.Sublist (leavesOf trees) := by
  have inside := leavesOf_sublist (List.singleton_sublist.mpr member)
  rwa [leavesOf, leavesOf, List.append_nil] at inside

theorem leavesOf_node (form : Form) (children : List Tree) :
    leavesOf [node form children] = leavesOf children := by
  rw [leavesOf, leaves, leavesOf, List.append_nil]

end Tree

namespace Pattern

variable {rule : Type}

/-- The leaves of the trees are the tokens that were taken. -/
theorem Matches.leaves {grammar : rule → Pattern rule} {height : Nat} {pattern : Pattern rule}
    {input rest : List Token} {trees : List Tree}
    (derived : Matches grammar height pattern input trees rest) :
    Tree.leavesOf trees ++ rest = input := by
  induction derived with
  | empty | stop | absent _ | token _ => rfl
  | call _ ih | left _ ih | right _ ih | alone _ ih | check _ _ ih => exact ih
  | seq _ _ first second | again _ _ first second =>
      rw [Tree.leavesOf_append, List.append_assoc, second, first]
  | build _ ih =>
      rw [Tree.leavesOf_node]
      exact ih
  | extend _ _ first second =>
      rw [Tree.leavesOf_node, Tree.leavesOf_append,
        List.append_assoc, second, first]

/-- A pattern that builds only forms and calls only rules of given classes. -/
def Within (forms : Form → Prop) (called : rule → Prop) : Pattern rule → Prop
  | empty | token _ | absent _ => True
  | call name => called name
  | seq first second | alt first second => Within forms called first ∧ Within forms called second
  | many item | check _ item => Within forms called item
  | build form item => forms form ∧ Within forms called item
  | extend form first more => forms form ∧ Within forms called first ∧ Within forms called more

/-- A pattern that takes a token always, and not only inside nodes of the given form. -/
def Takes (except : Form) : Pattern rule → Prop
  | empty | many _ | absent _ => False
  | token _ | call _ => True
  | seq first second => Takes except first ∨ Takes except second
  | alt first second => Takes except first ∧ Takes except second
  | check _ item => Takes except item
  | build form item => form ≠ except ∧ Takes except item
  | extend form first _ => form ≠ except ∧ Takes except first

variable {grammar : rule → Pattern rule} {height : Nat} {pattern : Pattern rule}
  {input rest : List Token} {trees : List Tree} {forms : Form → Prop} {called : rule → Prop}

/-- What holds of leaves, of nodes of the given forms, and of trees side by side holds of what a pattern
of these classes builds. -/
theorem Matches.holds (holds : List Tree → Prop) (nil : holds [])
    (append : ∀ {left right}, holds left → holds right → holds (left ++ right))
    (leaf : ∀ token, holds [.leaf token])
    (node : ∀ {form children}, forms form → holds children → holds [.node form children])
    (closed : ∀ name, called name → Within forms called (grammar name))
    (derived : Matches grammar height pattern input trees rest)
    (within : Within forms called pattern) : holds trees := by
  induction derived with
  | empty | stop | absent _ => exact nil
  | token _ => exact leaf _
  | call _ ih => exact ih (closed _ within)
  | left _ ih => exact ih within.1
  | right _ ih => exact ih within.2
  | seq _ _ first second => exact append (first within.1) (second within.2)
  | again _ _ first second => exact append (first within) (second within)
  | build _ ih => exact node within.1 (ih within.2)
  | alone _ ih => exact ih within.2.1
  | extend _ _ first second => exact node within.1 (append (first within.2.1) (second within.2.2))
  | check _ _ ih => exact ih within

/-- The leaves of some trees but for those in nodes of the given form. -/
def shown (except : Form) (trees : List Tree) : List Token :=
  Tree.leavesOf (trees.filter (!·.hasForm except))

theorem shown_append (except : Form) (left right : List Tree) :
    shown except (left ++ right) = shown except left ++ shown except right := by
  rw [shown, List.filter_append, Tree.leavesOf_append]
  rfl

theorem leaves_of_shown {except : Form} (filled : shown except trees ≠ []) : Tree.leavesOf trees ≠ [] := by
  intro bare
  apply filled
  exact List.sublist_nil.mp (bare ▸ Tree.leavesOf_sublist List.filter_sublist)

theorem shown_node {except form : Form} (other : form ≠ except) (filled : shown except trees ≠ []) :
    shown except [.node form trees] ≠ [] := by
  have kept : (!Tree.hasForm except (.node form trees)) = true := by simpa [Tree.hasForm] using other
  have all : [Tree.node form trees].filter (!·.hasForm except) = [.node form trees] :=
    List.filter_cons_of_pos kept
  rw [shown, all, Tree.leavesOf_node]
  exact leaves_of_shown filled

theorem Matches.takes {except : Form} (closed : ∀ name, Takes except (grammar name))
    (derived : Matches grammar height pattern input trees rest) (takes : Takes except pattern) :
    shown except trees ≠ [] := by
  induction derived with
  | empty | stop | absent _ | again => contradiction
  | token _ => exact List.cons_ne_nil _ _
  | call _ ih => exact ih (closed _)
  | left _ ih => exact ih takes.1
  | right _ ih => exact ih takes.2
  | seq _ _ first second =>
      rw [shown_append]
      rcases takes with taken | taken
      · exact List.append_ne_nil_of_left_ne_nil (first taken) _
      · exact List.append_ne_nil_of_right_ne_nil _ (second taken)
  | build _ ih => exact shown_node takes.1 (ih takes.2)
  | alone _ ih => exact ih takes.2
  | extend _ _ first _ =>
      refine shown_node takes.1 ?_
      rw [shown_append]
      exact List.append_ne_nil_of_left_ne_nil (first takes.2) _
  | check _ _ ih => exact ih takes

end Pattern
end DocDrift.Syntax
