import DocDrift.Proofs.Syntax.Header
import DocDrift.Proofs.Syntax.Matches

namespace DocDrift.Syntax

/-! # Parsed function definitions

Every function node of a parsed program has the parts of a header.  What is known of the rules of the
grammar is checked rule by rule, on the patterns alone.
-/

namespace Pattern

variable {rule : Type} {grammar : rule → Pattern rule} {height : Nat} {input rest : List Token}
  {trees : List Tree}

theorem Matches.seq_split {first second : Pattern rule}
    (derived : Matches grammar height (.seq first second) input trees rest) :
    ∃ lower left right middle, height = lower + 1 ∧ trees = left ++ right ∧
      Matches grammar lower first input left middle ∧ Matches grammar lower second middle right rest := by
  cases derived with
  | seq one two => exact ⟨_, _, _, _, rfl, rfl, one, two⟩

theorem Matches.opt_split {item : Pattern rule}
    (derived : Matches grammar height (opt item) input trees rest) :
    (∃ lower, height = lower + 1 ∧ Matches grammar lower item input trees rest) ∨
      trees = [] ∧ rest = input := by
  cases derived with
  | left inner => exact .inl ⟨_, rfl, inner⟩
  | right inner =>
      cases inner
      exact .inr ⟨rfl, rfl⟩

theorem Matches.word_split {text : String}
    (derived : Matches grammar height (word text) input trees rest) :
    ∃ token, trees = [.leaf token] ∧ token.isWord text.toList = true := by
  cases derived with
  | token accepted => exact ⟨_, rfl, accepted⟩

theorem Matches.build_split {form : Form} {item : Pattern rule}
    (derived : Matches grammar height (.build form item) input trees rest) :
    ∃ lower children, height = lower + 1 ∧ trees = [.node form children] ∧
      Matches grammar lower item input children rest := by
  cases derived with
  | build inner => exact ⟨_, _, rfl, rfl, inner⟩

theorem Matches.call_split {name : rule}
    (derived : Matches grammar height (.call name) input trees rest) :
    ∃ lower, height = lower + 1 ∧ Matches grammar lower (grammar name) input trees rest := by
  cases derived with
  | call inner => exact ⟨_, rfl, inner⟩

end Pattern

/-- The rules that define no function. -/
def Rule.isFree : Rule → Bool
  | .file | .statement | .compound | .definition | .function | .classDefinition | .block
  | .ifStatement | .whileStatement | .forStatement | .withStatement | .tryStatement
  | .matchStatement | .caseBlock | .elseBlock => false
  | _ => true

namespace Grammar

open Pattern

variable {height : Nat} {input rest : List Token} {trees : List Tree}

theorem rules_free (rule : Rule) (free : rule.isFree = true) :
    Within (Tree.isFunctionForm · = false) (·.isFree = true) (rules rule) := by
  cases rule
  all_goals first | contradiction | skip
  all_goals simp only [rules, Within, all, any, opt, some1, ahead, separated, separatedOpen, level, target,
    comma, lineEnd, nameList, realNumber, imaginaryNumber, boundName, name, word, oneOf, kind, parameterList, typing, and_self,
    Tree.isFunctionForm, Rule.isFree]

theorem rules_structured (rule : Rule) (other : rule ≠ .function) :
    Within (· ≠ .function) (fun _ => True) (rules rule) := by
  cases rule
  all_goals first | contradiction | skip
  all_goals simp only [rules, Within, all, any, opt, some1, ahead, separated, separatedOpen, level, target,
    comma, lineEnd, nameList, realNumber, imaginaryNumber, boundName, name, word, oneOf, kind, parameterList, typing, plainBlock, conditionBlock,
    handlers, and_self, ne_eq, reduceCtorEq, not_false_eq_true]

theorem rules_takes (rule : Rule) : Takes .decorator (rules rule) := by
  cases rule
  all_goals simp only [rules, Takes, all, any, opt, some1, ahead, separated, separatedOpen, level, target,
    comma, lineEnd, nameList, realNumber, imaginaryNumber, boundName, name, word, oneOf, kind, parameterList, typing, plainBlock, conditionBlock,
    handlers, and_self, true_or, or_true, ne_eq, reduceCtorEq, not_false_eq_true]

theorem free_of_matches {pattern : P} (derived : Matches rules height pattern input trees rest)
    (within : Within (Tree.isFunctionForm · = false) (·.isFree = true) pattern) : Tree.AreFree trees :=
  derived.holds Tree.AreFree (fun _ member => by contradiction) .append Tree.areFree_leaf
    (fun other _ => Tree.areFree_node other _) rules_free within

theorem name_split (derived : Matches rules height name input trees rest) :
    ∃ token, trees = [.leaf token] ∧ token.isName = true := by
  cases derived with
  | token accepted => exact ⟨_, rfl, accepted⟩

theorem simpleLine_opens (derived : Matches rules height (call .simpleLine) input trees rest) :
    ∃ statement, trees = [statement] ∧ Tree.Opens statement := by
  obtain ⟨_, _, inner⟩ := derived.call_split
  obtain ⟨_, children, _, rfl, line⟩ := inner.build_split
  obtain ⟨_, smalls, _, _, _, rfl, separated, _⟩ := line.seq_split
  obtain ⟨_, front, _, _, _, rfl, items, _⟩ := separated.seq_split
  obtain ⟨_, first, _, _, _, rfl, small, _⟩ := items.seq_split
  have filled := leaves_of_shown (small.takes rules_takes trivial)
  obtain ⟨_, _, inner⟩ := small.call_split
  obtain ⟨_, parts, _, rfl, _⟩ := inner.build_split
  rw [Tree.leavesOf_node] at filled
  exact ⟨_, rfl, .line filled⟩

theorem statement_opens (derived : Matches rules height (call .statement) input trees rest) :
    ∃ statement, trees = [statement] ∧ Tree.Opens statement := by
  obtain ⟨_, _, inner⟩ := derived.call_split
  cases inner with
  | left built =>
      obtain ⟨_, children, _, rfl, called⟩ := built.build_split
      exact ⟨_, rfl, .compound (called.takes rules_takes trivial)⟩
  | right line => exact simpleLine_opens line

theorem block_split (derived : Matches rules height (call .block) input trees rest) :
    ∃ body, trees = [.node .block body] ∧ Tree.IsBlock body := by
  obtain ⟨_, _, inner⟩ := derived.call_split
  obtain ⟨_, body, _, rfl, alternatives⟩ := inner.build_split
  refine ⟨body, rfl, ?_⟩
  cases alternatives with
  | left lines =>
      obtain ⟨_, _, _, _, _, rfl, ends, more⟩ := lines.seq_split
      obtain ⟨_, _, _, _, _, rfl, indents, more⟩ := more.seq_split
      obtain ⟨_, _, later, _, _, rfl, statements, _⟩ := more.seq_split
      obtain ⟨_, _, others, _, _, rfl, first, _⟩ := statements.seq_split
      obtain ⟨statement, rfl, opens⟩ := statement_opens first
      cases ends with
      | @token _ _ lineEnd _ _ =>
          cases indents with
          | @token _ _ indent _ _ => exact ⟨[lineEnd, indent], statement, others ++ later, by simp, opens⟩
  | right line =>
      obtain ⟨statement, rfl, opens⟩ := simpleLine_opens line
      exact ⟨[], statement, [], rfl, opens⟩

theorem modifier_split (derived : Matches rules height (opt (word "async")) input trees rest) :
    ∃ modifier : Option Token, trees = modifier.toList.map .leaf ∧
      ∀ token ∈ modifier, token.isWord ['a', 's', 'y', 'n', 'c'] = true := by
  rcases derived.opt_split with ⟨_, _, async⟩ | ⟨rfl, _⟩
  · obtain ⟨token, rfl, word⟩ := async.word_split
    refine ⟨some token, rfl, fun other same => ?_⟩
    cases same
    exact word
  · exact ⟨none, rfl, by simp⟩

theorem function_split (derived : Matches rules height (rules .function) input trees rest) :
    ∃ header : Header, trees = [.node .function header.parts] ∧ header.IsFormed ∧
      ∃ lower < height, ∃ start stop,
        Matches rules lower (call .block) start [.node .block header.body] stop := by
  obtain ⟨_, parts, rfl, rfl, inner⟩ := derived.build_split
  obtain ⟨_, _, _, _, rfl, rfl, first, more⟩ := inner.seq_split
  obtain ⟨_, _, _, _, rfl, rfl, second, more⟩ := more.seq_split
  obtain ⟨_, _, _, _, rfl, rfl, named, more⟩ := more.seq_split
  obtain ⟨_, types, _, _, rfl, rfl, typed, more⟩ := more.seq_split
  obtain ⟨_, _, _, _, rfl, rfl, opened, more⟩ := more.seq_split
  obtain ⟨_, _, _, _, rfl, rfl, listed, more⟩ := more.seq_split
  obtain ⟨_, _, _, _, rfl, rfl, closed, more⟩ := more.seq_split
  obtain ⟨_, returns, _, _, rfl, rfl, returned, more⟩ := more.seq_split
  obtain ⟨_, _, _, _, rfl, rfl, ended, blocked⟩ := more.seq_split
  obtain ⟨modifier, rfl, modifies⟩ := modifier_split first
  obtain ⟨define, rfl, defines⟩ := second.word_split
  obtain ⟨name, rfl, names⟩ := name_split named
  obtain ⟨opening, rfl, _⟩ := opened.word_split
  obtain ⟨_, items, _, rfl, _⟩ := listed.build_split
  obtain ⟨closing, rfl, _⟩ := closed.word_split
  obtain ⟨colon, rfl, colons⟩ := ended.word_split
  obtain ⟨body, rfl, block⟩ := block_split blocked
  refine ⟨⟨modifier, define, name, types, opening, items, closing, returns, colon, body⟩, ?_,
    ⟨modifies, defines, names, ?_, ?_, colons, block⟩, _, ?_, _, _, blocked⟩
  · simp [Header.parts, Header.front, Header.inner]
  · exact free_of_matches typed ⟨rfl, trivial⟩
  · exact free_of_matches returned ⟨⟨trivial, rfl⟩, trivial⟩
  · omega

end Grammar

open Grammar Pattern in
theorem Pattern.Matches.proper {height : Nat} {pattern : P} {input rest : List Token}
    {trees : List Tree} (derived : Matches rules height pattern input trees rest)
    (structured : Within (· ≠ .function) (fun _ => True) pattern) : ∀ tree ∈ trees, tree.Proper := by
  -- On the height, since the block of a function is derived further down.
  induction height using Nat.strongRecOn generalizing pattern input rest trees with
  | ind height ih =>
      cases derived with
      | empty | stop | absent _ => simp
      | token accepted => exact List.forall_mem_singleton.mpr .leaf
      | left inner => exact ih _ (Nat.lt_succ_self _) inner structured.1
      | right inner => exact ih _ (Nat.lt_succ_self _) inner structured.2
      | seq first second =>
          exact List.forall_mem_append.mpr ⟨ih _ (Nat.lt_succ_self _) first structured.1,
            ih _ (Nat.lt_succ_self _) second structured.2⟩
      | again first second =>
          exact List.forall_mem_append.mpr ⟨ih _ (Nat.lt_succ_self _) first structured,
            ih _ (Nat.lt_succ_self _) second structured⟩
      | build inner =>
          exact List.forall_mem_singleton.mpr
            (.node structured.1 (ih _ (Nat.lt_succ_self _) inner structured.2))
      | alone inner => exact ih _ (Nat.lt_succ_self _) inner structured.2.1
      | extend first second =>
          refine List.forall_mem_singleton.mpr (.node structured.1 ?_)
          exact List.forall_mem_append.mpr ⟨ih _ (Nat.lt_succ_self _) first structured.2.1,
            ih _ (Nat.lt_succ_self _) second structured.2.2⟩
      | check inner _ => exact ih _ (Nat.lt_succ_self _) inner structured
      | @call height name _ _ _ inner =>
          by_cases function : name = .function
          · subst function
            obtain ⟨header, rfl, formed, lower, below, start, stop, block⟩ := function_split inner
            refine List.forall_mem_singleton.mpr (.function formed ?_)
            have proper := ih lower (by omega) block trivial
            cases List.forall_mem_singleton.mp proper with
            | node _ children => exact children
          · exact ih _ (Nat.lt_succ_self _) inner (rules_structured name function)

theorem derivation_of_parse {source : Text} {trees : List Tree} (parsed : parse source = some trees) :
    ∃ lexemes height, scan source = some lexemes ∧
      Pattern.Matches Grammar.rules height (.call .file) (place 0 lexemes) trees [] := by
  unfold parse at parsed
  split at parsed
  · contradiction
  · rename_i lexemes scanned
    unfold Grammar.parseTokens at parsed
    split at parsed
    · rename_i found
      cases parsed
      exact ⟨lexemes, _, scanned, Pattern.matches_of_parse found⟩
    · contradiction

theorem proper_of_parse {source : Text} {trees : List Tree} (parsed : parse source = some trees) :
    ∀ tree ∈ trees, tree.Proper := by
  obtain ⟨_, _, _, derived⟩ := derivation_of_parse parsed
  exact derived.proper trivial

end DocDrift.Syntax
