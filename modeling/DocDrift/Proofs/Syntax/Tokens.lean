import DocDrift.Proofs.Syntax.Definitions
import DocDrift.Proofs.Syntax.Lexemes
import DocDrift.Syntax.Parser

namespace DocDrift.Syntax

/-! # Tokens in their places

The leaves of a parsed tree are the tokens of the source, in order.  Each stands where its offset says.
-/

variable {source : Text}

/-- A token that stands in the source at its offset. -/
structure Token.Stands (source : Text) (token : Token) : Prop where
  text : Tree.between source token.start token.stop = token.text
  named : token.kind = .name → token.text ≠ []

/-- Tokens that stand in the source one after the other, from an offset on. -/
def Stand (source : Text) (offset : Nat) : List Token → Prop
  | [] => offset ≤ source.length
  | token :: rest => offset ≤ token.start ∧ token.Stands source ∧ Stand source token.stop rest

/-- Where the last one of some tokens stops.  Without tokens it is `offset`. -/
def lastStop (offset : Nat) (tokens : List Token) : Nat := tokens.foldl (fun _ token => token.stop) offset

theorem Token.start_le_stop (token : Token) : token.start ≤ token.stop := Nat.le_add_right _ _

theorem lastStop_append (offset : Nat) (left right : List Token) :
    lastStop offset (left ++ right) = lastStop (lastStop offset left) right :=
  List.foldl_append

theorem lastStop_eq (offset place : Nat) {tokens : List Token} (filled : tokens ≠ []) :
    (tokens.getLast?.map (·.stop)).getD place = lastStop offset tokens := by
  obtain ⟨front, last, rfl⟩ := List.eq_nil_or_concat tokens |>.resolve_left filled
  simp [lastStop]

namespace Stand

variable {offset : Nat} {tokens left right : List Token} {token : Token}

theorem mono {earlier : Nat} (stands : Stand source offset tokens) (before : earlier ≤ offset) :
    Stand source earlier tokens := by
  cases tokens with
  | nil => exact Nat.le_trans before stands
  | cons token tokens => exact ⟨Nat.le_trans before stands.1, stands.2⟩

theorem later (stands : Stand source offset (token :: tokens)) : Stand source offset tokens :=
  stands.2.2.mono (Nat.le_trans stands.1 token.start_le_stop)

theorem of_sublist (stands : Stand source offset tokens) (inside : left.Sublist tokens) :
    Stand source offset left := by
  induction inside generalizing offset with
  | slnil => exact stands
  | cons token _ ih => exact ih stands.later
  | cons_cons token _ ih => exact ⟨stands.1, stands.2.1, ih stands.2.2⟩

theorem append : Stand source offset (left ++ right) →
    Stand source offset left ∧ Stand source (lastStop offset left) right := by
  induction left generalizing offset with
  | nil =>
      intro stands
      refine ⟨?_, stands⟩
      exact stands.of_sublist (List.nil_sublist _)
  | cons token left ih =>
      rintro ⟨behind, here, rest⟩
      obtain ⟨first, second⟩ := ih rest
      exact ⟨⟨behind, here, first⟩, second⟩

theorem le_lastStop (stands : Stand source offset tokens) : offset ≤ lastStop offset tokens := by
  induction tokens generalizing offset with
  | nil => exact Nat.le_refl _
  | cons token tokens ih =>
      exact Nat.le_trans (Nat.le_trans stands.1 token.start_le_stop) (ih stands.2.2)

theorem lastStop_le (stands : Stand source offset tokens) : lastStop offset tokens ≤ source.length := by
  induction tokens generalizing offset with
  | nil => exact stands
  | cons token tokens ih => exact ih stands.2.2

theorem of_mem (stands : Stand source offset tokens) (member : token ∈ tokens) :
    token.Stands source ∧ offset ≤ token.start ∧ token.stop ≤ lastStop offset tokens := by
  obtain ⟨front, rest, rfl⟩ := List.append_of_mem member
  obtain ⟨before, behind, here, later⟩ := stands.append
  rw [lastStop_append]
  exact ⟨here, Nat.le_trans before.le_lastStop behind, later.le_lastStop⟩

/-- A node over tokens covers each of them. -/
theorem spanning_covers (stands : Stand source offset tokens) (member : token ∈ tokens) (kind : String) :
    (Tree.spanning kind 0 tokens).id.start ≤ token.start ∧
      token.stop ≤ (Tree.spanning kind 0 tokens).id.stop := by
  have filled := List.ne_nil_of_mem member
  constructor
  · obtain ⟨first, rest, rfl⟩ := List.exists_cons_of_ne_nil filled
    rcases List.mem_cons.mp member with rfl | later
    · exact Nat.le_refl _
    · exact Nat.le_trans first.start_le_stop (stands.2.2.of_mem later).2.1
  · rw [Tree.spanning, lastStop_eq offset 0 filled]
    exact (stands.of_mem member).2.2

/-- A node over some of the tokens lies among them. -/
theorem spanning (stands : Stand source offset tokens) (inside : left.Sublist tokens) (filled : left ≠ [])
    (kind : String) :
    offset ≤ (Tree.spanning kind 0 left).id.start ∧
      (Tree.spanning kind 0 left).id.start ≤ (Tree.spanning kind 0 left).id.stop ∧
      (Tree.spanning kind 0 left).id.stop ≤ lastStop offset tokens := by
  have part := stands.of_sublist inside
  obtain ⟨first, rest, rfl⟩ := List.exists_cons_of_ne_nil filled
  have stop : (Tree.spanning kind 0 (first :: rest)).id.stop = lastStop first.stop rest :=
    lastStop_eq offset 0 filled
  have last := List.getLast?_eq_some_getLast filled
  have final := (stands.of_mem (inside.subset (List.mem_of_getLast? last))).2.2
  refine ⟨part.1, ?_, ?_⟩
  · rw [stop]
    exact Nat.le_trans first.start_le_stop part.2.2.le_lastStop
  · rw [Tree.spanning, last]
    exact final

end Stand

theorem stand_place {lexemes : List Lexeme} {offset : Nat}
    (split : source.drop offset = lexemes.flatMap (·.text)) (inside : offset ≤ source.length)
    (named : ∀ lexeme ∈ lexemes, lexeme.kind = .name → lexeme.text ≠ []) :
    Stand source offset (place offset lexemes) := by
  induction lexemes generalizing offset with
  | nil => exact inside
  | cons lexeme lexemes ih =>
      obtain ⟨first, others⟩ := List.forall_mem_cons.mp named
      rw [List.flatMap_cons] at split
      have after : source.drop (offset + lexeme.text.length) = lexemes.flatMap (·.text) := by
        rw [← List.drop_drop, split, List.drop_left]
      have bound : offset + lexeme.text.length ≤ source.length := by
        have lengths := congrArg List.length split
        simp only [List.length_drop, List.length_append] at lengths
        omega
      have later := ih after bound others
      rw [place]
      split
      · exact later.mono (Nat.le_add_right _ _)
      · refine ⟨Nat.le_refl _, ⟨?_, first⟩, later⟩
        rw [Tree.between, Token.stop, List.drop_take, split, Nat.add_sub_cancel_left, List.take_left]

theorem stand_of_parse {trees : List Tree} (parsed : parse source = some trees) :
    Stand source 0 (Tree.leavesOf trees) := by
  obtain ⟨lexemes, _, scanned, derived⟩ := derivation_of_parse parsed
  have leaves := derived.leaves
  have cuts := scan_cuts scanned
  rw [List.append_nil] at leaves
  rw [leaves]
  exact stand_place (by simpa using cuts.split) (Nat.zero_le _) cuts.named

end DocDrift.Syntax
