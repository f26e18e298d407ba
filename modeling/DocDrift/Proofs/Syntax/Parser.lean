import DocDrift.Proofs.Strategy.Library
import DocDrift.Proofs.Text.LineEnds
import DocDrift.Syntax.Parser

namespace DocDrift

/-! # The parser of the program keeps to the documentation

It fails on text that is no program, and its positions are those of offsets, so they count the ends of
lines before an offset.
-/

namespace Position

theorem line_advance (position : Position) (text : Text) :
    (advance position text).line = position.line + (Text.unifyLineEnds text).count '\n' := by
  fun_induction advance position text with
  | case1 => simp [Text.unifyLineEnds]
  | case2 position rest ih =>
      rw [ih, Text.unifyLineEnds, List.count_cons_self]
      exact Nat.add_right_comm _ 1 _
  | case3 position c rest other newline ih =>
      have ends : (if c = '\r' then '\n' else c) = '\n' := by
        split
        · rfl
        · simp_all
      rw [ih, Text.unifyLineEnds.eq_3 c rest (by simpa using other), ends, List.count_cons_self]
      exact Nat.add_right_comm _ 1 _
  | case4 position c rest other plain ih =>
      simp only [Bool.or_eq_true, decide_eq_true_eq, not_or] at plain
      rw [ih, Text.unifyLineEnds.eq_3 c rest (by simpa using other), if_neg plain.2,
        List.count_cons_of_ne plain.1]

/-- The front of a text has no more lines than the whole. -/
theorem count_take (text : Text) (offset : Nat) :
    (Text.unifyLineEnds (text.take offset)).count '\n' ≤ (Text.unifyLineEnds text).count '\n' := by
  fun_induction Text.unifyLineEnds text generalizing offset with
  | case1 => simp [Text.unifyLineEnds]
  | case2 rest ih =>
      match offset with
      | 0 => simp [Text.unifyLineEnds]
      | 1 => simp [Text.unifyLineEnds]
      | offset + 2 => simpa [Text.unifyLineEnds] using ih offset
  | case3 c rest other ih =>
      match offset with
      | 0 => simp [Text.unifyLineEnds]
      | offset + 1 =>
          have front : ∀ more, c = '\r' → rest.take offset = '\n' :: more → False := by
            intro more same begins
            obtain ⟨last, rfl⟩ : ∃ last, rest = '\n' :: last := by
              cases rest with
              | nil => simp at begins
              | cons d last =>
                  cases offset with
                  | zero => simp at begins
                  | succ offset =>
                      rw [List.take_succ_cons, List.cons.injEq] at begins
                      exact ⟨last, by rw [begins.1]⟩
            exact other last same rfl
          rw [List.take_succ_cons, Text.unifyLineEnds.eq_3 c _ front, List.count_cons, List.count_cons]
          exact Nat.add_le_add_right (ih offset) _

theorem line_ofOffset_bounds (source : Text) (offset : Nat) :
    1 ≤ (ofOffset source offset).line ∧ (ofOffset source offset).line ≤ Text.lineCount source := by
  rw [ofOffset, line_advance, Text.lineCount]
  exact ⟨Nat.le_add_right 1 _, Nat.add_le_add_left (count_take source offset) 1⟩

end Position

namespace Syntax

open Cst

variable {source : Text}

/-- A mark at the front is on a line with what follows it. -/
theorem lineCount_withoutMark (source : Text) :
    Text.lineCount (Walk.withoutMark source) = Text.lineCount source := by
  unfold Walk.withoutMark Text.dropFront
  split
  · rename_i marked
    obtain ⟨rest, rfl⟩ := List.isPrefixOf_iff_prefix.mp marked
    rw [Text.lineCount, Text.lineCount]
    rfl
  · rfl

theorem withoutMark_eq (unmarked : source.head? ≠ some '\ufeff') : Walk.withoutMark source = source := by
  cases source with
  | nil => rfl
  | cons c rest =>
      have other : c ≠ '\ufeff' := by simpa using unmarked
      simp [Walk.withoutMark, Text.dropFront, List.isPrefixOf, other.symm]

/-- The module that is made of the syntax trees of a text. -/
def moduleOf (text : Text) (trees : List Tree) : Module Extent :=
  ⟨.node [.node (Tree.concretes text 0 trees), .code (text.drop (Tree.stopsFrom 0 trees))],
    Walk.locateIn text⟩

theorem parse_eq_ok {module : Module Extent} (parsed : parser.parse source = .ok module) :
    ∃ trees, parse (Walk.withoutMark source) = some trees ∧
      module = moduleOf (Walk.withoutMark source) trees := by
  unfold parser at parsed
  simp only at parsed
  split at parsed
  · contradiction
  · rename_i trees found
    cases parsed
    exact ⟨trees, found, rfl⟩

theorem parse_exists (parses : (parse (Walk.withoutMark source)).isSome = true) :
    ∃ module, parser.parse source = .ok module := by
  obtain ⟨trees, found⟩ := Option.isSome_iff_exists.mp parses
  exact ⟨moduleOf (Walk.withoutMark source) trees, by unfold parser; simp only [found]; rfl⟩

theorem parser_failsOnSyntax : Parser.FailsOnSyntax := by
  intro source failure failed
  change parser.parse source = _ at failed
  unfold parser at failed
  simp only at failed
  split at failed
  · cases failed
    exact ⟨none, rfl⟩
  · contradiction

theorem parser_countsLines : Parser.CountsLines := by
  intro source module parsed node range recorded position member
  obtain ⟨trees, _, rfl⟩ := parse_eq_ok parsed
  cases recorded
  rw [← lineCount_withoutMark]
  rcases List.mem_cons.mp member with rfl | last
  · exact Position.line_ofOffset_bounds _ _
  · rw [List.mem_singleton.mp last]
    exact Position.line_ofOffset_bounds _ _

theorem parser_locatesNodes : Parser.LocatesNodes := by
  intro source module parsed definition _ node _
  obtain ⟨trees, _, rfl⟩ := parse_eq_ok parsed
  rfl

end Syntax
end DocDrift
