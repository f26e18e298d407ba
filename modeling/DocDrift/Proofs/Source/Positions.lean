import DocDrift.Proofs.Source.Lines
import DocDrift.Source.Position

namespace DocDrift.Position

/-! # Positions without carriage returns

Where line feeds alone end lines, positions count the same lines as the line index, which therefore
gives back the offset of every position.
-/

open LineIndex

variable {source : Text} {offset : Nat}

theorem advance_cons {c : Char} (text : Text) (plain : c ≠ '\r') (line column : Nat) :
    advance ⟨line, column⟩ (c :: text) =
      if c = '\n' then advance ⟨line + 1, 0⟩ text else advance ⟨line, column + 1⟩ text := by
  rw [advance]
  · simp [plain]
  · exact fun _ same => absurd same plain

/-- Behind a text that stands at `offset`, on a line that starts at `start`. -/
theorem advance_spec {text : Text} (plain : '\r' ∉ text) (line : Nat) {column start : Nat}
    (here : start + column = offset) :
    (advance ⟨line, column⟩ text).line = line + (startsAfter offset text).length ∧
      (startsAfter offset text).getLastD start + (advance ⟨line, column⟩ text).column =
        offset + text.length := by
  induction text generalizing line column start offset with
  | nil => simp [advance, startsAfter, here]
  | cons c text ih =>
      simp only [List.mem_cons, not_or] at plain
      rw [advance_cons text (Ne.symm plain.1), startsAfter]
      by_cases newline : c = '\n'
      · obtain ⟨lines, columns⟩ := @ih (offset + 1) plain.2 (line + 1) 0 (offset + 1) rfl
        simp only [if_pos newline, List.length_cons, List.getLastD_cons]
        omega
      · obtain ⟨lines, columns⟩ := @ih (offset + 1) plain.2 line (column + 1) start (by omega)
        simp only [if_neg newline, List.length_cons]
        omega

theorem take_clean (plain : '\r' ∉ source) (offset : Nat) : '\r' ∉ source.take offset :=
  fun member => plain (List.mem_of_mem_take member)

theorem line_ofOffset (plain : '\r' ∉ source) (offset : Nat) :
    (ofOffset source offset).line = 1 + (source.take offset).count '\n' := by
  obtain ⟨line, _⟩ := @advance_spec 0 _ (take_clean plain offset) 1 0 0 rfl
  rw [length_startsAfter] at line
  exact line

theorem starts_take (inside : offset ≤ source.length) :
    (ofText source).starts =
      (0 :: startsAfter 0 (source.take offset)) ++ startsAfter offset (source.drop offset) := by
  have split := starts_append (source.take offset) (source.drop offset)
  rwa [List.take_append_drop, List.length_take, Nat.min_eq_left inside] at split

theorem offset?_ofOffset (plain : '\r' ∉ source) (inside : offset ≤ source.length) :
    (ofOffset source offset).offset? (ofText source) = some (offset : Int) := by
  obtain ⟨line, column⟩ := @advance_spec 0 _ (take_clean plain offset) 1 0 0 rfl
  have last : (ofText source).starts[(startsAfter 0 (source.take offset)).length]? =
      some ((startsAfter 0 (source.take offset)).getLastD 0) := by
    have final := @List.getLast?_eq_getElem? _ (0 :: startsAfter 0 (source.take offset))
    rw [List.getLast?_cons, List.length_cons, Nat.add_sub_cancel] at final
    rw [starts_take inside, List.getElem?_append_left (by simp), ← final, List.getLastD_eq_getLast?]
  have start : (ofText source).startOf? (ofOffset source offset).line =
      some ((startsAfter 0 (source.take offset)).getLastD 0) := by
    have index : ((ofOffset source offset).line : Int) - 1 =
        ((startsAfter 0 (source.take offset)).length : Nat) := by
      have : (ofOffset source offset).line = 1 + (startsAfter 0 (source.take offset)).length := line
      omega
    simp only [startOf?, index, Int.natCast_nonneg, if_true, Int.toNat_natCast]
    exact last
  rw [List.length_take, Nat.min_eq_left inside, Nat.zero_add] at column
  have sum : ((startsAfter 0 (source.take offset)).getLastD 0 : Int) +
      (ofOffset source offset).column = offset := by
    exact_mod_cast column
  simpa [offset?, offsetOf?, start] using sum

theorem lineOf_eq (inside : offset ≤ source.length) :
    (ofText source).lineOf offset = 1 + (source.take offset).count '\n' := by
  have before : (0 :: startsAfter 0 (source.take offset)).countP
      (fun start : Nat => (start : Int) ≤ offset) = 1 + (source.take offset).count '\n' := by
    rw [← length_startsAfter 0, Nat.add_comm, ← @List.length_cons _ 0, List.countP_eq_length]
    intro start member
    rcases List.mem_cons.mp member with rfl | member
    · simp
    · have := startsAfter_bounds member
      rw [List.length_take] at this
      simp
      omega
  have behind : (startsAfter offset (source.drop offset)).countP
      (fun start : Nat => (start : Int) ≤ offset) = 0 := by
    rw [List.countP_eq_zero]
    intro start member
    have := startsAfter_bounds member
    simp
    omega
  rw [lineOf, starts_take inside, List.countP_append, before, behind, Nat.add_zero]

end DocDrift.Position
