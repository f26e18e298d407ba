import DocDrift.Source.LineIndex

namespace DocDrift.LineIndex

/-! # Lines of one text after another -/

theorem startsAfter_append (offset : Nat) (left right : Text) :
    startsAfter offset (left ++ right) =
      startsAfter offset left ++ startsAfter (offset + left.length) right := by
  induction left generalizing offset with
  | nil => rfl
  | cons c rest ih =>
      simp only [List.cons_append, startsAfter, ih, List.length_cons,
        Nat.add_right_comm offset 1, ← Nat.add_assoc]
      split <;> rfl

theorem starts_append (front rest : Text) :
    (ofText (front ++ rest)).starts = (0 :: startsAfter 0 front) ++ startsAfter front.length rest := by
  rw [ofText, startsAfter_append, Nat.zero_add]
  rfl

theorem startsAfter_shift (offset distance : Nat) (text : Text) :
    startsAfter (offset + distance) text = (startsAfter offset text).map (· + distance) := by
  induction text generalizing offset with
  | nil => rfl
  | cons c rest ih =>
      simp only [startsAfter, Nat.add_right_comm offset distance, ih]
      split <;> rfl

theorem startsAfter_bounds {offset start : Nat} {text : Text}
    (member : start ∈ startsAfter offset text) : offset < start ∧ start ≤ offset + text.length := by
  induction text generalizing offset with
  | nil => contradiction
  | cons c rest ih =>
      simp only [startsAfter] at member
      simp only [List.length_cons]
      split at member
      · rcases List.mem_cons.mp member with rfl | member
        · omega
        · have := ih member
          omega
      · have := ih member
        omega

theorem length_startsAfter (offset : Nat) (text : Text) :
    (startsAfter offset text).length = text.count '\n' := by
  induction text generalizing offset with
  | nil => rfl
  | cons c rest ih =>
      simp only [startsAfter, List.count_cons]
      split
      · simp_all
      · simp_all

theorem lineOf_zero (text : Text) : (ofText text).lineOf 0 = 1 := by
  have later : (startsAfter 0 text).countP (fun start : Nat => (start : Int) ≤ 0) = 0 := by
    rw [List.countP_eq_zero]
    intro start member
    have := startsAfter_bounds member
    simp
    omega
  simp only [lineOf, ofText, List.countP_cons, later]
  rfl

/-- What follows a text does not change the line of an offset inside it. -/
theorem lineOf_append_left {left : Text} (right : Text) {offset : Nat} (inside : offset < left.length) :
    (ofText (left ++ right)).lineOf offset = (ofText left).lineOf offset := by
  have none : (startsAfter (0 + left.length) right).countP (fun start : Nat => (start : Int) ≤ offset) = 0 := by
    rw [List.countP_eq_zero]
    intro start member
    have := startsAfter_bounds member
    simp
    omega
  simp only [lineOf, ofText, startsAfter_append, ← List.cons_append, List.countP_append, none,
    Nat.add_zero]

/-- An offset behind a text lies as many lines further down as that text has line feeds. -/
theorem lineOf_append_right (left right : Text) (offset : Nat) :
    (ofText (left ++ right)).lineOf (offset + left.length : Nat) =
      (ofText right).lineOf offset + left.count '\n' := by
  have all : (startsAfter 0 left).countP
      (fun start : Nat => (start : Int) ≤ (offset + left.length : Nat)) = left.count '\n' := by
    rw [← length_startsAfter 0, List.countP_eq_length]
    intro start member
    have := startsAfter_bounds member
    simp
    omega
  have moved : (startsAfter (0 + left.length) right).countP
        (fun start : Nat => (start : Int) ≤ (offset + left.length : Nat)) =
      (startsAfter 0 right).countP (fun start : Nat => (start : Int) ≤ offset) := by
    rw [startsAfter_shift, List.countP_map]
    congr 1
    funext start
    simp
  have first (place : Nat) : decide (((0 : Nat) : Int) ≤ (place : Int)) = true := by simp
  simp only [lineOf, ofText, startsAfter_append, List.countP_cons, List.countP_append, all, moved,
    first]
  omega

end DocDrift.LineIndex
