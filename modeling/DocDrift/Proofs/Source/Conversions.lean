import Mathlib.Data.List.Induction
import DocDrift.Proofs.Source.Positions

namespace DocDrift

/-! # Offsets and lines

The starts of the lines stand in increasing order, so binary search finds the line of an offset.  A
line begins behind a line feed or at the front of the source, which makes the way from an offset to its
line and column and the way back inverse to each other.
-/

namespace Text

theorem length_splitAt (mark : Char) (text : Text) : (splitAt mark text).length = text.count mark + 1 := by
  induction text with
  | nil => rfl
  | cons c rest ih =>
      rw [splitAt, List.count_cons]
      by_cases same : c = mark
      · simp [same, ih]
      · cases pieces : splitAt mark rest with
        | nil => simp [pieces] at ih
        | cons piece more =>
            rw [pieces] at ih
            simpa [same] using ih

/-- A line begins behind a text that is empty or ends with a line feed. -/
def BeginsLine (front : Text) : Prop := ∀ c ∈ front.getLast?, c = '\n'

theorem beginsLine_cons {c : Char} {front : Text} (begins : BeginsLine front) (last : front = [] → c = '\n') :
    BeginsLine (c :: front) := by
  cases front with
  | nil => simpa [BeginsLine] using last
  | cons d front => simpa [BeginsLine, List.getLast?_cons_cons] using begins

/-- The part of a text up to its last line feed, and what stands behind on the same line. -/
theorem exists_lastLine (text : Text) :
    ∃ front behind, text = front ++ behind ∧ BeginsLine front ∧ '\n' ∉ behind := by
  induction text using List.reverseRecOn with
  | nil => exact ⟨[], [], rfl, by simp [BeginsLine], by simp⟩
  | append_singleton text c ih =>
      by_cases feed : c = '\n'
      · exact ⟨text ++ [c], [], by simp, by simp [BeginsLine, feed], by simp⟩
      · obtain ⟨front, behind, rfl, begins, clear⟩ := ih
        refine ⟨front, behind ++ [c], by simp, begins, ?_⟩
        simp [clear, Ne.symm feed]

/-- A piece between two line feeds is a line in its place. -/
theorem splitAt_newline {text line : Text} {row : Nat} (found : (splitAt '\n' text)[row]? = some line) :
    ∃ front rest, text = front ++ (line ++ rest) ∧ BeginsLine front ∧ front.count '\n' = row ∧ '\n' ∉ line := by
  induction text generalizing row line with
  | nil =>
      obtain ⟨rfl, rfl⟩ : row = 0 ∧ line = [] := by
        cases row <;> simp_all [splitAt]
      exact ⟨[], [], rfl, by simp [BeginsLine], rfl, by simp⟩
  | cons c rest ih =>
      rw [splitAt] at found
      by_cases feed : c = '\n'
      · rw [if_pos feed] at found
        cases row with
        | zero =>
            cases found
            exact ⟨[], c :: rest, rfl, by simp [BeginsLine], rfl, by simp⟩
        | succ row =>
            obtain ⟨front, after, rfl, begins, rows, clear⟩ := ih found
            exact ⟨c :: front, after, rfl, beginsLine_cons begins fun _ => feed, by simp [feed, rows], clear⟩
      · rw [if_neg feed] at found
        cases pieces : splitAt '\n' rest with
        | nil =>
            have filled := length_splitAt '\n' rest
            simp [pieces] at filled
        | cons piece more =>
            rw [pieces] at found ih
            cases row with
            | zero =>
                cases found
                obtain ⟨front, after, rfl, begins, rows, clear⟩ := @ih piece 0 rfl
                -- A text without line feeds behind which a line begins is empty.
                obtain rfl : front = [] := by
                  cases last : front.getLast? with
                  | none => exact List.getLast?_eq_none_iff.mp last
                  | some d =>
                      have feeds := List.count_pos_iff.mpr (List.mem_of_getLast? last)
                      rw [begins d last, rows] at feeds
                      contradiction
                exact ⟨[], after, rfl, by simp [BeginsLine], rfl, by simp [clear, Ne.symm feed]⟩
            | succ row =>
                obtain ⟨front, after, rfl, begins, rows, clear⟩ := @ih line (row + 1) found
                refine ⟨c :: front, after, rfl, beginsLine_cons begins ?_, by simp [feed, rows], clear⟩
                rintro rfl
                contradiction

end Text

namespace LineIndex

theorem starts_increasing (source : Text) : (ofText source).starts.Pairwise (· < ·) := by
  have later (offset : Nat) (text : Text) : (startsAfter offset text).Pairwise (· < ·) := by
    induction text generalizing offset with
    | nil => exact .nil
    | cons c rest ih =>
        rw [startsAfter]
        split
        · exact .cons (fun start member => (startsAfter_bounds member).1) (ih _)
        · exact ih _
  exact .cons (fun start member => (startsAfter_bounds member).1) (later 0 source)

/-- The start of a line stands in the table at the number of line feeds before it. -/
theorem starts_of_beginsLine {front : Text} (begins : Text.BeginsLine front) (rest : Text) :
    (ofText (front ++ rest)).starts[front.count '\n']? = some front.length := by
  have last : (0 :: startsAfter 0 front)[front.count '\n']? = some front.length := by
    cases front using List.reverseRecOn with
    | nil => rfl
    | append_singleton before c =>
        obtain rfl : c = '\n' := begins c (by simp)
        have count : (before ++ ['\n']).count '\n' = (startsAfter 0 before).length + 1 := by
          rw [length_startsAfter, List.count_append]
          rfl
        rw [startsAfter_append, count, List.getElem?_cons_succ]
        simp [startsAfter]
  rw [starts_append, List.getElem?_append_left (List.getElem?_eq_some_iff.mp last).1, last]

theorem offsetOf?_of_beginsLine {front : Text} (begins : Text.BeginsLine front) (rest : Text) (column : Int) :
    (ofText (front ++ rest)).offsetOf? (front.count '\n' + 1 : Nat) column = some (front.length + column) := by
  have row : ((front.count '\n' + 1 : Nat) : Int) - 1 = (front.count '\n' : Nat) := by omega
  simp only [offsetOf?, startOf?, row, Int.natCast_nonneg, if_true, Int.toNat_natCast,
    starts_of_beginsLine begins]
  rfl

/-- On a line behind some text, offsets are on the line after its line feeds. -/
theorem lineOf_of_line {front line : Text} (single : '\n' ∉ line) (rest : Text) {column : Nat}
    (inside : column ≤ line.length) :
    (ofText (front ++ (line ++ rest))).lineOf (front.length + column : Nat) = front.count '\n' + 1 := by
  have clear : (line.take column).count '\n' = 0 :=
    List.count_eq_zero_of_not_mem fun member => single (List.mem_of_mem_take member)
  rw [Position.lineOf_eq (by simp; omega), List.take_length_add_append, List.take_append_of_le_length inside,
    List.count_append, clear]
  exact Nat.add_comm _ _

/-- Binary search between two places of a table for the first entry behind an offset. -/
def bisect (starts : List Nat) (offset : Int) (low high : Nat) : Nat :=
  if low < high then
    let middle := (low + high) / 2
    if offset < starts.getD middle 0 then bisect starts offset low middle
    else bisect starts offset (middle + 1) high
  else low
termination_by high - low

variable {starts : List Nat} {offset : Int} {low high : Nat}

/-- A search between two bounds: the entries before them are not behind the offset, and those after them
are. -/
structure Encloses (starts : List Nat) (offset : Int) (low high : Nat) : Prop where
  ordered : low ≤ high
  bounded : high ≤ starts.length
  before : ∀ (i : Nat) (inside : i < starts.length), i < low → (starts[i] : Int) ≤ offset
  behind : ∀ (i : Nat) (inside : i < starts.length), high ≤ i → offset < (starts[i] : Int)

theorem Encloses.countP (encloses : Encloses starts offset low low) :
    starts.countP (fun start : Nat => (start : Int) ≤ offset) = low := by
  have front : (starts.take low).countP (fun start : Nat => (start : Int) ≤ offset) = low := by
    rw [List.countP_eq_length.mpr, List.length_take, Nat.min_eq_left encloses.bounded]
    intro start member
    obtain ⟨i, inside, rfl⟩ := List.mem_take_iff_getElem.mp member
    exact decide_eq_true (encloses.before i (by omega) (by omega))
  have back : (starts.drop low).countP (fun start : Nat => (start : Int) ≤ offset) = 0 := by
    rw [List.countP_eq_zero]
    intro start member
    obtain ⟨i, inside, rfl⟩ := List.mem_drop_iff_getElem.mp member
    simpa using encloses.behind (low + i) (by omega) (Nat.le_add_right _ _)
  rw [← List.take_append_drop low starts, List.countP_append, front, back, Nat.add_zero]

theorem sorted_of_increasing (increasing : starts.Pairwise (· < ·)) {i j : Nat} (inside : j < starts.length)
    (before : i ≤ j) : starts[i] ≤ starts[j] := by
  rcases Nat.lt_or_eq_of_le before with earlier | rfl
  · exact Nat.le_of_lt (List.pairwise_iff_getElem.mp increasing i j (by omega) inside earlier)
  · exact Nat.le_refl _

/-- In a table that increases, binary search counts the entries up to an offset. -/
theorem bisect_eq (increasing : starts.Pairwise (· < ·)) (encloses : Encloses starts offset low high) :
    bisect starts offset low high = starts.countP fun start : Nat => (start : Int) ≤ offset := by
  fun_induction bisect starts offset low high with
  | case1 low high unsettled middle left ih =>
      have inside : middle < starts.length := by have := encloses.bounded; omega
      rw [List.getD_eq_getElem?_getD, List.getElem?_eq_getElem inside, Option.getD_some] at left
      refine ih ⟨by omega, by omega, encloses.before, fun i within above => ?_⟩
      have sorted := sorted_of_increasing increasing within above
      omega
  | case2 low high unsettled middle right ih =>
      have inside : middle < starts.length := by have := encloses.bounded; omega
      rw [List.getD_eq_getElem?_getD, List.getElem?_eq_getElem inside, Option.getD_some] at right
      refine ih ⟨by omega, encloses.bounded, fun i within below => ?_, encloses.behind⟩
      have sorted := sorted_of_increasing increasing inside (Nat.le_of_lt_succ below)
      omega
  | case3 low high settled =>
      obtain rfl : low = high := Nat.le_antisymm encloses.ordered (Nat.le_of_not_lt settled)
      exact encloses.countP.symm

/-- The line of an offset is found by binary search, and its number is one more than the line feeds before
the offset.  With the column that the offset has on that line, it leads back to the offset.  A column of
any line, up to the end of the line, is an offset of the source on that same line. -/
theorem converts (source : Text) :
    let index := ofText source
    (∀ offset : Int, bisect index.starts offset 0 index.starts.length = index.lineOf offset) ∧
      (∀ offset : Nat, offset ≤ source.length →
        index.lineOf offset = 1 + (source.take offset).count '\n' ∧
          ∃ front behind, source.take offset = front ++ behind ∧ Text.BeginsLine front ∧ '\n' ∉ behind ∧
            index.offsetOf? (index.lineOf offset) (offset - front.length) = some (offset : Int)) ∧
      ∀ row : Nat, row ≤ source.count '\n' →
        ∃ line, (Text.splitAt '\n' source)[row]? = some line ∧ ∀ column : Nat, column ≤ line.length →
          ∃ offset : Nat, offset ≤ source.length ∧
            index.offsetOf? (row + 1 : Nat) column = some (offset : Int) ∧ index.lineOf offset = row + 1 := by
  intro index
  refine ⟨fun offset => ?_, fun offset inside => ?_, fun row within => ?_⟩
  · exact bisect_eq (starts_increasing source) ⟨Nat.zero_le _, Nat.le_refl _, by simp, fun i _ => by omega⟩
  · have line := Position.lineOf_eq inside
    obtain ⟨front, behind, split, begins, clear⟩ := Text.exists_lastLine (source.take offset)
    refine ⟨line, front, behind, split, begins, clear, ?_⟩
    have feeds : (source.take offset).count '\n' = front.count '\n' := by
      rw [split, List.count_append, List.count_eq_zero_of_not_mem clear, Nat.add_zero]
    have whole : source = front ++ (behind ++ source.drop offset) := by
      rw [← List.append_assoc, ← split, List.take_append_drop]
    have found := offsetOf?_of_beginsLine begins (behind ++ source.drop offset) (offset - front.length)
    rw [← whole] at found
    rw [line, feeds, Nat.add_comm, found]
    congr 1
    omega
  · obtain ⟨line, found⟩ : ∃ line, (Text.splitAt '\n' source)[row]? = some line :=
      ⟨_, List.getElem?_eq_getElem (by rw [Text.length_splitAt]; omega)⟩
    obtain ⟨front, rest, rfl, begins, rfl, single⟩ := Text.splitAt_newline found
    refine ⟨line, found, fun column inLine => ⟨front.length + column, by simp; omega, ?_, ?_⟩⟩
    · exact offsetOf?_of_beginsLine begins (line ++ rest) column
    · exact lineOf_of_line single rest inLine

/-- An offset behind an empty line, and the start of that line. -/
theorem converts_emptyLine :
    let source := "a\n\nb".toList
    let index := ofText source
    3 ≤ source.length ∧ index.lineOf 3 = 1 + (source.take 3).count '\n' ∧ 1 ≤ source.count '\n' ∧
      ∃ line, (Text.splitAt '\n' source)[1]? = some line ∧ 0 ≤ line.length ∧
        ∃ offset : Nat, index.offsetOf? 2 0 = some (offset : Int) ∧ index.lineOf offset = 2 := by
  intro source index
  obtain ⟨_, there, back⟩ := converts source
  obtain ⟨line, found, columns⟩ := back 1 (by decide)
  obtain ⟨offset, _, converted, same⟩ := columns 0 (Nat.zero_le _)
  exact ⟨by decide, (there 3 (by decide)).1, by decide, line, found, Nat.zero_le _, offset, converted, same⟩

end LineIndex
end DocDrift
