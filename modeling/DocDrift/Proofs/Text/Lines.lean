import DocDrift.Proofs.Text.Slices
import DocDrift.Text.Lines
import Mathlib.Data.List.Basic
import Mathlib.Data.List.TakeWhile

namespace DocDrift.Text

/-! # Lines that are put together

Lines without line breaks, put one below the other, come apart again as they were.
-/

/-- A text that is one line. -/
def IsWhole (line : Text) : Prop := ∀ c ∈ line, isLineBreak c = false

instance (line : Text) : Decidable line.IsWhole := List.decidableBAll (fun c => isLineBreak c = false) line

/-- Lines that each have an end, and a last one that has none. -/
def ofLines (above : List Text) (last : Text) : Text := above.flatMap (· ++ ['\n']) ++ last

theorem ofLines_cons (line : Text) (above : List Text) (last : Text) :
    ofLines (line :: above) last = line ++ '\n' :: ofLines above last := by
  simp [ofLines]

theorem IsWhole.append {left right : Text} (front : left.IsWhole) (back : right.IsWhole) :
    IsWhole (left ++ right) := by
  intro c member
  exact (List.mem_append.mp member).elim (front c) (back c)

theorem IsWhole.newline {line : Text} (whole : line.IsWhole) : '\n' ∉ line := by
  intro member
  exact absurd (whole '\n' member) (by decide)

theorem isWhole_replicate (n : Nat) : IsWhole (List.replicate n ' ') := by
  intro c member
  obtain rfl := List.eq_of_mem_replicate member
  decide

theorem lines_of_plain {c : Char} (plain : isLineBreak c = false) (rest : Text) :
    lines (c :: rest) =
      match lines rest with
      | [] => [[c]]
      | line :: more => (c :: line) :: more := by
  -- The equations of `lines` are costly to derive, so its definition is opened as a whole.
  rw [lines.eq_def]
  split
  · contradiction
  · rename_i same
    cases same
    contradiction
  · rename_i same
    cases same
    rw [plain]
    rfl

theorem lines_cons {line : Text} (whole : line.IsWhole) (rest : Text) :
    lines (line ++ '\n' :: rest) = line :: lines rest := by
  induction line with
  | nil => rfl
  | cons c line ih =>
      rw [List.cons_append, lines_of_plain (whole c List.mem_cons_self),
        ih fun d member => whole d (List.mem_cons_of_mem c member)]

theorem lines_last {line : Text} (whole : line.IsWhole) (nonempty : line ≠ []) : lines line = [line] := by
  induction line with
  | nil => exact absurd rfl nonempty
  | cons c line ih =>
      rw [lines_of_plain (whole c List.mem_cons_self)]
      cases line with
      | nil => rfl
      | cons d line =>
          rw [ih (fun e member => whole e (List.mem_cons_of_mem c member)) (List.cons_ne_nil d line)]

theorem lines_ofLines {above : List Text} {last : Text} (whole : ∀ line ∈ above, line.IsWhole)
    (closing : last.IsWhole) (nonempty : last ≠ []) : lines (ofLines above last) = above ++ [last] := by
  induction above with
  | nil => exact lines_last closing nonempty
  | cons line above ih =>
      rw [ofLines_cons, lines_cons (whole line List.mem_cons_self),
        ih fun other member => whole other (List.mem_cons_of_mem line member)]
      rfl

/-- What ends a line somewhere does so in the first line or below it. -/
theorem infix_below {word line rest : Text} (inWord : '\n' ∉ word) (inLine : '\n' ∉ line)
    (found : word ++ ['\n'] <:+: line ++ '\n' :: rest) : word <:+ line ∨ word ++ ['\n'] <:+: rest := by
  have ends : '\n' ∈ word ++ ['\n'] := by simp
  rcases List.infix_append_iff.mp found with inside | below | ⟨front, back, split, isEnd, starts⟩
  · exact absurd (inside.subset ends) inLine
  · rcases List.infix_cons_iff.mp below with starts | inside
    · cases word with
      | nil => exact .inl List.nil_suffix
      | cons c word =>
          obtain rfl : c = '\n' := (List.cons_prefix_cons.mp starts).1
          exact absurd List.mem_cons_self inWord
    · exact .inr inside
  · cases back with
    | nil =>
        rw [List.append_nil] at split
        exact absurd (isEnd.subset (split ▸ ends)) inLine
    | cons c back =>
        obtain rfl : c = '\n' := (List.cons_prefix_cons.mp starts).1
        rw [List.append_cons_inj_of_notMem inWord List.not_mem_nil] at split
        exact .inl (split.1 ▸ isEnd)

/-! ## Blanks around a line -/

/-- Neither end of a text is blank. -/
structure IsTrimmed (text : Text) : Prop where
  head : ∀ c ∈ text.head?, isBlank c = false
  last : ∀ c ∈ text.getLast?, isBlank c = false

instance (text : Text) : Decidable text.IsTrimmed :=
  decidable_of_iff (text.head?.all (!isBlank ·) = true ∧ text.getLast?.all (!isBlank ·) = true) <| by
    simp only [Option.all_eq_true, Bool.not_eq_true']
    exact ⟨fun ends => ⟨ends.1, ends.2⟩, fun trimmed => ⟨trimmed.head, trimmed.last⟩⟩

theorem isBlank_of_isLineBreak {c : Char} (breaks : isLineBreak c = true) : isBlank c = true := by
  simp only [isLineBreak, Bool.or_eq_true, decide_eq_true_eq] at breaks
  rcases breaks with ((((((((rfl | rfl) | rfl) | rfl) | rfl) | rfl) | rfl) | rfl) | rfl) | rfl <;> decide

theorem isWhole_of_isBlank {line : Text} (plain : ∀ c ∈ line, isBlank c = false) : line.IsWhole := by
  intro c member
  cases breaks : isLineBreak c with
  | false => rfl
  | true => exact absurd (isBlank_of_isLineBreak breaks) (by simp [plain c member])

theorem isBlank_of_replicate {n : Nat} {c : Char} (member : c ∈ List.replicate n ' ') :
    isBlank c = true := by
  obtain rfl := List.eq_of_mem_replicate member
  decide

section Trimmed

variable {text : Text}

theorem IsTrimmed.trim_spaces (trimmed : text.IsTrimmed) (before after : Nat) :
    trim (List.replicate before ' ' ++ (text ++ List.replicate after ' ')) = text :=
  trim_between (fun _ => isBlank_of_replicate) (fun _ => isBlank_of_replicate) trimmed.head trimmed.last

theorem IsTrimmed.trim_indented (trimmed : text.IsTrimmed) (spaces : Nat) :
    trim (List.replicate spaces ' ' ++ text) = text := by
  have both := trimmed.trim_spaces spaces 0
  rwa [List.replicate_zero, List.append_nil] at both

theorem IsTrimmed.head_append (trimmed : text.IsTrimmed) (nonempty : text ≠ []) (more : Text) :
    ∀ c ∈ (text ++ more).head?, isBlank c = false := by
  cases text with
  | nil => contradiction
  | cons c rest => exact trimmed.head

theorem IsTrimmed.last_append (trimmed : text.IsTrimmed) (nonempty : text ≠ []) (more : Text) :
    ∀ c ∈ (more ++ text).getLast?, isBlank c = false := by
  rw [List.getLast?_append_of_ne_nil more nonempty]
  exact trimmed.last

/-- What follows a text does not take it away when both are trimmed. -/
theorem IsTrimmed.prefix_trim (trimmed : text.IsTrimmed) (nonempty : text ≠ []) (spaces : Nat)
    (more : Text) : text <+: trim (List.replicate spaces ' ' ++ (text ++ more)) := by
  rw [trim, trimFront_append (fun _ => isBlank_of_replicate) (trimmed.head_append nonempty more)]
  exact prefix_trimBack trimmed.last more

theorem IsTrimmed.indentation_spaces (trimmed : text.IsTrimmed) (nonempty : text ≠ []) (spaces : Nat)
    (more : Text) : indentation (List.replicate spaces ' ' ++ (text ++ more)) = spaces := by
  have front := @trimFront_append (List.replicate spaces ' ') (fun _ => isBlank_of_replicate) _
    (trimmed.head_append nonempty more)
  rw [indentation, front, List.length_append, List.length_replicate, Nat.add_sub_cancel]

end Trimmed

theorem indentation_blank {line : Text} (blank : ∀ c ∈ line, isBlank c = true) :
    indentation line = line.length := by
  have front : trimFront line = [] := List.dropWhile_eq_nil_iff.mpr blank
  rw [indentation, front]
  rfl

theorem trimFront_indented (width : Nat) (text : Text) :
    trimFront (List.replicate width ' ' ++ text) = trimFront text :=
  List.dropWhile_append_of_pos fun _ => isBlank_of_replicate

theorem trim_indented (width : Nat) (text : Text) : trim (List.replicate width ' ' ++ text) = trim text := by
  rw [trim, trimFront_indented, ← trim]

theorem indentation_indented (width : Nat) (text : Text) :
    indentation (List.replicate width ' ' ++ text) = width + indentation text := by
  have shorter : (trimFront text).length ≤ text.length := (List.dropWhile_suffix isBlank).length_le
  rw [indentation, trimFront_indented, List.length_append, List.length_replicate, Nat.add_sub_assoc shorter,
    ← indentation]

theorem le_indentation {n : Nat} {line : Text} (indented : List.replicate n ' ' <+: line) :
    n ≤ indentation line := by
  obtain ⟨rest, rfl⟩ := indented
  rw [indentation_indented]
  exact Nat.le_add_right n _

end DocDrift.Text
