import DocDrift.Text.Blank

namespace DocDrift.Text

/-! # Slices between offsets

Bounds of slices are signed, but every offset that scanning produces is a natural number.  There a
slice is a plain cut.
-/

theorem bound_natCast (length i : Nat) : bound length i = min i length := by
  simp [bound]

theorem slice_natCast (text : Text) (start stop : Nat) :
    text.slice start stop = (text.take stop).drop start := by
  rw [slice, bound_natCast, bound_natCast, ← List.take_eq_take_min]
  rcases Nat.le_total start text.length with inside | outside
  · rw [Nat.min_eq_left inside]
  · have short : (text.take stop).length ≤ text.length := by
      rw [List.length_take]
      exact Nat.min_le_right _ _
    rw [Nat.min_eq_right outside, List.drop_eq_nil_of_le short,
      List.drop_eq_nil_of_le (Nat.le_trans short outside)]

theorem slice_append_left {left : Text} (right : Text) (start : Nat) {stop : Nat}
    (inside : stop ≤ left.length) : (left ++ right).slice start stop = left.slice start stop := by
  rw [slice_natCast, slice_natCast, List.take_append_of_le_length inside]

theorem slice_append_right (left right : Text) (start stop : Nat) :
    (left ++ right).slice (start + left.length : Nat) (stop + left.length : Nat) =
      right.slice start stop := by
  rw [slice_natCast, slice_natCast, Nat.add_comm stop, List.take_length_add_append,
    Nat.add_comm start, List.drop_length_add_append]

theorem slice_between (front middle back : Text) :
    (front ++ middle ++ back).slice front.length (front.length + middle.length : Nat) = middle := by
  rw [slice_natCast, ← List.length_append, List.take_left, List.drop_left]

/-- Whether a text starts with a needle that is no longer than it does not depend on what follows. -/
theorem isPrefixOf_append {needle text : Text} (fits : needle.length ≤ text.length) (more : Text) :
    needle.isPrefixOf (text ++ more) = needle.isPrefixOf text := by
  rw [Bool.eq_iff_iff, List.isPrefixOf_iff_prefix, List.isPrefixOf_iff_prefix]
  constructor
  · intro longer
    exact List.prefix_of_prefix_length_le longer (List.prefix_append text more) fits
  · intro shorter
    exact shorter.trans (List.prefix_append text more)

theorem find_bound {needle text : Text} {i : Nat} (found : find needle text = some i) :
    i + needle.length ≤ text.length := by
  induction text generalizing i with
  | nil =>
      simp only [find] at found
      split at found
      · cases found
        simp_all
      · contradiction
  | cons c rest ih =>
      simp only [find] at found
      split at found
      · rename_i starts
        cases found
        simpa using (List.isPrefixOf_iff_prefix.mp starts).length_le
      · obtain ⟨j, later, rfl⟩ := Option.map_eq_some_iff.mp found
        have := ih later
        simp only [List.length_cons]
        omega

/-- The first occurrence in a text is the first one in every longer text. -/
theorem find_append {needle text : Text} {i : Nat} (found : find needle text = some i) (more : Text) :
    find needle (text ++ more) = some i := by
  induction text generalizing i with
  | nil =>
      simp only [find] at found
      split at found
      · rename_i empty
        cases found
        obtain rfl : needle = [] := List.isEmpty_iff.mp empty
        cases more <;> rfl
      · contradiction
  | cons c rest ih =>
      simp only [find] at found
      split at found
      · rename_i starts
        have fits := (List.isPrefixOf_iff_prefix.mp starts).length_le
        rw [List.cons_append, find, ← List.cons_append, isPrefixOf_append fits, if_pos starts]
        exact found
      · rename_i other
        obtain ⟨j, later, rfl⟩ := Option.map_eq_some_iff.mp found
        have fits : needle.length ≤ (c :: rest).length := by
          have := find_bound later
          simp only [List.length_cons]
          omega
        rw [List.cons_append, find, ← List.cons_append, isPrefixOf_append fits, if_neg other,
          ih later]
        rfl

theorem find_suffix (needle text : Text) : ∃ i, find needle (text ++ needle) = some i := by
  induction text with
  | nil =>
      cases needle with
      | nil => exact ⟨0, rfl⟩
      | cons c rest => exact ⟨0, by simp [find]⟩
  | cons c text ih =>
      obtain ⟨i, later⟩ := ih
      rw [List.cons_append, find]
      split
      · exact ⟨0, rfl⟩
      · exact ⟨i + 1, by rw [later]; rfl⟩

theorem prefix_of_find {needle text : Text} {i : Nat} (found : find needle text = some i) :
    needle <+: text.drop i := by
  induction text generalizing i with
  | nil =>
      simp only [find] at found
      split at found
      · simp_all
      · contradiction
  | cons c rest ih =>
      simp only [find] at found
      split at found
      · rename_i starts
        cases found
        exact List.isPrefixOf_iff_prefix.mp starts
      · obtain ⟨j, later, rfl⟩ := Option.map_eq_some_iff.mp found
        exact ih later

theorem not_prefix_of_find {needle text : Text} {i j : Nat} (found : find needle text = some i) (before : j < i) :
    ¬ needle <+: text.drop j := by
  induction text generalizing i j with
  | nil =>
      simp only [find] at found
      split at found
      · cases found
        contradiction
      · contradiction
  | cons c rest ih =>
      simp only [find] at found
      split at found
      · cases found
        contradiction
      · rename_i other
        obtain ⟨k, later, rfl⟩ := Option.map_eq_some_iff.mp found
        cases j with
        | zero => rwa [List.isPrefixOf_iff_prefix] at other
        | succ j => exact ih later (Nat.lt_of_succ_lt_succ before)

theorem infix_of_find {needle text : Text} {i : Nat} (found : find needle text = some i) :
    needle <:+: text :=
  (prefix_of_find found).isInfix.trans (List.drop_suffix i text).isInfix

theorem find_of_infix {needle text : Text} (inside : needle <:+: text) :
    ∃ i, find needle text = some i := by
  obtain ⟨front, back, rfl⟩ := inside
  obtain ⟨i, found⟩ := find_suffix needle front
  exact ⟨i, find_append found back⟩

theorem find_eq_none {needle text : Text} (absent : ¬ needle <:+: text) : find needle text = none :=
  Option.eq_none_iff_forall_ne_some.mpr fun _ found => absent (infix_of_find found)

/-- A needle whose first character does not stand in the front of a text is found behind it. -/
theorem find_past {c : Char} {needle front : Text} (absent : c ∉ front) (text : Text) :
    find (c :: needle) (front ++ text) = (find (c :: needle) text).map (· + front.length) := by
  induction front with
  | nil => simp
  | cons d front ih =>
      simp only [List.mem_cons, not_or] at absent
      obtain ⟨other, absent⟩ := absent
      have unmatched : ¬ (c :: needle).isPrefixOf (d :: (front ++ text)) = true := by
        simp [List.isPrefixOf, other]
      rw [List.cons_append, find, if_neg unmatched, ih absent, Option.map_map]
      rfl

theorem cut_past {c : Char} {needle front : Text} (absent : c ∉ front) (text : Text) :
    cut (c :: needle) (front ++ text) =
      (cut (c :: needle) text).map fun parts => (front ++ parts.1, parts.2) := by
  rw [cut, cut, find_past absent, Option.map_map, Option.map_map]
  refine Option.map_congr fun i _ => ?_
  simp only [Function.comp_apply, Nat.add_comm i, Nat.add_assoc, List.take_length_add_append,
    List.drop_length_add_append]

/-- A needle whose first character does not stand before it is found where it stands. -/
theorem find_first {c : Char} {needle text : Text} (absent : c ∉ text) (more : Text) :
    find (c :: needle) (text ++ (c :: needle ++ more)) = some text.length := by
  rw [find_past absent]
  simp [find]

theorem cut_first {c : Char} {needle text : Text} (absent : c ∉ text) (more : Text) :
    cut (c :: needle) (text ++ (c :: needle ++ more)) = some (text, more) := by
  rw [cut, find_first absent, Option.map_some, List.take_left, List.drop_length_add_append,
    List.drop_left]

/-- A needle that is absent from a text is found behind it, unless the two can overlap. -/
theorem find_behind {c : Char} {needle text : Text} (once : c ∉ needle) (absent : ¬ c :: needle <:+: text)
    (more : Text) : find (c :: needle) (text ++ (c :: needle ++ more)) = some text.length := by
  induction text with
  | nil => simp [find]
  | cons d text ih =>
      have other : ¬ c :: needle <+: d :: text ++ (c :: needle ++ more) := by
        intro starts
        rcases List.prefix_or_prefix_of_prefix starts (List.prefix_append _ _) with inside | ⟨rest, same⟩
        · exact absent inside.isInfix
        · -- Past the text, the needle would begin again inside itself.
          rw [← same, List.prefix_append_right_inj, same] at starts
          cases rest with
          | nil => exact absent ⟨[], [], by simpa using same.symm⟩
          | cons e rest =>
              obtain rfl : e = c := (List.cons_prefix_cons.mp starts).1
              obtain ⟨_, rfl⟩ := List.cons.inj same
              exact once (by simp)
      rw [List.cons_append, find, if_neg (by rwa [List.isPrefixOf_iff_prefix]),
        ih fun inside => absent (List.infix_cons inside)]
      rfl

theorem cut_behind {c : Char} {needle text : Text} (once : c ∉ needle) (absent : ¬ c :: needle <:+: text)
    (more : Text) : cut (c :: needle) (text ++ (c :: needle ++ more)) = some (text, more) := by
  rw [cut, find_behind once absent, Option.map_some, List.take_left, List.drop_length_add_append,
    List.drop_left]

theorem cut_absent {c : Char} {needle text : Text} (absent : c ∉ text) :
    cut (c :: needle) text = none := by
  rw [cut, find_eq_none fun inside => absent (inside.subset List.mem_cons_self)]
  rfl

theorem dropBack_append (text piece : Text) : dropBack piece (text ++ piece) = text := by
  rw [dropBack, if_pos (List.isSuffixOf_iff_suffix.mpr (List.suffix_append text piece)),
    List.length_append, Nat.add_sub_cancel, List.take_left]

/-! ## Blanks at the ends -/

theorem trimFront_append {blanks : Text} (blank : ∀ c ∈ blanks, isBlank c = true) {text : Text}
    (head : ∀ c ∈ text.head?, isBlank c = false) : trimFront (blanks ++ text) = text := by
  rw [trimFront, List.dropWhile_append_of_pos blank]
  cases text with
  | nil => rfl
  | cons c rest => exact List.dropWhile_cons_of_neg (by simp [head c rfl])

theorem trimBack_append {blanks : Text} (blank : ∀ c ∈ blanks, isBlank c = true) {text : Text}
    (last : ∀ c ∈ text.getLast?, isBlank c = false) : trimBack (text ++ blanks) = text := by
  have reversed : trimFront (blanks.reverse ++ text.reverse) = text.reverse :=
    trimFront_append (by simpa using blank) (by simpa using last)
  rw [trimBack, List.reverse_append]
  exact (congrArg List.reverse reversed).trans text.reverse_reverse

/-- Trimming takes away the blanks around a text, and nothing more. -/
theorem trim_between {left right text : Text} (before : ∀ c ∈ left, isBlank c = true)
    (after : ∀ c ∈ right, isBlank c = true) (head : ∀ c ∈ text.head?, isBlank c = false)
    (last : ∀ c ∈ text.getLast?, isBlank c = false) : trim (left ++ (text ++ right)) = text := by
  cases text with
  | nil =>
      have blank : ∀ c ∈ left ++ right, isBlank c = true :=
        fun c member => (List.mem_append.mp member).elim (before c) (after c)
      have front := @trimFront_append (left ++ right) blank [] (by simp)
      rw [List.append_nil] at front
      rw [trim, List.nil_append, front]
      rfl
  | cons c rest =>
      have front : ∀ d ∈ (c :: rest ++ right).head?, isBlank d = false := head
      rw [trim, trimFront_append before front, trimBack_append after last]

theorem prefix_trimBack {text : Text} (last : ∀ c ∈ text.getLast?, isBlank c = false) (more : Text) :
    text <+: trimBack (text ++ more) := by
  rw [← List.reverse_suffix, trimBack, List.reverse_reverse, List.reverse_append, List.dropWhile_append]
  split
  · have whole := trimBack_append (List.forall_mem_nil _) last
    rw [List.append_nil, trimBack, List.reverse_eq_iff] at whole
    exact ⟨[], whole.symm⟩
  · exact List.suffix_append _ _

end DocDrift.Text
