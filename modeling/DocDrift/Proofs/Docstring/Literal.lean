import DocDrift.Docstring.Literal
import DocDrift.Proofs.Text.Slices

namespace DocDrift.Docstring

/-! # Docstrings in the text after an offset

From an offset to the end of the source, only the text that stands there decides whether a docstring
begins and where it ends.
-/

/-- The delimiter that a text starts with. -/
def opening? (text : Text) : Option Text :=
  delimiters.find? fun delimiter => delimiter.isPrefixOf text

theorem opening?_length {text delimiter : Text} (opens : opening? text = some delimiter) :
    delimiter.length = 3 ∧ 3 ≤ text.length := by
  have starts := List.find?_some opens
  have member := List.mem_of_find?_eq_some opens
  have three : delimiter.length = 3 := by
    simp only [delimiters, List.mem_cons, List.not_mem_nil, or_false] at member
    rcases member with rfl | rfl <;> rfl
  have fits := (List.isPrefixOf_iff_prefix.mp starts).length_le
  omega

theorem opening?_append {text : Text} (long : 3 ≤ text.length) (more : Text) :
    opening? (text ++ more) = opening? text := by
  have same : ∀ delimiter ∈ delimiters,
      delimiter.isPrefixOf (text ++ more) = delimiter.isPrefixOf text := by
    intro delimiter member
    apply Text.isPrefixOf_append
    simp only [delimiters, List.mem_cons, List.not_mem_nil, or_false] at member
    rcases member with rfl | rfl <;> exact long
  simp only [opening?, delimiters, List.find?_cons, same _ List.mem_cons_self,
    same _ (List.mem_cons_of_mem _ List.mem_cons_self), List.find?_nil]

theorem locate_limit {source : Text} {limit : Nat} (inside : limit ≤ source.length) (start : Nat) :
    locate source start (some (limit : Int)) =
      (opening? ((source.take limit).drop start)).bind fun delimiter =>
        (Text.find delimiter ((source.take limit).drop (start + 3))).map fun i =>
          ⟨start, (start + 3 + i + 3 : Nat)⟩ := by
  have behind : source.slice ((start : Int) + 3) limit = (source.take limit).drop (start + 3) :=
    Text.slice_natCast source (start + 3) limit
  have opened : (delimiters.find? fun delimiter => delimiter.isPrefixOf ((source.take limit).drop start)) =
      opening? ((source.take limit).drop start) := rfl
  simp only [locate, Option.getD_some, Text.slice_natCast, behind, opened]
  cases opens : opening? ((source.take limit).drop start) with
  | none => rfl
  | some delimiter =>
      have long := (opening?_length opens).2
      have bounded : Text.bound source.length ((start : Int) + 3) = start + 3 := by
        rw [List.length_drop, List.length_take] at long
        exact (Text.bound_natCast source.length (start + 3)).trans (Nat.min_eq_left (by omega))
      simp only [bounded]
      rfl

theorem locate_natCast (source : Text) (start : Nat) :
    locate source start none =
      (opening? (source.drop start)).bind fun delimiter =>
        (Text.find delimiter (source.drop (start + 3))).map fun i =>
          ⟨start, (start + 3 + i + 3 : Nat)⟩ := by
  have whole := locate_limit (Nat.le_refl source.length) start
  rw [List.take_length] at whole
  exact whole

/-- A span from opening quotes to the first closing ones. -/
structure IsLiteral (source : Text) (span : Span) (delimiter : Text) : Prop where
  delimits : delimiter ∈ delimiters
  long : 6 ≤ (span.resolve source).length
  opens : delimiter <+: span.resolve source
  closes : delimiter <:+ span.resolve source
  unclosed : ∀ offset : Nat, span.start + 3 ≤ offset → offset < span.stop - 3 → ¬ delimiter <+: source.drop offset

theorem locate_spec {source : Text} {start : Nat} {span : Span}
    (found : locate source start none = some span) :
    ∃ (stop : Nat) (delimiter : Text), span = ⟨start, stop⟩ ∧ start + 6 ≤ stop ∧ stop ≤ source.length ∧
      IsLiteral source span delimiter := by
  rw [locate_natCast] at found
  obtain ⟨delimiter, opens, closed⟩ := Option.bind_eq_some_iff.mp found
  obtain ⟨i, position, rfl⟩ := Option.map_eq_some_iff.mp closed
  obtain ⟨three, _⟩ := opening?_length opens
  have fits := Text.find_bound position
  rw [List.length_drop] at fits
  have resolved : (⟨start, (start + 3 + i + 3 : Nat)⟩ : Span).resolve source =
      (source.take (start + 3 + i + 3)).drop start := Text.slice_natCast source _ _
  refine ⟨start + 3 + i + 3, delimiter, rfl, by omega, by omega, ?_⟩
  constructor
  · exact List.mem_of_find?_eq_some opens
  · rw [resolved, List.length_drop, List.length_take]
    omega
  · have starts : delimiter <+: source.drop start := by simpa using List.find?_some opens
    rw [resolved, List.drop_take, List.prefix_take_iff]
    exact ⟨starts, by omega⟩
  · have ends := Text.prefix_of_find position
    rw [List.drop_drop, List.prefix_iff_eq_take, three] at ends
    have last : delimiter = (source.take (start + 3 + i + 3)).drop (start + 3 + i) := by
      rw [List.drop_take, Nat.add_sub_cancel_left]
      exact ends
    rw [resolved, last]
    exact List.drop_suffix_drop_left _ (by omega)
  · intro offset lower upper
    simp only at lower upper
    obtain ⟨j, rfl⟩ := Nat.exists_eq_add_of_le (show start + 3 ≤ offset by omega)
    have earlier := Text.not_prefix_of_find position (show j < i by omega)
    rwa [List.drop_drop] at earlier

theorem locate_window {source : Text} {limit : Nat} (inside : limit ≤ source.length) (start : Nat) :
    locate source start (some (limit : Int)) = locate (source.take limit) start none := by
  rw [locate_limit inside, locate_natCast]

theorem locate_within {source : Text} {start limit : Nat} {span : Span} (inside : limit ≤ source.length)
    (found : locate source start (some (limit : Int)) = some span) :
    span.start = start ∧ span.stop ≤ limit := by
  rw [locate_window inside] at found
  obtain ⟨stop, _, rfl, _, bound, _⟩ := locate_spec found
  rw [List.length_take] at bound
  exact ⟨rfl, Int.ofNat_le.mpr (Nat.le_trans bound (Nat.min_le_left _ _))⟩

/-- A docstring that is closed in a text stays where it is before any other text. -/
theorem locate_append_left {left : Text} {start : Nat} {span : Span}
    (found : locate left start none = some span) (right : Text) :
    locate (left ++ right) start none = some span := by
  rw [locate_natCast] at found ⊢
  obtain ⟨delimiter, opens, closed⟩ := Option.bind_eq_some_iff.mp found
  obtain ⟨i, position, same⟩ := Option.map_eq_some_iff.mp closed
  have long := (opening?_length opens).2
  simp only [List.length_drop] at long
  rw [List.drop_append_of_le_length (by omega), List.drop_append_of_le_length (by omega),
    opening?_append (by simp; omega), opens, Option.bind_some, Text.find_append position]
  exact congrArg some same

/-- Behind another text, a docstring is found where it stands, or none is. -/
theorem locate_append_right (left right : Text) (start : Nat) :
    locate (left ++ right) (start + left.length : Nat) none =
      (locate right start none).map (·.shift left.length) := by
  have window : (left ++ right).drop (start + left.length) = right.drop start := by
    rw [Nat.add_comm, List.drop_length_add_append]
  have behind : (left ++ right).drop (start + left.length + 3) = right.drop (start + 3) := by
    rw [Nat.add_right_comm, Nat.add_comm, List.drop_length_add_append]
  rw [locate_natCast, locate_natCast, window, behind, Option.map_bind]
  congr 1
  funext delimiter
  rw [Function.comp_apply, Option.map_map]
  congr 1
  funext i
  simp [Span.shift]
  omega

theorem opening?_quotes {quote : Char} (quotes : quote = '\x22' ∨ quote = '\x27') (more : Text) :
    opening? ([quote, quote, quote] ++ more) = some [quote, quote, quote] := by
  rcases quotes with rfl | rfl <;> simp [opening?, delimiters, List.isPrefixOf]

theorem opening?_spec {text delimiter : Text} (opens : opening? text = some delimiter) :
    ∃ quote, (quote = '\x22' ∨ quote = '\x27') ∧ delimiter = [quote, quote, quote] ∧ delimiter <+: text := by
  have starts : delimiter <+: text := by simpa using List.find?_some opens
  have member := List.mem_of_find?_eq_some opens
  simp only [delimiters, List.mem_cons, List.not_mem_nil, or_false] at member
  rcases member with rfl | rfl
  · exact ⟨_, .inl rfl, rfl, starts⟩
  · exact ⟨_, .inr rfl, rfl, starts⟩

theorem drop_opening {source delimiter : Text} {start : Nat}
    (opens : opening? (source.drop start) = some delimiter) :
    ∃ quote, (quote = '\x22' ∨ quote = '\x27') ∧ delimiter = [quote, quote, quote] ∧
      source.drop start = quote :: quote :: quote :: source.drop (start + 3) := by
  obtain ⟨quote, quotes, rfl, rest, split⟩ := opening?_spec opens
  have behind : source.drop (start + 3) = rest := by
    rw [← List.drop_drop, ← split]
    rfl
  exact ⟨quote, quotes, rfl, behind ▸ split.symm⟩

theorem not_infix_of_locate {source delimiter : Text} {start : Nat}
    (opens : opening? (source.drop start) = some delimiter) (missing : locate source start none = none) :
    ¬ delimiter <:+: source.drop (start + 3) := by
  rw [locate_natCast, opens, Option.bind_some, Option.map_eq_none_iff] at missing
  intro inside
  obtain ⟨i, position⟩ := Text.find_of_infix inside
  rw [missing] at position
  contradiction

end DocDrift.Docstring
