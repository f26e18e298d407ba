import DocDrift.Proofs.Docstring.Literal

namespace DocDrift.Docstring

/-! # Windows and blocks

A docstring is looked for in a window of the source by those who know its offsets, and in a block of
its own by those who have its text.  Both find the same: the shortest text at the front of the window
that opens and closes with the same quotes.
-/

/-- A text between two delimiters of one kind, which do not overlap. -/
def IsQuoted (text : Text) : Prop :=
  6 ≤ text.length ∧ ∃ delimiter ∈ delimiters, delimiter <+: text ∧ delimiter <:+ text

theorem opening?_of_mem {text delimiter : Text} (member : delimiter ∈ delimiters) (starts : delimiter <+: text) :
    opening? text = some delimiter := by
  obtain ⟨rest, rfl⟩ := starts
  simp only [delimiters, List.mem_cons, List.not_mem_nil, or_false] at member
  rcases member with rfl | rfl
  · exact opening?_quotes (.inl rfl) rest
  · exact opening?_quotes (.inr rfl) rest

theorem extract_eq (block : Text) :
    extract block = (opening? block).bind fun delimiter =>
      (Text.find delimiter (block.drop 3)).map fun i => block.take (i + 6) := by
  have located := locate_natCast block 0
  rw [List.drop_zero] at located
  rw [extract, show locate block 0 none = _ from located, Option.map_bind]
  congr 1
  funext delimiter
  rw [Function.comp_apply, Option.map_map]
  congr 1
  funext i
  have resolved : (⟨(0 : Nat), (0 + 3 + i + 3 : Nat)⟩ : Span).resolve block = block.take (0 + 3 + i + 3) :=
    Text.slice_natCast block 0 _
  rw [Function.comp_apply, resolved]
  congr 1
  omega

/-- In a window, a docstring reaches as far as in the block that is cut out of it. -/
theorem locate_slice {source : Text} {limit : Nat} (inside : limit ≤ source.length) (start : Nat) :
    locate source start (some (limit : Int)) =
      (extract (source.slice start limit)).map fun text => ⟨start, (start + text.length : Nat)⟩ := by
  rw [locate_limit inside, extract_eq, Text.slice_natCast, List.drop_drop, Option.map_bind]
  refine Option.bind_congr fun delimiter opens => ?_
  rw [Function.comp_apply, Option.map_map]
  refine Option.map_congr fun i found => ?_
  have three := (opening?_length opens).1
  have fits := Text.find_bound found
  rw [three, ← List.drop_drop, List.length_drop] at fits
  have whole : (((source.take limit).drop start).take (i + 6)).length = i + 6 :=
    List.length_take_of_le (by omega)
  rw [Function.comp_apply, whole]
  congr 2
  omega

/-- The search for the closing delimiter goes no further than to the end of a quoted text. -/
theorem extract_of_quoted {block text : Text} (quoted : IsQuoted text) (front : text <+: block) :
    ∃ shortest, extract block = some shortest ∧ shortest.length ≤ text.length := by
  obtain ⟨long, delimiter, member, opens, closes⟩ := quoted
  obtain ⟨rest, rfl⟩ := front
  obtain ⟨body, rfl⟩ := closes
  have opened := opening?_of_mem member (opens.trans (List.prefix_append _ rest))
  have three := (opening?_length opened).1
  rw [List.length_append, three] at long
  -- Behind the opening delimiter stands the rest of the body, and then the closing one.
  have behind : (body ++ delimiter ++ rest).drop 3 = body.drop 3 ++ delimiter ++ rest := by
    rw [List.append_assoc, List.drop_append_of_le_length (by omega), List.append_assoc]
  obtain ⟨i, found⟩ := Text.find_suffix delimiter (body.drop 3)
  have early := Text.find_bound found
  rw [List.length_append, List.length_drop] at early
  refine ⟨(body ++ delimiter ++ rest).take (i + 6), ?_, ?_⟩
  · rw [extract_eq, opened, Option.bind_some, behind, Text.find_append found, Option.map_some]
  · simp only [List.length_take, List.length_append, three]
    omega

theorem quoted_of_extract {block text : Text} (extracted : extract block = some text) :
    IsQuoted text ∧ text <+: block := by
  obtain ⟨span, located, rfl⟩ := Option.map_eq_some_iff.mp extracted
  obtain ⟨stop, delimiter, rfl, _, _, literal⟩ := @locate_spec block 0 span located
  refine ⟨⟨literal.long, delimiter, literal.delimits, literal.opens, literal.closes⟩, ?_⟩
  have front : (⟨(0 : Nat), stop⟩ : Span).resolve block = block.take stop := Text.slice_natCast block 0 stop
  rw [front]
  exact List.take_prefix stop block

theorem extract_eq_none_iff {block : Text} :
    extract block = none ↔ ∀ text, text <+: block → ¬ IsQuoted text := by
  constructor
  · intro missing text front quoted
    obtain ⟨shortest, extracted, _⟩ := extract_of_quoted quoted front
    rw [missing] at extracted
    contradiction
  · intro unquoted
    cases extracted : extract block with
    | none => rfl
    | some text =>
        obtain ⟨quoted, front⟩ := quoted_of_extract extracted
        exact absurd quoted (unquoted text front)

theorem extract_shortest {block text other : Text} (extracted : extract block = some text)
    (front : other <+: block) (quoted : IsQuoted other) : text.length ≤ other.length := by
  obtain ⟨shortest, again, short⟩ := extract_of_quoted quoted front
  rw [extracted] at again
  cases again
  exact short

/-- A window holds a docstring exactly if the block cut out of it does, and the docstring is the same
text: the shortest one at the front of the window that opens and closes with the same quotes. -/
theorem locate_extract {source : Text} {limit : Nat} (inside : limit ≤ source.length) (start : Nat) :
    let window := source.slice start limit
    let found := locate source start (some (limit : Int))
    (found = none ↔ extract window = none) ∧
      (found = none ↔ ∀ text, text <+: window → ¬ IsQuoted text) ∧
      ∀ span, found = some span → ∃ text, extract window = some text ∧
        span = ⟨start, (start + text.length : Nat)⟩ ∧ span.stop ≤ limit ∧ span.resolve source = text ∧
        IsQuoted text ∧ text <+: window ∧
        ∀ other, other <+: window → IsQuoted other → text.length ≤ other.length := by
  intro window found
  have cut : found = (extract window).map fun text => ⟨start, (start + text.length : Nat)⟩ :=
    locate_slice inside start
  have missing : found = none ↔ extract window = none := by rw [cut, Option.map_eq_none_iff]
  refine ⟨missing, missing.trans extract_eq_none_iff, fun span located => ?_⟩
  have within := (locate_within inside located).2
  rw [cut] at located
  obtain ⟨text, extracted, rfl⟩ := Option.map_eq_some_iff.mp located
  obtain ⟨quoted, front⟩ := quoted_of_extract extracted
  refine ⟨text, extracted, rfl, within, ?_, quoted, front, fun other => extract_shortest extracted⟩
  have reached : start + text.length ≤ limit := Int.ofNat_le.mp within
  calc (⟨start, (start + text.length : Nat)⟩ : Span).resolve source
      = (source.take (start + text.length)).drop start := Text.slice_natCast source start _
    _ = ((source.take limit).drop start).take text.length := by
        rw [List.take_drop, List.take_take, Nat.min_eq_left reached]
    _ = text := by
        rw [← Text.slice_natCast]
        exact (List.prefix_iff_eq_take.mp front).symm

/-- A fourth quote behind the opening ones and one behind the closing ones, in a window that holds both
and in one that cuts through the closing ones. -/
theorem locate_extract_overlapping :
    let source : Text := "f''''a''''".toList
    (10 ≤ source.length ∧ 8 ≤ source.length) ∧
      (locate source 1 (some 10) = some ⟨1, 9⟩ ∧ extract (source.slice 1 10) = some "''''a'''".toList ∧
        IsQuoted "''''a'''".toList) ∧
      locate source 1 (some 8) = none ∧ extract (source.slice 1 8) = none := by
  intro source
  obtain ⟨_, _, whole⟩ := @locate_extract source 10 (by decide) 1
  obtain ⟨missing, _⟩ := @locate_extract source 8 (by decide) 1
  have located : locate source 1 (some 10) = some ⟨1, 9⟩ := by decide
  have absent : locate source 1 (some 8) = none := by decide
  obtain ⟨text, extracted, _, _, resolved, quoted, _⟩ := whole ⟨1, 9⟩ located
  obtain rfl : text = "''''a'''".toList := resolved.symm
  exact ⟨by decide, ⟨located, extracted, quoted⟩, absent, missing.mp absent⟩

end DocDrift.Docstring
