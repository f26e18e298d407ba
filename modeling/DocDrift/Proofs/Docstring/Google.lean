import DocDrift.Proofs.Docstring.Blocks
import Mathlib.Data.List.Infix

namespace DocDrift.Docstring.Google

/-! # Google sections are read as they are written

The name of an entry ends at its first space and the argument at the first colon, so neither may stand in a
name.  Everything else about an entry is free, as long as it stays on its lines.
-/

/-- A parameter as a section documents it, at an indentation. -/
structure Entry (indentation : Nat) where
  name : Text
  type : Option Text
  /-- A type may be marked as that of an optional parameter. -/
  isOptional : Bool
  description : Text
  below : List (Continuation indentation)
  name_nonempty : name ≠ []
  name_plain : ∀ c ∈ name, Text.isBlank c = false ∧ c ≠ ':'
  name_fixed : name.head? ≠ some '*'
  type_plain : ∀ text ∈ type, text.IsWhole ∧ ':' ∉ text
  type_unmarked : isOptional = false → ∀ text ∈ type, ¬ optionalMark <:+ text
  description_whole : description.IsWhole

variable {indentation : Nat}

namespace Entry

def mark (entry : Entry indentation) : Text := if entry.isOptional then optionalMark else []

/-- What stands before the colon: `x`, `x (T)` or `x (T, optional)`. -/
def argument (entry : Entry indentation) : Text :=
  match entry.type with
  | none => entry.name
  | some type => entry.name ++ ' ' :: ('(' :: type ++ entry.mark ++ [')'])

def first (entry : Entry indentation) : Text :=
  List.replicate indentation ' ' ++ entry.argument ++ ':' :: entry.description

def lines (entry : Entry indentation) : List Text := entry.first :: entry.below.map Continuation.line

def parameter (entry : Entry indentation) : Parameter := ⟨entry.name, entry.type⟩

variable (entry : Entry indentation)

theorem mark_plain : entry.mark.IsWhole ∧ ':' ∉ entry.mark := by
  rw [mark]
  split <;> decide

theorem dropBack_mark {type : Text} (typed : entry.type = some type) :
    Text.dropBack optionalMark (type ++ entry.mark) = type := by
  rw [mark]
  split
  · exact Text.dropBack_append type optionalMark
  · rename_i required
    have unmarked := entry.type_unmarked (Bool.eq_false_iff.mpr required) type typed
    rw [List.append_nil, Text.dropBack, if_neg (by rwa [List.isSuffixOf_iff_suffix])]

theorem bracketed_trimmed (text : Text) : Text.IsTrimmed ('(' :: text ++ [')']) where
  head := Text.IsTrimmed.head_append (by decide : Text.IsTrimmed ['(']) (by decide) (text ++ [')'])
  last := Text.IsTrimmed.last_append (by decide : Text.IsTrimmed [')']) (by decide) ('(' :: text)

theorem name_trimmed : entry.name.IsTrimmed where
  head c first := (entry.name_plain c (List.mem_of_head? first)).1
  last c last := (entry.name_plain c (List.mem_of_getLast? last)).1

theorem argument_nonempty : entry.argument ≠ [] := by
  rw [argument]
  cases entry.type with
  | none => exact entry.name_nonempty
  | some type => simp

theorem argument_trimmed : entry.argument.IsTrimmed := by
  rw [argument]
  cases entry.type with
  | none => exact entry.name_trimmed
  | some type =>
      constructor
      · exact entry.name_trimmed.head_append entry.name_nonempty _
      · have ends := (bracketed_trimmed (type ++ entry.mark)).last_append (by simp) (entry.name ++ [' '])
        rw [List.append_assoc] at ends
        exact ends

theorem argument_plain : entry.argument.IsWhole ∧ ':' ∉ entry.argument := by
  have nameWhole : entry.name.IsWhole := Text.isWhole_of_isBlank fun c member => (entry.name_plain c member).1
  have nameColon : ':' ∉ entry.name := fun member => (entry.name_plain ':' member).2 rfl
  rw [argument]
  cases typed : entry.type with
  | none => exact ⟨nameWhole, nameColon⟩
  | some type =>
      obtain ⟨typeWhole, typeColon⟩ := entry.type_plain type typed
      obtain ⟨markWhole, markColon⟩ := entry.mark_plain
      constructor
      · intro c member
        simp only [List.mem_append, List.mem_cons, List.not_mem_nil, or_false] at member
        rcases member with named | rfl | ((rfl | inType) | inMark) | rfl
        · exact nameWhole c named
        · decide
        · decide
        · exact typeWhole c inType
        · exact markWhole c inMark
        · decide
      · simp [nameColon, typeColon, markColon]

theorem reads : googleEntry entry.first = some entry.parameter := by
  obtain ⟨_, argumentColon⟩ := entry.argument_plain
  have noColon : ':' ∉ List.replicate indentation ' ' ++ entry.argument := by
    simp [argumentColon]
  have noSpace : ' ' ∉ entry.name := fun member => absurd (entry.name_plain ' ' member).1 (by decide)
  have cut : Text.cut [':'] entry.first =
      some (List.replicate indentation ' ' ++ entry.argument, entry.description) :=
    Text.cut_first noColon entry.description
  rw [googleEntry, cut]
  simp only [Option.map_some, entry.argument_trimmed.trim_indented, parameter]
  cases typed : entry.type with
  | none => simp only [argument, typed, Text.cut_absent noSpace]
  | some type =>
      have split : Text.cut [' '] entry.argument =
          some (entry.name, '(' :: type ++ entry.mark ++ [')']) := by
        simp only [argument, typed]
        exact Text.cut_first noSpace _
      -- The brackets are no blanks, so trimming leaves any blanks of the type where they are.
      have bracketed : Text.trim ('(' :: type ++ entry.mark ++ [')']) = '(' :: type ++ entry.mark ++ [')'] :=
        (bracketed_trimmed (type ++ entry.mark)).trim_indented 0
      have bare : Text.dropFront ['('] ('(' :: type ++ entry.mark ++ [')']) = type ++ entry.mark ++ [')'] := by
        simp [Text.dropFront]
      simp only [split, bracketed, bare, Text.dropBack_append, entry.dropBack_mark typed]

theorem first_whole : entry.first.IsWhole := by
  obtain ⟨argumentWhole, _⟩ := entry.argument_plain
  refine ((Text.isWhole_replicate indentation).append argumentWhole).append ?_
  exact List.forall_mem_cons.mpr ⟨by decide, entry.description_whole⟩

theorem first_isEntry : isEntry indentation entry.first = true := by
  rw [first, List.append_assoc]
  exact isEntry_spaces entry.argument_trimmed entry.argument_nonempty _

def block : Block .google indentation where
  first := entry.first
  below := entry.below
  parameter := entry.parameter
  whole := entry.first_whole
  opens := entry.first_isEntry
  reads := entry.reads
  fixed := entry.name_fixed

end Entry

theorem parseSection_entries (entries : List (Entry indentation)) {before last : Text}
    {options : SectionOptions} (absent : ¬ Convention.google.header <:+: before) (ends : last.IsWhole)
    (nonempty : last ≠ []) (colon : ':' ∉ last) :
    let text := Text.ofLines (entries.flatMap Entry.lines) last
    (∀ needle ∈ Convention.google.terminators, ¬ needle <:+: text) →
    (options.breakOnBlankLine = true → beforeBlankLine text = text) →
      parseSection .google options (before ++ (Convention.google.header ++ text)) =
        some (entries.map Entry.parameter) := by
  have lines : (entries.map Entry.block).flatMap Block.lines = entries.flatMap Entry.lines :=
    List.flatMap_map ..
  have parameters : (entries.map Entry.block).map Block.parameter = entries.map Entry.parameter :=
    List.map_map
  have closing : googleEntry last = none := by
    rw [googleEntry, Text.cut_absent colon]
    rfl
  rw [← lines, ← parameters]
  exact @parseSection_blocks .google _ _ before last [] options absent rfl (by simp) ends nonempty closing

/-- A section is read as it was written.  The quotes below it may stand anywhere on their line. -/
theorem parseSection_google (entries : List (Entry indentation)) {before quotes : Text}
    (closing : quotes ∈ delimiters) (unopened : ¬ "Args:\n".toList <:+: before) (skipVariadics : Bool)
    (spaces : Nat) :
    let text := Text.ofLines (entries.flatMap Entry.lines) (List.replicate spaces ' ' ++ quotes)
    (∀ word ∈ ["Returns:\n", "Raises:\n", "Yields:\n"], ¬ word.toList <:+: text) →
      parseSection .google ⟨false, skipVariadics⟩ (before ++ ("Args:\n".toList ++ text)) =
        some (entries.map Entry.parameter) := by
  intro text unended
  obtain ⟨whole, nonempty⟩ := closing_whole closing spaces
  have colon : ':' ∉ List.replicate spaces ' ' ++ quotes := by
    have plain : ∀ quotes ∈ delimiters, ':' ∉ quotes := by decide
    simp [plain quotes closing]
  refine parseSection_entries entries unopened whole nonempty colon ?_ (by simp)
  intro needle member
  simp only [Convention.terminators, List.mem_cons, List.not_mem_nil, or_false] at member
  rcases member with rfl | rfl | rfl
  · exact unended "Yields:\n" (by simp)
  · exact unended "Returns:\n" (by simp)
  · exact unended "Raises:\n" (by simp)

/-- A marked type with brackets, a colon behind the first one, lines below, and quotes where entries
stand. -/
theorem parseSection_google_nested :
    let below : List (Continuation 4) :=
      [⟨[], by decide, .inl (List.forall_mem_nil _)⟩,
        ⟨"      only: integers".toList, by decide +kernel, .inr (by decide +kernel)⟩]
    let entries : List (Entry 4) :=
      [⟨['x'], some "dict[str, (int)], optional".toList, true, " keys: values".toList, below, by decide,
          List.forall_mem_singleton.mpr (by decide), by decide, by decide +kernel, by decide, by decide +kernel⟩,
        ⟨['f'], none, false, [], [], by decide, List.forall_mem_singleton.mpr (by decide), by decide, by decide,
          by decide, by decide⟩]
    let text := Text.ofLines (entries.flatMap Entry.lines) (List.replicate 4 ' ' ++ ['\x22', '\x22', '\x22'])
    (¬ "Args:\n".toList <:+: "Args: \n    ".toList) ∧
      (∀ word ∈ ["Returns:\n", "Raises:\n", "Yields:\n"], ¬ word.toList <:+: text) ∧
      parseSection .google ⟨false, true⟩ ("Args: \n    ".toList ++ ("Args:\n".toList ++ text)) =
        some [⟨['x'], some "dict[str, (int)], optional".toList⟩, ⟨['f'], none⟩] := by
  intro below entries text
  have unopened : ¬ "Args:\n".toList <:+: "Args: \n    ".toList := by decide +kernel
  have unended : ∀ word ∈ ["Returns:\n", "Raises:\n", "Yields:\n"], ¬ word.toList <:+: text := by
    decide +kernel
  exact ⟨unopened, unended, parseSection_google entries (by decide) unopened true 4 unended⟩

end DocDrift.Docstring.Google
