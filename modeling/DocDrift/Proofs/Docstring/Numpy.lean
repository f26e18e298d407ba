import DocDrift.Proofs.Docstring.Blocks
import Mathlib.Data.List.Infix

namespace DocDrift.Docstring.Numpy

/-! # NumPy sections are read as they are written

A line without a colon is an entry here, so only its characters tell a name from the quotes that close the
docstring where entries stand.
-/

structure Entry (indentation : Nat) where
  name : Text
  type : Option Text
  /-- The spaces on both sides of the colon before a type. -/
  left : Nat
  right : Nat
  below : List (Continuation indentation)
  name_plain : name.IsWhole ∧ ':' ∉ name
  name_trimmed : name.IsTrimmed
  name_unquoted : ∃ c ∈ name, c ≠ '\x27' ∧ c ≠ '\x22'
  name_fixed : name.head? ≠ some '*'
  type_plain : ∀ text ∈ type, text.IsWhole ∧ text.IsTrimmed

variable {indentation : Nat}

namespace Entry

/-- What stands behind the name: nothing, or a colon and the type. -/
def tail (entry : Entry indentation) : Text :=
  match entry.type with
  | none => []
  | some type => List.replicate entry.left ' ' ++ ':' :: (List.replicate entry.right ' ' ++ type)

def first (entry : Entry indentation) : Text :=
  List.replicate indentation ' ' ++ (entry.name ++ entry.tail)

def lines (entry : Entry indentation) : List Text := entry.first :: entry.below.map Continuation.line

def parameter (entry : Entry indentation) : Parameter := ⟨entry.name, entry.type⟩

variable (entry : Entry indentation)

theorem name_nonempty : entry.name ≠ [] := by
  obtain ⟨c, member, _⟩ := entry.name_unquoted
  exact List.ne_nil_of_mem member

/-- A character of the name tells the line from closing quotes. -/
theorem first_unquoted : (Text.trim entry.first).all (fun c => c == '\x27' || c == '\x22') = false := by
  obtain ⟨c, member, single, double⟩ := entry.name_unquoted
  have kept := entry.name_trimmed.prefix_trim entry.name_nonempty indentation entry.tail
  rw [List.all_eq_false]
  exact ⟨c, kept.subset member, by simp [single, double]⟩

theorem reads : numpyEntry entry.first = some entry.parameter := by
  rw [numpyEntry]
  simp only [entry.first_unquoted, Bool.false_eq_true, if_false, parameter]
  cases typed : entry.type with
  | none =>
      have noColon : ':' ∉ entry.first := by
        simp [first, tail, typed, entry.name_plain.2]
      have named : Text.trim entry.first = entry.name := by
        rw [first, tail, typed]
        exact entry.name_trimmed.trim_spaces indentation 0
      simp only [Text.cut_absent noColon, named]
  | some type =>
      have noColon : ':' ∉ List.replicate indentation ' ' ++ (entry.name ++ List.replicate entry.left ' ') := by
        simp [entry.name_plain.2]
      have cut : Text.cut [':'] entry.first =
          some (List.replicate indentation ' ' ++ (entry.name ++ List.replicate entry.left ' '),
            List.replicate entry.right ' ' ++ type) := by
        have found := @Text.cut_first ':' [] _ noColon (List.replicate entry.right ' ' ++ type)
        rw [List.append_assoc, List.append_assoc] at found
        rw [first, tail, typed]
        exact found
      simp only [cut, entry.name_trimmed.trim_spaces, (entry.type_plain type typed).2.trim_indented]

theorem first_whole : entry.first.IsWhole := by
  refine (Text.isWhole_replicate indentation).append (entry.name_plain.1.append ?_)
  rw [tail]
  cases typed : entry.type with
  | none => exact List.forall_mem_nil _
  | some type =>
      refine (Text.isWhole_replicate entry.left).append (List.forall_mem_cons.mpr ⟨by decide, ?_⟩)
      exact (Text.isWhole_replicate entry.right).append (entry.type_plain type typed).1

theorem first_isEntry : isEntry indentation entry.first = true :=
  isEntry_spaces entry.name_trimmed entry.name_nonempty entry.tail

def block : Block .numpy indentation where
  first := entry.first
  below := entry.below
  parameter := entry.parameter
  whole := entry.first_whole
  opens := entry.first_isEntry
  reads := entry.reads
  fixed := entry.name_fixed

end Entry

theorem numpyEntry_closing {quotes : Text} (closing : quotes ∈ delimiters) (spaces : Nat) :
    numpyEntry (List.replicate spaces ' ' ++ quotes) = none := by
  have plain : ∀ quotes ∈ delimiters, quotes.IsTrimmed ∧
      quotes.all (fun c => c == '\x27' || c == '\x22') = true := by
    decide
  obtain ⟨trimmed, only⟩ := plain quotes closing
  simp only [numpyEntry, trimmed.trim_indented, only, if_true]

/-- A section is read as it was written.  What ends a section is no end of its underline. -/
theorem parseSection_numpy (entries : List (Entry indentation)) {before underline quotes : Text}
    (closing : quotes ∈ delimiters) (unopened : ¬ "Parameters\n".toList <:+: before)
    (whole : underline.IsWhole) (other : ¬ "Returns".toList <:+ underline) (skipVariadics : Bool)
    (spaces : Nat) :
    let text := Text.ofLines (entries.flatMap Entry.lines) (List.replicate spaces ' ' ++ quotes)
    ¬ "Returns\n".toList <:+: text →
      parseSection .numpy ⟨false, skipVariadics⟩
          (before ++ ("Parameters\n".toList ++ (underline ++ '\n' :: text))) =
        some (entries.map Entry.parameter) := by
  intro text unended
  have lines : [underline] ++ (entries.map Entry.block).flatMap Block.lines =
      underline :: entries.flatMap Entry.lines :=
    congrArg _ (List.flatMap_map ..)
  have parameters : (entries.map Entry.block).map Block.parameter = entries.map Entry.parameter :=
    List.map_map
  obtain ⟨ends, nonempty⟩ := closing_whole closing spaces
  rw [← Text.ofLines_cons, ← lines, ← parameters]
  apply parseSection_blocks (entries.map Entry.block) unopened rfl (List.forall_mem_singleton.mpr whole) ends
    nonempty (numpyEntry_closing closing spaces)
  · rw [lines, Text.ofLines_cons]
    refine List.forall_mem_singleton.mpr fun found => ?_
    exact (Text.infix_below (by decide) whole.newline found).elim other unended
  · simp

/-- A name with a blank and quotes, a type with a colon, an empty type, and lines below that could end the
section or begin an entry. -/
theorem parseSection_numpy_colons :
    let below : List (Continuation 4) :=
      [⟨"        Returns a: b".toList, by decide +kernel, .inr (by decide +kernel)⟩,
        ⟨[], by decide, .inl (List.forall_mem_nil _)⟩]
    let entries : List (Entry 4) :=
      [⟨['\x22', ' ', '\x22'], some "dict: int".toList, 1, 2, below, by decide, by decide,
          ⟨' ', by decide⟩, by decide, by decide +kernel⟩,
        ⟨['f'], none, 0, 0, [], by decide, by decide, ⟨'f', by decide⟩, by decide, by decide⟩,
        ⟨['g'], some [], 0, 1, [], by decide, by decide, ⟨'g', by decide⟩, by decide, by decide⟩]
    let text := Text.ofLines (entries.flatMap Entry.lines) (List.replicate 4 ' ' ++ ['\x27', '\x27', '\x27'])
    (¬ "Parameters\n".toList <:+: "Parameters: \n    ".toList) ∧ ¬ "Returns\n".toList <:+: text ∧
      parseSection .numpy ⟨false, true⟩ ("Parameters: \n    ".toList ++
          ("Parameters\n".toList ++ ("    --- Returns -".toList ++ '\n' :: text))) =
        some [⟨['\x22', ' ', '\x22'], some "dict: int".toList⟩, ⟨['f'], none⟩, ⟨['g'], some []⟩] := by
  intro below entries text
  have unopened : ¬ "Parameters\n".toList <:+: "Parameters: \n    ".toList := by decide +kernel
  have unended : ¬ "Returns\n".toList <:+: text := by decide +kernel
  exact ⟨unopened, unended, parseSection_numpy entries (by decide) unopened (by decide +kernel)
    (by decide +kernel) true 4 unended⟩

end DocDrift.Docstring.Numpy
