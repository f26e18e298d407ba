import DocDrift.Check.Source
import DocDrift.Proofs.Token.Forms

namespace DocDrift.Generated

/-! # Functions with a generated docstring

A function is written from its name and its parameters, once as a header and once as the parameter
section of its docstring.
-/

def isIdentifierChar (c : Char) : Bool := c.isAlphanum || c = '_'

/-- Letters, digits and underscores, but no digit in front. -/
def isIdentifier : Text → Bool
  | [] => false
  | c :: rest => (c.isAlpha || c = '_') && rest.all isIdentifierChar

def isPlainChar (c : Char) : Bool :=
  isIdentifierChar c || c = '.' || c = '|' || c = ',' || c = ' ' || c = '(' || c = ')' || c = '[' ||
    c = ']' || c = '\x7b' || c = '\x7d'

/-- Whether a text closes the open brackets and its own in order, with no comma outside brackets. -/
def isNested : List Bracket → Text → Bool
  | opened, [] => opened.isEmpty
  | opened, c :: rest =>
      match Token.Kind.ofChar? c with
      | some (.opening bracket) => isNested (bracket :: opened) rest
      | some (.closing bracket) =>
          match opened with
          | top :: below => top = bracket && isNested below rest
          | [] => false
      | some .comma => !opened.isEmpty && isNested opened rest
      | _ => isNested opened rest

/-- A type or a default value: plain, properly nested, and without spaces at its ends. -/
def isExpression (text : Text) : Bool :=
  !text.isEmpty && text.all isPlainChar && text.head? != some ' ' && text.getLast? != some ' ' &&
    isNested [] text

structure Entry where
  name : Text
  type : Option Text
  value : Option Text
  deriving DecidableEq, Repr

namespace Entry

/-- The parameter in the header: `x`, `x: T`, `x=D` or `x: T = D`. -/
def declaration (entry : Entry) : Text :=
  match entry.type, entry.value with
  | none, none => entry.name
  | some type, none => entry.name ++ ':' :: ' ' :: type
  | none, some value => entry.name ++ '=' :: value
  | some type, some value => entry.name ++ ':' :: ' ' :: type ++ ' ' :: '=' :: ' ' :: value

/-- The parameter in the docstring, before its description: `x` or `x (T)`. -/
def documented (entry : Entry) : Text :=
  match entry.type with
  | none => entry.name
  | some type => entry.name ++ ' ' :: '(' :: type ++ [')']

/-- The line that documents the parameter. -/
def line (entry : Entry) : Text := List.replicate 8 ' ' ++ entry.documented ++ [':', ' ', 'd', '.']

def isValid (entry : Entry) : Bool :=
  isIdentifier entry.name && !(["def".toList, "self".toList, "cls".toList].contains entry.name) &&
    entry.type.all isExpression && entry.value.all isExpression

def parameter (entry : Entry) : Parameter := ⟨entry.name, entry.type⟩

end Entry

def opening : Text := "Summary.\n\n    Args:\n".toList

def content (entries : List Entry) : Text :=
  opening ++ entries.flatMap (fun entry => entry.line ++ ['\n']) ++ List.replicate 4 ' '

def quotes : Text := ['\x22', '\x22', '\x22']

def docstring (entries : List Entry) : Text := quotes ++ content entries ++ quotes

def declarations (entries : List Entry) : Text :=
  Text.join [',', ' '] (entries.map Entry.declaration)

/-- From the end of the header to the body. -/
def indent : Text := ['\n', ' ', ' ', ' ', ' ']

def source (name : Text) (entries : List Entry) : Text :=
  ['d', 'e', 'f', ' '] ++ name ++ '(' :: declarations entries ++ ')' :: ':' :: indent ++
    docstring entries ++ ['\n']

example : source ['f'] [⟨['x'], some "list[int]".toList, none⟩, ⟨['y'], none, some ['2']⟩] =
    "def f(x: list[int], y=2):\n    \x22\x22\x22Summary.\n\n    Args:\n        x (list[int]): d.\n        y: d.\n    \x22\x22\x22\n".toList := by
  decide

/-! ## Characters

All of them are below 128, so a fact about a class of them is checked one by one.
-/

theorem toNat_of_isAlphanum {c : Char} (alphanumeric : c.isAlphanum = true) : c.toNat < 128 := by
  have below : ∀ {limit : UInt32}, c.val ≤ limit → limit.toNat < 128 → c.toNat < 128 :=
    fun upper small => Nat.lt_of_le_of_lt (UInt32.le_iff_toNat_le.mp upper) small
  rcases Bool.or_eq_true_iff.mp alphanumeric with letter | digit
  · rcases Bool.or_eq_true_iff.mp letter with upper | lower
    · exact below (of_decide_eq_true upper).2 (by decide)
    · exact below (of_decide_eq_true (Bool.and_eq_true_iff.mp lower).2) (by decide)
  · exact below (of_decide_eq_true (Bool.and_eq_true_iff.mp digit).2) (by decide)

/-- What holds of the characters below 128 that pass a test holds of all that pass it. -/
theorem forall_ascii {p q : Char → Bool} (ascii : ∀ c, p c = true → c.toNat < 128)
    (checked : (List.range 128).all (fun n => !p (Char.ofNat n) || q (Char.ofNat n)) = true)
    {c : Char} (holds : p c = true) : q c = true := by
  have small := List.mem_range.mpr (ascii c holds)
  have tested := List.all_eq_true.mp checked c.toNat small
  rw [Char.ofNat_toNat] at tested
  simpa [holds] using tested

theorem toNat_of_isIdentifierChar {c : Char} (part : isIdentifierChar c = true) : c.toNat < 128 := by
  simp only [isIdentifierChar, Bool.or_eq_true, decide_eq_true_eq] at part
  rcases part with part | rfl
  · exact toNat_of_isAlphanum part
  · decide

theorem toNat_of_isPlainChar {c : Char} (plain : isPlainChar c = true) : c.toNat < 128 := by
  simp only [isPlainChar, Bool.or_eq_true, decide_eq_true_eq] at plain
  rcases plain with (((((((((part | rfl) | rfl) | rfl) | rfl) | rfl) | rfl) | rfl) | rfl) | rfl) | rfl
  · exact toNat_of_isIdentifierChar part
  all_goals decide

theorem isIdentifier_cons {name : Text} (identifier : isIdentifier name = true) :
    ∃ c rest, name = c :: rest ∧ ∀ d ∈ c :: rest, isIdentifierChar d = true := by
  cases name with
  | nil => contradiction
  | cons c rest =>
      simp only [isIdentifier, Bool.and_eq_true, Bool.or_eq_true, decide_eq_true_eq,
        List.all_eq_true] at identifier
      refine ⟨c, rest, rfl, fun d member => ?_⟩
      rcases List.mem_cons.mp member with rfl | member
      · rcases identifier.1 with letter | underscore
        · simp [isIdentifierChar, Char.isAlphanum, letter]
        · simp [isIdentifierChar, underscore]
      · exact identifier.2 d member

theorem isPlainChar_of_isIdentifier {name : Text} (identifier : isIdentifier name = true) {c : Char}
    (member : c ∈ name) : isPlainChar c = true := by
  obtain ⟨d, rest, rfl, parts⟩ := isIdentifier_cons identifier
  simp [isPlainChar, parts c member]

theorem isPlainChar_of_isExpression {text : Text} (valid : isExpression text = true) {c : Char}
    (member : c ∈ text) : isPlainChar c = true := by
  simp only [isExpression, Bool.and_eq_true, List.all_eq_true] at valid
  exact valid.1.1.1.2 c member

theorem Entry.isPlainChar_of_documented {entry : Entry} (valid : entry.isValid = true) {c : Char}
    (member : c ∈ entry.documented) : isPlainChar c = true := by
  obtain ⟨name, type, value⟩ := entry
  simp only [isValid, Bool.and_eq_true] at valid
  obtain ⟨⟨⟨identifier, _⟩, validType⟩, _⟩ := valid
  cases type with
  | none => exact isPlainChar_of_isIdentifier identifier member
  | some type =>
      simp only [documented, List.mem_append, List.mem_cons, List.not_mem_nil, or_false] at member
      rcases member with (member | rfl | rfl | member) | rfl
      · exact isPlainChar_of_isIdentifier identifier member
      · rfl
      · rfl
      · exact isPlainChar_of_isExpression validType member
      · rfl

theorem Entry.isPlainChar_of_line {entry : Entry} (valid : entry.isValid = true) {c : Char}
    (member : c ∈ entry.line) : isPlainChar c = true ∨ c = ':' := by
  simp only [line, List.mem_append, List.mem_cons, List.not_mem_nil, or_false] at member
  rcases member with (space | member) | rfl | rfl | rfl | rfl
  · obtain rfl := List.eq_of_mem_replicate space
    exact .inl rfl
  · exact .inl (isPlainChar_of_documented valid member)
  · exact .inr rfl
  all_goals exact .inl rfl

theorem isPlainChar_of_content {entries : List Entry} (valid : ∀ entry ∈ entries, entry.isValid = true)
    {c : Char} (member : c ∈ content entries) : isPlainChar c = true ∨ c = ':' ∨ c = '\n' := by
  have shown : opening.all (fun c => isPlainChar c || c == ':' || c == '\n') = true := by decide +kernel
  have front : ∀ c ∈ opening, isPlainChar c = true ∨ c = ':' ∨ c = '\n' := by
    simpa [or_assoc] using shown
  rcases List.mem_append.mp member with member | space
  · rcases List.mem_append.mp member with fixed | line
    · exact front c fixed
    · obtain ⟨entry, inside, member⟩ := List.mem_flatMap.mp line
      rcases List.mem_append.mp member with member | newline
      · rcases Entry.isPlainChar_of_line (valid entry inside) member with plain | colon
        · exact .inl plain
        · exact .inr (.inl colon)
      · exact .inr (.inr (List.mem_singleton.mp newline))
  · obtain rfl := List.eq_of_mem_replicate space
    exact .inl rfl

end DocDrift.Generated
