import DocDrift.Proofs.Signature.Steps

namespace DocDrift

/-! # Nested brackets inside an entry

The reader counts open brackets by kind.  On properly nested text the counts come from the stack of
open brackets, and the reader passes over everything that ends no part of the entry.
-/

/-- The counts of a stack of open brackets. -/
def Depth.ofStack (opened : List Bracket) : Depth :=
  ⟨opened.count .round, opened.count .square, opened.count .curly⟩

namespace Depth

theorem enter_ofStack (opened : List Bracket) (bracket : Bracket) :
    (ofStack opened).enter bracket = ofStack (bracket :: opened) := by
  cases bracket <;> simp [ofStack, enter]

theorem leave?_ofStack (opened : List Bracket) (bracket : Bracket) :
    (ofStack (bracket :: opened)).leave? bracket = some (ofStack opened) := by
  cases bracket <;> simp [ofStack, leave?]

theorem isFlat_ofStack (opened : List Bracket) : (ofStack opened).isFlat = opened.isEmpty := by
  cases opened with
  | nil => rfl
  | cons bracket rest => cases bracket <;> simp [ofStack, isFlat]

end Depth

/-- The brackets open after one more token of an entry's part, if it goes on and nests properly. -/
def EntryPart.nest (part : EntryPart) (opened : List Bracket) : Token.Kind → Option (List Bracket)
  | .opening bracket => some (bracket :: opened)
  | .closing bracket =>
      match opened with
      | top :: below => if top = bracket then some below else none
      | [] => none
  | .comma => if opened = [] then none else some opened
  | .equals => if opened = [] ∧ part = .type then none else some opened
  | _ => some opened

namespace Reader

variable {reading : Reading} {heading : Heading} {params : List Parameter} {name : Text}
  {type : Option Text} {part : EntryPart} {start : Nat} {opened after : List Bracket} {token : Token}

theorem step_nest (nested : part.nest opened token.kind = some after) :
    (inside heading params name type part start (.ofStack opened)).step reading token =
      .ok (inside heading params name type part start (.ofStack after), none) := by
  simp only [step, stepInside]
  cases kind : token.kind with
  | opening bracket =>
      rw [kind] at nested
      cases nested
      simp only [Depth.enter_ofStack]
      rfl
  | closing bracket =>
      rw [kind] at nested
      cases opened with
      | nil => contradiction
      | cons top below =>
          simp only [EntryPart.nest] at nested
          split at nested
          · rename_i same
            cases nested
            subst same
            simp only [Depth.leave?_ofStack]
            rfl
          · contradiction
  | comma =>
      rw [kind] at nested
      simp only [EntryPart.nest] at nested
      split at nested
      · contradiction
      · cases nested
        simp_all [Depth.isFlat_ofStack, Except.map]
  | equals =>
      rw [kind] at nested
      simp only [EntryPart.nest] at nested
      split at nested
      · contradiction
      · rename_i goes
        cases nested
        simp [Depth.isFlat_ofStack, goes, Except.map]
  | define | colon | text =>
      rw [kind] at nested
      cases nested
      rfl

/-- What an entry's part has read when a token ends it. -/
def readPart (reading : Reading) (type : Option Text) (part : EntryPart) (start stop : Nat) :
    Option Text :=
  match part with
  | .type => some (reading.textBetween start stop)
  | .value => type

theorem step_comma (comma : token.kind = .comma) :
    (inside heading params name type part start (.ofStack [])).step reading token =
      .ok (entries heading
        (reading.keep params name (readPart reading type part start token.start)), none) := by
  simp only [step, stepInside, comma]
  rfl

theorem step_close (close : token.kind = .closing .round) :
    (inside heading params name type part start (.ofStack [])).step reading token =
      .ok (closing heading
        (reading.keep params name (readPart reading type part start token.start)) 0, none) := by
  simp only [step, stepInside, close]
  rfl

theorem step_equals (equals : token.kind = .equals) :
    (inside heading params name type .type start (.ofStack [])).step reading token =
      .ok (inside heading params name (some (reading.textBetween start token.start)) .value token.stop
        (.ofStack []), none) := by
  simp only [step, stepInside, equals]
  rfl

/-- The state behind an entry: a comma leads to the next one, a bracket closes the list. -/
def behind (heading : Heading) (params : List Parameter) (kind : Token.Kind) : Reader :=
  if kind = .comma then entries heading params else closing heading params 0

/-- The marks that end an entry. -/
def EndsEntry (kind : Token.Kind) : Prop := kind = .comma ∨ kind = .closing .round

theorem step_ends (ends : EndsEntry token.kind) :
    (inside heading params name type part start (.ofStack [])).step reading token =
      .ok (behind heading (reading.keep params name (readPart reading type part start token.start))
        token.kind, none) := by
  rcases ends with comma | close
  · rw [behind, if_pos comma]
    exact step_comma comma
  · rw [behind, if_neg (by simp [close])]
    exact step_close close

theorem step_named (ends : EndsEntry token.kind) :
    (named heading params name).step reading token =
      .ok (behind heading (reading.keep params name none) token.kind, none) := by
  rcases ends with kind | kind <;> simp [step, behind, kind]

end Reader
end DocDrift
