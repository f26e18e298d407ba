import DocDrift.Proofs.Signature.ParameterList
import DocDrift.Proofs.Syntax.Concrete
import DocDrift.Signature.Strategy

namespace DocDrift

/-! # Default values

A tree holds a default value as one expression.  The forward scan knows no expressions: for it a default
value ends at the first comma outside brackets, and what is behind the comma declares the next
parameters.  The strategies part where an expression has such a comma of its own.
-/

/-- A run and the token that ends it come off the front of some tokens in one way only. -/
theorem EntryPart.IsRun.unique {part : EntryPart} {run other rest more : List Token} {stop last : Token}
    (first : part.IsRun run) (second : part.IsRun other) (stops : part.isEnd stop.kind = true)
    (ends : part.isEnd last.kind = true ∨ last.kind = .closing .round)
    (same : run ++ stop :: rest = other ++ last :: more) : run = other ∧ stop = last ∧ rest = more := by
  rcases List.append_eq_append_iff.mp same with ⟨longer, split, tail⟩ | ⟨longer, split, tail⟩
  · cases longer with
    | nil => exact ⟨by rw [split, List.append_nil], List.cons.inj tail⟩
    | cons token longer =>
        obtain ⟨rfl, _⟩ := List.cons.inj tail
        have inside : run ++ [stop] <+: other := ⟨longer, by rw [split, List.append_assoc]; rfl⟩
        have goes := second.unended run stop inside first.balanced.even
        rw [stops] at goes
        contradiction
  · cases longer with
    | nil => exact ⟨by rw [split, List.append_nil], (List.cons.inj tail.symm)⟩
    | cons token longer =>
        obtain ⟨rfl, _⟩ := List.cons.inj tail
        have inside : other ++ [last] <+: run := ⟨longer, by rw [split, List.append_assoc]; rfl⟩
        rcases ends with comma | close
        · have goes := first.unended other last inside second.balanced.even
          rw [comma] at goes
          contradiction
        · -- The bracket would close one that is not open.
          have covered := first.balanced.covered .round _ inside
          have level := second.balanced.even .round
          rw [Token.openings_append, Token.closings_append, Token.openings_single, Token.closings_single,
            close] at covered
          simp only [reduceCtorEq, if_false, if_true] at covered
          omega

namespace Reading

variable {reading : Reading} {name equals comma : Token} {value list : List Token}

theorem declares_valued {last : Token} {entry more : List Token} {parameter : Parameter}
    (declares : reading.Declares last entry parameter) (ends : Reader.EndsEntry last.kind)
    (assigned : equals.kind = .equals) (valuing : EntryPart.value.IsRun value)
    (separates : comma.kind = .comma)
    (same : name :: equals :: (value ++ comma :: list) = entry ++ last :: more) :
    comma = last ∧ list = more ∧ parameter = ⟨name.text, none⟩ := by
  have apart {token : Token} {kind : Token.Kind} (here : equals = token) (is : token.kind = kind) :
      kind = .equals := by
    rw [← is, ← here, assigned]
  cases declares with
  | bare =>
      obtain ⟨_, rest⟩ := List.cons.inj same
      rcases ends with comma | close
      · cases apart (List.cons.inj rest).1 comma
      · cases apart (List.cons.inj rest).1 close
  | typed _ separated | typedValued _ separated =>
      obtain ⟨_, rest⟩ := List.cons.inj same
      cases apart (List.cons.inj rest).1 separated
  | valued _ _ valuingOther =>
      obtain ⟨rfl, behind⟩ := List.cons.inj same
      obtain ⟨rfl, values⟩ := List.cons.inj behind
      have stops : EntryPart.value.isEnd comma.kind = true := by
        rw [separates]
        rfl
      have final : EntryPart.value.isEnd last.kind = true ∨ last.kind = .closing .round :=
        ends.imp_left fun comma => by
          rw [comma]
          rfl
      obtain ⟨rfl, rfl, rfl⟩ := valuing.unique valuingOther stops final values
      exact ⟨rfl, rfl, rfl⟩

/-- A default value reaches to the first comma outside brackets, whatever expression the comma is part
of. -/
theorem lists_valued {listed : List Parameter} (named : name.kind = .text) (assigned : equals.kind = .equals)
    (valuing : EntryPart.value.IsRun value) (separates : comma.kind = .comma) :
    reading.Lists (name :: equals :: (value ++ comma :: list)) listed ↔
      ∃ others, reading.Lists list others ∧ listed = ⟨name.text, none⟩ :: others := by
  constructor
  · intro lists
    generalize same : name :: equals :: (value ++ comma :: list) = tokens at lists
    cases lists with
    | empty => simp at same
    | last declares closes =>
        obtain ⟨rfl, _⟩ := declares_valued declares (.inr closes) assigned valuing separates same
        rw [closes] at separates
        contradiction
    | more declares comma later =>
        obtain ⟨rfl, rfl, rfl⟩ := declares_valued declares (.inl comma) assigned valuing separates same
        exact ⟨_, later, rfl⟩
  · rintro ⟨others, later, rfl⟩
    exact .more (.valued named assigned valuing) separates later

end Reading

namespace Strategy

/-- A default value with a comma outside all brackets. -/
def lambdaProgram : Text := "def f(key=lambda a, b: a):\n    pass\n".toList

/-- The forward scan takes the comma of a lambda for the end of the entry, and the rest of the lambda
for another parameter. -/
theorem extract_disagree_lambda :
    '\r' ∉ lambdaProgram ∧ lambdaProgram.head? ≠ some '\ufeff' ∧
      (∃ module, Syntax.parser.parse lambdaProgram = .ok module ∧ module.IsPlaced lambdaProgram) ∧
      (Strategy.tree.extract true lambdaProgram).fault = none ∧
      (Strategy.tree.extract true lambdaProgram).signatures.map (·.params.map (·.name)) =
        [[['k', 'e', 'y']]] ∧
      (Strategy.lexer.extract true lambdaProgram).fault = none ∧
      (Strategy.lexer.extract true lambdaProgram).signatures.map (·.params.map (·.name)) =
        [[['k', 'e', 'y'], ['b']]] := by
  have clean : '\r' ∉ lambdaProgram := by decide +kernel
  have unmarked : lambdaProgram.head? ≠ some '\ufeff' := by decide +kernel
  have parses : (Syntax.parse (Walk.withoutMark lambdaProgram)).isSome = true := by decide +kernel
  obtain ⟨module, parsed⟩ := Syntax.parse_exists parses
  refine ⟨clean, unmarked, ⟨module, parsed, Syntax.parser_placed unmarked parsed⟩, ?_⟩
  decide +kernel

end Strategy
end DocDrift
