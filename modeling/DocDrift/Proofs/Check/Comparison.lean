import Mathlib.Data.List.Forall2
import DocDrift.Comparison

namespace DocDrift

/-! # The first disagreement

Parameters are compared pair by pair from the front, and the first pair that disagrees ends the comparison.
So nothing is reported exactly where all pairs match, and what is reported is about the first pair that does
not.
-/

/-- A declared and a documented parameter between which no disagreement is found. -/
structure Parameter.Agrees (lenient : Bool) (declared documented : Parameter) : Prop where
  name : declared.name = documented.name
  type : Comparison.typesAgree lenient declared.type documented.type = true

instance (lenient : Bool) (declared documented : Parameter) : Decidable (declared.Agrees lenient documented) :=
  decidable_of_iff (_ ∧ _) ⟨fun agrees => ⟨agrees.1, agrees.2⟩, fun agrees => ⟨agrees.name, agrees.type⟩⟩

/-- The names are equal, and the types are both missing, both there and equal, or, if that is tolerated,
one is there and the other is missing. -/
def Parameter.Matches (lenient : Bool) (declared documented : Parameter) : Prop :=
  declared.name = documented.name ∧
    match declared.type, documented.type with
    | none, none => True
    | some type, some other => type = other
    | some _, none | none, some _ => lenient = true

theorem Parameter.agrees_iff_matches {lenient : Bool} {declared documented : Parameter} :
    declared.Agrees lenient documented ↔ declared.Matches lenient documented := by
  have types : Comparison.typesAgree lenient declared.type documented.type = true ↔
      match declared.type, documented.type with
      | none, none => True
      | some type, some other => type = other
      | some _, none | none, some _ => lenient = true := by
    cases declared.type <;> cases documented.type <;> simp [Comparison.typesAgree]
  exact ⟨fun agrees => ⟨agrees.name, types.mp agrees.type⟩, fun pair => ⟨pair.1, types.mpr pair.2⟩⟩

/-- The disagreement of two parameters at a position: over the names, or else over the types. -/
def Problem.between (position : Nat) (declared documented : Parameter) : Problem :=
  if declared.name = documented.name then .types declared.name declared.type documented.type
  else .names position declared.name documented.name

namespace Comparison

variable {lenient : Bool} {declared documented : List Parameter}

theorem firstProblem_cons (lenient : Bool) (position : Nat) (parameter other : Parameter)
    (rest others : List Parameter) :
    firstProblem lenient position (parameter :: rest) (other :: others) =
      if parameter.Agrees lenient other then firstProblem lenient (position + 1) rest others
      else some (.between position parameter other) := by
  by_cases named : parameter.name = other.name
  · by_cases typed : typesAgree lenient parameter.type other.type = true
    · rw [if_pos ⟨named, typed⟩]
      simp [firstProblem, named, typed]
    · rw [if_neg fun agrees => typed agrees.type]
      simp [firstProblem, Problem.between, named, typed]
  · rw [if_neg fun agrees => named agrees.name]
    simp [firstProblem, Problem.between, named]

theorem firstProblem_eq_none (position : Nat) (same : declared.length = documented.length) :
    firstProblem lenient position declared documented = none ↔
      List.Forall₂ (Parameter.Agrees lenient) declared documented := by
  induction declared generalizing documented position with
  | nil =>
      obtain rfl := List.length_eq_zero_iff.mp same.symm
      exact iff_of_true rfl .nil
  | cons parameter rest ih =>
      cases documented with
      | nil => contradiction
      | cons other others =>
          rw [firstProblem_cons, List.forall₂_cons]
          split
          · rename_i agrees
            rw [ih (position + 1) (Nat.succ.inj same)]
            exact (and_iff_right agrees).symm
          · rename_i differ
            exact iff_of_false (by simp) fun all => differ all.1

theorem compare_eq_none :
    compare lenient declared documented = none ↔
      List.Forall₂ (Parameter.Agrees lenient) declared documented := by
  unfold compare
  split
  · rename_i differ
    exact iff_of_false (by simp) fun agree => differ agree.length_eq
  · rename_i same
    exact firstProblem_eq_none 1 (Decidable.not_not.mp same)

/-- Before the pair that is reported, all pairs agree. -/
theorem firstProblem_eq_some {position : Nat} {problem : Problem}
    (found : firstProblem lenient position declared documented = some problem) :
    ∃ i, ∃ (here : i < declared.length) (there : i < documented.length),
      ¬ declared[i].Agrees lenient documented[i] ∧
        (∀ j (before : j < i), declared[j].Agrees lenient documented[j]) ∧
        problem = .between (position + i) declared[i] documented[i] := by
  induction declared generalizing documented position with
  | nil => contradiction
  | cons parameter rest ih =>
      cases documented with
      | nil => contradiction
      | cons other others =>
          rw [firstProblem_cons] at found
          split at found
          · rename_i agrees
            obtain ⟨i, here, there, differ, before, rfl⟩ := ih found
            refine ⟨i + 1, Nat.succ_lt_succ here, Nat.succ_lt_succ there, differ, ?_, ?_⟩
            · intro j earlier
              cases j with
              | zero => exact agrees
              | succ j => exact before j (Nat.lt_of_succ_lt_succ earlier)
            · rw [Nat.add_right_comm, Nat.add_assoc]
              rfl
          · rename_i differ
            cases found
            exact ⟨0, Nat.succ_pos _, Nat.succ_pos _, differ, by simp, rfl⟩

theorem compare_eq_some {problem : Problem} (found : compare lenient declared documented = some problem) :
    declared.length ≠ documented.length ∧ problem = .counts declared.length documented.length ∨
      declared.length = documented.length ∧ firstProblem lenient 1 declared documented = some problem := by
  unfold compare at found
  split at found
  · rename_i differ
    exact .inl ⟨differ, (Option.some.inj found).symm⟩
  · rename_i same
    exact .inr ⟨Decidable.not_not.mp same, found⟩

/-- Two lists compare without a disagreement exactly if they have one length and match at every position.
Else the text gives both lengths, where they differ, or is about the first position that does not match. -/
theorem compare_first (lenient : Bool) (declared documented : List Parameter) :
    (compare lenient declared documented = none ↔
        declared.length = documented.length ∧
          ∀ i (here : i < declared.length) (there : i < documented.length),
            declared[i].Matches lenient documented[i]) ∧
      ∀ text, (compare lenient declared documented).map Problem.message = some text →
        (declared.length ≠ documented.length ∧
            text = toString declared.length ++ " parameters in signature, " ++
              toString documented.length ++ " documented") ∨
          declared.length = documented.length ∧
            ∃ i, ∃ (here : i < declared.length) (there : i < documented.length),
              ¬ declared[i].Matches lenient documented[i] ∧
                (∀ j (before : j < i), declared[j].Matches lenient documented[j]) ∧
                text =
                  if declared[i].name = documented[i].name then
                    "parameter " ++ Text.quoted declared[i].name ++ " has type " ++
                      Problem.showType declared[i].type ++ " but is documented as " ++
                      Problem.showType documented[i].type
                  else
                    "parameter " ++ toString (i + 1) ++ " is " ++ Text.quoted declared[i].name ++ " but " ++
                      Text.quoted documented[i].name ++ " is documented" := by
  constructor
  · rw [compare_eq_none, List.forall₂_iff_get]
    simp only [Parameter.agrees_iff_matches, List.get_eq_getElem]
  · intro text shown
    obtain ⟨problem, found, rfl⟩ := Option.map_eq_some_iff.mp shown
    rcases compare_eq_some found with ⟨differ, rfl⟩ | ⟨same, first⟩
    · exact .inl ⟨differ, rfl⟩
    · obtain ⟨i, here, there, differ, before, rfl⟩ := firstProblem_eq_some first
      simp only [Parameter.agrees_iff_matches] at differ before
      refine .inr ⟨same, i, here, there, differ, before, ?_⟩
      rw [Problem.between, Nat.add_comm 1 i]
      split <;> rfl

/-- A type on one side only is tolerated, and the types at the second position are reported although the
names at the third one differ. -/
theorem compare_first_types :
    let declared : List Parameter := [⟨['x'], some ['T']⟩, ⟨['y'], some ['T']⟩, ⟨['z'], none⟩]
    let documented : List Parameter := [⟨['x'], none⟩, ⟨['y'], some ['U']⟩, ⟨['w'], none⟩]
    let text := "parameter 'y' has type 'T' but is documented as 'U'"
    (compare true declared documented).map Problem.message = some text ∧
      ∃ i, ∃ (here : i < declared.length) (there : i < documented.length),
        ¬ declared[i].Matches true documented[i] ∧
          ∀ j (before : j < i), declared[j].Matches true documented[j] := by
  intro declared documented text
  have shown : (compare true declared documented).map Problem.message = some text := by decide +kernel
  rcases (compare_first true declared documented).2 text shown with ⟨differ, _⟩ | ⟨_, i, here, there, pair, before, _⟩
  · exact absurd rfl differ
  · exact ⟨shown, i, here, there, pair, before⟩

end Comparison
end DocDrift
