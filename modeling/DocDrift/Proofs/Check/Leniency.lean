import DocDrift.Proofs.Check.Comparison
import DocDrift.Proofs.Run.Results
import DocDrift.Syntax.Parser

namespace DocDrift

/-! # Leniency

Three flags of a configuration only say what is tolerated.  They have no part in reading a source, so
a configuration that tolerates more comes to verdicts on the same functions and keeps every verdict
that is in favour.
-/

namespace Comparison

variable {strict lenient : Bool} {declared documented : List Parameter}

theorem typesAgree_mono (mono : strict = true → lenient = true) {declared documented : Option Text}
    (agree : typesAgree strict declared documented = true) : typesAgree lenient declared documented = true := by
  simp only [typesAgree, Bool.or_eq_true, Bool.and_eq_true] at agree ⊢
  exact agree.imp_right fun tolerated => ⟨mono tolerated.1, tolerated.2⟩

theorem compare_mono (mono : strict = true → lenient = true)
    (agree : compare strict declared documented = none) : compare lenient declared documented = none := by
  rw [compare_eq_none] at agree ⊢
  exact agree.imp fun _ _ agrees => ⟨agrees.name, typesAgree_mono mono agrees.type⟩

end Comparison

/-- A configuration that differs from another at most in tolerating more. -/
structure Config.Relaxes (relaxed config : Config) : Prop where
  breakOnEmptyLine : relaxed.breakOnEmptyLine = config.breakOnEmptyLine
  skipVariadicParams : relaxed.skipVariadicParams = config.skipVariadicParams
  style : relaxed.style = config.style
  strategy : relaxed.strategy = config.strategy
  noDocstring : config.succeedIfNoDocstring = true → relaxed.succeedIfNoDocstring = true
  noArgsSection : config.succeedIfNoArgsSection = true → relaxed.succeedIfNoArgsSection = true
  docstringUntyped : config.succeedIfDocstringUntyped = true → relaxed.succeedIfDocstringUntyped = true

/-- A verdict on the same function that is in favour at least where the other one is. -/
structure Verdict.Milder (milder verdict : Verdict) : Prop where
  path : milder.path = verdict.path
  functionName : milder.functionName = verdict.functionName
  line : milder.line = verdict.line
  compliant : verdict.compliant = true → milder.compliant = true

def Result.cause? : Result → Option Cause
  | error _ _ cause _ _ _ => cause
  | _ => none

/-- A result that is an error exactly where the other one is, with the same cause, and has milder
verdicts on the same functions. -/
structure Result.Milder (milder result : Result) : Prop where
  isError : milder.isError = result.isError
  cause : result.isError = true → ∃ cause, result.cause? = some cause ∧ milder.cause? = some cause
  verdicts : List.Forall₂ Verdict.Milder milder.verdicts result.verdicts
  success : result.success = true → milder.success = true

namespace Check

variable {config relaxed : Config}

theorem find_relaxes (relaxes : relaxed.Relaxes config) (signature : Signature)
    (compliant : (find config signature).isCompliant config = true) :
    (find relaxed signature).isCompliant relaxed = true := by
  simp only [find, relaxes.breakOnEmptyLine, relaxes.skipVariadicParams, relaxes.style] at compliant ⊢
  cases documented : signature.docstring with
  | none =>
      rw [documented] at compliant
      exact relaxes.noDocstring compliant
  | some docstring =>
      simp only [documented] at compliant ⊢
      cases parsed : Docstring.parse config.style ⟨config.breakOnEmptyLine, config.skipVariadicParams⟩
          docstring with
      | none =>
          rw [parsed] at compliant
          exact relaxes.noArgsSection compliant
      | some entries =>
          simp only [parsed] at compliant ⊢
          -- The finding changes only from a missing type to agreement, which needs no tolerance.
          cases compared : Comparison.compare config.succeedIfDocstringUntyped signature.params entries with
          | none =>
              rw [Comparison.compare_mono relaxes.docstringUntyped compared]
              rfl
          | some problem =>
              rw [compared] at compliant
              contradiction

theorem checkSignature_relaxes (relaxes : relaxed.Relaxes config) (path : Option Path) (signature : Signature) :
    (checkSignature relaxed path signature).Milder (checkSignature config path signature) :=
  ⟨rfl, rfl, rfl, find_relaxes relaxes signature⟩

theorem verdicts_relaxes (relaxes : relaxed.Relaxes config) (path : Option Path) (signatures : List Signature) :
    List.Forall₂ Verdict.Milder (signatures.map (checkSignature relaxed path))
      (signatures.map (checkSignature config path)) := by
  rw [List.forall₂_map_left_iff, List.forall₂_map_right_iff, List.forall₂_same]
  exact fun signature _ => checkSignature_relaxes relaxes path signature

theorem compliant_of_milder {milder verdicts : List Verdict}
    (related : List.Forall₂ Verdict.Milder milder verdicts)
    (compliant : ∀ verdict ∈ verdicts, verdict.compliant = true) :
    ∀ verdict ∈ milder, verdict.compliant = true := by
  induction related with
  | nil => simp
  | cons first _ ih =>
      simp only [List.forall_mem_cons] at compliant ⊢
      exact ⟨first.compliant compliant.1, ih compliant.2⟩

theorem summarize_milder (path : Option Path) {milder verdicts : List Verdict}
    (related : List.Forall₂ Verdict.Milder milder verdicts) {result : Result}
    (summed : (summarize path verdicts).result = some result) :
    ∃ relieved, (summarize path milder).result = some relieved ∧ relieved.Milder result := by
  cases summed
  refine ⟨_, rfl, rfl, fun failed => by contradiction, related, ?_⟩
  have all := compliant_of_milder related
  simpa [Result.success, List.countP_eq_zero] using all

theorem fail_milder (path : Option Path) {milder verdicts : List Verdict}
    (related : List.Forall₂ Verdict.Milder milder verdicts) (cause : Cause) (lead : String) :
    (fail path milder cause lead).Milder (fail path verdicts cause lead) :=
  ⟨rfl, fun _ => ⟨cause, rfl, rfl⟩, related, by simp [fail, Result.success]⟩

theorem settle_milder (path : Option Path) {milder verdicts : List Verdict}
    (related : List.Forall₂ Verdict.Milder milder verdicts) (fault : Option Fault) {result : Result}
    (settled : settle path verdicts fault = some result) :
    ∃ relieved, settle path milder fault = some relieved ∧ relieved.Milder result := by
  match fault with
  | none => exact summarize_milder path related settled
  | some (.scan error) =>
      cases settled
      exact ⟨_, rfl, fail_milder path related _ _⟩
  | some (.invariant text) =>
      cases settled
      exact ⟨_, rfl, fail_milder path related _ _⟩
  | some .uncaught => contradiction

/-- Where checking a source comes to a result, it comes to a milder one under a configuration that
tolerates more: the same error or none, verdicts on the same functions in the same order, in favour
wherever they were, and a success if it was one. -/
theorem checkSource_relaxes [Cst.Parser] (relaxes : relaxed.Relaxes config) (path : Option Path) (source : Text)
    {result : Result} (checked : (checkSource config path source).result = some result) :
    ∃ relieved, (checkSource relaxed path source).result = some relieved ∧ relieved.Milder result := by
  -- Neither the strategy nor what it skips is relaxed, so both runs settle one and the same extraction.
  rw [checkSource_result] at checked
  rw [checkSource_result, relaxes.strategy, relaxes.skipVariadicParams]
  exact settle_milder path (verdicts_relaxes relaxes path _) _ checked

/-- A type that the docstring leaves out, a function without a docstring, and one that breaks off. -/
theorem checkSource_relaxes_untyped :
    let config : Config := ⟨false, false, true, false, true, .auto, .lexer⟩
    let relaxed : Config := { config with succeedIfDocstringUntyped := true }
    let source := "def f(a: int):\n    '''Args:\n        a: A.\n    '''\ndef g(): 0\ndef h(".toList
    relaxed.Relaxes config ∧ ∃ result relieved, (checkSource config none source).result = some result ∧
      (checkSource relaxed none source).result = some relieved ∧ relieved.Milder result ∧
      result.isError = true ∧ result.verdicts.map (·.compliant) = [false, false] ∧
      relieved.verdicts.map (·.compliant) = [true, false] := by
  intro config relaxed source
  have relaxes : relaxed.Relaxes config := ⟨rfl, rfl, rfl, rfl, id, id, fun _ => rfl⟩
  have strict : (checkSource config none source).result.map (fun result =>
      (result.isError, result.verdicts.map (·.compliant))) = some (true, [false, false]) := by
    decide +kernel
  have lenient : (checkSource relaxed none source).result.map (fun result =>
      result.verdicts.map (·.compliant)) = some [true, false] := by
    decide +kernel
  obtain ⟨result, checked, seen⟩ := Option.map_eq_some_iff.mp strict
  obtain ⟨failed, verdicts⟩ := Prod.mk.inj seen
  obtain ⟨relieved, eased, milder⟩ := checkSource_relaxes relaxes none source checked
  rw [eased] at lenient
  exact ⟨relaxes, result, relieved, checked, eased, milder, failed, verdicts, Option.some.inj lenient⟩

end Check
end DocDrift
