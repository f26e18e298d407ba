import DocDrift.Proofs.Check.Diagnostics
import DocDrift.Syntax.Parser

namespace DocDrift.Check

/-! # Verdicts before a failure

The forward scan hands over each signature as soon as it is complete, and its verdict is kept and logged
before the scan goes on.  A failure behind it changes nothing of that.
-/

/-- What checking has come to: the verdicts so far, and the records of those that are not in favour. -/
structure Progress where
  verdicts : List Verdict
  log : List Log.Record

namespace Progress

def check (config : Config) (path : Option Path) (progress : Progress) (signature : Signature) : Progress :=
  let verdict := checkSignature config path signature
  { verdicts := progress.verdicts ++ [verdict]
    log := if verdict.compliant then progress.log
      else progress.log ++ [⟨.error, verdict.location ++ ": " ++ verdict.message⟩] }

/-- The outcome at the end of a scan, or where an error ends it. -/
def conclude (path : Option Path) (source : Text) (progress : Progress) : Option ScanError → Outcome
  | none =>
    let count := toString progress.verdicts.length
    let outcome := summarize path progress.verdicts
    { outcome with
      log := progress.log ++ ⟨.debug, "lexer strategy found " ++ count ++ " functions"⟩ :: outcome.log }
  | some error =>
    let cause := .scan error.message error.offset?
    ⟨some (fail path progress.verdicts cause "Cannot scan "),
     progress.log ++ [⟨.error, "scan error: " ++ describe source path cause⟩]⟩

theorem check_all (config : Config) (path : Option Path) (signatures : List Signature) (progress : Progress) :
    signatures.foldl (check config path) progress =
      let verdicts := signatures.map (checkSignature config path)
      ⟨progress.verdicts ++ verdicts, progress.log ++ failureRecords verdicts⟩ := by
  induction signatures generalizing progress with
  | nil => simp [failureRecords]
  | cons signature signatures ih =>
      rw [List.foldl_cons, ih]
      cases favour : (checkSignature config path signature).compliant <;>
        simp [check, failureRecords, favour]

end Progress

def checkTokens (config : Config) (path : Option Path) (reading : Reading) (reader : Reader)
    (progress : Progress) : List Token → Outcome
  | [] => progress.conclude path reading.source (reader.ended reading.source.length)
  | token :: rest =>
    match reader.step reading token with
    | .ok (next, none) => checkTokens config path reading next progress rest
    | .ok (next, some signature) =>
      checkTokens config path reading next (progress.check config path signature) rest
    | .error error => progress.conclude path reading.source (some error)

variable {config : Config} {path : Option Path} {reading : Reading}

theorem checkTokens_run (reader : Reader) (progress : Progress) (tokens : List Token) :
    ∃ ending : Option ScanError, (reader.run reading tokens).fault = ending.map .scan ∧
      checkTokens config path reading reader progress tokens =
        ((reader.run reading tokens).signatures.foldl (Progress.check config path) progress).conclude
          path reading.source ending := by
  induction tokens generalizing reader progress with
  | nil => exact ⟨_, rfl, rfl⟩
  | cons token tokens ih =>
      rw [checkTokens, Reader.run]
      cases reader.step reading token with
      | error error => exact ⟨some error, rfl, rfl⟩
      | ok result =>
          obtain ⟨next, found⟩ := result
          cases found with
          | none => exact ih next progress
          | some signature => exact ih next (progress.check config path signature)

/-- Checking a source after it is scanned comes to the same as checking it meanwhile. -/
theorem checkSource_eq_checkTokens [Cst.Parser] (lexer : config.strategy = .lexer) (path : Option Path) (source : Text) :
    checkSource config path source =
      checkTokens config path ⟨source, config.skipVariadicParams⟩ .outside ⟨[], []⟩ (Token.scan source) := by
  obtain ⟨ending, fault, run⟩ := @checkTokens_run config path ⟨source, config.skipVariadicParams⟩ .outside
    ⟨[], []⟩ (Token.scan source)
  rw [run, Progress.check_all]
  simp only [checkSource, lexer, Strategy.extract, Reading.extract, checkExtraction, foundRecord, fault]
  cases ending with
  | none => simp [Progress.conclude, Strategy.label]
  | some error => simp [Progress.conclude]

theorem Progress.conclude_errors {progress : Progress}
    (logged : progress.log.filter (·.level = .error) = progress.log) (path : Option Path) (source : Text)
    (ending : Option ScanError) :
    (progress.conclude path source ending).log.filter (·.level = .error) =
      progress.log ++ ending.toList.map fun error =>
        ⟨.error, "scan error: " ++ describe source path (.scan error.message error.offset?)⟩ := by
  cases ending <;> simp [conclude, summarize, logged]

theorem errors_of_failureRecords (verdicts : List Verdict) :
    (failureRecords verdicts).filter (·.level = .error) = failureRecords verdicts := by
  rw [List.filter_eq_self]
  intro record member
  obtain ⟨verdict, _, rfl⟩ := List.mem_map.mp member
  rfl

/-- A summary is a success when all verdicts are in favour, and its message counts those that are not. -/
theorem summarize_verdicts (path : Option Path) (verdicts : List Verdict) :
    ∃ result, (summarize path verdicts).result = some result ∧ result.data = some verdicts ∧
      result.isError = false ∧ (result.success = true ↔ ∀ verdict ∈ verdicts, verdict.compliant = true) ∧
      result.message = if verdicts.filter (!·.compliant) = [] then
          "All " ++ toString verdicts.length ++ " functions are compliant"
        else toString (verdicts.filter (!·.compliant)).length ++ " of " ++ toString verdicts.length ++
          " functions have stale docstrings" := by
  have failed : verdicts.countP (!·.compliant) = (verdicts.filter (!·.compliant)).length :=
    List.countP_eq_length_filter
  refine ⟨_, rfl, rfl, rfl, ?_, ?_⟩
  · simp [Result.success, List.countP_eq_zero]
  · simp only [Result.message, failed, List.length_eq_zero_iff]

/-- With the forward scan, checking comes to the same verdicts as a loop that checks each function when it
is found.  They are all kept, in order, whether or not the scan breaks off, and each one that is not in
favour is logged.  If the scan breaks off, the result is an error and one more record tells where. -/
theorem checkSource_verdicts [Cst.Parser] (lexer : config.strategy = .lexer) (path : Option Path) (source : Text) :
    let reading : Reading := ⟨source, config.skipVariadicParams⟩
    let found := reading.extract
    let verdicts := found.signatures.map fun signature =>
      { checkSignature config none signature with path := path }
    let stale := verdicts.filter (!·.compliant)
    let outcome := checkSource config path source
    let errors := outcome.log.filter (·.level = .error)
    let reports := stale.map fun verdict => ⟨.error, verdict.location ++ ": " ++ verdict.message⟩
    outcome = checkTokens config path reading .outside ⟨[], []⟩ (Token.scan source) ∧
      ∃ result, outcome.result = some result ∧ result.data = some verdicts ∧
        (result.isError = true ↔ ∃ error, found.fault = some (.scan error)) ∧
        (result.isError = false →
          (result.success = true ↔ ∀ verdict ∈ verdicts, verdict.compliant = true) ∧
          (result.message = if stale = [] then "All " ++ toString verdicts.length ++ " functions are compliant"
            else toString stale.length ++ " of " ++ toString verdicts.length ++
              " functions have stale docstrings") ∧
          errors = reports) ∧
        ∀ error, found.fault = some (.scan error) →
          ∃ offset : Nat, error.offset? = some offset ∧
            errors = reports ++ [⟨.error, "scan error: " ++ ((match path with
              | some path => path.toString ++ ":"
              | none => "") ++ toString (1 + (source.take offset).count '\n') ++ ": " ++ error.message)⟩] := by
  intro reading found verdicts stale outcome errors reports
  have meanwhile := checkSource_eq_checkTokens lexer path source
  obtain ⟨ending, fault, run⟩ := @checkTokens_run config path reading .outside ⟨[], []⟩ (Token.scan source)
  have concluded : outcome = (⟨verdicts, reports⟩ : Progress).conclude path source ending := by
    rw [Progress.check_all] at run
    exact meanwhile.trans run
  have logged := @Progress.conclude_errors ⟨verdicts, reports⟩ (errors_of_failureRecords verdicts) path source
    ending
  rw [← concluded] at logged
  refine ⟨meanwhile, ?_⟩
  cases ending with
  | none =>
      have whole : found.fault = none := fault
      obtain ⟨result, summed, data, summary, success, message⟩ := summarize_verdicts path verdicts
      refine ⟨result, (congrArg Outcome.result concluded).trans summed, data, by simp [whole, summary], ?_,
        by simp [whole]⟩
      exact fun _ => ⟨success, message, logged.trans (List.append_nil reports)⟩
  | some error =>
      have broken : found.fault = some (.scan error) := fault
      obtain ⟨offset, place, inside⟩ := extract_error_offset reading broken
      refine ⟨_, congrArg Outcome.result concluded, rfl, by simp [broken, fail, Result.isError], ?_, ?_⟩
      · intro other
        cases other
      · intro own same
        cases same.symm.trans broken
        have described := @describe_located path source (.scan error.message error.offset?) offset place inside
        rw [Option.toList_some, List.map_singleton, described] at logged
        exact ⟨offset, place, logged⟩

/-- Two stale functions, one inside the other, before a header that breaks off. -/
theorem checkSource_verdicts_nested :
    let config : Config := { Config.default with strategy := .lexer, succeedIfNoDocstring := false }
    let source := "def f(a):\n  '''Args:\n    b: B.\n  '''\n  def g(): 0\ndef h(a = ]): 0".toList
    let outcome := checkSource config none source
    config.strategy = .lexer ∧
      (Reading.extract ⟨source, true⟩).fault = some (.scan (.unbalancedBrackets 60)) ∧
      ∃ result, outcome.result = some result ∧ result.isError = true ∧
        result.verdicts.map (·.compliant) = [false, false] ∧
        (outcome.log.filter (·.level = .error)).length = 3 := by
  intro config source outcome
  have broken : (Reading.extract ⟨source, true⟩).fault = some (.scan (.unbalancedBrackets 60)) := by
    decide +kernel
  obtain ⟨_, result, checked, data, failed, _, logged⟩ := @checkSource_verdicts config _ rfl none source
  obtain ⟨offset, _, errors⟩ := logged _ broken
  refine ⟨rfl, broken, result, checked, failed.mpr ⟨_, broken⟩, ?_, ?_⟩
  · rw [Result.verdicts, data]
    decide +kernel
  · rw [errors, List.length_append, List.length_map, List.length_singleton]
    decide +kernel

end DocDrift.Check
