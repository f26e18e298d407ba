import DocDrift.Command.Basic
import DocDrift.Proofs.Run.Schedule

namespace DocDrift

/-! # Exit codes

A run that ends with an exit code has taken one of four courses, and each stage passes its failure on:
the code says whether the run was set up at all, and then whether every file that was found is clean.
-/

namespace Check

variable {config : Config} {path : Option Path} {source : Text} {result : Result}

theorem settle_success {verdicts : List Verdict} {fault : Option Fault}
    (settled : settle path verdicts fault = some result) :
    result.success = true ↔ fault = none ∧ ∀ verdict ∈ verdicts, verdict.compliant = true := by
  match fault with
  | none =>
      cases settled
      simp [Result.success, List.countP_eq_zero]
  | some (.scan error) =>
      cases settled
      simp [fail, Result.success]
  | some (.invariant text) =>
      cases settled
      simp [fail, Result.success]
  | some .uncaught => contradiction

theorem checkSource_success [Cst.Parser] (checked : (checkSource config path source).result = some result) :
    result.success = true ↔
      (config.strategy.extract config.skipVariadicParams source).fault = none ∧
        ∀ signature ∈ (config.strategy.extract config.skipVariadicParams source).signatures,
          (checkSignature config path signature).compliant = true := by
  rw [checkSource_result] at checked
  rw [settle_success checked, List.forall_mem_map]

end Check

namespace Run

variable {config : Config} {tree : FileTree} {pattern : Text} {paths : List Path} {done : Finished}

section Files

variable [Cst.Parser]

/-- A file that is read as UTF-8, is scanned to its end, and has only compliant functions. -/
def IsClean (config : Config) (tree : FileTree) (path : Path) : Prop :=
  ∃ bytes text, tree.bytes path = .ok bytes ∧ Utf8.decode bytes = .ok text ∧
    let extraction := config.strategy.extract config.skipVariadicParams (Text.unifyLineEnds text)
    extraction.fault = none ∧ ∀ signature ∈ extraction.signatures,
      (Check.checkSignature config (some path) signature).compliant = true

theorem checkFile_success {path : Path} {result : Result}
    (checked : (checkFile config tree path).result = some result) :
    result.success = true ↔ IsClean config tree path := by
  unfold checkFile at checked
  cases read : tree.readText path with
  | ok source =>
      obtain ⟨bytes, text, found, decoded, rfl⟩ := FileTree.readText_eq_ok.mp read
      rw [read] at checked
      rw [Check.checkSource_success checked]
      constructor
      · exact fun clean => ⟨bytes, text, found, decoded, clean⟩
      · rintro ⟨other, same, found', decoded', clean⟩
        cases found.symm.trans found'
        cases decoded.symm.trans decoded'
        exact clean
  | error error =>
      rw [read] at checked
      cases checked
      refine iff_of_false (by simp [Result.success]) ?_
      rintro ⟨bytes, text, found, decoded, _⟩
      have readable := FileTree.readText_eq_ok.mpr ⟨bytes, text, found, decoded, rfl⟩
      exact absurd (read.symm.trans readable) (by simp)

theorem results_success {files : List Path} {results : List Result}
    (known : files.map (fun path => (checkFile config tree path).result) = results.map some) :
    (∀ result ∈ results, result.success = true) ↔ ∀ file ∈ files, IsClean config tree file := by
  constructor
  · intro success file member
    have found : (checkFile config tree file).result ∈ results.map some := by
      rw [← known]
      exact List.mem_map_of_mem member
    obtain ⟨result, present, checked⟩ := List.mem_map.mp found
    exact (checkFile_success checked.symm).mp (success result present)
  · intro clean result member
    have found : some result ∈ files.map fun path => (checkFile config tree path).result := by
      rw [known]
      exact List.mem_map_of_mem member
    obtain ⟨file, present, checked⟩ := List.mem_map.mp found
    exact (checkFile_success checked).mpr (clean file present)

/-- A run that comes to its end is a success exactly if every file it found is clean, and so is the
report that its workers come to, whatever the order of their actions. -/
theorem checkPaths_success (ran : checkPaths config tree pattern paths = .ok done) :
    ∃ files, Discovery.discover tree pattern paths = .ok files ∧
      (done.report.success = true ↔ ∀ file ∈ files, IsClean config tree file) ∧
      ∀ report, Pool.Reaches config tree (.start files) (.finished report) → report = done.report := by
  unfold checkPaths at ran
  cases discovered : Discovery.discover tree pattern paths with
  | error error =>
      rw [discovered] at ran
      contradiction
  | ok files =>
      simp only [discovered] at ran
      obtain ⟨report, known, exact⟩ := checkFiles_eq_ok ran
      refine ⟨files, rfl, ?_, fun other reaches => (Pool.start_unique known reaches).trans report.symm⟩
      rw [report, Report.success_iff exact, Report.errorCount_eq_zero exact, results_success known]

end Files

end Run

namespace Command

theorem checkWorkers_eq_ok {jobs : Option Int} (positive : ∀ count ∈ jobs, 0 < count) :
    Config.checkWorkers jobs = .ok jobs := by
  cases jobs with
  | none => rfl
  | some count =>
      have enough : ¬ count < 1 := by
        have := positive count rfl
        omega
      simp only [Config.checkWorkers, if_neg enough]

section Code

variable [Cst.Parser] {tree : FileTree} {arguments : Arguments} {ending : Ending}

/-- The courses of a run that ends with an exit code. -/
inductive Course (tree : FileTree) (arguments : Arguments) : Nat → Prop where
  | refused {error : Config.ConfigError} (refuses : loadConfig tree arguments = .error (.refused error)) :
      Course tree arguments 2
  | idle {config : Config} {source : Option Path} {error : Config.ConfigError}
      (loaded : loadConfig tree arguments = .ok (config, source))
      (refuses : Config.checkWorkers arguments.jobs = .error error) : Course tree arguments 2
  | missing {config : Config} {source : Option Path} {workers : Option Int} {path : Path}
      (loaded : loadConfig tree arguments = .ok (config, source))
      (accepted : Config.checkWorkers arguments.jobs = .ok workers) (member : path ∈ arguments.paths)
      (absent : tree.pathExists path = false) : Course tree arguments 2
  | checked {config : Config} {source : Option Path} {workers : Option Int} {done : Run.Finished}
      (loaded : loadConfig tree arguments = .ok (config, source))
      (accepted : Config.checkWorkers arguments.jobs = .ok workers)
      (present : ∀ path ∈ arguments.paths, tree.pathExists path = true)
      (ran : Run.checkPaths config tree arguments.glob arguments.paths = .ok done) :
      Course tree arguments (if done.report.success then 0 else 1)

theorem course_of_execute (executed : execute tree arguments = .ok ending) :
    Course tree arguments ending.code := by
  unfold execute at executed
  cases loaded : loadConfig tree arguments with
  | error error =>
      rw [loaded] at executed
      cases error with
      | refused error =>
          cases executed
          exact .refused loaded
      | unreadable error => contradiction
      | toolNotATable => contradiction
  | ok result =>
      obtain ⟨config, source⟩ := result
      simp only [loaded] at executed
      cases accepted : Config.checkWorkers arguments.jobs with
      | error error =>
          rw [accepted] at executed
          cases executed
          exact .idle loaded accepted
      | ok workers =>
          simp only [accepted, checkPaths] at executed
          cases absent : arguments.paths.find? fun path => !tree.pathExists path with
          | some path =>
              rw [absent] at executed
              cases executed
              exact .missing loaded accepted (List.mem_of_find?_eq_some absent)
                (by simpa using List.find?_some absent)
          | none =>
              have present : ∀ path ∈ arguments.paths, tree.pathExists path = true := by
                simpa using List.find?_eq_none.mp absent
              rw [absent] at executed
              cases ran : Run.checkPaths config tree arguments.glob arguments.paths with
              | error interruption =>
                  rw [ran] at executed
                  contradiction
              | ok done =>
                  rw [ran] at executed
                  cases executed
                  exact .checked loaded accepted present ran

namespace Course

variable {code : Nat}

theorem usage_iff (course : Course tree arguments code) :
    code = 2 ↔ (∃ error, loadConfig tree arguments = .error (.refused error)) ∨
      (∃ error, Config.checkWorkers arguments.jobs = .error error) ∨
      ∃ path ∈ arguments.paths, tree.pathExists path = false := by
  cases course with
  | refused refuses => exact iff_of_true rfl (.inl ⟨_, refuses⟩)
  | idle _ refuses => exact iff_of_true rfl (.inr (.inl ⟨_, refuses⟩))
  | missing _ _ member absent => exact iff_of_true rfl (.inr (.inr ⟨_, member, absent⟩))
  | @checked _ _ _ done loaded accepted present =>
      refine iff_of_false (by cases done.report.success <;> decide) ?_
      rintro (⟨error, refuses⟩ | ⟨error, refuses⟩ | ⟨path, member, absent⟩)
      · exact absurd (loaded.symm.trans refuses) (by simp)
      · exact absurd (accepted.symm.trans refuses) (by simp)
      · exact absurd ((present path member).symm.trans absent) (by simp)

theorem verdict (course : Course tree arguments code) (started : code ≠ 2) :
    ∃ config source files, loadConfig tree arguments = .ok (config, source) ∧
      Discovery.discover tree arguments.glob arguments.paths = .ok files ∧
      (code = 0 ↔ ∀ file ∈ files, Run.IsClean config tree file) ∧
      (code = 1 ↔ ¬ ∀ file ∈ files, Run.IsClean config tree file) ∧
      ∀ report, Run.Pool.Reaches config tree (.start files) (.finished report) →
        code = if report.success then 0 else 1 := by
  cases course with
  | refused | idle | missing => contradiction
  | @checked config source _ done loaded _ _ ran =>
      obtain ⟨files, discovered, clean, unique⟩ := Run.checkPaths_success ran
      refine ⟨config, source, files, loaded, discovered, ?_, ?_, ?_⟩
      · rw [← clean]
        cases done.report.success <;> decide
      · rw [← clean]
        cases done.report.success <;> decide
      · intro report reaches
        rw [unique report reaches]

end Course

/-- Neither the level of the log nor the number of workers shows in how a run ends. -/
theorem execute_settings (positive : ∀ count ∈ arguments.jobs, 0 < count) {jobs : Option Int}
    (accepted : ∀ count ∈ jobs, 0 < count) (verbose quiet : Bool) :
    execute tree { arguments with jobs := jobs, verbose := verbose, quiet := quiet } =
      execute tree arguments := by
  have loaded : loadConfig tree { arguments with jobs := jobs, verbose := verbose, quiet := quiet } =
      loadConfig tree arguments := rfl
  simp only [execute, loaded, checkWorkers_eq_ok positive, checkWorkers_eq_ok accepted]
  rfl

theorem run_eq_ok {ending : Ending} (ran : run tree arguments = .ok ending) :
    ∃ executed, execute tree arguments = .ok executed ∧ executed.code = ending.code := by
  unfold run at ran
  cases executed : execute tree arguments with
  | error abort =>
      rw [executed] at ran
      contradiction
  | ok whole =>
      rw [executed] at ran
      cases ran
      exact ⟨whole, rfl, rfl⟩

/-- A run that ends with a code ends with 2 exactly if its configuration or its number of workers is
refused or a path is missing.  Otherwise it ends with 0 exactly if every file that was found is clean
under the configuration, and with 1 if one is not, in whatever order the workers come to the tally.
The code depends neither on what is logged nor on the number of workers. -/
theorem run_code (ran : run tree arguments = .ok ending) :
    (ending.code = 2 ↔ (∃ error, loadConfig tree arguments = .error (.refused error)) ∨
      (∃ error, Config.checkWorkers arguments.jobs = .error error) ∨
      ∃ path ∈ arguments.paths, tree.pathExists path = false) ∧
    (ending.code ≠ 2 → ∃ config source files, loadConfig tree arguments = .ok (config, source) ∧
      Discovery.discover tree arguments.glob arguments.paths = .ok files ∧
      (ending.code = 0 ↔ ∀ file ∈ files, Run.IsClean config tree file) ∧
      (ending.code = 1 ↔ ¬ ∀ file ∈ files, Run.IsClean config tree file) ∧
      ∀ report, Run.Pool.Reaches config tree (.start files) (.finished report) →
        ending.code = if report.success then 0 else 1) ∧
    ∀ (jobs : Option Int) (verbose quiet : Bool), (∀ count ∈ arguments.jobs, 0 < count) →
      (∀ count ∈ jobs, 0 < count) →
      ∃ other, run tree { arguments with jobs := jobs, verbose := verbose, quiet := quiet } = .ok other ∧
        other.code = ending.code := by
  obtain ⟨whole, executed, same⟩ := run_eq_ok ran
  have course := course_of_execute executed
  rw [same] at course
  refine ⟨course.usage_iff, course.verdict, ?_⟩
  intro jobs verbose quiet positive accepted
  have again := @execute_settings _ tree arguments positive jobs accepted verbose quiet
  rw [executed] at again
  unfold run
  rw [again]
  exact ⟨_, rfl, same⟩

end Code

/-- A clean file beside one with a stale function, checked by two workers and then quietly. -/
theorem run_code_stale :
    let clean := "def f(a):\n    '''Args:\n        a: A.\n    '''\n".toUTF8.toList
    let stale := "def g(b):\n    '''Args:\n        a: A.\n    '''\n".toUTF8.toList
    let tree : FileTree := ⟨.folder [("a.py".toList, .file clean), ("b.py".toList, .file stale)], []⟩
    let arguments : Arguments := { strategy := some .lexer, jobs := some 2, verbose := true }
    Arguments.parse ["--strategy=lexer".toList, "-vj2".toList] = .ok arguments ∧
      (∃ config source files, loadConfig tree arguments = .ok (config, source) ∧
        Discovery.discover tree arguments.glob arguments.paths = .ok files ∧
        ¬ ∀ file ∈ files, Run.IsClean config tree file) ∧
      ∃ ending other, run tree arguments = .ok ending ∧ ending.code = 1 ∧
        run tree { arguments with jobs := none, verbose := false, quiet := true } = .ok other ∧
        other.code = 1 := by
  intro clean stale tree arguments
  have parsed : Arguments.parse ["--strategy=lexer".toList, "-vj2".toList] = .ok arguments := rfl
  have code : (run tree arguments).toOption.map (·.code) = some 1 := by decide +kernel
  obtain ⟨ending, ran, one⟩ : ∃ ending, run tree arguments = .ok ending ∧ ending.code = 1 := by
    cases ran : run tree arguments with
    | error abort => simp [ran, Except.toOption] at code
    | ok ending => exact ⟨ending, rfl, by simpa [ran, Except.toOption] using code⟩
  obtain ⟨_, verdict, again⟩ := run_code ran
  obtain ⟨config, source, files, loaded, discovered, _, dirty, _⟩ := verdict (by rw [one]; decide)
  obtain ⟨other, repeated, same⟩ := again none false true (by decide) (by simp)
  exact ⟨parsed, ⟨config, source, files, loaded, discovered, dirty.mp one⟩, ending, other, ran, one, repeated,
    same.trans one⟩

end Command
end DocDrift
