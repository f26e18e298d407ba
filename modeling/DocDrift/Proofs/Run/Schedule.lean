import DocDrift.Proofs.Run.Results
import DocDrift.Syntax.Parser
import Mathlib.Logic.Relation

namespace DocDrift

/-! # Workers in any order

Workers check the files of a run side by side.  Each adds to the one tally in atomic actions, and the
actions of different workers come in any order.  What the tally holds and what is still to be added
make up the same sum throughout, so every order of actions ends in the report of the files in turn.
-/

namespace Tally

theorem foldl_add (start : Int) (amounts : List Int) :
    amounts.foldl (· + ·) start = start + total amounts := by
  induction amounts generalizing start with
  | nil => simp [total]
  | cons amount amounts ih =>
      rw [total, List.foldl_cons, List.foldl_cons, ih, ih]
      omega

@[simp] theorem total_nil : total [] = 0 := rfl

@[simp] theorem total_cons (amount : Int) (amounts : List Int) :
    total (amount :: amounts) = amount + total amounts := by
  rw [total, List.foldl_cons, foldl_add]
  omega

@[simp] theorem total_append (left right : List Int) :
    total (left ++ right) = total left + total right := by
  rw [total, List.foldl_append, foldl_add]
  rfl

theorem total_flatMap {α : Type} (amounts : α → List Int) (items : List α) :
    total (items.flatMap amounts) = total (items.map fun item => total (amounts item)) := by
  induction items with
  | nil => rfl
  | cons item items ih => rw [List.flatMap_cons, total_append, ih, List.map_cons, total_cons]

end Tally

namespace Run

section Workers

variable [Cst.Parser]

/-- A file on its way: it waits for a worker, or it is checked and its worker has still some amounts
to add to the tally. -/
inductive Task where
  | waiting (path : Path)
  | adding (result : Result) (amounts : List Int)
  deriving DecidableEq, Repr

/-- The tasks of a run, in the order of its files, and the tally between two actions. -/
structure Pool where
  tasks : List Task
  tally : Int
  deriving DecidableEq, Repr

namespace Pool

def start (files : List Path) : Pool := ⟨files.map .waiting, 0⟩

/-- All workers are done, and the results and the tally are those of a report. -/
def finished (report : Report) : Pool := ⟨report.results.map (.adding · []), report.errorCount⟩

/-- The next action of one worker: it checks its file, or it adds its next amount. -/
inductive Step (config : Config) (tree : FileTree) : Pool → Pool → Prop where
  | check {before after : List Task} {path : Path} {result : Result} {tally : Int}
      (checked : (checkFile config tree path).result = some result) :
      Step config tree ⟨before ++ .waiting path :: after, tally⟩
        ⟨before ++ .adding result result.increments :: after, tally⟩
  | add {before after : List Task} {result : Result} {amount : Int} {amounts : List Int} {tally : Int} :
      Step config tree ⟨before ++ .adding result (amount :: amounts) :: after, tally⟩
        ⟨before ++ .adding result amounts :: after, tally + amount⟩

/-- Any number of actions, in any order of the workers. -/
abbrev Reaches (config : Config) (tree : FileTree) : Pool → Pool → Prop :=
  Relation.ReflTransGen (Step config tree)

end Pool

namespace Task

def result? (config : Config) (tree : FileTree) : Task → Option Result
  | waiting path => (checkFile config tree path).result
  | adding result _ => some result

/-- What a task has still to add to the tally. -/
def owed (config : Config) (tree : FileTree) : Task → Int
  | waiting path => ((checkFile config tree path).result.map fun result => Tally.total result.increments).getD 0
  | adding _ amounts => Tally.total amounts

end Task

namespace Pool

variable {config : Config} {tree : FileTree} {first last : Pool}

theorem Step.results (step : Step config tree first last) :
    last.tasks.map (Task.result? config tree) = first.tasks.map (Task.result? config tree) := by
  cases step with
  | check checked => simp [Task.result?, checked]
  | add => simp [Task.result?]

theorem Step.balance (step : Step config tree first last) :
    last.tally + Tally.total (last.tasks.map (Task.owed config tree)) =
      first.tally + Tally.total (first.tasks.map (Task.owed config tree)) := by
  cases step with
  | check checked => simp [Task.owed, checked]
  | add =>
      simp only [List.map_append, List.map_cons, Tally.total_append, Tally.total_cons, Task.owed]
      omega

theorem Reaches.results (reaches : Reaches config tree first last) :
    last.tasks.map (Task.result? config tree) = first.tasks.map (Task.result? config tree) := by
  induction reaches with
  | refl => rfl
  | tail _ step ih => exact step.results.trans ih

theorem Reaches.balance (reaches : Reaches config tree first last) :
    last.tally + Tally.total (last.tasks.map (Task.owed config tree)) =
      first.tally + Tally.total (first.tasks.map (Task.owed config tree)) := by
  induction reaches with
  | refl => rfl
  | tail _ step ih => exact step.balance.trans ih

/-- A worker that has checked its file can add all its amounts. -/
theorem reaches_added (before after : List Task) (result : Result) (amounts : List Int) (tally : Int) :
    Reaches config tree ⟨before ++ .adding result amounts :: after, tally⟩
      ⟨before ++ .adding result [] :: after, tally + Tally.total amounts⟩ := by
  induction amounts generalizing tally with
  | nil =>
      rw [Tally.total_nil, Int.add_zero]
  | cons amount amounts ih =>
      rw [Tally.total_cons, ← Int.add_assoc]
      exact .head .add (ih (tally + amount))

theorem reaches_done (before after : List Task) {task : Task} {result : Result}
    (known : task.result? config tree = some result) (tally : Int) :
    Reaches config tree ⟨before ++ task :: after, tally⟩
      ⟨before ++ .adding result [] :: after, tally + task.owed config tree⟩ := by
  cases task with
  | waiting path =>
      have checked : (checkFile config tree path).result = some result := known
      simp only [Task.owed, checked, Option.map_some, Option.getD_some]
      exact .head (.check checked) (reaches_added before after result result.increments tally)
  | adding own amounts =>
      cases known
      exact reaches_added before after result amounts tally

/-- The workers can finish one after the other from wherever they are. -/
theorem reaches_finished {tasks : List Task} {results : List Result}
    (known : tasks.map (Task.result? config tree) = results.map some) (before : List Task) (tally : Int) :
    Reaches config tree ⟨before ++ tasks, tally⟩
      ⟨before ++ results.map (.adding · []),
        tally + Tally.total (tasks.map (Task.owed config tree))⟩ := by
  induction tasks generalizing results before tally with
  | nil =>
      obtain rfl : results = [] := by simpa using known.symm
      simp only [List.map_nil, Tally.total_nil, Int.add_zero]
      exact .refl
  | cons task tasks ih =>
      match results with
      | [] => contradiction
      | result :: results =>
          simp only [List.map_cons, List.cons.injEq] at known
          have one := reaches_done before tasks known.1 tally
          have more := ih known.2 (before ++ [.adding result []]) (tally + task.owed config tree)
          simp only [List.append_assoc, List.singleton_append, Int.add_assoc] at more
          rw [List.map_cons, List.map_cons, Tally.total_cons]
          exact one.trans more

section Report

variable {files : List Path} {results : List Result} {report : Report}

theorem results_finished (report : Report) :
    (finished report).tasks.map (Task.result? config tree) = report.results.map some := by
  rw [finished, List.map_map]
  rfl

theorem owed_finished (report : Report) :
    Tally.total ((finished report).tasks.map (Task.owed config tree)) = 0 := by
  rw [finished, List.map_map]
  induction report.results with
  | nil => rfl
  | cons result results ih => exact (Tally.total_cons _ _).trans ((Int.zero_add _).trans ih)

theorem owed_start (known : files.map (fun path => (checkFile config tree path).result) = results.map some) :
    Tally.total ((start files).tasks.map (Task.owed config tree)) = (Report.ofResults results).errorCount := by
  have amounts := congrArg (List.map fun result : Option Result =>
    (result.map fun result => Tally.total result.increments).getD 0) known
  rw [List.map_map, List.map_map] at amounts
  rw [start, List.map_map, Report.ofResults, Tally.total_flatMap]
  exact congrArg Tally.total amounts

/-- Whatever the workers have done, they can come to the report of the results. -/
theorem start_completes (known : files.map (fun path => (checkFile config tree path).result) = results.map some)
    (reaches : Reaches config tree (start files) last) :
    Reaches config tree last (finished (.ofResults results)) := by
  have initial : (start files).tasks.map (Task.result? config tree) = results.map some := by
    rw [start, List.map_map]
    exact known
  have complete := reaches_finished (reaches.results.trans initial) [] last.tally
  rw [reaches.balance, owed_start known, start, Int.zero_add] at complete
  exact complete

/-- They come to no other report. -/
theorem start_unique (known : files.map (fun path => (checkFile config tree path).result) = results.map some)
    (reaches : Reaches config tree (start files) (finished report)) : report = .ofResults results := by
  have own : report.results = results := by
    have mapped := reaches.results
    rw [results_finished, start, List.map_map] at mapped
    exact (List.map_inj_right fun _ _ => Option.some.inj).mp (mapped.trans known)
  have count : report.errorCount = (Report.ofResults results).errorCount := by
    have balance := reaches.balance
    rw [owed_finished, owed_start known, start, Int.zero_add, Int.add_zero] at balance
    exact balance
  obtain ⟨list, tally⟩ := report
  exact congr (congrArg Report.mk own) count

end Report

end Pool

end Workers

end Run

namespace Report

theorem foldl_functions (start : Nat) (results : List Result) :
    results.foldl (fun count result => count + result.verdicts.length) start =
      start + (results.flatMap (·.verdicts)).length := by
  induction results generalizing start with
  | nil => rfl
  | cons result results ih =>
      rw [List.foldl_cons, ih, List.flatMap_cons, List.length_append]
      omega

theorem functionCount_ofResults (results : List Result) :
    (ofResults results).functionCount = (results.flatMap (·.verdicts)).length :=
  (foldl_functions 0 results).trans (Nat.zero_add _)

theorem errorCount_ofResults (results : List Result) :
    (ofResults results).errorCount =
      (results.countP (·.isError) + (results.flatMap (·.verdicts)).countP (!·.compliant) : Nat) := by
  refine (Tally.total_flatMap _ results).trans ?_
  induction results with
  | nil => rfl
  | cons result results ih =>
      have own : Tally.total result.increments =
          ((if result.isError then 1 else 0) + result.staleCount : Nat) := by
        cases failed : result.isError <;> simp [Result.increments, failed]
      rw [List.map_cons, Tally.total_cons, ih, own, List.countP_cons, List.flatMap_cons, List.countP_append,
        Result.staleCount]
      omega

theorem errorCount_eq_zero {results : List Result} (exact : ∀ result ∈ results, result.IsExact) :
    (ofResults results).errorCount = 0 ↔ ∀ result ∈ results, result.success = true := by
  have none : (ofResults results).errorCount = 0 ↔
      ∀ result ∈ results, result.isError = false ∧ result.staleCount = 0 := by
    rw [errorCount_ofResults, Int.natCast_eq_zero, Nat.add_eq_zero_iff, List.countP_eq_zero,
      List.countP_flatMap, List.sum_eq_zero_iff_forall_eq_nat]
    simp only [List.mem_map, forall_exists_index, and_imp, forall_apply_eq_imp_iff₂, Bool.not_eq_true,
      ← forall_and, Function.comp_apply]
    rfl
  rw [none]
  exact forall₂_congr fun result member => (exact result member).symm

theorem success_iff {results : List Result} (exact : ∀ result ∈ results, result.IsExact) :
    (ofResults results).success = true ↔ (ofResults results).errorCount = 0 := by
  have all := errorCount_eq_zero exact
  simp only [success, allSucceed, Bool.and_eq_true, beq_iff_eq, List.all_eq_true]
  exact and_iff_left_of_imp all.mp

end Report

namespace Run

section Files

variable [Cst.Parser] {config : Config} {tree : FileTree} {files : List Path} {done : Finished}

theorem results_of_mapM {results : List Result}
    (mapped : (files.map (checkFile config tree)).mapM (·.result) = some results) :
    files.map (fun path => (checkFile config tree path).result) = results.map some ∧
      ∀ result ∈ results, result.IsExact := by
  induction files generalizing results with
  | nil =>
      cases mapped
      exact ⟨rfl, by simp⟩
  | cons path files ih =>
      rw [List.map_cons, List.mapM_cons] at mapped
      obtain ⟨result, found, rest⟩ := Option.bind_eq_some_iff.mp mapped
      obtain ⟨later, others, same⟩ := Option.bind_eq_some_iff.mp rest
      cases same
      obtain ⟨known, exact⟩ := ih others
      refine ⟨?_, List.forall_mem_cons.mpr ⟨checkFile_exact found, exact⟩⟩
      rw [List.map_cons, List.map_cons, found, known]

/-- A run that comes to its end reports the results of its files, in order. -/
theorem checkFiles_eq_ok (ran : checkFiles config tree files = .ok done) :
    done.report = .ofResults done.report.results ∧
      files.map (fun path => (checkFile config tree path).result) = done.report.results.map some ∧
      ∀ result ∈ done.report.results, result.IsExact := by
  unfold checkFiles at ran
  cases mapped : (files.map (checkFile config tree)).mapM (·.result) with
  | none =>
      simp only [mapped] at ran
      contradiction
  | some results =>
      simp only [mapped] at ran
      cases ran
      exact ⟨rfl, results_of_mapM mapped⟩

theorem checkFiles_exists (documented : config.strategy = .tree → Cst.Parser.FailsOnSyntax ∧ Cst.Parser.CountsLines)
    (tree : FileTree) (files : List Path) : ∃ done, checkFiles config tree files = .ok done := by
  have mapped : ∃ results, (files.map (checkFile config tree)).mapM (·.result) = some results := by
    induction files with
    | nil => exact ⟨[], rfl⟩
    | cons path files ih =>
        obtain ⟨results, mapped⟩ := ih
        obtain ⟨result, found⟩ := checkFile_exists documented tree path
        refine ⟨result :: results, ?_⟩
        rw [List.map_cons, List.mapM_cons, found, mapped]
        rfl
  obtain ⟨results, mapped⟩ := mapped
  exact ⟨_, by simp only [checkFiles, mapped]; rfl⟩

end Files

/-- A run over discovered files comes to its end, by trees if the parser keeps to its documentation.
Its report has one result for each of the files, in order.  Every order of the workers' actions can be
completed and comes to this report; it counts the failed files and the stale functions, and it is a
success exactly if it counts none, that is, if every file is one. -/
theorem checkPaths_exact [Cst.Parser] (config : Config) (tree : FileTree) (pattern : Text) (paths : List Path)
    {files : List Path} (discovered : Discovery.discover tree pattern paths = .ok files) :
    ((config.strategy = .tree → Cst.Parser.FailsOnSyntax ∧ Cst.Parser.CountsLines) →
      ∃ done, checkPaths config tree pattern paths = .ok done) ∧
    ∀ done, checkPaths config tree pattern paths = .ok done →
      files.map (fun path => (checkFile config tree path).result) = done.report.results.map some ∧
      (∀ pool, Pool.Reaches config tree (.start files) pool →
        Pool.Reaches config tree pool (.finished done.report)) ∧
      (∀ report, Pool.Reaches config tree (.start files) (.finished report) → report = done.report) ∧
      done.report.errorCount = (done.report.results.countP (·.isError) +
        (done.report.results.flatMap (·.verdicts)).countP (!·.compliant) : Nat) ∧
      done.report.functionCount = (done.report.results.flatMap (·.verdicts)).length ∧
      (done.report.success = true ↔ done.report.errorCount = 0) ∧
      (done.report.errorCount = 0 ↔ ∀ result ∈ done.report.results, result.success = true) := by
  simp only [checkPaths, discovered]
  refine ⟨fun documented => checkFiles_exists documented tree files, fun done ran => ?_⟩
  obtain ⟨report, known, exact⟩ := checkFiles_eq_ok ran
  rw [report]
  refine ⟨known, ?_, ?_, ?_, ?_, ?_, ?_⟩
  · exact fun _ reaches => Pool.start_completes known reaches
  · exact fun _ reaches => Pool.start_unique known reaches
  · exact Report.errorCount_ofResults _
  · exact Report.functionCount_ofResults _
  · exact Report.success_iff exact
  · exact Report.errorCount_eq_zero exact

/-- A file that breaks off after a stale function, beside a file that is missing. -/
theorem checkPaths_exact_failures :
    let config : Config := { Config.default with succeedIfNoDocstring := false, strategy := .lexer }
    let tree : FileTree := ⟨.folder [("a.py".toList, .file ("def f(): 0\ndef g(".toUTF8.toList))], []⟩
    let paths : List Path := [⟨[], ["gone.py".toList]⟩, ⟨[], ["a.py".toList]⟩]
    Discovery.discover tree Discovery.defaultPattern paths = .ok paths.reverse ∧
      ∃ done, checkPaths config tree Discovery.defaultPattern paths = .ok done ∧
        done.report.errorCount = 3 ∧ done.report.success = false ∧
        Pool.Reaches config tree (.start paths.reverse) (.finished done.report) := by
  intro config tree paths
  have discovered : Discovery.discover tree Discovery.defaultPattern paths = .ok paths.reverse := rfl
  have count : (checkPaths config tree Discovery.defaultPattern paths).toOption.map
      (·.report.errorCount) = some 3 := by decide +kernel
  obtain ⟨ends, exact⟩ := checkPaths_exact config tree Discovery.defaultPattern paths discovered
  obtain ⟨done, ran⟩ := ends fun other => by contradiction
  obtain ⟨_, completes, _, _, _, success, _⟩ := exact done ran
  rw [ran] at count
  have three : done.report.errorCount = 3 := Option.some.inj count
  refine ⟨discovered, done, ran, three, ?_, completes _ .refl⟩
  rw [Bool.eq_false_iff, ne_eq, success, three]
  decide

end Run
end DocDrift
