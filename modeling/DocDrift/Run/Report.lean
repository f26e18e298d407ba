import DocDrift.Result

/-!
The report of a run. Every worker adds to one tally when its file is done: one if the file could not
be checked, and then the number of functions found stale. The tally is a sum, so the order in which
the workers come to it does not show in the report.
-/

namespace DocDrift

namespace Tally

/-- The values of a tally after each of some amounts is added to it. -/
def history (start : Int) : List Int → List Int
  | [] => []
  | amount :: rest => (start + amount) :: history (start + amount) rest

/-- The value of a tally that starts from nothing, after some amounts are added to it. -/
def total (amounts : List Int) : Int := amounts.foldl (· + ·) 0

end Tally

namespace Result

def staleCount (result : Result) : Nat := result.verdicts.countP (!·.compliant)

/-- What a worker adds to the tally for its result, in this order. -/
def increments (result : Result) : List Int :=
  (if result.isError then [1] else []) ++ [(result.staleCount : Int)]

end Result

structure Report where
  results : List Result
  errorCount : Int
  deriving DecidableEq, Repr

namespace Report

/-- The report of results whose workers came to the tally one after the other. -/
def ofResults (results : List Result) : Report :=
  ⟨results, Tally.total (results.flatMap (·.increments))⟩

def allSucceed (results : List Result) : Bool := results.all (·.success)

def success (report : Report) : Bool := report.errorCount == 0 && allSucceed report.results

def functionCount (report : Report) : Nat :=
  report.results.foldl (fun count result => count + result.verdicts.length) 0

/-- The number of files that could not be checked to their end. -/
def failedFileCount (report : Report) : Nat := report.results.countP (·.isError)

end Report
end DocDrift
