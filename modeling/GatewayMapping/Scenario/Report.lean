import GatewayMapping.Json.Printer
import GatewayMapping.Scenario.Outcome

/-!
# Reports

A report has the outcomes of scenarios in the order in which they ran. A run that stops at the
first failure has no outcomes after it.
-/

namespace GatewayMapping.Scenario

/-- A scenario with what came of it. -/
structure Result where
  scenario : Scenario
  outcome : Outcome
  deriving Inhabited

/-- Whether the scenario passed. -/
def Result.hasPassed (r : Result) : Bool := r.outcome == .passed

/-- The results of a run, in order. -/
structure Report where
  results : List Result
  deriving Inhabited

/-- Runs scenarios one after the other, up to the first that does not pass if asked to. -/
def runAll (config : Template.Config) (root : String) (failFast : Bool) :
    List Scenario → Except InputFault (List Result)
  | [] => .ok []
  | s :: rest => do
    let result := ⟨s, ← s.run config root⟩
    if failFast && !result.hasPassed then return [result]
    else return result :: (← runAll config root failFast rest)

namespace Report

/-- The number of scenarios that passed. -/
def passed (r : Report) : Nat := r.results.countP Result.hasPassed

/-- The number of scenarios that did not pass. -/
def failed (r : Report) : Nat := r.results.countP fun result => !result.hasPassed

/-- The number of scenarios that ran. -/
def total (r : Report) : Nat := r.results.length

/-- The members that tell an outcome. -/
def outcomeMembers : Outcome → List (String × Json)
  | .passed => [("status", .string "passed")]
  | .mismatch expected actual =>
    [("status", .string "mismatch"), ("expected", .string expected), ("actual", .string actual)]
  | .failed error => [("status", .string "failed"), ("error", .string error)]

/-- A result as a document. -/
def resultJson (r : Result) : Json :=
  .object ([("name", .string r.scenario.name), ("mode", .string r.scenario.mode.name)] ++
    outcomeMembers r.outcome)

/-- A report as a document. -/
def toJson (r : Report) : Json :=
  .object [("passed", .int r.passed), ("failed", .int r.failed),
    ("results", .array (r.results.map resultJson))]

/-- The lines that tell a result. -/
def resultLines (r : Result) : List String :=
  let title := r.scenario.name ++ " (" ++ r.scenario.mode.name ++ ")"
  match r.outcome with
  | .passed => ["✅ " ++ title]
  | .mismatch expected actual =>
    ["❌ " ++ title ++ ": output differs", "   expected: " ++ Text.trim expected,
      "   actual:   " ++ Text.trim actual]
  | .failed error => ["❌ " ++ title ++ ": " ++ error]

/-- The lines of a report. -/
def lines (r : Report) : List String :=
  r.results.flatMap resultLines ++
    ["", toString r.passed ++ " passed, " ++ toString r.failed ++ " failed"]

end Report
end GatewayMapping.Scenario
