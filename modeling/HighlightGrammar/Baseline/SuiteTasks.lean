import HighlightGrammar.Baseline.Suite
import HighlightGrammar.Storage.TaskPool

/-! # Running all cases side by side

The suite makes its folder ready and starts a task for every case; the tasks take turns in any
order, beginning while the other cases are still being looked for. -/
namespace HighlightGrammar

/-- Makes the folder of generated reports ready and starts all cases. -/
def BaselineLayout.startCases (layout : BaselineLayout) :
    ExceptT BaselineError (Script (Kind × Path)) Unit := do
  layout.prepareGenerated
  Kind.all.forM fun kind => do
    let cases ← layout.casesOf kind
    cases.forM fun case => ExceptT.lift (Script.start (kind, case))

/-- A run of the suite under way. -/
abbrev SuiteRun := TaskPool (Kind × Path) CaseOutcome BaselineError

namespace SuiteRun

variable {σ : Type}

def begin (layout : BaselineLayout) (files : FileSystem) : SuiteRun :=
  TaskPool.begin files layout.startCases.run

/-- What is started for a case. -/
def body (registry : GrammarRegistry σ) (layout : BaselineLayout) :
    Kind × Path → Script Empty CaseOutcome :=
  fun (kind, case) => registry.runCase layout kind case

/-- A step of the suite or of one of its cases. -/
def Step (registry : GrammarRegistry σ) (layout : BaselineLayout) : SuiteRun → SuiteRun → Prop :=
  TaskPool.Step (body registry layout)

/-- What a run has come to once no task is left. -/
def summary? (run : SuiteRun) : Option (Except BaselineError SuiteSummary) :=
  match run.main, run.tasks with
  | .done (.ok ()), [] => some (.ok (.ofOutcomes run.results))
  | .done (.error error), _ => some (.error error)
  | _, _ => none

end SuiteRun

end HighlightGrammar
