import HighlightGrammar.Baseline.Report

/-! # Running all cases

Cases are documents in one folder per kind. A run makes the report of every case, writes it into the
folder of generated reports, which holds nothing else, and compares it with the approved copy of the
same name. -/
namespace HighlightGrammar

/-- Where cases, approved reports and generated reports lie. -/
structure BaselineLayout where
  cases : Path
  baselines : Path
  generated : Path
deriving DecidableEq, Repr

/-- The name of the report on a case. -/
def baselineFileName (case : Path) : String := case.stem?.getD "" ++ ".baseline.txt"

namespace BaselineLayout

/-- The usual folders below a root. -/
def under (root : Path) : BaselineLayout :=
  ⟨root.join ⟨"cases"⟩, root.join ⟨"baselines"⟩, root.join ⟨"generated"⟩⟩

/-- Where the approved report of a name lies. -/
def baselineFile (layout : BaselineLayout) (kind : Kind) (file : String) : Path :=
  (layout.baselines.join ⟨kind.folder⟩).join ⟨file⟩

/-- Where the generated report of a name lies. -/
def generatedFile (layout : BaselineLayout) (kind : Kind) (file : String) : Path :=
  (layout.generated.join ⟨kind.folder⟩).join ⟨file⟩

end BaselineLayout

/-- What became of a case. -/
structure CaseOutcome where
  kind : Kind
  case : Path
  /-- The name of its report. -/
  file : String
  result : Except BaselineError Unit

def CaseOutcome.passed (outcome : CaseOutcome) : Bool :=
  match outcome.result with
  | .ok _ => true
  | .error _ => false

/-- What became of all cases, by kind and then by the name of the report. -/
structure SuiteSummary where
  outcomes : List CaseOutcome

namespace SuiteSummary

/-- The summary of outcomes that have come in in any order. -/
def ofOutcomes (outcomes : List CaseOutcome) : SuiteSummary :=
  ⟨outcomes.mergeSort fun a b =>
    decide (a.kind.index < b.kind.index) || (a.kind == b.kind && decide (a.file ≤ b.file))⟩

def passed (summary : SuiteSummary) : Nat := summary.outcomes.countP (·.passed)

def failures (summary : SuiteSummary) : List CaseOutcome :=
  summary.outcomes.filter fun outcome => !outcome.passed

def isSuccess (summary : SuiteSummary) : Bool := summary.failures.isEmpty

end SuiteSummary

section Running

variable {m : Type → Type} [Monad m] [Storage m]

/-- Runs an operation on files; a fault is reported with the path. -/
def BaselineError.at {α : Type} (path : Path) (operation : ExceptT StorageError m α) :
    ExceptT BaselineError m α :=
  operation.adapt (.storage path)

namespace BaselineLayout

/-- Empties the folder of generated reports and makes a folder for each kind in it. -/
def prepareGenerated (layout : BaselineLayout) : ExceptT BaselineError m Unit := do
  if ← ExceptT.lift (Storage.isThere layout.generated) then
    BaselineError.at layout.generated (Storage.removeTree layout.generated)
  Kind.all.forM fun kind => do
    let folder := layout.generated.join ⟨kind.folder⟩
    BaselineError.at folder (Storage.createFolders folder)

/-- The cases of a kind, sorted by name. Where there is no folder there are no cases. -/
def casesOf (layout : BaselineLayout) (kind : Kind) : ExceptT BaselineError m (List Path) := do
  let folder := layout.cases.join ⟨kind.folder⟩
  if ← ExceptT.lift (Storage.isFolder folder) then
    let names ← BaselineError.at folder (Storage.names folder)
    let sorted := names.mergeSort fun a b => decide (a ≤ b)
    let paths := sorted.map fun name => folder.join ⟨name⟩
    paths.filterM fun path => ExceptT.lift (Storage.isFile path)
  else return []

/-- Writes a report and compares it with its approved copy. -/
def check (layout : BaselineLayout) (kind : Kind) (file generated : String) :
    ExceptT BaselineError m Unit := do
  let generatedPath := layout.generatedFile kind file
  BaselineError.at generatedPath (Storage.writeText generatedPath generated)
  let baselinePath := layout.baselineFile kind file
  if ← ExceptT.lift (Storage.isThere baselinePath) then
    let approved ← BaselineError.at baselinePath (Storage.readText baselinePath)
    if approved = generated then return else throw (.mismatch file)
  else throw (.missing file)

end BaselineLayout

namespace GrammarRegistry

variable {σ : Type}

/-- Makes the report of a case and checks it. -/
def checkCase (registry : GrammarRegistry σ) (layout : BaselineLayout) (kind : Kind) (case : Path) :
    ExceptT BaselineError m Unit := do
  let text ← BaselineError.at case (Storage.readText case)
  let report ← ExceptT.mk (pure (registry.report case text))
  layout.check kind (baselineFileName case) report.text

/-- The outcome of a case. A case that fails does not keep others from being run. -/
def runCase (registry : GrammarRegistry σ) (layout : BaselineLayout) (kind : Kind) (case : Path) :
    m CaseOutcome := do
  return ⟨kind, case, baselineFileName case, ← (registry.checkCase layout kind case).run⟩

/-- Runs all cases. -/
def runSuite (registry : GrammarRegistry σ) (layout : BaselineLayout) :
    ExceptT BaselineError m SuiteSummary := do
  layout.prepareGenerated
  let cases ← Kind.all.mapM fun kind => do
    return (← layout.casesOf kind).map fun case => (kind, case)
  let outcomes ← cases.flatten.mapM fun (kind, case) =>
    ExceptT.lift (registry.runCase layout kind case)
  return .ofOutcomes outcomes

end GrammarRegistry

end Running

end HighlightGrammar
