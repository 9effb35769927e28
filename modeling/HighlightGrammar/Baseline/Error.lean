import HighlightGrammar.Baseline.Registry

/-! # What can go wrong with a baseline -/
namespace HighlightGrammar

/-- Why a case failed, or why the cases could not be run. -/
inductive BaselineError where
  /-- A report of which no approved copy exists. -/
  | missing (file : String)
  /-- A report that differs from its approved copy. -/
  | mismatch (file : String)
  /-- A document that needs a grammar which could not be loaded. -/
  | unavailable (kind : Kind) (fault : LoadFault)
  | scan (error : ScanError)
  | storage (path : Path) (error : StorageError)
deriving DecidableEq, Repr

namespace BaselineError

def message : BaselineError → String
  | missing file => s!"new generated baseline, not yet approved: {file}"
  | mismatch file => s!"expected baselines to match: {file}"
  | unavailable kind fault => s!"{kind} grammar is unavailable: {fault.message}"
  | scan error => error.message
  | storage path error => s!"{path}: {error.message}"

/-- Whether a report was made and only its comparison failed. -/
def isComparison : BaselineError → Bool
  | missing _ => true
  | mismatch _ => true
  | unavailable _ _ => false
  | scan _ => false
  | storage _ _ => false

end BaselineError

end HighlightGrammar
