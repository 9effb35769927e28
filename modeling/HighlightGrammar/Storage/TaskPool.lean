import HighlightGrammar.Storage.Script

/-! # Scripts side by side

Several scripts may be at work on the same files, one of which starts the others. Nothing is known
of the order in which they take turns, save that an operation is not interrupted. -/
namespace HighlightGrammar

/-- Scripts at work on the same files: one that starts tasks, the tasks under way, and the results
that have been collected from tasks. -/
structure TaskPool (τ ω ε : Type) where
  files : FileSystem
  main : Script τ (Except ε Unit)
  tasks : List (Script Empty ω)
  results : List ω

namespace TaskPool

variable {τ ω ε : Type}

/-- A script with the files to itself. -/
def begin (files : FileSystem) (main : Script τ (Except ε Unit)) : TaskPool τ ω ε :=
  ⟨files, main, [], []⟩

/-- A step of one of the scripts. When all tasks have been started their results are collected in
the order in which they happen to finish. -/
inductive Step (body : τ → Script Empty ω) : TaskPool τ ω ε → TaskPool τ ω ε → Prop where
  | mainAsks {files tasks results request next} :
    Step body ⟨files, .ask request next, tasks, results⟩
      ⟨(request.perform.run files).2, next (request.perform.run files).1, tasks, results⟩
  | mainStarts {files tasks results task next} :
    Step body ⟨files, .spawn task next, tasks, results⟩
      ⟨files, next, tasks ++ [body task], results⟩
  | taskAsks {files main before request next after results} :
    Step body ⟨files, main, before ++ .ask request next :: after, results⟩
      ⟨(request.perform.run files).2, main, before ++ next (request.perform.run files).1 :: after,
        results⟩
  | collects {files before result after results} :
    Step body ⟨files, .done (.ok ()), before ++ .done result :: after, results⟩
      ⟨files, .done (.ok ()), before ++ after, results ++ [result]⟩

end TaskPool

end HighlightGrammar
