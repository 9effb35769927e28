import HighlightGrammar.Proofs.Storage.Contents
import HighlightGrammar.Proofs.Storage.Scripts
import HighlightGrammar.Storage.TaskPool
import Mathlib.Data.List.Forall2
import Mathlib.Logic.Hydra

/-!
# What pools of tasks come to

Each step takes an operation away from one script, so a pool comes to an end whatever the order of
the steps is. If the tasks only put entries that the others do not look at, the order makes no
difference: the pool ends with the results of all tasks and with all their entries put. -/
namespace HighlightGrammar

/-- What is left of a script after its first operation. -/
inductive Script.Below {τ α : Type} : Script τ α → Script τ α → Prop where
  | asked {request : StorageRequest} {next : request.Answer → Script τ α} (answer) :
    Below (next answer) (.ask request next)
  | started {task next} : Below next (.spawn task next)

theorem Script.wellFounded_below {τ α : Type} :
    WellFounded (Below : Script τ α → Script τ α → Prop) := by
  refine ⟨fun script => ?_⟩
  induction script with
  | done result => exact ⟨_, nofun⟩
  | ask request next ih =>
    refine ⟨_, fun below hbelow => ?_⟩
    cases hbelow with
    | asked answer => exact ih answer
  | spawn task next ih =>
    refine ⟨_, fun below hbelow => ?_⟩
    cases hbelow with
    | started => exact ih

namespace TaskPool

open List (Perm)
open scoped List

variable {τ ω ε : Type} {body : τ → Script Empty ω}

section

variable {files : FileSystem} {main : Script τ (Except ε Unit)} {request : StorageRequest}
  {next : request.Answer → Script Empty ω} {result : ω} {after : List (Script Empty ω)}
  {results : List ω}

theorem Step.first_asks : Step body ⟨files, main, .ask request next :: after, results⟩
    ⟨(request.perform.run files).2, main, next (request.perform.run files).1 :: after, results⟩ :=
  @Step.taskAsks τ ω ε body files main [] request next after results

theorem Step.first_collected : Step body
    ⟨files, .done (.ok () : Except ε Unit), .done result :: after, results⟩
    ⟨files, .done (.ok ()), after, results ++ [result]⟩ :=
  @Step.collects τ ω ε body files [] result after results

end

/-- However the scripts take turns, they come to an end, and there the property holds. -/
inductive EndsIn (body : τ → Script Empty ω) (P : TaskPool τ ω ε → Prop) :
    TaskPool τ ω ε → Prop where
  | intro {pool} (all : ∀ next, Step body pool next → EndsIn body P next)
    (last : (∀ next, ¬ Step body pool next) → P pool) : EndsIn body P pool

theorem EndsIn.imp {P Q : TaskPool τ ω ε → Prop} (hPQ : ∀ pool, P pool → Q pool)
    {pool : TaskPool τ ω ε} (h : EndsIn body P pool) : EndsIn body Q pool := by
  induction h with
  | intro _ last ih => exact .intro ih fun hstuck => hPQ _ (last hstuck)

theorem EndsIn.and {P Q : TaskPool τ ω ε → Prop} {pool : TaskPool τ ω ε}
    (hP : EndsIn body P pool) (hQ : EndsIn body Q pool) :
    EndsIn body (fun last => P last ∧ Q last) pool := by
  induction hP with
  | intro _ lastP ih =>
    cases hQ with
    | intro allQ lastQ =>
      exact .intro (fun next hstep => ih next hstep (allQ next hstep))
        fun hstuck => ⟨lastP hstuck, lastQ hstuck⟩

/-- There is a way in which the scripts come to an end. -/
theorem EndsIn.exists {P : TaskPool τ ω ε → Prop} {pool : TaskPool τ ω ε}
    (h : EndsIn body P pool) : ∃ last, P last := by
  induction h with
  | @intro pool _ last ih =>
    by_cases hstuck : ∀ next, ¬ Step body pool next
    · exact ⟨pool, last hstuck⟩
    · obtain ⟨next, hstep⟩ := not_forall_not.1 hstuck
      exact ih next hstep

/-- As long as no task has been started the main script has the files to itself. -/
theorem endsIn_bind {α : Type} {P : TaskPool τ ω ε → Prop} {first : Script τ α}
    {next : α → Script τ (Except ε Unit)} {files between : FileSystem} {a : α}
    (h : first.ComesTo files a between []) (hnext : EndsIn body P (begin between (next a))) :
    EndsIn body P (begin files (first >>= next)) := by
  generalize hstarted : ([] : List τ) = started at h
  induction h with
  | done => exact hnext
  | start => cases hstarted
  | @ask request answers files a after started _ ih =>
    refine .intro (fun pool hstep => ?_) fun hstuck => absurd .mainAsks (hstuck _)
    generalize hpool : begin files (.ask request answers >>= next) = start at hstep
    cases hstep with
    | mainAsks =>
      cases hpool
      exact ih hnext hstarted
    | mainStarts => cases hpool
    | taskAsks => simp [begin] at hpool
    | collects => cases hpool

/-- What the end of a run comes from may be any state on the way. -/
theorem EndsIn.of_reaches {P : TaskPool τ ω ε → Prop} {pool later : TaskPool τ ω ε}
    (h : EndsIn body P pool) (hreaches : Relation.ReflTransGen (Step body) pool later) :
    EndsIn body P later := by
  induction hreaches with
  | refl => exact h
  | tail _ hstep ih =>
    cases ih with
    | intro all _ => exact all _ hstep

/-- The main script may go first, up to its end. -/
theorem reaches_of_comesTo {main : Script τ (Except ε Unit)} {files after : FileSystem}
    {result : Except ε Unit} {started : List τ} (h : main.ComesTo files result after started)
    (tasks : List (Script Empty ω)) (results : List ω) :
    Relation.ReflTransGen (Step body) ⟨files, main, tasks, results⟩
      ⟨after, .done result, tasks ++ started.map body, results⟩ := by
  induction h generalizing tasks with
  | done =>
    rw [List.map_nil, List.append_nil]
  | ask _ ih => exact .head .mainAsks (ih tasks)
  | @start task _ _ _ _ _ _ ih =>
    have hrest := ih (tasks ++ [body task])
    rw [List.append_assoc] at hrest
    exact .head .mainStarts hrest

/-- Then the tasks may go one after the other. -/
theorem reaches_of_mirrors {run : τ → StateM FileSystem ω}
    (h : ∀ task, (body task).Mirrors (run task)) (started : List τ) (files : FileSystem)
    (results : List ω) :
    Relation.ReflTransGen (Step body) ⟨files, .done (.ok () : Except ε Unit), started.map body, results⟩
      ⟨((started.mapM run).run files).2, .done (.ok ()), [],
        results ++ ((started.mapM run).run files).1⟩ := by
  have hone : ∀ {script : Script Empty ω} {files after a none}, script.ComesTo files a after none →
      ∀ rest results, Relation.ReflTransGen (Step body)
        ⟨files, .done (.ok () : Except ε Unit), script :: rest, results⟩
        ⟨after, .done (.ok ()), rest, results ++ [a]⟩ := by
    intro script files after a none hcomes rest results
    induction hcomes with
    | done => exact .single .first_collected
    | ask _ ih => exact .head .first_asks ih
    | @start task => exact task.elim
  induction started generalizing files results with
  | nil =>
    rw [List.mapM_nil]
    exact (List.append_nil results).symm ▸ .refl
  | cons task started ih =>
    have hrest := ih ((run task).run files).2 (results ++ [((run task).run files).1])
    rw [List.append_assoc] at hrest
    rw [FileSystem.run_mapM_cons]
    exact (hone (h task files) _ _).trans hrest

/-- The work that is left in a pool. -/
def work (pool : TaskPool τ ω ε) :
    Script τ (Except ε Unit) × Multiset (Script Empty ω) := (pool.main, pool.tasks)

/-- The main script goes on, or it stands still and one of the tasks goes on or is given up. -/
def Less : Script τ (Except ε Unit) × Multiset (Script Empty ω) →
    Script τ (Except ε Unit) × Multiset (Script Empty ω) → Prop :=
  Prod.Lex Script.Below (Relation.CutExpand Script.Below)

theorem wellFounded_less : WellFounded (Less : _ → Script τ (Except ε Unit) ×
    Multiset (Script Empty ω) → Prop) :=
  Script.wellFounded_below.prod_lex Script.wellFounded_below.cutExpand

section

variable {α : Type} {r : α → α → Prop} {before after : List α} {a b : α}

theorem cutExpand_replace (h : r b a) : Relation.CutExpand r
    (before ++ b :: after : List α) (before ++ a :: after : List α) := by
  refine ⟨{b}, a, fun c hc => Multiset.mem_singleton.1 hc ▸ h, ?_⟩
  rw [← Multiset.coe_singleton, ← Multiset.coe_singleton, Multiset.coe_add, Multiset.coe_add,
    Multiset.coe_eq_coe]
  calc before ++ b :: after ++ [a]
    _ ~ a :: (before ++ b :: after) := List.perm_append_singleton _ _
    _ ~ a :: b :: (before ++ after) := List.perm_middle.cons a
    _ ~ b :: a :: (before ++ after) := .swap b a _
    _ ~ b :: (before ++ a :: after) := List.perm_middle.symm.cons b
    _ ~ before ++ a :: after ++ [b] := (List.perm_append_singleton _ _).symm

theorem cutExpand_remove : Relation.CutExpand r
    (before ++ after : List α) (before ++ a :: after : List α) := by
  refine ⟨0, a, nofun, ?_⟩
  rw [add_zero, ← Multiset.coe_singleton, Multiset.coe_add, Multiset.coe_eq_coe]
  exact (List.perm_append_singleton _ _).trans List.perm_middle.symm

end

theorem Step.work_less {pool next : TaskPool τ ω ε} (h : Step body pool next) :
    Less next.work pool.work := by
  cases h with
  | mainAsks => exact .left _ _ (.asked _)
  | mainStarts => exact .left _ _ .started
  | taskAsks => exact .right _ (cutExpand_replace (.asked _))
  | collects => exact .right _ cutExpand_remove

/-- An invariant that says what there is at the end. -/
theorem endsIn_of_invariant {P I : TaskPool τ ω ε → Prop}
    (hstep : ∀ pool next, I pool → Step body pool next → I next)
    (hlast : ∀ pool, I pool → (∀ next, ¬ Step body pool next) → P pool)
    {pool : TaskPool τ ω ε} (h : I pool) : EndsIn body P pool := by
  induction hwork : pool.work using wellFounded_less.induction generalizing pool with
  | _ work ih =>
    subst hwork
    exact .intro (fun next hnext => ih _ hnext.work_less (hstep _ _ h hnext) rfl) (hlast pool h)

/-- Of all entries those that are not pending have been put, and nothing else has changed. -/
def Accounted (base : FileSystem) (all pending : List Put) (files : FileSystem) : Prop :=
  ∀ place, (∃ entry, (place, entry) ∈ all ∧ files.get? place = some entry) ∨
    (files.get? place = base.get? place ∧ ∀ entry, (place, entry) ∈ all → (place, entry) ∈ pending)

theorem accounted_self (base : FileSystem) (all : List Put) : Accounted base all all base :=
  fun _ => Or.inr ⟨rfl, fun _ => id⟩

theorem Accounted.put {base files : FileSystem} {all pending left : List Put} {place : Place}
    {entry : Entry} (h : Accounted base all pending files) (hmem : (place, entry) ∈ all)
    (haround : place.isAround = false) (hleft : ∀ put ∈ pending, put ≠ (place, entry) → put ∈ left) :
    Accounted base all left (files.put place entry) := by
  intro other
  rw [FileSystem.get?_put haround]
  by_cases hother : other = place
  · rw [if_pos hother, hother]
    exact Or.inl ⟨entry, hmem, rfl⟩
  · rw [if_neg hother]
    refine (h other).imp_right fun ⟨hget, hpending⟩ => ⟨hget, fun entry' hentry => ?_⟩
    exact hleft _ (hpending entry' hentry) fun heq => hother (congrArg Prod.fst heq)

/-- What a task will come to: its result and the entries that it puts. -/
structure Plan (ω : Type) where
  result : ω
  puts : List Put

section Working

variable {World : FileSystem → Prop} {plan : τ → Plan ω} {base : FileSystem} {all : List Put}
  {expected : List ω}

/-- A pool on its way: tasks wait to be started, others are under way with their plans, and together
with the collected results these are all that is expected. -/
structure Working (body : τ → Script Empty ω) (World : FileSystem → Prop) (plan : τ → Plan ω)
    (base : FileSystem) (all : List Put) (expected : List ω) (pool : TaskPool τ ω ε)
    (waiting : List τ) (plans : List (Plan ω)) : Prop where
  world : World pool.files
  main : pool.main.Delivers World (.ok ()) [] waiting
  bodies : ∀ task ∈ waiting, (body task).Delivers World (plan task).result (plan task).puts []
  tasks : List.Forall₂ (fun script plan => script.Delivers World plan.result plan.puts [])
    pool.tasks plans
  results : (pool.results ++ (plans ++ waiting.map plan).map Plan.result).Perm expected
  planned : (plans ++ waiting.map plan).flatMap Plan.puts ⊆ all
  accounted : Accounted base all ((plans ++ waiting.map plan).flatMap Plan.puts) pool.files

theorem forall₂_split {α β : Type} {R : α → β → Prop} {before after : List α} {a : α} {bs : List β}
    (h : List.Forall₂ R (before ++ a :: after) bs) :
    ∃ front b back, bs = front ++ b :: back ∧ List.Forall₂ R before front ∧ R a b ∧
      List.Forall₂ R after back := by
  induction before generalizing bs with
  | nil =>
    obtain ⟨b, back, hb, hback, rfl⟩ := List.forall₂_cons_left_iff.1 h
    exact ⟨[], b, back, rfl, .nil, hb, hback⟩
  | cons first before ih =>
    obtain ⟨b, bs, hb, hrest, rfl⟩ := List.forall₂_cons_left_iff.1 h
    obtain ⟨front, c, back, rfl, hfront, hc, hback⟩ := ih hrest
    exact ⟨b :: front, c, back, rfl, .cons hb hfront, hc, hback⟩

theorem mem_puts_cons_iff {front back : List (Plan ω)} {result : ω} {first put : Put}
    {left : List Put} : put ∈ (front ++ ⟨result, first :: left⟩ :: back).flatMap Plan.puts ↔
      put = first ∨ put ∈ (front ++ ⟨result, left⟩ :: back).flatMap Plan.puts := by
  simp only [List.flatMap_append, List.flatMap_cons, List.mem_append, List.mem_cons]
  tauto

/-- A step keeps to the plans, if the world bears all entries that are put. -/
theorem Working.step (hworld : ∀ files, World files → ∀ put ∈ all, World (files.put put.1 put.2))
    (haround : ∀ put ∈ all, Place.isAround put.1 = false) {pool next : TaskPool τ ω ε}
    {waiting : List τ} {plans : List (Plan ω)}
    (h : Working body World plan base all expected pool waiting plans)
    (hstep : Step body pool next) :
    ∃ waiting plans, Working body World plan base all expected next waiting plans := by
  obtain ⟨world, main, bodies, tasks, results, planned, accounted⟩ := h
  cases hstep with
  | @mainAsks files tasks results request next =>
    cases main with
    | looks still rest =>
      have hstill := still files world
      refine ⟨waiting, plans, ?_, rest files world, bodies, tasks, results, planned, ?_⟩
      · rwa [hstill]
      · rwa [hstill]
  | @mainStarts files tasks' results task next =>
    cases main with
    | @starts _ waiting _ _ rest =>
      have hplans : plans ++ (task :: waiting).map plan =
          plans ++ [plan task] ++ waiting.map plan := by
        simp
      rw [hplans] at results planned accounted
      rw [List.forall_mem_cons] at bodies
      exact ⟨waiting, plans ++ [plan task], world, rest, bodies.2,
        List.rel_append tasks (.cons bodies.1 .nil), results, planned, accounted⟩
  | @taskAsks files main' before request next after results' =>
    obtain ⟨front, ⟨result, puts⟩, back, rfl, hfront, htask, hback⟩ := forall₂_split tasks
    cases htask with
    | looks still rest =>
      have hstill := still files world
      refine ⟨waiting, _, ?_, main, bodies, List.rel_append hfront (.cons (rest files world) hback),
        results, planned, ?_⟩
      · rwa [hstill]
      · rwa [hstill]
    | @puts place entry left _ _ _ put rest =>
      rw [List.append_assoc, List.cons_append] at planned accounted
      have hmem : (place, entry) ∈ all := planned (mem_puts_cons_iff.2 (Or.inl rfl))
      refine ⟨waiting, front ++ ⟨result, left⟩ :: back, ?_, main, bodies,
        List.rel_append hfront (.cons (rest files world) hback), by simpa using results, ?_, ?_⟩
      · rw [put files world]
        exact hworld files world _ hmem
      · rw [List.append_assoc, List.cons_append]
        exact fun put hput => planned (mem_puts_cons_iff.2 (Or.inr hput))
      · rw [put files world, List.append_assoc, List.cons_append]
        exact accounted.put hmem (haround _ hmem) fun put hput hne =>
          (mem_puts_cons_iff.1 hput).resolve_left hne
  | @collects files before result after results' =>
    obtain ⟨front, ⟨result', puts⟩, back, rfl, hfront, htask, hback⟩ := forall₂_split tasks
    cases htask with
    | done =>
      refine ⟨waiting, front ++ back, world, main, bodies, List.rel_append hfront hback, ?_,
        by simpa using planned, by simpa using accounted⟩
      refine Perm.trans ?_ results
      simp only [List.map_append, List.map_cons, List.append_assoc, List.cons_append, List.nil_append]
      exact List.perm_middle.symm.append_left _

/-- A pool that has come to its end: all tasks have been collected and all entries put. -/
structure Finished (World : FileSystem → Prop) (base : FileSystem) (all : List Put)
    (expected : List ω) (pool : TaskPool τ ω ε) : Prop where
  main : pool.main = .done (.ok ())
  tasks : pool.tasks = []
  results : pool.results.Perm expected
  world : World pool.files
  accounted : Accounted base all [] pool.files

theorem Working.finished {pool : TaskPool τ ω ε} {waiting : List τ} {plans : List (Plan ω)}
    (h : Working body World plan base all expected pool waiting plans)
    (hstuck : ∀ next, ¬ Step body pool next) : Finished World base all expected pool := by
  obtain ⟨files, main, tasks, results⟩ := pool
  have hmain : main = .done (.ok ()) ∧ waiting = [] := by
    cases h.main with
    | done => exact ⟨rfl, rfl⟩
    | looks => exact absurd .mainAsks (hstuck _)
    | starts => exact absurd .mainStarts (hstuck _)
  obtain ⟨rfl, rfl⟩ := hmain
  have htasks : tasks = [] ∧ plans = [] := by
    cases h.tasks with
    | nil => exact ⟨rfl, rfl⟩
    | @cons script plan tasks plans hscript =>
      cases script with
      | done => exact absurd .first_collected (hstuck _)
      | ask => exact absurd .first_asks (hstuck _)
      | spawn task => exact task.elim
  obtain ⟨rfl, rfl⟩ := htasks
  exact ⟨rfl, rfl, by simpa using h.results, h.world, h.accounted⟩

/-- If the main script only starts tasks, and none of these looks at what another one puts, then a
pool ends with the results and the entries of all tasks, in whatever order they take turns. -/
theorem endsIn_finished {main : Script τ (Except ε Unit)} {started : List τ} (hbase : World base)
    (hmain : main.Delivers World (.ok ()) [] started)
    (hbodies : ∀ task ∈ started,
      (body task).Delivers World (plan task).result (plan task).puts [])
    (hworld : ∀ files, World files → ∀ put ∈ (started.map plan).flatMap Plan.puts,
      World (files.put put.1 put.2))
    (haround : ∀ put ∈ (started.map plan).flatMap Plan.puts, Place.isAround put.1 = false) :
    EndsIn body (Finished World base ((started.map plan).flatMap Plan.puts)
      ((started.map plan).map Plan.result)) (begin base main) := by
  refine endsIn_of_invariant (I := fun pool => ∃ waiting plans, Working body World plan base
    ((started.map plan).flatMap Plan.puts) ((started.map plan).map Plan.result) pool waiting plans)
    ?_ ?_ ?_
  · rintro pool next ⟨waiting, plans, h⟩ hstep
    exact h.step hworld haround hstep
  · rintro pool ⟨waiting, plans, h⟩ hstuck
    exact h.finished hstuck
  · exact ⟨started, [], hbase, hmain, hbodies, .nil, .refl _, fun put hput => hput,
      accounted_self _ _⟩

end Working

end TaskPool

end HighlightGrammar
