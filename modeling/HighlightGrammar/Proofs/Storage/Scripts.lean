import HighlightGrammar.Proofs.Storage.Quiet
import HighlightGrammar.Storage.Script

/-!
# What scripts come to

While others are at work on the files, a script only finds what they leave alone. It delivers a
result if it comes to that result whatever the files are like among those that may be met, and on
its way it puts certain entries and starts certain tasks. Alone with the files, a script comes to
what the action comes to that it lays out. -/
namespace HighlightGrammar

/-- An entry with the place where it is put. -/
abbrev Put := Place × Entry

namespace FileSystem

theorem run_query {α : Type} (ask : FileSystem → Except StorageError α) (files : FileSystem) :
    (query ask).run.run files = (ask files, files) :=
  Prod.ext (answer_query ask files) (quiet_query ask files)

theorem run_update (change : FileSystem → Except StorageError FileSystem) (files : FileSystem) :
    (update change).run.run files = match change files with
      | .ok changed => (.ok (), changed)
      | .error error => (.error error, files) := by
  rw [update, run_get_bind]
  cases change files <;> rfl

end FileSystem

namespace Script

variable {τ α β ε δ : Type}

/-- Meeting only files of a world, the script puts some entries and starts some tasks, each in
order, and its result is `result`. -/
inductive Delivers (World : FileSystem → Prop) (result : α) :
    List Put → List τ → Script τ α → Prop where
  | done : Delivers World result [] [] (.done result)
  | looks {puts tasks request next}
    (still : ∀ files, World files → (request.perform.run files).2 = files)
    (rest : ∀ files, World files →
      Delivers World result puts tasks (next (request.perform.run files).1)) :
    Delivers World result puts tasks (.ask request next)
  | puts {place entry puts tasks request next}
    (put : ∀ files, World files → (request.perform.run files).2 = files.put place entry)
    (rest : ∀ files, World files →
      Delivers World result puts tasks (next (request.perform.run files).1)) :
    Delivers World result ((place, entry) :: puts) tasks (.ask request next)
  | starts {puts tasks task next} (rest : Delivers World result puts tasks next) :
    Delivers World result puts (task :: tasks) (.spawn task next)

section

variable {World : FileSystem → Prop} {puts puts' : List Put} {tasks tasks' : List τ}

theorem Delivers.bind {a : α} {b : β} {first : Script τ α} {k : α → Script τ β}
    (hfirst : Delivers World a puts tasks first) (hnext : Delivers World b puts' tasks' (k a)) :
    Delivers World b (puts ++ puts') (tasks ++ tasks') (first >>= k) := by
  induction hfirst with
  | done => exact hnext
  | looks still _ ih => exact .looks still ih
  | puts put _ ih => exact .puts put ih
  | starts _ ih => exact .starts ih

theorem delivers_pure (a : α) : Delivers World a [] [] (pure a : Script τ α) := .done

theorem delivers_start (task : τ) : Delivers World () [] [task] (start task) := .starts .done

section

variable {a : α} {first : ExceptT ε (Script τ) α} {k : α → ExceptT ε (Script τ) β}

theorem Delivers.run_bind {result : Except ε β} (hfirst : Delivers World (.ok a) puts tasks first.run)
    (hnext : Delivers World result puts' tasks' (k a).run) :
    Delivers World result (puts ++ puts') (tasks ++ tasks') (first >>= k).run :=
  hfirst.bind hnext

/-- What comes first only looks. -/
theorem Delivers.run_bind_of_looks {result : Except ε β}
    (hfirst : Delivers World (.ok a) [] [] first.run)
    (hnext : Delivers World result puts tasks (k a).run) :
    Delivers World result puts tasks (first >>= k).run := hfirst.run_bind hnext

theorem Delivers.run_bind_error {error : ε} (hfirst : Delivers World (.error error) puts tasks first.run) :
    Delivers World (.error error : Except ε β) puts tasks (first >>= k).run := by
  have hstop : Delivers World (.error error : Except ε β) (puts ++ []) (tasks ++ []) _ :=
    hfirst.bind (k := ExceptT.bindCont k) (delivers_pure _)
  rw [List.append_nil, List.append_nil] at hstop
  exact hstop

theorem Delivers.adapt {result : Except ε α} (h : Delivers World result puts tasks first.run)
    (f : ε → δ) : Delivers World (result.mapError f) puts tasks (first.adapt f).run := by
  have hmap := h.bind (k := fun result => pure (result.mapError f)) (delivers_pure _)
  rw [List.append_nil, List.append_nil] at hmap
  exact hmap

theorem Delivers.lift {action : Script τ α} (h : Delivers World a puts tasks action) :
    Delivers World (.ok a : Except ε α) puts tasks (ExceptT.lift action).run := by
  have hmap := h.bind (k := fun a => pure (.ok a : Except ε α)) (delivers_pure _)
  rw [List.append_nil, List.append_nil] at hmap
  exact hmap

end

/-- An operation that finds the same in all files of the world. -/
theorem delivers_request (request : StorageRequest) {answer : request.Answer}
    (h : ∀ files, World files → request.perform.run files = (answer, files)) :
    Delivers World answer [] [] (Script.request request : Script τ _) := by
  refine .looks (fun files hfiles => by rw [h files hfiles]) fun files hfiles => ?_
  rw [h files hfiles]
  exact .done

/-- An operation that puts an entry. -/
theorem delivers_request_put (request : StorageRequest) {answer : request.Answer} {place : Place}
    {entry : Entry}
    (h : ∀ files, World files → request.perform.run files = (answer, files.put place entry)) :
    Delivers World answer [(place, entry)] [] (Script.request request : Script τ _) := by
  refine .puts (fun files hfiles => by rw [h files hfiles]) fun files hfiles => ?_
  rw [h files hfiles]
  exact .done

theorem delivers_kind? {path : Path} {kind : Option EntryKind}
    (h : ∀ files, World files → files.kind? path = kind) :
    Delivers World kind [] [] (Storage.kind? path : Script τ _) := by
  refine delivers_request (.kind? path) fun files hfiles => ?_
  rw [← h files hfiles]
  rfl

theorem delivers_isThere {path : Path} {kind : Option EntryKind}
    (h : ∀ files, World files → files.kind? path = kind) :
    Delivers World kind.isSome [] [] (Storage.isThere path : Script τ Bool) :=
  (delivers_kind? h).bind (delivers_pure _)

theorem delivers_isFile {path : Path} {kind : Option EntryKind}
    (h : ∀ files, World files → files.kind? path = kind) :
    Delivers World (kind == some .file) [] [] (Storage.isFile path : Script τ Bool) :=
  (delivers_kind? h).bind (delivers_pure _)

theorem delivers_isFolder {path : Path} {kind : Option EntryKind}
    (h : ∀ files, World files → files.kind? path = kind) :
    Delivers World (kind == some .folder) [] [] (Storage.isFolder path : Script τ Bool) :=
  (delivers_kind? h).bind (delivers_pure _)

/-- The names in a folder may come in any order if that makes no difference to what follows. -/
theorem delivers_names_bind {path : Path} {f : StorageError → δ} {result : Except δ β}
    {next : List String → ExceptT δ (Script τ) β}
    (h : ∀ files, World files → ∃ names, files.names path = .ok names ∧
      Delivers World result puts tasks (next names).run) :
    Delivers World result puts tasks ((Storage.names path).adapt f >>= next).run := by
  refine .looks (fun files _ => ?_) fun files hfiles => ?_
  · exact congrArg Prod.snd (FileSystem.run_query (fun files => files.names path) files)
  · obtain ⟨names, hnames, hrest⟩ := h files hfiles
    have hread : ((StorageRequest.names path).perform.run files).1 = .ok names :=
      (congrArg Prod.fst (FileSystem.run_query (fun files => files.names path) files)).trans hnames
    rw [hread]
    exact hrest

theorem delivers_readText {path : Path} {result : Except StorageError String}
    (h : ∀ files, World files → files.answer (Storage.readText path) = result) :
    Delivers World result [] []
      (Storage.readText path : ExceptT StorageError (Script τ) String).run := by
  -- Files with different bytes may hold the same text or none, so the bytes are not fixed here.
  refine .looks (fun files _ => ?_) fun files hfiles => ?_
  · exact congrArg Prod.snd (FileSystem.run_query (fun files => files.readBytes path) files)
  · have hread : ((StorageRequest.readBytes path).perform.run files).1 = files.readBytes path :=
      congrArg Prod.fst (FileSystem.run_query (fun files => files.readBytes path) files)
    rw [hread, ← h files hfiles, FileSystem.answer_readText]
    cases files.readBytes path with
    | error error => exact .done
    | ok bytes =>
      rw [ok_bind]
      dsimp only [Script.bind, ExceptT.bindCont]
      cases String.fromUTF8? bytes <;> exact .done

theorem delivers_writeText {path : Path} {text : String} {place : Place}
    (h : ∀ files, World files →
      files.writeBytes path text.toUTF8 = .ok (files.put place (.file text.toUTF8))) :
    Delivers World (.ok ()) [(place, .file text.toUTF8)] []
      (Storage.writeText path text : ExceptT StorageError (Script τ) Unit).run :=
  delivers_request_put (.writeBytes path text.toUTF8) fun files hfiles =>
    (FileSystem.run_update _ files).trans (by simp only [h files hfiles]; rfl)

theorem delivers_writeText_error {path : Path} {text : String} {error : StorageError}
    (h : ∀ files, World files → files.writeBytes path text.toUTF8 = .error error) :
    Delivers World (.error error) [] []
      (Storage.writeText path text : ExceptT StorageError (Script τ) Unit).run :=
  delivers_request (.writeBytes path text.toUTF8) fun files hfiles =>
    (FileSystem.run_update _ files).trans (by simp only [h files hfiles]; rfl)

theorem delivers_filterM {f : α → ExceptT ε (Script τ) Bool} {p : α → Bool} {items : List α}
    (h : ∀ a ∈ items, Delivers World (.ok (p a)) [] [] (f a).run) :
    Delivers World (.ok (items.filter p)) [] [] (items.filterM f).run := by
  have hfrom : ∀ items kept : List α, (∀ a ∈ items, Delivers World (.ok (p a)) [] [] (f a).run) →
      Delivers World (.ok ((items.filter p).reverse ++ kept)) [] []
        (List.filterAuxM f items kept).run := by
    intro items
    induction items with
    | nil => exact fun kept _ => delivers_pure _
    | cons a items ih =>
      intro kept h
      rw [List.forall_mem_cons] at h
      have hrest := ih (cond (p a) (a :: kept) kept) h.2
      have hkept : (items.filter p).reverse ++ cond (p a) (a :: kept) kept =
          ((a :: items).filter p).reverse ++ kept := by
        cases ha : p a <;> simp [ha]
      rw [hkept] at hrest
      exact h.1.run_bind hrest
  have hall := (hfrom items [] h).run_bind (k := fun kept => pure kept.reverse) (delivers_pure _)
  rwa [List.append_nil, List.reverse_reverse] at hall

theorem delivers_forM {f : α → ExceptT ε (Script τ) Unit} {puts : α → List Put}
    {tasks : α → List τ} {items : List α}
    (h : ∀ a ∈ items, Delivers World (.ok ()) (puts a) (tasks a) (f a).run) :
    Delivers World (.ok ()) (items.flatMap puts) (items.flatMap tasks) (items.forM f).run := by
  induction items with
  | nil => exact delivers_pure _
  | cons a items ih =>
    rw [List.forall_mem_cons] at h
    exact h.1.run_bind (k := fun _ => items.forM f) (ih h.2)

end

/-- Alone with the files the script comes to a result, leaves the files so, and starts tasks that do
not begin yet. -/
inductive ComesTo : Script τ α → FileSystem → α → FileSystem → List τ → Prop where
  | done {a files} : ComesTo (.done a) files a files []
  | ask {request next files a after started}
    (rest : ComesTo (next (request.perform.run files).1) (request.perform.run files).2 a after
      started) : ComesTo (.ask request next) files a after started
  | start {task next files a after started} (rest : ComesTo next files a after started) :
    ComesTo (.spawn task next) files a after (task :: started)

/-- The script comes to what the action comes to, and starts no task. -/
def Mirrors (script : Script τ α) (action : StateM FileSystem α) : Prop :=
  ∀ files, ComesTo script files (action.run files).1 (action.run files).2 []

theorem ComesTo.bind {first : Script τ α} {k : α → Script τ β} {files between after : FileSystem}
    {a : α} {b : β} {started started' : List τ} (hfirst : ComesTo first files a between started)
    (hnext : ComesTo (k a) between b after started') :
    ComesTo (first >>= k) files b after (started ++ started') := by
  induction hfirst with
  | done => exact hnext
  | ask _ ih => exact .ask (ih hnext)
  | start _ ih => exact .start (ih hnext)

section

variable {first : ExceptT ε (Script τ) α} {k : α → ExceptT ε (Script τ) β}
  {files between after : FileSystem} {started started' : List τ}

theorem ComesTo.run_bind {a : α} {result : Except ε β}
    (hfirst : ComesTo first.run files (.ok a) between started)
    (hnext : ComesTo (k a).run between result after started') :
    ComesTo (first >>= k).run files result after (started ++ started') := hfirst.bind hnext

theorem ComesTo.run_bind_error {error : ε}
    (hfirst : ComesTo first.run files (.error error) between started) :
    ComesTo (first >>= k).run files (.error error) between started := by
  have hstop : ComesTo (first >>= k).run files (.error error) between (started ++ []) :=
    hfirst.bind (k := ExceptT.bindCont k) .done
  rwa [List.append_nil] at hstop

end

theorem mirrors_pure (a : α) : Mirrors (pure a : Script τ α) (pure a) := fun _ => .done

theorem mirrors_request (request : StorageRequest) :
    Mirrors (Script.request request : Script τ _) request.perform := fun _ => .ask .done

theorem Mirrors.bind {script : Script τ α} {action : StateM FileSystem α} {k : α → Script τ β}
    {l : α → StateM FileSystem β} (h : Mirrors script action) (hnext : ∀ a, Mirrors (k a) (l a)) :
    Mirrors (script >>= k) (action >>= l) :=
  fun files => (h files).bind (hnext _ _)

section

variable {script : ExceptT ε (Script τ) α} {action : ExceptT ε (StateM FileSystem) α}

theorem Mirrors.run_bind {k : α → ExceptT ε (Script τ) β}
    {l : α → ExceptT ε (StateM FileSystem) β} (h : Mirrors script.run action.run)
    (hnext : ∀ a, Mirrors (k a).run (l a).run) :
    Mirrors (script >>= k).run (action >>= l).run := by
  refine h.bind (k := ExceptT.bindCont k) (l := ExceptT.bindCont l) fun result => ?_
  cases result with
  | ok a => exact hnext a
  | error error => exact mirrors_pure _

theorem Mirrors.run_tryCatch {rescue : ε → ExceptT ε (Script τ) α}
    {recover : ε → ExceptT ε (StateM FileSystem) α} (h : Mirrors script.run action.run)
    (hrescue : ∀ error, Mirrors (rescue error).run (recover error).run) :
    Mirrors (tryCatch script rescue).run (tryCatch action recover).run := by
  simp only [tryCatch, tryCatchThe, MonadExceptOf.tryCatch, ExceptT.tryCatch, ExceptT.run_mk]
  refine h.bind fun result => ?_
  cases result with
  | ok a => exact mirrors_pure _
  | error error => exact hrescue error

theorem Mirrors.adapt (h : Mirrors script.run action.run) (f : ε → δ) :
    Mirrors (script.adapt f).run (action.adapt f).run := h.bind fun _ => mirrors_pure _

theorem Mirrors.lift {script : Script τ α} {action : StateM FileSystem α} (h : Mirrors script action) :
    Mirrors (ExceptT.lift script : ExceptT ε _ α).run (ExceptT.lift action : ExceptT ε _ α).run :=
  h.bind fun _ => mirrors_pure _

theorem mirrors_throw (error : ε) : Mirrors (throw error : ExceptT ε (Script τ) α).run
    (throw error : ExceptT ε (StateM FileSystem) α).run := mirrors_pure _

theorem mirrors_filterM {f : α → ExceptT ε (Script τ) Bool}
    {g : α → ExceptT ε (StateM FileSystem) Bool} (h : ∀ a, Mirrors (f a).run (g a).run)
    (items : List α) : Mirrors (items.filterM f).run (items.filterM g).run := by
  have hfrom : ∀ items kept : List α, Mirrors (List.filterAuxM f items kept).run
      (List.filterAuxM g items kept).run := by
    intro items
    induction items with
    | nil => exact fun kept => mirrors_pure _
    | cons a items ih => exact fun kept => (h a).run_bind fun keep => ih _
  exact (hfrom items []).run_bind fun kept => mirrors_pure _

theorem mirrors_forM {f : β → ExceptT ε (Script τ) Unit}
    {g : β → ExceptT ε (StateM FileSystem) Unit} (h : ∀ b, Mirrors (f b).run (g b).run)
    (items : List β) : Mirrors (items.forM f).run (items.forM g).run := by
  induction items with
  | nil => exact mirrors_pure _
  | cons b items ih => exact (h b).run_bind (k := fun _ => items.forM f) fun _ => ih

end

section

variable (path : Path)

theorem mirrors_isThere : Mirrors (Storage.isThere path : Script τ Bool) (Storage.isThere path) :=
  (mirrors_request (.kind? path)).bind fun _ => mirrors_pure _

theorem mirrors_isFolder : Mirrors (Storage.isFolder path : Script τ Bool) (Storage.isFolder path) :=
  (mirrors_request (.kind? path)).bind fun _ => mirrors_pure _

theorem mirrors_isFile : Mirrors (Storage.isFile path : Script τ Bool) (Storage.isFile path) :=
  (mirrors_request (.kind? path)).bind fun _ => mirrors_pure _

theorem mirrors_names :
    Mirrors (Storage.names path : ExceptT StorageError (Script τ) (List String)).run
      (Storage.names path : ExceptT StorageError (StateM FileSystem) (List String)).run :=
  mirrors_request (.names path)

theorem mirrors_readText :
    Mirrors (Storage.readText path : ExceptT StorageError (Script τ) String).run
      (Storage.readText path : ExceptT StorageError (StateM FileSystem) String).run := by
  refine Mirrors.run_bind (mirrors_request (.readBytes path)) fun bytes => ?_
  cases String.fromUTF8? bytes with
  | none => exact mirrors_throw _
  | some text => exact mirrors_pure _

theorem mirrors_writeText (text : String) :
    Mirrors (Storage.writeText path text : ExceptT StorageError (Script τ) Unit).run
      (Storage.writeText path text : ExceptT StorageError (StateM FileSystem) Unit).run :=
  mirrors_request (.writeBytes path text.toUTF8)

theorem mirrors_ensureFolder :
    Mirrors (Storage.ensureFolder path : ExceptT StorageError (Script τ) Unit).run
      (Storage.ensureFolder path : ExceptT StorageError (StateM FileSystem) Unit).run := by
  refine Mirrors.run_tryCatch (mirrors_request (.makeFolder path)) fun error => ?_
  refine (mirrors_isFolder path).lift.run_bind fun there => ?_
  cases there
  · exact mirrors_throw error
  · exact mirrors_pure _

theorem mirrors_createAlong (paths : List Path) :
    Mirrors (Storage.createAlong paths : ExceptT StorageError (Script τ) Unit).run
      (Storage.createAlong paths : ExceptT StorageError (StateM FileSystem) Unit).run := by
  induction paths with
  | nil => exact mirrors_throw _
  | cons path around ih =>
    unfold Storage.createAlong
    split
    · exact mirrors_pure _
    · refine Mirrors.run_tryCatch (mirrors_ensureFolder path) fun error => ?_
      split
      · exact ih.run_bind fun _ => mirrors_ensureFolder path
      · exact mirrors_throw error

theorem mirrors_createFolders :
    Mirrors (Storage.createFolders path : ExceptT StorageError (Script τ) Unit).run
      (Storage.createFolders path : ExceptT StorageError (StateM FileSystem) Unit).run :=
  mirrors_createAlong _

end

end Script

end HighlightGrammar
