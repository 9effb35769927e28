import HighlightGrammar.Build
import HighlightGrammar.Proofs.Fallible
import HighlightGrammar.Settings.Layers
import HighlightGrammar.Storage.FileSystem

/-!
# Actions that only read

An action that leaves the files as they are can be told by its answer. What comes after it finds the
same files, so the answers of a whole reading are put together from the answers of its parts. -/
namespace HighlightGrammar

namespace FileSystem

/-- What an action finds in the files. -/
def answer {ε α : Type} (files : FileSystem) (action : ExceptT ε (StateM FileSystem) α) :
    Except ε α := (action.run.run files).1

/-- The action leaves the files as they are. -/
def Quiet {α : Type} (action : StateM FileSystem α) : Prop :=
  ∀ files, (action.run files).2 = files

variable {ε δ α β : Type}

section

variable {first : StateM FileSystem α} {next : α → StateM FileSystem β}

theorem Quiet.run_bind (hfirst : Quiet first) (files : FileSystem) :
    (first >>= next).run files = (next (first.run files).1).run files := by
  have hrun : (first >>= next).run files =
      (next (first.run files).1).run (first.run files).2 := rfl
  rw [hrun, hfirst]

theorem quiet_pure (a : α) : Quiet (pure a) := fun _ => rfl

theorem Quiet.bind (hfirst : Quiet first) (hnext : ∀ a, Quiet (next a)) :
    Quiet (first >>= next) := by
  intro files
  rw [hfirst.run_bind]
  exact hnext _ files

theorem run_mapM_cons (f : α → StateM FileSystem β) (a : α) (items : List α) (files : FileSystem) :
    ((a :: items).mapM f).run files =
      (((f a).run files).1 :: ((items.mapM f).run ((f a).run files).2).1,
        ((items.mapM f).run ((f a).run files).2).2) := by
  rw [List.mapM_cons]
  rfl

theorem run_mapM {f : α → StateM FileSystem β} (h : ∀ a, Quiet (f a)) (items : List α)
    (files : FileSystem) :
    (items.mapM f).run files = (items.map fun a => ((f a).run files).1, files) := by
  induction items generalizing files with
  | nil => rfl
  | cons item items ih =>
    -- The induction hypothesis also says that the rest is quiet.
    have hrest : Quiet (items.mapM f) := fun files => congrArg Prod.snd (ih files)
    rw [List.mapM_cons, (h item).run_bind, hrest.run_bind, ih]
    rfl

end

section

variable {first : ExceptT ε (StateM FileSystem) α} {next : α → ExceptT ε (StateM FileSystem) β}

/-- An action that may fail is quiet if its parts are. -/
theorem quiet_run_bind (hfirst : Quiet first.run) (hnext : ∀ a, Quiet (next a).run) :
    Quiet (first >>= next).run := by
  rw [ExceptT.run_bind]
  refine hfirst.bind fun result => ?_
  cases result with
  | ok a => exact hnext a
  | error e => exact quiet_pure _

theorem answer_bind (hfirst : Quiet first.run) (files : FileSystem) :
    files.answer (first >>= next) = files.answer first >>= fun a => files.answer (next a) := by
  rw [answer, ExceptT.run_bind, hfirst.run_bind, answer]
  cases (first.run.run files).1 <;> rfl

theorem answer_adapt (f : ε → δ) (files : FileSystem) :
    files.answer (first.adapt f) = (files.answer first).mapError f := rfl

theorem quiet_adapt (h : Quiet first.run) (f : ε → δ) : Quiet (first.adapt f).run := h

theorem quiet_lift {action : StateM FileSystem α} (h : Quiet action) :
    Quiet (ExceptT.lift action : ExceptT ε (StateM FileSystem) α).run := h

theorem quiet_foldlM {step : β → α → ExceptT ε (StateM FileSystem) β}
    (h : ∀ state item, Quiet (step state item).run) (items : List α) (state : β) :
    Quiet (items.foldlM step state).run := by
  induction items generalizing state with
  | nil => exact quiet_pure _
  | cons item items ih =>
    rw [List.foldlM_cons]
    exact quiet_run_bind (h state item) ih

end

theorem quiet_query (ask : FileSystem → Except StorageError α) : Quiet (query ask).run := by
  refine quiet_run_bind (fun _ => rfl) fun files => ?_
  cases ask files <;> exact quiet_pure _

theorem run_get_bind (next : FileSystem → ExceptT ε (StateM FileSystem) α) (files : FileSystem) :
    (get >>= next).run.run files = (next files).run.run files := rfl

theorem answer_query (ask : FileSystem → Except StorageError α) (files : FileSystem) :
    files.answer (query ask) = ask files := by
  rw [answer, query, run_get_bind]
  cases ask files <;> rfl

theorem quiet_readText (path : Path) :
    Quiet (Storage.readText path : ExceptT StorageError (StateM FileSystem) String).run := by
  refine quiet_run_bind (quiet_query _) fun bytes => ?_
  cases String.fromUTF8? bytes <;> exact quiet_pure _

theorem answer_readText (files : FileSystem) (path : Path) :
    files.answer (Storage.readText path) = files.readBytes path >>= fun bytes =>
      match String.fromUTF8? bytes with
      | some text => .ok text
      | none => .error .notText := by
  have hread : files.answer (Storage.readBytes path) = files.readBytes path := answer_query _ files
  have hquiet : Quiet (Storage.readBytes path :
      ExceptT StorageError (StateM FileSystem) ByteArray).run := quiet_query _
  rw [Storage.readText, answer_bind hquiet, hread]
  congr 1
  funext bytes
  cases String.fromUTF8? bytes <;> rfl

/-- A text that has been stored as its bytes is read back. -/
theorem answer_readText_of_bytes {files : FileSystem} {path : Path} {text : String}
    (h : files.readBytes path = .ok text.toUTF8) :
    files.answer (Storage.readText path) = .ok text := by
  have htext : String.fromUTF8? text.toUTF8 = some text := by
    simp only [String.fromUTF8?, Option.dite_none_right_eq_some, Option.some.injEq]
    exact ⟨text.isValidUTF8, rfl⟩
  rw [answer_readText, h]
  have hbytes : ((Except.ok text.toUTF8 : Except StorageError ByteArray) >>= fun bytes =>
      match String.fromUTF8? bytes with
      | some text => .ok text
      | none => .error .notText) = match String.fromUTF8? text.toUTF8 with
        | some text => .ok text
        | none => .error .notText := rfl
  rw [hbytes, htext]

theorem quiet_isFile (path : Path) : Quiet (Storage.isFile path : StateM FileSystem Bool) :=
  fun _ => rfl

end FileSystem

open FileSystem

namespace SettingsLayers

theorem quiet_locate (path : Path) : Quiet (locate path : StateM FileSystem (Option Path)) := by
  refine (quiet_isFile path).bind fun found => ?_
  cases found with
  | true => exact quiet_pure _
  | false =>
    cases withExtension path with
    | none => exact quiet_pure _
    | some other =>
      refine (quiet_isFile other).bind fun found => ?_
      cases found <;> exact quiet_pure _

theorem quiet_readFile (file : SettingsFile) :
    Quiet (readFile file : ExceptT SettingsError (StateM FileSystem) _).run := by
  refine quiet_run_bind (quiet_lift (quiet_locate file.path)) fun located => ?_
  cases located with
  | none => cases file.required <;> exact quiet_pure _
  | some path =>
    refine quiet_run_bind (quiet_lift (quiet_readText path)) fun result => ?_
    cases result with
    | ok text => exact quiet_pure _
    | error error => cases file.required <;> exact quiet_pure _

theorem quiet_layFile (root : Setting) (file : SettingsFile) :
    Quiet (layFile root file : ExceptT SettingsError (StateM FileSystem) Setting).run := by
  refine quiet_run_bind (quiet_readFile file) fun laid => ?_
  cases laid with
  | none => exact quiet_pure _
  | some found =>
    obtain ⟨origin, text⟩ := found
    dsimp only
    cases Toml.read? text <;> exact quiet_pure _

theorem quiet_load (layers : SettingsLayers) :
    Quiet (layers.load : ExceptT SettingsError (StateM FileSystem) Settings).run :=
  quiet_run_bind (quiet_foldlM quiet_layFile layers.files defaultRoot) fun _ => quiet_pure _

end SettingsLayers

namespace GrammarLoader

variable [MatcherEngine]

theorem quiet_loadFile (loader : GrammarLoader) (path : Path) :
    Quiet (loader.loadFile path : ExceptT GrammarError (StateM FileSystem) Grammar).run :=
  quiet_run_bind (quiet_adapt (quiet_readText path) _) fun _ => quiet_pure _

theorem answer_loadFile (loader : GrammarLoader) (path : Path) (files : FileSystem) :
    files.answer (loader.loadFile path) =
      (files.answer (Storage.readText path)).mapError (.storage path) >>=
        loader.loadText path.text := by
  rw [loadFile, answer_bind (quiet_adapt (quiet_readText path) _), answer_adapt]
  rfl

theorem answer_loadFile_eq_ok_iff {loader : GrammarLoader} {path : Path} {files : FileSystem}
    {grammar : Grammar} : files.answer (loader.loadFile path) = .ok grammar ↔
      ∃ text, files.answer (Storage.readText path) = .ok text ∧
        loader.loadText path.text text = .ok grammar := by
  rw [answer_loadFile, bind_eq_ok_iff]
  simp only [mapError_eq_ok_iff]

end GrammarLoader

end HighlightGrammar
