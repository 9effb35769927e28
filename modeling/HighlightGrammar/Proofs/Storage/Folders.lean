import HighlightGrammar.Proofs.Storage.Contents
import HighlightGrammar.Proofs.Storage.Scripts

/-!
# Making folders

Making a folder with the folders around it adds folders along the way of its path, where there was
nothing before, and changes nothing else. -/
namespace HighlightGrammar.FileSystem

variable {α β ε δ : Type}

theorem run_bind (first : ExceptT ε (StateM FileSystem) α)
    (next : α → ExceptT ε (StateM FileSystem) β) (files : FileSystem) :
    (first >>= next).run.run files = match first.run.run files with
      | (.ok a, after) => (next a).run.run after
      | (.error error, after) => (.error error, after) := by
  rw [ExceptT.run_bind, StateT.run_bind]
  rcases first.run.run files with ⟨error | a, after⟩ <;> rfl

theorem run_bind_eq_ok_iff {first : ExceptT ε (StateM FileSystem) α}
    {next : α → ExceptT ε (StateM FileSystem) β} {files after : FileSystem} {b : β} :
    (first >>= next).run.run files = (.ok b, after) ↔ ∃ a between,
      first.run.run files = (.ok a, between) ∧ (next a).run.run between = (.ok b, after) := by
  rw [run_bind]
  rcases first.run.run files with ⟨error | a, between⟩
  · exact ⟨nofun, fun ⟨_, _, hfirst, _⟩ => nomatch hfirst⟩
  · constructor
    · exact fun hnext => ⟨a, between, rfl, hnext⟩
    · rintro ⟨_, _, ⟨⟩, hnext⟩
      exact hnext

theorem run_tryCatch (first : ExceptT ε (StateM FileSystem) α)
    (rescue : ε → ExceptT ε (StateM FileSystem) α) (files : FileSystem) :
    (tryCatch first rescue).run.run files = match first.run.run files with
      | (.ok a, after) => (.ok a, after)
      | (.error error, after) => (rescue error).run.run after := by
  rw [ExceptT.run_tryCatch, StateT.run_bind]
  rcases first.run.run files with ⟨error | a, after⟩ <;> rfl

theorem run_lift (action : StateM FileSystem α) (files : FileSystem) :
    (ExceptT.lift action : ExceptT ε (StateM FileSystem) α).run.run files =
      (.ok (action.run files).1, (action.run files).2) := rfl

theorem run_adapt (first : ExceptT ε (StateM FileSystem) α) (f : ε → δ) (files : FileSystem) :
    (first.adapt f).run.run files =
      ((first.run.run files).1.mapError f, (first.run.run files).2) := rfl

theorem run_adapt_eq_ok_iff {first : ExceptT ε (StateM FileSystem) α} {f : ε → δ}
    {files after : FileSystem} {a : α} :
    (first.adapt f).run.run files = (.ok a, after) ↔ first.run.run files = (.ok a, after) := by
  rw [run_adapt]
  rcases first.run.run files with ⟨error | a, between⟩
  · exact ⟨nofun, nofun⟩
  · constructor <;> (rintro ⟨⟩; rfl)

theorem run_removeTree (path : Path) (files : FileSystem) :
    (removeTree path).run.run files = match files.lookup path with
      | .error error => (.error error, files)
      | .ok (_, .file _) => (.error .notFolder, files)
      | .ok (place, .folder) => (if place.isEmpty then .error .invalidArgument else .ok (),
          files.removeBelow place) := by
  rw [removeTree, run_get_bind]
  rcases files.lookup path with error | ⟨place, - | bytes⟩
  · rfl
  · dsimp only
    cases place.isEmpty <;> rfl
  · rfl

/-- Folders have been added along the way, where there was nothing. -/
structure AddsFolders (way : List Place) (files after : FileSystem) : Prop where
  wellFormed : after.WellFormed
  changes : ∀ place, after.get? place = files.get? place ∨
    (place ∈ way ∧ files.get? place = none ∧ after.get? place = some .folder)

namespace AddsFolders

variable {way : List Place} {files between after : FileSystem}

theorem refl (h : files.WellFormed) : AddsFolders way files files := ⟨h, fun _ => Or.inl rfl⟩

theorem trans (h : AddsFolders way files between) (h' : AddsFolders way between after) :
    AddsFolders way files after := by
  refine ⟨h'.wellFormed, fun place => ?_⟩
  rcases h.changes place with hsame | ⟨hway, hnone, hfolder⟩
  · rw [← hsame]
    exact h'.changes place
  · right
    refine ⟨hway, hnone, ?_⟩
    rcases h'.changes place with hsame | ⟨-, hnone', -⟩
    · rw [hsame, hfolder]
    · rw [hfolder] at hnone'
      cases hnone'

theorem mono {more : List Place} (h : AddsFolders way files after) (hsub : way ⊆ more) :
    AddsFolders more files after :=
  ⟨h.wellFormed, fun place => (h.changes place).imp_right fun ⟨hway, hrest⟩ => ⟨hsub hway, hrest⟩⟩

/-- What is there stays. -/
theorem get?_eq (h : AddsFolders way files after) {place : Place} {entry : Entry}
    (hget : files.get? place = some entry) : after.get? place = some entry := by
  rcases h.changes place with hsame | ⟨-, hnone, -⟩
  · rw [hsame, hget]
  · rw [hget] at hnone
    cases hnone

end AddsFolders

section

variable {way : List Place} {files after : FileSystem} {path : Path}

theorem addsFolders_makeFolder (h : files.WellFormed) (hway : path.place ∈ way)
    (hmake : files.makeFolder path = .ok after) :
    AddsFolders way files after ∧ after.get? path.place = some .folder := by
  obtain ⟨hafter, hnone, rfl, haround⟩ := h.makeFolder hmake
  have hself : (files.put path.place .folder).get? path.place = some .folder := by
    rw [get?_put haround, if_pos rfl]
  refine ⟨⟨hafter, fun place => ?_⟩, hself⟩
  by_cases heq : place = path.place
  · rw [heq]
    exact Or.inr ⟨hway, hnone, hself⟩
  · rw [get?_put haround, if_neg heq]
    exact Or.inl rfl

/-- A folder that cannot be made may be there all the same. -/
theorem run_ensureFolder (path : Path) (files : FileSystem) :
    (Storage.ensureFolder path : ExceptT StorageError (StateM FileSystem) Unit).run.run files =
      match files.makeFolder path with
      | .ok made => (.ok (), made)
      | .error error =>
        (if files.kind? path = some .folder then .ok () else .error error, files) := by
  have hmake : (Storage.makeFolder path :
      ExceptT StorageError (StateM FileSystem) Unit).run.run files = _ :=
    run_update (fun files => files.makeFolder path) files
  have hfolder : (Storage.isFolder path : StateM FileSystem Bool).run files =
      (files.kind? path == some .folder, files) := rfl
  rw [Storage.ensureFolder, run_tryCatch, hmake]
  cases files.makeFolder path with
  | ok made => rfl
  | error error =>
    dsimp only
    rw [run_bind, run_lift, hfolder]
    by_cases hkind : files.kind? path = some .folder
    · simp only [hkind, beq_self_eq_true, if_true]
      rfl
    · simp only [hkind, beq_eq_false_iff_ne.2 hkind, if_false]
      rfl

/-- Whatever comes of it, folders are only added, and if it succeeds the folder is there. -/
theorem addsFolders_ensureFolder (h : files.WellFormed) (hway : path.place ∈ way)
    {result : Except StorageError Unit}
    (hrun : (Storage.ensureFolder path :
      ExceptT StorageError (StateM FileSystem) Unit).run.run files = (result, after)) :
    AddsFolders way files after ∧
      (result = .ok () → path.Openable ∧ after.get? path.place = some .folder) := by
  rw [run_ensureFolder] at hrun
  cases hmade : files.makeFolder path with
  | ok made =>
    rw [hmade] at hrun
    cases hrun
    obtain ⟨hadds, hfolder⟩ := addsFolders_makeFolder h hway hmade
    obtain ⟨place, hplace, -⟩ := bind_eq_ok_iff.1 hmade
    exact ⟨hadds, fun _ => ⟨(placeOf_eq_ok_iff.1 hplace).1, hfolder⟩⟩
  | error error =>
    rw [hmade] at hrun
    obtain ⟨rfl, rfl⟩ := Prod.mk.inj hrun
    refine ⟨.refl h, fun hok => ?_⟩
    split at hok
    · next hkind =>
      obtain ⟨entry, hget, hentry⟩ := get?_of_kind? hkind
      cases entry with
      | folder => exact ⟨openable_of_kind? hkind, hget⟩
      | file bytes => cases hentry
    · cases hok

theorem addsFolders_createAlong {paths : List Path} (h : files.WellFormed)
    (hway : ∀ path ∈ paths, path.place ∈ way) {result : Except StorageError Unit}
    (hrun : (Storage.createAlong paths :
      ExceptT StorageError (StateM FileSystem) Unit).run.run files = (result, after)) :
    AddsFolders way files after ∧ (result = .ok () → ∀ path, paths.head? = some path →
      (path.text.isEmpty = false → path.Openable) ∧ after.get? path.place = some .folder) := by
  induction paths generalizing files after result with
  | nil =>
    cases hrun
    exact ⟨.refl h, nofun⟩
  | cons path around ih =>
    rw [List.forall_mem_cons] at hway
    rw [Storage.createAlong] at hrun
    split at hrun
    · next hempty =>
      cases hrun
      refine ⟨.refl h, fun _ other hother => ?_⟩
      obtain rfl := Option.some.inj hother
      exact ⟨fun hnonempty => by simp [hempty] at hnonempty,
        get?_of_isAround (Path.isAround_of_isEmpty hempty)⟩
    · rw [run_tryCatch] at hrun
      rcases hfirst : (Storage.ensureFolder path : ExceptT StorageError (StateM FileSystem)
        Unit).run.run files with ⟨error | done, between⟩
      · rw [hfirst] at hrun
        obtain ⟨hadds, -⟩ := addsFolders_ensureFolder h hway.1 hfirst
        dsimp only at hrun
        split at hrun
        · rw [run_bind] at hrun
          rcases hrest : (Storage.createAlong around : ExceptT StorageError (StateM FileSystem)
            Unit).run.run between with ⟨fault | done, made⟩
          · rw [hrest] at hrun
            cases hrun
            exact ⟨hadds.trans (ih hadds.wellFormed hway.2 hrest).1, nofun⟩
          · rw [hrest] at hrun
            have hmade := hadds.trans (ih hadds.wellFormed hway.2 hrest).1
            obtain ⟨hlast, hfolder⟩ := addsFolders_ensureFolder hmade.wellFormed hway.1 hrun
            refine ⟨hmade.trans hlast, fun hok other hother => ?_⟩
            obtain rfl := Option.some.inj hother
            exact (hfolder hok).imp_left fun hopen _ => hopen
        · cases hrun
          exact ⟨hadds, nofun⟩
      · rw [hfirst] at hrun
        cases hrun
        obtain ⟨hadds, hfolder⟩ := addsFolders_ensureFolder h hway.1 hfirst
        refine ⟨hadds, fun hok other hother => ?_⟩
        obtain rfl := Option.some.inj hother
        exact (hfolder rfl).imp_left fun hopen _ => hopen

/-- Whatever comes of it, folders are only added along the way, and if it succeeds the folder is
there. -/
theorem addsFolders_createFolders (h : files.WellFormed) {result : Except StorageError Unit}
    (hrun : (Storage.createFolders path :
      ExceptT StorageError (StateM FileSystem) Unit).run.run files = (result, after)) :
    AddsFolders path.way files after ∧ (result = .ok () →
      (path.text.isEmpty = false → path.Openable) ∧ after.get? path.place = some .folder) := by
  obtain ⟨hadds, hfolder⟩ := addsFolders_createAlong h
    (fun around haround => Path.place_mem_way_of_mem_ancestors haround) hrun
  refine ⟨hadds, fun hok => hfolder hok path ?_⟩
  obtain ⟨around, haround⟩ := Path.exists_ancestorsFrom_eq (path.text.length + 1) path
  rw [Path.ancestors, haround, List.head?_cons]

/-- A folder is made at once if the one around it is there. -/
theorem run_createFolders (hnonempty : path.text.isEmpty = false)
    (hmake : files.makeFolder path = .ok after) :
    (Storage.createFolders path : ExceptT StorageError (StateM FileSystem) Unit).run.run files =
      (.ok (), after) := by
  obtain ⟨around, haround⟩ := Path.exists_ancestorsFrom_eq (path.text.length + 1) path
  rw [Storage.createFolders, Path.ancestors, haround, Storage.createAlong,
    if_neg (by simp [hnonempty]), run_tryCatch, run_ensureFolder, hmake]

/-- Otherwise the one around it is made first. -/
theorem run_createFolders_of_missing {between : FileSystem} {parent : Path} {around : List Path}
    (hancestors : path.ancestors = path :: parent :: around) (hnonempty : path.text.isEmpty = false)
    (hmissing : files.makeFolder path = .error .notFound) (hnone : files.kind? path = none)
    (hnonempty' : parent.text.isEmpty = false) (hparent : files.makeFolder parent = .ok between)
    (hmake : between.makeFolder path = .ok after) :
    (Storage.createFolders path : ExceptT StorageError (StateM FileSystem) Unit).run.run files =
      (.ok (), after) := by
  have houter : (Storage.createAlong (parent :: around) :
      ExceptT StorageError (StateM FileSystem) Unit).run.run files = (.ok (), between) := by
    rw [Storage.createAlong, if_neg (by simp [hnonempty']), run_tryCatch, run_ensureFolder, hparent]
  have hfailed : ¬ (none : Option EntryKind) = some .folder := nofun
  rw [Storage.createFolders, hancestors, Storage.createAlong, if_neg (by simp [hnonempty]),
    run_tryCatch, run_ensureFolder, hmissing, hnone]
  dsimp only
  rw [if_neg hfailed]
  dsimp only
  rw [if_pos rfl, run_bind, houter]
  dsimp only
  rw [run_ensureFolder, hmake]

end

end HighlightGrammar.FileSystem
