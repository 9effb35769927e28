import HighlightGrammar.Proofs.Storage.Folders
import HighlightGrammar.Proofs.Storage.Lookups

/-!
# What actions look at

A direct path leads into folders only, so where it leads there is a folder for what is put there.
What becomes of an operation on the path is told by what lies along its way, and nothing else. -/
namespace HighlightGrammar

namespace Path

theorem moves_ne_nil {path : Path} (haround : path.place.isAround = false) : path.moves ≠ [] := by
  intro hnil
  rw [place_eq, hnil, List.foldl_nil, isAround_start] at haround
  cases haround

/-- What a direct path leads to has a name in the place in front of it, unless it is around the
folder that one stands in. -/
theorem Direct.exists_place_eq_concat {path : Path} (h : path.Direct)
    (haround : path.place.isAround = false) :
    ∃ name, path.place = path.moves.dropLast.foldl Place.step path.start ++ [name] ∧
      path.place.above = path.moves.dropLast.foldl Place.step path.start := by
  obtain ⟨front, last, hlast⟩ : ∃ front last, path.moves = front ++ [last] :=
    ⟨_, _, (List.dropLast_concat_getLast (moves_ne_nil haround)).symm⟩
  have hup := h.last_ne_up hlast haround
  have hmem : last ∈ path.moves := by simp [hlast]
  obtain ⟨hbusy, hplain⟩ := of_mem_moves hmem
  have hroot : last ≠ "/" := by
    rintro rfl
    exact hplain (by decide)
  have hplace : path.place = front.foldl Place.step path.start ++ [last] := by
    rw [place_eq, hlast, List.foldl_append, List.foldl_cons, List.foldl_nil,
      Place.step_of_busy _ hbusy hup]
  rw [hlast, List.dropLast_concat]
  exact ⟨last, hplace, by simp [hplace, Place.above, hup, hroot]⟩

theorem Direct.above_mem_way {path : Path} (h : path.Direct) (haround : path.place.isAround = false) :
    path.place.above ∈ path.way ∧ path.place.above ≠ path.place := by
  obtain ⟨name, hplace, habove⟩ := h.exists_place_eq_concat haround
  refine ⟨mem_way_iff.2 ⟨_, List.dropLast_prefix _, habove.symm⟩, ?_⟩
  rw [habove, hplace]
  simp

end Path

namespace FileSystem

variable {files after : FileSystem} {path : Path}

theorem folder_of_walk {place result : Place} {segments : List String}
    (h : files.walk place segments = .ok result) :
    ∀ p ∈ segments.scanl Place.step place, p = result ∨ files.get? p = some .folder := by
  induction segments generalizing place with
  | nil =>
    obtain rfl := Except.ok.inj h
    simp
  | cons segment segments ih =>
    rw [walk_cons] at h
    split at h
    · cases h
    · cases h
    · next hfolder =>
      split at h
      · cases h
      · rw [List.scanl_cons, List.forall_mem_cons]
        exact ⟨Or.inr hfolder, ih h⟩

/-- Where a direct path leads there is a folder for what lies there. -/
theorem folder_above (hdirect : path.Direct) {place : Place} (hplace : files.placeOf path = .ok place)
    (haround : place.isAround = false) : files.hasFolder place.above = true := by
  obtain rfl := placeOf_eq_ok hplace
  obtain ⟨hmem, hne⟩ := hdirect.above_mem_way haround
  exact hasFolder_iff.2
    ((folder_of_walk (placeOf_eq_ok_iff.1 hplace).2 _ hmem).resolve_left hne)

theorem makeFolder_of_direct (hdirect : path.Direct) (files : FileSystem) :
    files.makeFolder path = files.placeOf path >>= fun place =>
      if (files.get? place).isSome then .error .alreadyExists else .ok (files.put place .folder) := by
  rw [makeFolder]
  cases hplace : files.placeOf path with
  | error error => rfl
  | ok place =>
    rw [ok_bind, ok_bind]
    by_cases hthere : (files.get? place).isSome = true
    · rw [if_pos hthere, if_pos hthere]
      rfl
    · have haround : place.isAround = false :=
        not_isAround_of_none (Option.not_isSome_iff_eq_none.1 hthere)
      rw [if_neg hthere, if_neg hthere, if_pos (folder_above hdirect hplace haround)]
      rfl

theorem writeBytes_of_direct (hdirect : path.Direct) (files : FileSystem) (bytes : ByteArray) :
    files.writeBytes path bytes = files.placeOf path >>= fun place =>
      if files.hasFolder place || endsInSlash path then .error .isFolder
      else .ok (files.put place (.file bytes)) := by
  rw [writeBytes]
  cases hplace : files.placeOf path with
  | error error => rfl
  | ok place =>
    rw [ok_bind, ok_bind]
    by_cases hfolder : (files.hasFolder place || endsInSlash path) = true
    · rw [if_pos hfolder, if_pos hfolder]
      rfl
    · have haround : place.isAround = false := by
        rw [Bool.or_eq_true, not_or, hasFolder_iff] at hfolder
        exact not_isAround hfolder.1
      rw [if_neg hfolder, if_neg hfolder, if_pos (folder_above hdirect hplace haround)]
      rfl

section Keeping

variable {ε δ α β : Type}

/-- On file systems that agree along a path the action comes to the same, and they still agree after
it. -/
def KeepsTo (path : Path) (action : ExceptT ε (StateM FileSystem) α) : Prop :=
  ∀ files after : FileSystem, files.AgreeAlong after path →
    (action.run.run files).1 = (action.run.run after).1 ∧
      (action.run.run files).2.AgreeAlong (action.run.run after).2 path

theorem keepsTo_pure (a : α) : KeepsTo path (pure a : ExceptT ε (StateM FileSystem) α) :=
  fun _ _ h => ⟨rfl, h⟩

theorem keepsTo_throw (error : ε) : KeepsTo path (throw error : ExceptT ε (StateM FileSystem) α) :=
  fun _ _ h => ⟨rfl, h⟩

section

variable {first : ExceptT ε (StateM FileSystem) α}

theorem KeepsTo.bind {next : α → ExceptT ε (StateM FileSystem) β} (hfirst : KeepsTo path first)
    (hnext : ∀ a, KeepsTo path (next a)) : KeepsTo path (first >>= next) := by
  intro files after h
  obtain ⟨hresult, hagree⟩ := hfirst files after h
  rw [run_bind, run_bind]
  generalize first.run.run files = run at hresult hagree ⊢
  generalize first.run.run after = run' at hresult hagree ⊢
  obtain ⟨error | a, made⟩ := run <;> obtain ⟨error' | a', made'⟩ := run' <;> cases hresult
  · exact ⟨rfl, hagree⟩
  · exact hnext a _ _ hagree

theorem KeepsTo.tryCatch {rescue : ε → ExceptT ε (StateM FileSystem) α}
    (hfirst : KeepsTo path first) (hrescue : ∀ error, KeepsTo path (rescue error)) :
    KeepsTo path (tryCatch first rescue) := by
  intro files after h
  obtain ⟨hresult, hagree⟩ := hfirst files after h
  rw [run_tryCatch, run_tryCatch]
  generalize first.run.run files = run at hresult hagree ⊢
  generalize first.run.run after = run' at hresult hagree ⊢
  obtain ⟨error | a, made⟩ := run <;> obtain ⟨error' | a', made'⟩ := run' <;> cases hresult
  · exact hrescue error _ _ hagree
  · exact ⟨rfl, hagree⟩

theorem KeepsTo.adapt (hfirst : KeepsTo path first) (f : ε → δ) : KeepsTo path (first.adapt f) := by
  intro files after h
  obtain ⟨hresult, hagree⟩ := hfirst files after h
  rw [run_adapt, run_adapt, hresult]
  exact ⟨rfl, hagree⟩

end

theorem get?_put_congr {place other : Place} (h : files.get? other = after.get? other)
    (entry : Entry) : (files.put place entry).get? other = (after.put place entry).get? other := by
  cases hother : other.isAround with
  | true => exact get?_eq_of_isAround hother _ _
  | false =>
    rw [get?_of_not_isAround hother, get?_of_not_isAround hother] at h ⊢
    rw [FileSystem.put, FileSystem.put]
    by_cases heq : other = place
    · rw [heq, Table.get?_put_self, Table.get?_put_self]
    · rw [Table.get?_put_of_ne heq, Table.get?_put_of_ne heq, h]

/-- An operation that puts an entry where a path leads, unless what lies there forbids it. -/
theorem keepsTo_update {other : Path} {change : FileSystem → Except StorageError FileSystem}
    (entry : Entry) (refuse : Option Entry → Option StorageError)
    (hchange : ∀ files : FileSystem, change files = files.placeOf other >>= fun place =>
      match refuse (files.get? place) with
      | some error => .error error
      | none => .ok (files.put place entry))
    (hway : other.way ⊆ path.way) : KeepsTo path (update change) := by
  intro files after h
  have hother : files.AgreeAlong after other := fun place hplace => h place (hway hplace)
  rw [run_update, run_update, hchange, hchange, ← hother.placeOf_eq]
  cases hplace : files.placeOf other with
  | error error => exact ⟨rfl, h⟩
  | ok place =>
    have hsame : files.get? place = after.get? place :=
      placeOf_eq_ok hplace ▸ hother _ other.place_mem_way
    rw [ok_bind, ok_bind, ← hsame]
    cases refuse (files.get? place) with
    | some error => exact ⟨rfl, h⟩
    | none => exact ⟨rfl, fun p hp => get?_put_congr (h p hp) entry⟩

theorem keepsTo_ensureFolder {other : Path} (hdirect : other.Direct) (hway : other.way ⊆ path.way) :
    KeepsTo path (Storage.ensureFolder other : ExceptT StorageError (StateM FileSystem) Unit) := by
  have hmake : KeepsTo path (Storage.makeFolder other :
      ExceptT StorageError (StateM FileSystem) Unit) := by
    refine keepsTo_update .folder
      (fun entry => if entry.isSome then some .alreadyExists else none) (fun files => ?_) hway
    rw [makeFolder_of_direct hdirect]
    congr 1
    funext place
    cases files.get? place <;> rfl
  have hask : KeepsTo path (ExceptT.lift (Storage.isFolder other) :
      ExceptT StorageError (StateM FileSystem) Bool) := by
    intro files after h
    have hother : files.AgreeAlong after other := fun place hplace => h place (hway hplace)
    have hkind : files.kind? other = after.kind? other := by rw [kind?, kind?, hother.lookup_eq]
    have hrun : ∀ files : FileSystem, (ExceptT.lift (Storage.isFolder other) :
        ExceptT StorageError (StateM FileSystem) Bool).run.run files =
          (.ok (files.kind? other == some .folder), files) := fun files => rfl
    rw [hrun, hrun, hkind]
    exact ⟨rfl, h⟩
  refine hmake.tryCatch fun error => hask.bind fun found => ?_
  cases found
  · exact keepsTo_throw error
  · exact keepsTo_pure ()

theorem keepsTo_createAlong {paths : List Path}
    (hpaths : ∀ other ∈ paths, other.Direct ∧ other.way ⊆ path.way) :
    KeepsTo path (Storage.createAlong paths : ExceptT StorageError (StateM FileSystem) Unit) := by
  induction paths with
  | nil => exact keepsTo_throw _
  | cons other around ih =>
    rw [List.forall_mem_cons] at hpaths
    have hfirst := keepsTo_ensureFolder hpaths.1.1 hpaths.1.2
    rw [Storage.createAlong]
    split
    · exact keepsTo_pure ()
    · refine hfirst.tryCatch fun error => ?_
      split
      · exact (ih hpaths.2).bind fun _ => hfirst
      · exact keepsTo_throw error

/-- Folders are made by what lies along their way. -/
theorem keepsTo_createFolders {other : Path} (hdirect : other.Direct) (hway : other.way ⊆ path.way) :
    KeepsTo path (Storage.createFolders other : ExceptT StorageError (StateM FileSystem) Unit) := by
  refine keepsTo_createAlong fun around haround => ?_
  obtain ⟨⟨rest, hrest⟩, -⟩ := Path.moves_of_mem_ancestorsFrom haround
  exact ⟨hdirect.of_moves_append hrest.symm,
    fun _ hplace => hway (Path.way_subset_of_mem_ancestorsFrom haround hplace)⟩

/-- A file is written by what lies along its way. -/
theorem keepsTo_writeText (hdirect : path.Direct) (text : String) :
    KeepsTo path (Storage.writeText path text :
      ExceptT StorageError (StateM FileSystem) Unit) := by
  refine keepsTo_update (.file text.toUTF8) (fun entry =>
    if entry.map Entry.kind = some .folder ∨ endsInSlash path then some .isFolder else none)
    (fun files => ?_) (List.Subset.refl _)
  rw [writeBytes_of_direct hdirect]
  congr 1
  funext place
  have hfolder : (files.hasFolder place || endsInSlash path) = true ↔
      (files.get? place).map Entry.kind = some .folder ∨ endsInSlash path = true := by
    rw [Bool.or_eq_true, hasFolder]
    rcases files.get? place with - | ⟨- | bytes⟩ <;> simp [Entry.kind]
  simp only [hfolder]
  split <;> rfl

end Keeping

end FileSystem

end HighlightGrammar
