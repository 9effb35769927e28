import HighlightGrammar.Proofs.Storage.Locality

/-!
# What added folders change

Where folders have been added along the way of a direct path, the path still gets the same answers.
Either a file lies on the way: then nothing can have been added behind it, and in front of it every
folder was there before. Or no file lies on the way: then a path that leads to nothing is not found
as before, and the folders around it are made as before, only that some of them are there already.
A name that is too long is the one exception, since it is only met where the folders in front of it
are there. -/
namespace HighlightGrammar

open HighlightGrammar.Path (IsName)

namespace Path

theorem length_splitSlash_le (text : List Char) : (splitSlash text).length ≤ text.length + 1 := by
  induction text with
  | nil => exact Nat.le_refl 1
  | cons c text ih =>
    rw [splitSlash]
    split
    · simpa using ih
    · split
      · simp
      · next segment segments hsplit =>
        rw [hsplit] at ih
        simpa using Nat.le_succ_of_le ih

theorem length_moves_le (path : Path) : path.moves.length ≤ path.text.length + 1 := by
  rw [moves, movesOf, List.length_map, ← String.length_toList]
  exact Nat.le_trans (List.length_filter_le _ _) (length_splitSlash_le _)

theorem moves_of_isEmpty {path : Path} (h : path.text.isEmpty = true) : path.moves = [] := by
  obtain ⟨text⟩ := path
  obtain rfl := String.isEmpty_iff.1 h
  decide

/-- The path makes no move, or its text ends in the last one. -/
def EndsInMove (path : Path) : Prop :=
  path.moves = [] ∨ ∃ (outer : Path) (last : String),
    path = outer.join ⟨last⟩ ∧ idle last.toList = false ∧ '/' ∉ last.toList

theorem endsInMove_of_parent? {path parent : Path} (h : path.parent? = some parent) :
    parent.EndsInMove := by
  by_cases hmoves : parent.moves = []
  · exact Or.inl hmoves
  · exact Or.inr (exists_join_of_parent? h hmoves)

/-- Two paths that are perhaps spelt otherwise make the same moves from the same place. -/
structure SameMoves (path other : Path) : Prop where
  moves : path.moves = other.moves
  start : path.start = other.start

namespace SameMoves

variable {path other : Path} (h : path.SameMoves other)

include h

theorem place_eq : path.place = other.place := by
  rw [Path.place_eq, Path.place_eq, h.moves, h.start]

theorem mem_way_iff {place : Place} : place ∈ path.way ↔ place ∈ other.way := by
  rw [Path.mem_way_iff, Path.mem_way_iff, h.moves, h.start]

theorem direct (hdirect : other.Direct) : path.Direct := by rwa [Direct, h.moves]

theorem hasShortNames_iff : path.HasShortNames ↔ other.HasShortNames := by
  rw [HasShortNames, h.moves]
  rfl

end SameMoves

/-- Such a path is a name joined to a path, unless it only leads around the folder that one stands
in. What it is joined to may be spelt otherwise than the path without its last segment. -/
theorem EndsInMove.exists_join {path : Path} (h : path.EndsInMove) (hdirect : path.Direct)
    (hopen : path.Openable) (haround : path.place.isAround = false) :
    ∃ (outer : Path) (name : String) (parent : Path), path = outer.join ⟨name⟩ ∧ IsName name ∧
      path.parent? = some parent ∧ parent.SameMoves outer := by
  obtain ⟨outer, name, rfl, hbusy, hplain⟩ := h.resolve_left (moves_ne_nil haround)
  have hmoves : (outer.join ⟨name⟩).moves = outer.moves ++ [name] := moves_join hbusy hplain
  have hprintable : '\x00' ∉ name.toList := by
    have hwhole := hopen.printable
    rcases toList_join outer hplain with ⟨-, hjoin⟩ | ⟨front, -, hjoin⟩ <;> rw [hjoin] at hwhole
    · exact hwhole
    · simp_all
  obtain ⟨parent, hparent⟩ := exists_parent? (moves_ne_nil haround)
  refine ⟨outer, name, parent, rfl,
    ⟨hbusy, hdirect.last_ne_up hmoves haround, hplain, hprintable⟩, hparent, ?_, ?_⟩
  · rw [moves_of_parent? hparent, hmoves, List.dropLast_concat]
  · rw [start, isAbsolute_of_parent? hparent, isAbsolute_join hplain, ← start.eq_1]

theorem IsName.moves_join {name : String} (h : IsName name) (folder : Path) :
    (folder.join ⟨name⟩).moves = folder.moves ++ [name] := Path.moves_join h.busy h.plain

theorem hasShortNames_join {folder : Path} {name : String} (hname : IsName name) :
    (folder.join ⟨name⟩).HasShortNames ↔
      folder.HasShortNames ∧ name.utf8ByteSize ≤ FileSystem.longestName := by
  rw [HasShortNames, hname.moves_join, List.forall_mem_append,
    List.forall_mem_singleton]
  rfl

end Path

namespace FileSystem

variable {files after : FileSystem} {path folder : Path} {name : String}

theorem run_ensureFolder_of_folder (h : files.WellFormed) (hdirect : path.Direct)
    (hopen : path.Openable) (hget : files.get? path.place = some .folder) :
    (Storage.ensureFolder path : ExceptT StorageError (StateM FileSystem) Unit).run.run files =
      (.ok (), files) := by
  have hkind : files.kind? path = some .folder := by
    rw [kind?, h.lookup_folder hdirect hopen hget]
    rfl
  rw [run_ensureFolder]
  cases hmade : files.makeFolder path with
  | ok made =>
    rw [(h.makeFolder hmade).2.1] at hget
    cases hget
  | error error =>
    dsimp only
    rw [if_pos hkind]

theorem run_ensureFolder_of_none {error : StorageError} (hnone : files.get? path.place = none)
    (hmake : files.makeFolder path = .error error) :
    (Storage.ensureFolder path : ExceptT StorageError (StateM FileSystem) Unit).run.run files =
      (.error error, files) := by
  rw [run_ensureFolder, hmake, kind?_of_get?_eq_none hnone]
  rfl

/-- In a folder a folder is made, unless its name is too long. -/
theorem answer_ensureFolder_join (h : files.WellFormed) (hdirect : folder.Direct)
    (hget : files.get? folder.place = some .folder) (hopen : (folder.join ⟨name⟩).Openable)
    (hname : IsName name) (hnone : files.get? (folder.join ⟨name⟩).place = none) :
    files.answer (Storage.ensureFolder (folder.join ⟨name⟩)) =
      if name.utf8ByteSize ≤ longestName then .ok () else .error .nameTooLong := by
  by_cases hshort : name.utf8ByteSize ≤ longestName
  · rw [Path.place_join ⟨hname, hshort⟩] at hnone
    rw [answer, run_ensureFolder, h.makeFolder_join hdirect hget hopen ⟨hname, hshort⟩ hnone,
      if_pos hshort]
  · have hmake : files.makeFolder (folder.join ⟨name⟩) = .error .nameTooLong := by
      rw [makeFolder, h.placeOf_join hdirect hget hopen hname, if_neg hshort]
      rfl
    rw [answer, run_ensureFolder_of_none hnone hmake, if_neg hshort]

section Creating

variable {around : List Path}

/-- If a folder is made, or cannot be made for want of anything but the folders around it, that is
all. -/
theorem answer_createAlong_cons (hnonempty : path.text.isEmpty = false)
    (hfound : files.answer (Storage.ensureFolder path) ≠ .error .notFound) :
    files.answer (Storage.createAlong (path :: around)) =
      files.answer (Storage.ensureFolder path) := by
  rw [answer] at hfound
  rw [Storage.createAlong, if_neg (by simp [hnonempty]), answer, run_tryCatch, answer]
  generalize (Storage.ensureFolder path :
    ExceptT StorageError (StateM FileSystem) Unit).run.run files = run at hfound ⊢
  obtain ⟨error | done, made⟩ := run
  · dsimp only at hfound ⊢
    rw [if_neg fun heq => hfound (congrArg Except.error heq)]
    rfl
  · rfl

/-- For want of the folders around it these are made first. -/
theorem run_createAlong_cons_of_missing (hnonempty : path.text.isEmpty = false)
    (hmissing : (Storage.ensureFolder path :
      ExceptT StorageError (StateM FileSystem) Unit).run.run files = (.error .notFound, files)) :
    (Storage.createAlong (path :: around) :
      ExceptT StorageError (StateM FileSystem) Unit).run.run files =
        (Storage.createAlong around >>= fun _ => Storage.ensureFolder path :
          ExceptT StorageError (StateM FileSystem) Unit).run.run files := by
  rw [Storage.createAlong, if_neg (by simp [hnonempty]), run_tryCatch, hmissing]
  rfl

theorem answer_createAlong_of_folder (h : files.WellFormed) (hdirect : path.Direct)
    (hopen : path.text.isEmpty = false → path.Openable)
    (hget : files.get? path.place = some .folder) :
    files.answer (Storage.createAlong (path :: around)) = .ok () := by
  cases hempty : path.text.isEmpty with
  | true =>
    rw [Storage.createAlong, if_pos hempty]
    rfl
  | false =>
    have hensure : files.answer (Storage.ensureFolder path) = .ok () := by
      rw [answer, run_ensureFolder_of_folder h hdirect (hopen hempty) hget]
    rw [answer_createAlong_cons hempty (by simp [hensure]), hensure]

/-- In a folder that is there the folder is made, unless its name is too long. -/
theorem answer_createAlong_of_outer (h : files.WellFormed) (hdirect : folder.Direct)
    (hget : files.get? folder.place = some .folder) (hopen : (folder.join ⟨name⟩).Openable)
    (hname : IsName name) (hnone : files.get? (folder.join ⟨name⟩).place = none) :
    files.answer (Storage.createAlong (folder.join ⟨name⟩ :: around)) =
      if (folder.join ⟨name⟩).HasShortNames then .ok () else .error .nameTooLong := by
  have hensure := answer_ensureFolder_join h hdirect hget hopen hname hnone
  rw [answer_createAlong_cons hname.nonempty_join (by rw [hensure]; split <;> simp), hensure]
  simp only [Path.hasShortNames_join hname, h.hasShortNames hdirect hget, true_and]

/-- Behind a name that is too long nothing is made. -/
theorem answer_createAlong_of_long (hname : IsName name)
    (hnone : files.get? (folder.join ⟨name⟩).place = none)
    (hmake : files.makeFolder (folder.join ⟨name⟩) = .error .nameTooLong)
    (hlong : ¬ folder.HasShortNames) :
    files.answer (Storage.createAlong (folder.join ⟨name⟩ :: around)) =
      if (folder.join ⟨name⟩).HasShortNames then .ok () else .error .nameTooLong := by
  have hensure : files.answer (Storage.ensureFolder (folder.join ⟨name⟩)) =
      .error .nameTooLong := by
    rw [answer, run_ensureFolder_of_none hnone hmake]
  rw [answer_createAlong_cons hname.nonempty_join (by simp [hensure]), hensure,
    if_neg fun hshort => hlong ((Path.hasShortNames_join hname).1 hshort).1]

/-- Where the folders around it have been made the folder is made, too, unless its name is too
long. -/
theorem answer_createAlong_of_missing (hdirect : folder.Direct) (hopen : (folder.join ⟨name⟩).Openable)
    (hname : IsName name) (hnone : files.get? (folder.join ⟨name⟩).place = none)
    (hmissing : files.makeFolder (folder.join ⟨name⟩) = .error .notFound)
    (hrest : files.answer (Storage.createAlong around) =
      if folder.HasShortNames then .ok () else .error .nameTooLong)
    (hmade : ∀ between, (Storage.createAlong around :
        ExceptT StorageError (StateM FileSystem) Unit).run.run files = (.ok (), between) →
      AddsFolders folder.way files between ∧ between.get? folder.place = some .folder) :
    files.answer (Storage.createAlong (folder.join ⟨name⟩ :: around)) =
      if (folder.join ⟨name⟩).HasShortNames then .ok () else .error .nameTooLong := by
  rw [answer, run_createAlong_cons_of_missing hname.nonempty_join
    (run_ensureFolder_of_none hnone hmissing), run_bind]
  rw [answer] at hrest
  simp only [Path.hasShortNames_join hname]
  rcases hrun : (Storage.createAlong around :
    ExceptT StorageError (StateM FileSystem) Unit).run.run files with ⟨result, between⟩
  rw [hrun] at hrest
  by_cases hshort : folder.HasShortNames
  · obtain rfl : result = .ok () := by simpa only [if_pos hshort] using hrest
    obtain ⟨hadds, hfolder⟩ := hmade between hrun
    have hfree : between.get? (folder.join ⟨name⟩).place = none := by
      rcases hadds.changes (folder.join ⟨name⟩).place with hsame | ⟨hway, -⟩
      · rw [hsame, hnone]
      · rw [hname.place_join] at hway
        have hlength := (hdirect.prefix_of_mem_way hway).length_le
        rw [List.length_append, List.length_singleton] at hlength
        exact absurd hlength (Nat.not_succ_le_self _)
    have hlast := answer_ensureFolder_join hadds.wellFormed hdirect hfolder hopen hname hfree
    rw [answer] at hlast
    simpa only [hshort, true_and] using hlast
  · obtain rfl : result = .error .nameTooLong := by simpa only [if_neg hshort] using hrest
    rw [if_neg fun hboth => hshort hboth.1]

/-- Where no file lies on the way all folders are made, unless a name is too long. -/
theorem answer_createAlong_of_clear {fuel : Nat} (h : files.WellFormed) (hclear : files.Clear path)
    (hdirect : path.Direct) (hopen : path.text.isEmpty = false → path.Openable)
    (hends : path.EndsInMove) (hfuel : path.moves.length ≤ fuel) :
    files.answer (Storage.createAlong (path.ancestorsFrom fuel)) =
      if path.HasShortNames then .ok () else .error .nameTooLong := by
  induction fuel generalizing path with
  | zero =>
    have hget : files.get? path.place = some .folder := by
      rw [Path.place_eq, List.length_eq_zero_iff.1 (Nat.le_zero.1 hfuel), List.foldl_nil]
      exact get?_of_isAround path.isAround_start
    rw [Path.ancestorsFrom, answer_createAlong_of_folder h hdirect hopen hget,
      if_pos (h.hasShortNames hdirect hget)]
  | succ fuel ih =>
    rcases hclear path.place path.place_mem_way with hget | hnone
    · obtain ⟨around, haround⟩ := Path.exists_ancestorsFrom_eq (fuel + 1) path
      rw [haround, answer_createAlong_of_folder h hdirect hopen hget,
        if_pos (h.hasShortNames hdirect hget)]
    have haround := not_isAround_of_none hnone
    have hopen := hopen (Path.nonempty_of_isAround haround)
    obtain ⟨outer, name, parent, rfl, hname, hparent, hsame⟩ :=
      hends.exists_join hdirect hopen haround
    have houter : outer.Direct := hdirect.of_moves_append (hname.moves_join outer)
    have hclearOuter : files.Clear outer := fun place hplace => hclear place
      (Path.way_subset_of_moves (hname.moves_join outer ▸ List.prefix_append _ _)
        (Path.isAbsolute_join hname.plain).symm hplace)
    rw [Path.ancestorsFrom, hparent]
    dsimp only
    rcases hclearOuter outer.place outer.place_mem_way with hfolder | hmissing
    · exact answer_createAlong_of_outer h houter hfolder hopen hname hnone
    · rcases makeFolder_of_missing hopen hname hclearOuter hmissing with hmake | ⟨hmake, hlong⟩
      · have hends' := Path.endsInMove_of_parent? hparent
        have hopen' := hopen.of_beginning (Path.prefix_of_parent? hparent)
        have hclear' : files.Clear parent := fun place hplace =>
          hclearOuter place (hsame.mem_way_iff.1 hplace)
        have hrest := ih hclear' (hsame.direct houter) hopen' hends' (by
          rw [hname.moves_join, List.length_append] at hfuel
          rw [hsame.moves]
          exact Nat.le_of_succ_le_succ hfuel)
        simp only [hsame.hasShortNames_iff] at hrest
        refine answer_createAlong_of_missing houter hopen hname hnone hmake hrest ?_
        intro between hrun
        obtain ⟨around, hlist⟩ := Path.exists_ancestorsFrom_eq fuel parent
        obtain ⟨hadds, hfolder⟩ := addsFolders_createAlong h (fun other hother =>
          hsame.mem_way_iff.1 (Path.way_subset_of_mem_ancestorsFrom hother other.place_mem_way)) hrun
        rw [← hsame.place_eq]
        exact ⟨hadds, (hfolder rfl parent (by rw [hlist, List.head?_cons])).2⟩
      · exact answer_createAlong_of_long hname hnone hmake hlong

end Creating

/-- Folders whose path cannot be opened are refused whatever the files are. -/
theorem answer_createFolders_of_not_openable (hnonempty : path.text.isEmpty = false)
    (hopen : ¬ path.Openable) :
    files.answer (Storage.createFolders path) = after.answer (Storage.createFolders path) := by
  obtain ⟨error, hplace, hfound⟩ := exists_placeOf_eq_error hopen
  obtain ⟨around, haround⟩ := Path.exists_ancestorsFrom_eq (path.text.length + 1) path
  have hensure : ∀ files : FileSystem,
      files.answer (Storage.ensureFolder path) = .error error := by
    intro files
    have hmake : files.makeFolder path = .error error := by
      rw [makeFolder, hplace]
      rfl
    have hkind : files.kind? path = none := by
      rw [kind?, lookup, hplace]
      rfl
    rw [answer, run_ensureFolder, hmake, hkind]
    rfl
  have hcreate : ∀ files : FileSystem,
      files.answer (Storage.createFolders path) = .error error := by
    intro files
    have hother : files.answer (Storage.ensureFolder path) ≠ .error .notFound := by
      rw [hensure]
      exact fun heq => hfound hnonempty (Except.error.inj heq)
    rw [Storage.createFolders, Path.ancestors, haround, answer_createAlong_cons hnonempty hother,
      hensure]
  rw [hcreate, hcreate]

/-- Where no file lies on the way, folders are made or refused by their path alone. -/
theorem answer_createFolders_of_clear (h : files.WellFormed) (hafter : after.WellFormed)
    (hclear : files.Clear path) (hclear' : after.Clear path) (hdirect : path.Direct)
    (hnonempty : path.text.isEmpty = false) (hends : path.EndsInMove) :
    files.answer (Storage.createFolders path) = after.answer (Storage.createFolders path) := by
  by_cases hopen : path.Openable
  · rw [Storage.createFolders, Path.ancestors,
      answer_createAlong_of_clear h hclear hdirect (fun _ => hopen) hends path.length_moves_le,
      answer_createAlong_of_clear hafter hclear' hdirect (fun _ => hopen) hends path.length_moves_le]
  · exact answer_createFolders_of_not_openable hnonempty hopen

/-- Where no file lies on the way, nothing is found where there is nothing. -/
theorem lookup_of_clear (hclear : files.Clear path) (hopen : path.Openable)
    (hshort : path.HasShortNames) (hnone : files.get? path.place = none) :
    files.lookup path = .error .notFound := by
  rw [lookup, placeOf_of_openable hopen]
  rcases walk_of_clear hclear with hok | hmissing | ⟨-, segment, hsegment, hlong⟩
  · rw [hok, ok_bind]
    rw [Path.place] at hnone
    rw [hnone]
    rfl
  · rw [hmissing]
    rfl
  · exact absurd (hshort.short (Path.idle_or_mem_of_mem_steps hsegment)) (Nat.not_le.2 hlong)

/-- Along the path there is what was there before, save that folders may have been added where there
was nothing. -/
def Gains (files after : FileSystem) (path : Path) : Prop :=
  ∀ place ∈ path.way, after.get? place = files.get? place ∨
    (files.get? place = none ∧ after.get? place = some .folder)

namespace Gains

variable (h : files.Gains after path) (hfiles : files.WellFormed) (hafter : after.WellFormed)
  (hdirect : path.Direct)

include h hfiles hafter hdirect

/-- A file on the way leaves no room for more folders: those in front of it were there, and nothing
is behind it. -/
theorem agreeAlong_or_clear :
    files.AgreeAlong after path ∨ (files.Clear path ∧ after.Clear path) := by
  by_cases hblocked : ∃ front ∈ path.way, ∃ bytes, files.get? front = some (.file bytes)
  · obtain ⟨front, hfront, bytes, hfile⟩ := hblocked
    left
    intro place hplace
    rcases h place hplace with hsame | ⟨hnone, hfolder⟩
    · exact hsame.symm
    · have hne : place ≠ front := by
        rintro rfl
        rw [hnone] at hfile
        cases hfile
      rcases List.prefix_or_prefix_of_prefix (hdirect.prefix_of_mem_way hplace)
        (hdirect.prefix_of_mem_way hfront) with hbegins | hbegins
      · rw [hfiles.folder_of_prefix hfile hbegins hne] at hnone
        cases hnone
      · have hbefore := hafter.folder_of_prefix hfolder hbegins hne.symm
        rcases h front hfront with hsame | ⟨hnothing, -⟩
        · rw [hsame, hfile] at hbefore
          cases hbefore
        · rw [hfile] at hnothing
          cases hnothing
  · have hclear : files.Clear path := by
      intro place hplace
      rcases hget : files.get? place with - | ⟨- | bytes⟩
      · exact Or.inr rfl
      · exact Or.inl rfl
      · exact absurd ⟨place, hplace, bytes, hget⟩ hblocked
    refine Or.inr ⟨hclear, fun place hplace => ?_⟩
    rcases h place hplace with hsame | ⟨-, hfolder⟩
    · rw [hsame]
      exact hclear place hplace
    · exact Or.inl hfolder

/-- A path without long names is looked up as before, if the same lies where it leads. -/
theorem lookup_eq (hshort : path.HasShortNames)
    (hsame : after.get? path.place = files.get? path.place) :
    after.lookup path = files.lookup path := by
  rcases h.agreeAlong_or_clear hfiles hafter hdirect with hagree | ⟨hclear, hclear'⟩
  · exact hagree.lookup_eq.symm
  · by_cases hnone : files.get? path.place = none
    · by_cases hopen : path.Openable
      · rw [lookup_of_clear hclear hopen hshort hnone,
          lookup_of_clear hclear' hopen hshort (hsame.trans hnone)]
      · obtain ⟨error, hplace, -⟩ := exists_placeOf_eq_error hopen
        rw [lookup, lookup, hplace, hplace]
        rfl
    · exact hfiles.lookup_eq hafter hdirect hsame hnone

end Gains

end FileSystem

end HighlightGrammar
