import HighlightGrammar.Proofs.Storage.Contents
import HighlightGrammar.Proofs.Storage.Quiet

/-!
# Looking along direct paths

In a well-formed file system a direct path leads to its place whenever that place holds something.
So two file systems that hold the same there give the same answers about the path, though one of
them may have more folders along the way. -/
namespace HighlightGrammar

open HighlightGrammar.Path (IsName IsFileName)

namespace Path

/-- A move of a direct path goes up or is part of the place. -/
theorem Direct.eq_up_or_mem {path : Path} (h : path.Direct) {move : String}
    (hmove : move ∈ path.moves) : move = ".." ∨ move ∈ path.place := by
  obtain ⟨front, back, hsplit⟩ := List.append_of_mem hmove
  by_cases hup : move = ".."
  · exact Or.inl hup
  · right
    have hway : front.foldl Place.step path.start ++ [move] ∈ path.way := by
      refine mem_way_iff.2 ⟨front ++ [move], ⟨back, by simp [hsplit]⟩, ?_⟩
      rw [List.foldl_append, List.foldl_cons, List.foldl_nil,
        Place.step_of_busy _ (of_mem_moves hmove).1 hup]
    exact (h.prefix_of_mem_way hway).subset (by simp)

theorem idle_or_mem_of_mem_steps {path : Path} {segment : String} (h : segment ∈ path.steps) :
    idle segment.toList = true ∨ segment ∈ path.moves := by
  rw [steps_eq, List.mem_map] at h
  obtain ⟨chars, hchars, rfl⟩ := h
  rw [String.toList_ofList, moves_eq_filter_steps]
  cases hidle : idle chars with
  | true => exact Or.inl rfl
  | false => exact Or.inr (List.mem_map_of_mem (List.mem_filter.2 ⟨hchars, by simp [hidle]⟩))

/-- A joined path goes along its folder and then takes the step of the name. -/
theorem exists_steps_join (folder : Path) {name : String} (hname : IsName name) :
    ∃ segments : List String, (folder.join ⟨name⟩).steps = segments ++ [name] ∧
      segments.foldl Place.step folder.start = folder.place ∧
      (∀ place ∈ segments.scanl Place.step folder.start, place ∈ folder.way) ∧
      ∀ segment ∈ segments, idle segment.toList = true ∨ segment ∈ folder.moves := by
  obtain ⟨segments, hsteps, hmoves⟩ := steps_join folder hname.busy hname.plain
  refine ⟨segments.map String.ofList, hsteps, ?_, fun place hplace => ?_, fun segment hsegment => ?_⟩
  · rw [← foldl_step_filter, hmoves, place_eq]
  · rw [mem_scanl_step_iff, hmoves] at hplace
    exact mem_way_iff.2 hplace
  · obtain ⟨chars, hchars, rfl⟩ := List.mem_map.1 hsegment
    rw [String.toList_ofList, ← hmoves]
    cases hidle : idle chars with
    | true => exact Or.inl rfl
    | false => exact Or.inr (List.mem_map_of_mem (List.mem_filter.2 ⟨hchars, by simp [hidle]⟩))

/-- No name on the path is too long. -/
def HasShortNames (path : Path) : Prop :=
  ∀ move ∈ path.moves, move.utf8ByteSize ≤ FileSystem.longestName

instance (path : Path) : Decidable path.HasShortNames :=
  inferInstanceAs (Decidable (∀ move ∈ path.moves, move.utf8ByteSize ≤ FileSystem.longestName))

/-- Idle segments are not too long either. -/
theorem HasShortNames.short {path : Path} (h : path.HasShortNames) {segment : String}
    (hsegment : idle segment.toList = true ∨ segment ∈ path.moves) :
    segment.utf8ByteSize ≤ FileSystem.longestName := by
  rcases hsegment with hidle | hmove
  · rcases idle_toList_iff.1 hidle with rfl | rfl <;> decide
  · exact h segment hmove

/-- Neither the name nor the path to it is too long. -/
def HasRoomFor (folder : Path) (name : String) : Prop :=
  name.utf8ByteSize ≤ FileSystem.longestName ∧
    (folder.join ⟨name⟩).text.utf8ByteSize ≤ FileSystem.longestPath

instance (folder : Path) (name : String) : Decidable (folder.HasRoomFor name) :=
  inferInstanceAs (Decidable (_ ∧ _))

namespace IsName

variable {folder : Path} {name : String} (h : IsName name)

include h

theorem ne_nil : name.toList ≠ [] := by
  intro hempty
  have hbusy := h.busy
  rw [hempty] at hbusy
  cases hbusy

theorem nonempty_join : (folder.join ⟨name⟩).text.isEmpty = false := by
  rw [← Bool.not_eq_true, String.isEmpty_iff, ← String.toList_inj]
  rcases toList_join folder h.plain with ⟨-, hjoin⟩ | ⟨front, -, hjoin⟩
  · rw [hjoin]
    exact h.ne_nil
  · simp [hjoin]

theorem printable_join (hprintable : '\x00' ∉ folder.text.toList) :
    '\x00' ∉ (folder.join ⟨name⟩).text.toList := by
  have hname := h.printable
  rcases toList_join folder h.plain with ⟨-, hjoin⟩ | ⟨front, hfolder, hjoin⟩
  · rwa [hjoin]
  · rw [hjoin]
    rcases hfolder with hfolder | ⟨hfolder, -⟩ <;> rw [hfolder] at hprintable <;> simp_all

theorem openable_join (hprintable : '\x00' ∉ folder.text.toList)
    (hshort : (folder.join ⟨name⟩).text.utf8ByteSize ≤ FileSystem.longestPath) :
    (folder.join ⟨name⟩).Openable :=
  ⟨h.nonempty_join, h.printable_join hprintable, hshort⟩

/-- The path that a name is joined to is shorter and can be opened as well. -/
theorem openable_of_join (hopen : (folder.join ⟨name⟩).Openable)
    (hnonempty : folder.text.isEmpty = false) : folder.Openable := by
  refine hopen.of_beginning ?_ hnonempty
  rcases toList_join folder h.plain with ⟨hempty, -⟩ | ⟨front, hfolder, hjoin⟩
  · rw [hempty]
    exact List.nil_prefix
  · rw [hjoin]
    rcases hfolder with hfolder | ⟨hfolder, -⟩
    · exact ⟨name.toList, by simp [hfolder]⟩
    · rw [hfolder]
      exact List.prefix_append _ _

theorem endsInSlash_join : FileSystem.endsInSlash (folder.join ⟨name⟩) = false := by
  have hlast : (folder.join ⟨name⟩).text.toList.getLast? = name.toList.getLast? := by
    rcases toList_join folder h.plain with ⟨-, hjoin⟩ | ⟨front, -, hjoin⟩
    · rw [hjoin]
    · rw [hjoin, List.append_cons, List.getLast?_append_of_ne_nil _ h.ne_nil]
  rw [FileSystem.endsInSlash, hlast, beq_eq_false_iff_ne]
  exact fun hslash => h.plain (List.mem_of_getLast? hslash)

end IsName

end Path

namespace FileSystem

variable {files after : FileSystem} {path folder : Path} {name : String}

theorem placeOf_of_long (hnonempty : path.text.isEmpty = false)
    (hprintable : '\x00' ∉ path.text.toList)
    (hlong : ¬ path.text.utf8ByteSize ≤ longestPath) :
    files.placeOf path = .error .nameTooLong := by
  rw [placeOf_eq, if_neg (by simpa using hprintable), if_neg (by simp [hnonempty]),
    if_pos (Nat.not_le.1 hlong)]

theorem walk_of_folders {start : Place} {segments : List String}
    (hway : ∀ place ∈ (segments.scanl Place.step start).dropLast, files.get? place = some .folder)
    (hshort : ∀ segment ∈ segments, segment.utf8ByteSize ≤ longestName) :
    files.walk start segments = .ok (segments.foldl Place.step start) := by
  induction segments generalizing start with
  | nil => rfl
  | cons segment segments ih =>
    rw [List.forall_mem_cons] at hshort
    have hnext : segments.scanl Place.step (start.step segment) ≠ [] := List.scanl_ne_nil
    rw [List.scanl_cons, List.dropLast_cons_of_ne_nil hnext, List.forall_mem_cons] at hway
    rw [walk_cons, hway.1]
    dsimp only
    rw [if_neg (Nat.not_lt.2 hshort.1), ih hway.2 hshort.2, List.foldl_cons]

theorem walk_append (files : FileSystem) (start : Place) (front back : List String) :
    files.walk start (front ++ back) =
      files.walk start front >>= fun place => files.walk place back := by
  induction front generalizing start with
  | nil => rfl
  | cons segment front ih =>
    rw [List.cons_append, walk_cons, walk_cons]
    split
    · rfl
    · rfl
    · split
      · rfl
      · exact ih _

/-- No file lies on the way of a path. -/
def Clear (files : FileSystem) (path : Path) : Prop :=
  ∀ place ∈ path.way, files.get? place = some .folder ∨ files.get? place = none

/-- Where no file lies on the way, only a missing folder or a long name can stop a walk. -/
theorem walk_of_clear {start : Place} {segments : List String}
    (hway : ∀ place ∈ segments.scanl Place.step start,
      files.get? place = some .folder ∨ files.get? place = none) :
    files.walk start segments = .ok (segments.foldl Place.step start) ∨
      files.walk start segments = .error .notFound ∨
      (files.walk start segments = .error .nameTooLong ∧
        ∃ segment ∈ segments, longestName < segment.utf8ByteSize) := by
  induction segments generalizing start with
  | nil => exact Or.inl rfl
  | cons segment segments ih =>
    rw [List.scanl_cons, List.forall_mem_cons] at hway
    rw [walk_cons]
    rcases hway.1 with hfolder | hnone
    · rw [hfolder]
      dsimp only
      split
      · next hlong => exact Or.inr (Or.inr ⟨rfl, segment, List.mem_cons_self, hlong⟩)
      · rcases ih hway.2 with hok | hmissing | ⟨hlong, other, hother⟩
        · exact Or.inl hok
        · exact Or.inr (Or.inl hmissing)
        · exact Or.inr (Or.inr ⟨hlong, other, List.mem_cons_of_mem _ hother.1, hother.2⟩)
    · rw [hnone]
      exact Or.inr (Or.inl rfl)

/-- Where a folder on the way is missing no folder is made behind it. -/
theorem makeFolder_of_missing (hopen : (folder.join ⟨name⟩).Openable) (hname : IsName name)
    (hclear : files.Clear folder) (hmissing : files.get? folder.place = none) :
    files.makeFolder (folder.join ⟨name⟩) = .error .notFound ∨
      (files.makeFolder (folder.join ⟨name⟩) = .error .nameTooLong ∧ ¬ folder.HasShortNames) := by
  obtain ⟨segments, hsteps, hplace, hsegments, hmoves⟩ :=
    Path.exists_steps_join folder hname
  have hwalk : files.placeOf (folder.join ⟨name⟩) =
      files.walk folder.start segments >>= fun place => files.walk place [name] := by
    rw [placeOf_of_openable hopen, Path.start_join hname.plain, hsteps, walk_append]
  rw [makeFolder, hwalk]
  rcases walk_of_clear (fun place hmem => hclear place (hsegments place hmem)) with
    hok | hnone | ⟨hlong, segment, hmem, hsize⟩
  · left
    rw [hok, hplace, ok_bind, walk_cons, hmissing]
    rfl
  · left
    rw [hnone]
    rfl
  · right
    rw [hlong]
    exact ⟨rfl, fun hshort => absurd (hshort.short (hmoves segment hmem)) (Nat.not_le.2 hsize)⟩

theorem names_of_kind? (hkind : files.kind? path = some .folder) :
    files.names path = .ok (files.namesIn path.place) := by
  rw [kind?] at hkind
  split at hkind
  · next place entry hlookup =>
    obtain ⟨rfl, -⟩ := lookup_eq_ok hlookup
    cases entry with
    | file bytes => cases hkind
    | folder =>
      rw [names, hlookup]
      rfl
  · cases hkind

theorem kind?_of_get?_eq_none (hnone : files.get? path.place = none) : files.kind? path = none := by
  refine Option.eq_none_iff_forall_ne_some.2 fun kind hkind => ?_
  obtain ⟨entry, hget, -⟩ := get?_of_kind? hkind
  rw [hnone] at hget
  cases hget

namespace WellFormed

variable (h : files.WellFormed)

include h

theorem short_of_mem {place : Place} {entry : Entry} (hget : files.get? place = some entry)
    {segment : String} (hsegment : segment ∈ place) : segment.utf8ByteSize ≤ longestName := by
  rcases h.isFileName_of_mem hget hsegment with hleaves | hname
  · rw [Place.leavesFolder, Bool.or_eq_true, beq_iff_eq, beq_iff_eq] at hleaves
    rcases hleaves with rfl | rfl <;> decide
  · exact hname.short

/-- The names that lead to something are not too long. -/
theorem hasShortNames (hdirect : path.Direct) {entry : Entry}
    (hget : files.get? path.place = some entry) : path.HasShortNames := by
  intro move hmove
  rcases hdirect.eq_up_or_mem hmove with rfl | hmem
  · decide
  · exact h.short_of_mem hget hmem

theorem folder_of_mem_way (hdirect : path.Direct) (hget : files.get? path.place = some .folder)
    {place : Place} (hplace : place ∈ path.way) : files.get? place = some .folder := by
  by_cases hself : place = path.place
  · rwa [hself]
  · exact h.folder_of_prefix hget (hdirect.prefix_of_mem_way hplace) hself

/-- A direct path leads to its folder. -/
theorem lookup_folder (hdirect : path.Direct) (hopen : path.Openable)
    (hget : files.get? path.place = some .folder) :
    files.lookup path = .ok (path.place, .folder) := by
  have hplace : files.placeOf path = .ok path.place :=
    placeOf_eq_ok_iff.2 ⟨hopen, walk_of_folders
      (fun place hplace => h.folder_of_mem_way hdirect hget ((List.dropLast_subset _) hplace))
      fun _ hsegment => (h.hasShortNames hdirect hget).short (Path.idle_or_mem_of_mem_steps hsegment)⟩
  rw [lookup, hplace]
  simp only [bind, Except.bind, hget]
  rfl

/-- A name is looked up in the folder that it is joined to. -/
theorem placeOf_join (hdirect : folder.Direct) (hget : files.get? folder.place = some .folder)
    (hopen : (folder.join ⟨name⟩).Openable) (hname : IsName name) :
    files.placeOf (folder.join ⟨name⟩) =
      if name.utf8ByteSize ≤ longestName then .ok (folder.place ++ [name])
      else .error .nameTooLong := by
  obtain ⟨segments, hsteps, hplace, hway, hmoves⟩ := Path.exists_steps_join folder hname
  have hfolder : files.walk folder.start segments = .ok folder.place :=
    hplace ▸ walk_of_folders
      (fun place hmem => h.folder_of_mem_way hdirect hget (hway place ((List.dropLast_subset _) hmem)))
      fun segment hmem => (h.hasShortNames hdirect hget).short (hmoves segment hmem)
  rw [placeOf_of_openable hopen, Path.start_join hname.plain, hsteps, walk_append, hfolder, ok_bind,
    walk_cons, hget]
  dsimp only
  split
  · next hlong => rw [if_neg (Nat.not_le.2 hlong)]
  · next hfits =>
    rw [if_pos (Nat.not_lt.1 hfits), hname.step]
    rfl

/-- In a folder a folder is made under a name that is free. -/
theorem makeFolder_join (hdirect : folder.Direct) (hget : files.get? folder.place = some .folder)
    (hopen : (folder.join ⟨name⟩).Openable) (hname : IsFileName name)
    (hfree : files.get? (folder.place ++ [name]) = none) :
    files.makeFolder (folder.join ⟨name⟩) = .ok (files.put (folder.place ++ [name]) .folder) := by
  have habove : files.hasFolder (Place.above (folder.place ++ [name])) = true := by
    rwa [Place.above_append_name hname, hasFolder_iff]
  rw [FileSystem.makeFolder, h.placeOf_join hdirect hget hopen hname.toIsName, if_pos hname.short]
  simp only [bind, Except.bind, hfree, habove]
  rfl

theorem exists_makeFolder_join (hdirect : folder.Direct)
    (hget : files.get? folder.place = some .folder) (hopen : (folder.join ⟨name⟩).Openable)
    (hname : IsFileName name) (hfree : files.get? (folder.place ++ [name]) = none) :
    ∃ made, files.makeFolder (folder.join ⟨name⟩) = .ok made ∧ made.WellFormed ∧
      ∀ place, made.get? place =
        if place = folder.place ++ [name] then some .folder else files.get? place :=
  ⟨_, h.makeFolder_join hdirect hget hopen hname hfree,
    h.put hname hget (by rw [hfree]; nofun) .folder,
    get?_put (Place.isAround_append_name folder.place hname)⟩

/-- Into a folder a file is written under any name that is not too long, unless that is the name of
a folder. -/
theorem writeBytes_join (hdirect : folder.Direct) (hget : files.get? folder.place = some .folder)
    (hprintable : '\x00' ∉ folder.text.toList) (hname : IsName name)
    (hfree : files.get? (folder.place ++ [name]) ≠ some .folder) (bytes : ByteArray) :
    files.writeBytes (folder.join ⟨name⟩) bytes =
      if folder.HasRoomFor name then .ok (files.put (folder.place ++ [name]) (.file bytes))
      else .error .nameTooLong := by
  by_cases hshort : (folder.join ⟨name⟩).text.utf8ByteSize ≤ longestPath
  · have hopen := hname.openable_join hprintable hshort
    rw [writeBytes, h.placeOf_join hdirect hget hopen hname]
    by_cases hfits : name.utf8ByteSize ≤ longestName
    · rw [if_pos hfits, if_pos ⟨hfits, hshort⟩]
      have hplace : files.hasFolder (folder.place ++ [name]) = false := by
        rwa [← Bool.not_eq_true, hasFolder_iff]
      have habove : files.hasFolder (Place.above (folder.place ++ [name])) = true := by
        rwa [Place.above_append_name ⟨hname, hfits⟩, hasFolder_iff]
      simp only [bind, Except.bind, hplace, habove, hname.endsInSlash_join]
      rfl
    · rw [if_neg hfits, if_neg fun hroom => hfits hroom.1]
      rfl
  · have hlong : files.placeOf (folder.join ⟨name⟩) = .error .nameTooLong :=
      placeOf_of_long (hname.nonempty_join) (hname.printable_join hprintable) hshort
    rw [writeBytes, hlong, if_neg fun hroom => hshort hroom.2]
    rfl

/-- A file is read under its name. -/
theorem readBytes_join (hdirect : folder.Direct) (hopen : (folder.join ⟨name⟩).Openable)
    (hname : IsFileName name) {bytes : ByteArray}
    (hget : files.get? (folder.place ++ [name]) = some (.file bytes)) :
    files.readBytes (folder.join ⟨name⟩) = .ok bytes := by
  have hfolder := h.folder_of_prefix hget (List.prefix_append _ _) (by simp)
  have hlookup : files.lookup (folder.join ⟨name⟩) = .ok (folder.place ++ [name], .file bytes) := by
    rw [lookup, h.placeOf_join hdirect hfolder hopen hname.toIsName, if_pos hname.short]
    simp only [bind, Except.bind, hget, hname.endsInSlash_join]
    rfl
  rw [readBytes, hlookup]
  rfl

/-- A direct path to something is looked up alike wherever the same lies at its place. -/
theorem lookup_eq (hafter : after.WellFormed) (hdirect : path.Direct)
    (hsame : after.get? path.place = files.get? path.place) (hthere : files.get? path.place ≠ none) :
    after.lookup path = files.lookup path := by
  obtain ⟨entry, hget⟩ := Option.ne_none_iff_exists'.1 hthere
  refine AgreeAlong.lookup_eq fun place hplace => ?_
  by_cases hself : place = path.place
  · rw [hself, hsame]
  · have hbegins := hdirect.prefix_of_mem_way hplace
    rw [h.folder_of_prefix hget hbegins hself,
      hafter.folder_of_prefix (hsame.trans hget) hbegins hself]

/-- A file that has been left alone is read as before. -/
theorem readBytes_of_kept (hafter : after.WellFormed) (hdirect : path.Direct)
    (hsame : after.get? path.place = files.get? path.place) {bytes : ByteArray}
    (hread : files.readBytes path = .ok bytes) : after.readBytes path = .ok bytes := by
  have hthere : files.get? path.place ≠ none := by
    obtain ⟨⟨place, entry⟩, hlookup, -⟩ := bind_eq_ok_iff.1 hread
    simp [(lookup_eq_ok hlookup).2]
  rwa [readBytes, h.lookup_eq hafter hdirect hsame hthere]

theorem kind?_eq (hafter : after.WellFormed) (hdirect : path.Direct)
    (hsame : after.get? path.place = files.get? path.place) :
    after.kind? path = files.kind? path := by
  by_cases hthere : files.get? path.place = none
  · rw [kind?_of_get?_eq_none hthere, kind?_of_get?_eq_none (hsame.trans hthere)]
  · rw [kind?, kind?, h.lookup_eq hafter hdirect hsame hthere]

theorem answer_readText_eq (hafter : after.WellFormed) (hdirect : path.Direct)
    (hsame : after.get? path.place = files.get? path.place) (hthere : files.kind? path ≠ none) :
    after.answer (Storage.readText path) = files.answer (Storage.readText path) := by
  obtain ⟨kind, hkind⟩ := Option.ne_none_iff_exists'.1 hthere
  obtain ⟨entry, hget, -⟩ := get?_of_kind? hkind
  rw [answer_readText, answer_readText, readBytes, readBytes,
    h.lookup_eq hafter hdirect hsame (by simp [hget])]

end WellFormed

end FileSystem

end HighlightGrammar
