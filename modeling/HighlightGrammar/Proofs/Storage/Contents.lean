import HighlightGrammar.Proofs.Storage.Moves
import Mathlib.Data.List.Induction
import Mathlib.Data.List.Nodup

/-!
# What file systems hold

In a well-formed file system no place is taken twice, and everything lies under a file name in a
folder. Such a file system is told by what lies at each place: what lies in a folder is what the
folder lists, and a place that holds something is led to by folders. -/
namespace HighlightGrammar

open HighlightGrammar.Path (IsFileName)

/-- A path that is looked at: it has a text, of usable characters and not too long. -/
structure Path.Openable (path : Path) : Prop where
  nonempty : path.text.isEmpty = false
  printable : '\x00' ∉ path.text.toList
  short : path.text.utf8ByteSize ≤ FileSystem.longestPath

theorem Path.Openable.of_beginning {path front : Path} (h : path.Openable)
    (hbegins : front.text.toList <+: path.text.toList) (hnonempty : front.text.isEmpty = false) :
    front.Openable := by
  obtain ⟨rest, hrest⟩ := hbegins
  have htext : path.text = front.text ++ String.ofList rest := by
    rw [← String.toList_inj, String.toList_append, String.toList_ofList, hrest]
  obtain ⟨-, hprintable, hshort⟩ := h
  rw [htext, String.toList_append, List.mem_append, not_or] at hprintable
  rw [htext, String.utf8ByteSize_append] at hshort
  exact ⟨hnonempty, hprintable.1, Nat.le_trans (Nat.le_add_right _ _) hshort⟩

/-- The empty path leads to the folder that one stands in. -/
theorem Path.isAround_of_isEmpty {path : Path} (h : path.text.isEmpty = true) :
    path.place.isAround = true := by
  obtain ⟨text⟩ := path
  obtain rfl := String.isEmpty_iff.1 h
  decide

theorem Path.nonempty_of_isAround {path : Path} (h : path.place.isAround = false) :
    path.text.isEmpty = false := by
  rw [← Bool.not_eq_true]
  intro hempty
  rw [isAround_of_isEmpty hempty] at h
  cases h

namespace Place

theorem isAround_append_name (folder : Place) {name : String} (h : IsFileName name) :
    isAround (folder ++ [name]) = false := by
  simp [isAround, leavesFolder, h.staying, h.ne_root]

theorem above_append_name {folder : Place} {name : String} (h : IsFileName name) :
    above (folder ++ [name]) = folder := by
  simp [above, h.staying, h.ne_root]

/-- A place at which a walk can end: around the folder that one stands in, or at a file name. -/
def IsEnd (place : Place) : Prop :=
  place.isAround = true ∨ ∃ folder name, place = folder ++ [name] ∧ IsFileName name

theorem isAround_of_prefix {place front : Place} (h : place.isAround = true)
    (hfront : front <+: place) : front.isAround = true := by
  rw [isAround, List.all_eq_true] at h ⊢
  exact fun name hname => h name (hfront.subset hname)

theorem isWithin_iff {place outer : Place} : place.isWithin outer = true ↔
    ∃ rest, place = outer ++ rest ∧ rest.isInside = true := by
  rw [isWithin, Bool.and_eq_true, List.isPrefixOf_iff_prefix]
  constructor
  · rintro ⟨⟨rest, rfl⟩, hrest⟩
    rw [List.drop_left] at hrest
    exact ⟨rest, rfl, hrest⟩
  · rintro ⟨rest, rfl, hrest⟩
    rw [List.drop_left]
    exact ⟨List.prefix_append _ _, hrest⟩

theorem isInside_of_isFileName {rest : Place} (h : ∀ name ∈ rest, IsFileName name) :
    isInside rest = true := by
  simp only [isInside, leavesFolder, Bool.not_eq_true', List.any_eq_false, Bool.or_eq_true,
    beq_iff_eq, not_or]
  exact fun name hname => ⟨(h name hname).staying, (h name hname).ne_root⟩

theorem isWithin_append (outer : Place) {rest : Place} (h : isInside rest = true) :
    (outer ++ rest).isWithin outer = true := isWithin_iff.2 ⟨rest, rfl, h⟩

theorem isWithin_self (place : Place) : place.isWithin place = true :=
  isWithin_iff.2 ⟨[], (List.append_nil place).symm, rfl⟩

theorem isInside_append {front back : Place} :
    isInside (front ++ back) = true ↔ isInside front = true ∧ isInside back = true := by
  simp [isInside]

/-- Neither place lies within the other. -/
def Apart (place other : Place) : Prop :=
  place.isWithin other = false ∧ other.isWithin place = false

theorem Apart.symm {place other : Place} (h : place.Apart other) : other.Apart place := ⟨h.2, h.1⟩

instance (place other : Place) : Decidable (place.Apart other) :=
  inferInstanceAs (Decidable (_ ∧ _))

/-- A direct path that has entered a folder goes on inside it. -/
theorem isInside_of_direct {path : Path} (h : path.Direct) {front rest : Place}
    (hplace : path.place = front ++ rest) (haround : front.isAround = false) :
    isInside rest = true := by
  obtain ⟨around, inner, heq, haround', hinner⟩ := h.exists_place_eq
  rw [heq] at hplace
  rcases List.append_eq_append_iff.1 hplace with ⟨between, -, rfl⟩ | ⟨between, rfl, -⟩
  · exact (isInside_append.1 hinner).2
  · rw [Place.isAround_of_prefix haround' (List.prefix_append _ _)] at haround
    cases haround

/-- What lies within one of two places that are apart does not lie within the other. -/
theorem Apart.not_isWithin {inner outer other : Place} (h : outer.Apart other)
    (hinner : inner.isWithin outer = true) : inner.isWithin other = false := by
  rw [← Bool.not_eq_true]
  intro hother
  obtain ⟨rest, rfl, hrest⟩ := isWithin_iff.1 hinner
  obtain ⟨rest', heq, hrest'⟩ := isWithin_iff.1 hother
  rcases List.append_eq_append_iff.1 heq with ⟨between, rfl, rfl⟩ | ⟨between, rfl, rfl⟩
  · have hwithin := isWithin_append outer (isInside_append.1 hrest).1
    rw [h.2] at hwithin
    cases hwithin
  · have hwithin := isWithin_append other (isInside_append.1 hrest').1
    rw [h.1] at hwithin
    cases hwithin

/-- What lies within a place does not lie on the way into a place that is apart. -/
theorem Apart.not_prefix {path : Path} {inner outer : Place} (h : outer.Apart path.place)
    (hdirect : path.Direct) (hinner : inner.isWithin outer = true) (haround : inner.isAround = false) :
    ¬ inner <+: path.place := by
  rintro ⟨rest, hrest⟩
  obtain ⟨between, rfl, hbetween⟩ := isWithin_iff.1 hinner
  have hwithin : path.place.isWithin outer = true :=
    isWithin_iff.2 ⟨between ++ rest, by rw [← hrest, List.append_assoc],
      isInside_append.2 ⟨hbetween, isInside_of_direct hdirect hrest.symm haround⟩⟩
  rw [h.2] at hwithin
  cases hwithin

end Place

namespace FileSystem

/-- No place is taken twice, and each entry lies under a file name in a folder. -/
structure WellFormed (files : FileSystem) : Prop where
  distinct : (files.entries.map Prod.fst).Nodup
  placed : ∀ e ∈ files.entries, ∃ folder name, e.1 = folder ++ [name] ∧ IsFileName name ∧
    files.get? folder = some .folder

variable {files : FileSystem} {place folder : Place} {name : String} {entry : Entry}

theorem hasFolder_iff : files.hasFolder place = true ↔ files.get? place = some .folder := by
  rw [hasFolder]
  split
  · next h => simp [h]
  · next h => simpa using h

theorem wellFormed_iff : files.WellFormed ↔ (files.entries.map Prod.fst).Nodup ∧
    ∀ e ∈ files.entries, IsFileName (e.1.getLast?.getD "") ∧ files.hasFolder e.1.dropLast = true := by
  constructor
  · rintro ⟨hdistinct, hplaced⟩
    refine ⟨hdistinct, fun e he => ?_⟩
    obtain ⟨folder, name, hplace, hname, hfolder⟩ := hplaced e he
    rw [hplace, List.getLast?_concat, List.dropLast_concat, hasFolder_iff]
    exact ⟨hname, hfolder⟩
  · rintro ⟨hdistinct, hplaced⟩
    refine ⟨hdistinct, fun e he => ?_⟩
    obtain ⟨hname, hfolder⟩ := hplaced e he
    cases hlast : e.1.getLast? with
    | none =>
      rw [hlast] at hname
      exact absurd hname.busy (by decide)
    | some name =>
      rw [hlast] at hname
      obtain ⟨folder, hplace⟩ := List.getLast?_eq_some_iff.1 hlast
      rw [hplace, List.dropLast_concat, hasFolder_iff] at hfolder
      exact ⟨folder, name, hplace, hname, hfolder⟩

instance (files : FileSystem) : Decidable files.WellFormed := decidable_of_iff _ wellFormed_iff.symm

theorem get?_of_isAround (h : place.isAround = true) : files.get? place = some .folder := if_pos h

theorem get?_eq_of_isAround (h : place.isAround = true) (files files' : FileSystem) :
    files.get? place = files'.get? place := (get?_of_isAround h).trans (get?_of_isAround h).symm

theorem not_isAround (h : files.get? place ≠ some .folder) : place.isAround = false := by
  rw [← Bool.not_eq_true]
  exact fun haround => h (get?_of_isAround haround)

theorem not_isAround_of_none (h : files.get? place = none) : place.isAround = false := by
  have hother : files.get? place ≠ some .folder := by simp [h]
  exact not_isAround hother

theorem get?_of_not_isAround (h : place.isAround = false) :
    files.get? place = Table.get? (· == ·) place files.entries := if_neg (by simp [h])

theorem get?_put (h : place.isAround = false) (other : Place) :
    (files.put place entry).get? other = if other = place then some entry else files.get? other := by
  by_cases hother : other = place
  · rw [if_pos hother, hother, get?_of_not_isAround h]
    exact Table.get?_put_self
  · rw [if_neg hother]
    cases haround : other.isAround with
    | true => exact get?_eq_of_isAround haround _ _
    | false =>
      rw [get?_of_not_isAround haround, get?_of_not_isAround haround]
      exact Table.get?_put_of_ne hother

theorem get?_removeBelow (other : Place) : (files.removeBelow place).get? other =
    if other.isAround then some .folder
    else if other.isWithin place then none else files.get? other := by
  cases haround : other.isAround with
  | true => rw [get?_of_isAround haround, if_pos rfl]
  | false =>
    rw [get?_of_not_isAround haround, get?_of_not_isAround haround, if_neg (by simp), removeBelow,
      Table.get?, Table.get?, List.find?_filter]
    cases hwithin : other.isWithin place with
    | true =>
      rw [if_pos rfl, Option.map_eq_none_iff, List.find?_eq_none]
      intro e _
      by_cases he : e.1 = other <;> simp [he, hwithin]
    | false =>
      rw [if_neg (by simp)]
      congr 2
      funext e
      by_cases he : e.1 = other <;> simp [he, hwithin]

theorem removeBelow_get?_of_not_isWithin (other : Place) (h : other.isWithin place = false) :
    (files.removeBelow place).get? other = files.get? other := by
  rw [get?_removeBelow]
  split
  · next haround => rw [get?_of_isAround haround]
  · rw [h, if_neg Bool.false_ne_true]

/-- Nothing has changed but below the place of the path, save that folders on the way to it may have
been added. -/
def ChangesOnly (path : Path) (files after : FileSystem) : Prop :=
  ∀ place, place.isWithin path.place = false → after.get? place = files.get? place ∨
    (place <+: path.place ∧ files.get? place = none ∧ after.get? place = some .folder)

theorem ChangesOnly.get?_eq {path : Path} {files after : FileSystem} (h : ChangesOnly path files after)
    (hdirect : path.Direct) {outer : Place} (hapart : outer.Apart path.place)
    (hplace : place.isWithin outer = true) : after.get? place = files.get? place := by
  rcases h place (hapart.not_isWithin hplace) with hsame | ⟨hbegins, hnone, -⟩
  · exact hsame
  · exact absurd hbegins (hapart.not_prefix hdirect hplace (not_isAround_of_none hnone))

namespace WellFormed

variable (h : files.WellFormed)

include h

theorem get?_eq_some_iff (haround : place.isAround = false) :
    files.get? place = some entry ↔ (place, entry) ∈ files.entries := by
  rw [get?_of_not_isAround haround]
  exact Table.get?_eq_some_iff h.distinct

/-- What is not a folder around lies under a file name in a folder. -/
theorem parent (hget : files.get? place = some entry) (haround : place.isAround = false) :
    ∃ folder name, place = folder ++ [name] ∧ IsFileName name ∧
      files.get? folder = some .folder :=
  h.placed _ ((h.get?_eq_some_iff haround).1 hget)

/-- A place that holds something is led to by folders. -/
theorem folder_of_prefix {front : Place} (hget : files.get? place = some entry)
    (hfront : front <+: place) (hne : front ≠ place) : files.get? front = some .folder := by
  induction place using List.reverseRecOn generalizing entry with
  | nil => exact absurd (List.prefix_nil.1 hfront) hne
  | append_singleton place last ih =>
    rcases List.prefix_concat_iff.1 hfront with rfl | hfront
    · exact absurd rfl hne
    · cases haround : Place.isAround (place ++ [last]) with
      | true =>
        exact get?_of_isAround (Place.isAround_of_prefix haround
          (hfront.trans (List.prefix_append _ _)))
      | false =>
        obtain ⟨folder, name, heq, -, hfolder⟩ := h.parent hget haround
        obtain ⟨rfl, -⟩ := List.append_inj' heq rfl
        by_cases hself : front = place
        · rwa [hself]
        · exact ih hfolder hfront hself

theorem isFileName_of_mem (hget : files.get? place = some entry) (hname : name ∈ place) :
    Place.leavesFolder name = true ∨ IsFileName name := by
  induction place using List.reverseRecOn generalizing entry with
  | nil => cases hname
  | append_singleton place last ih =>
    cases haround : Place.isAround (place ++ [last]) with
    | true => exact Or.inl (List.all_eq_true.1 haround name hname)
    | false =>
      obtain ⟨folder, file, heq, hfile, hfolder⟩ := h.parent hget haround
      obtain ⟨rfl, hlast⟩ := List.append_inj' heq rfl
      obtain rfl : last = file := by simpa using hlast
      rcases List.mem_append.1 hname with hname | hname
      · exact ih hfolder hname
      · rw [List.mem_singleton.1 hname]
        exact Or.inr hfile

/-- What lies below a place that is not around lies there under file names. -/
theorem isFileName_of_append {front rest : Place} (hget : files.get? (front ++ rest) = some entry)
    (haround : front.isAround = false) : ∀ name ∈ rest, IsFileName name := by
  induction rest using List.reverseRecOn generalizing entry with
  | nil => nofun
  | append_singleton rest last ih =>
    rw [← List.append_assoc] at hget
    have hwhole : Place.isAround (front ++ rest ++ [last]) = false := by
      rw [← Bool.not_eq_true]
      intro hwhole
      rw [List.append_assoc] at hwhole
      rw [Place.isAround_of_prefix hwhole (List.prefix_append _ _)] at haround
      cases haround
    obtain ⟨folder, name, heq, hname, hfolder⟩ := h.parent hget hwhole
    obtain ⟨rfl, hlast⟩ := List.append_inj' heq rfl
    obtain rfl : last = name := by simpa using hlast
    intro other hother
    rcases List.mem_append.1 hother with hother | hother
    · exact ih hfolder other hother
    · rwa [List.mem_singleton.1 hother]

theorem removeBelow_get?_append (haround : place.isAround = false) (rest : Place) :
    (files.removeBelow place).get? (place ++ rest) = none := by
  have hwhole : Place.isAround (place ++ rest) = false := by
    rw [← Bool.not_eq_true]
    intro hwhole
    rw [Place.isAround_of_prefix hwhole (List.prefix_append _ _)] at haround
    cases haround
  rw [get?_removeBelow, hwhole, if_neg Bool.false_ne_true]
  split
  · rfl
  · next houtside =>
    rw [Option.eq_none_iff_forall_ne_some]
    intro entry hget
    exact houtside (Place.isWithin_append _
      (Place.isInside_of_isFileName (h.isFileName_of_append hget haround)))

theorem listed_iff {e : Place × Entry} (he : e ∈ files.entries) :
    (if e.1.above == folder then e.1.getLast? else none) = some name ↔
      IsFileName name ∧ e.1 = folder ++ [name] := by
  obtain ⟨above, last, hplace, hlast, -⟩ := h.placed e he
  rw [hplace, Place.above_append_name hlast, List.getLast?_concat]
  constructor
  · intro hname
    split at hname
    · next habove =>
      obtain rfl := Option.some.inj hname
      exact ⟨hlast, by rw [beq_iff_eq.1 habove]⟩
    · cases hname
  · rintro ⟨-, heq⟩
    obtain ⟨rfl, hlast⟩ := List.append_inj' heq rfl
    rw [if_pos (beq_self_eq_true _), List.cons.inj hlast |>.1]

/-- A folder lists the names under which something lies in it. -/
theorem mem_namesIn_iff : name ∈ files.namesIn folder ↔
    IsFileName name ∧ ∃ entry, files.get? (folder ++ [name]) = some entry := by
  rw [namesIn, List.mem_filterMap]
  constructor
  · rintro ⟨e, he, hname⟩
    obtain ⟨hlast, hplace⟩ := (h.listed_iff he).1 hname
    refine ⟨hlast, e.2, (h.get?_eq_some_iff (Place.isAround_append_name _ hlast)).2 ?_⟩
    rwa [← hplace]
  · rintro ⟨hname, entry, hget⟩
    have hmem := (h.get?_eq_some_iff (Place.isAround_append_name _ hname)).1 hget
    exact ⟨_, hmem, (h.listed_iff hmem).2 ⟨hname, rfl⟩⟩

theorem nodup_namesIn (folder : Place) : (files.namesIn folder).Nodup := by
  have hplaces : files.entries.Pairwise fun e e' =>
      e ∈ files.entries ∧ e' ∈ files.entries ∧ e.1 ≠ e'.1 :=
    (List.pairwise_map.1 h.distinct).imp_of_mem fun he he' hne => ⟨he, he', hne⟩
  refine List.Pairwise.filterMap _ ?_ hplaces
  rintro e e' ⟨he, he', hne⟩ name hname other hother rfl
  exact hne (((h.listed_iff he).1 hname).2.trans ((h.listed_iff he').1 hother).2.symm)

/-- Something may be put under a file name in a folder, unless it takes the place of a folder. -/
theorem put (hname : IsFileName name) (hfolder : files.get? folder = some .folder)
    (hfree : files.get? (folder ++ [name]) ≠ some .folder) (entry : Entry) :
    (files.put (folder ++ [name]) entry).WellFormed := by
  have haround := Place.isAround_append_name folder hname
  have hkept : ∀ place, files.get? place = some .folder →
      (files.put (folder ++ [name]) entry).get? place = some .folder := by
    intro place hplace
    have hne : place ≠ folder ++ [name] := fun heq => hfree (heq ▸ hplace)
    rw [get?_put haround, if_neg hne, hplace]
  have hdistinct : ((files.put (folder ++ [name]) entry).entries.map Prod.fst).Nodup :=
    Table.nodup_keys_put h.distinct
  refine ⟨hdistinct, fun e he => ?_⟩
  by_cases hnew : e.1 = folder ++ [name]
  · exact ⟨folder, name, hnew, hname, hkept folder hfolder⟩
  · have hget := (Table.get?_eq_some_iff hdistinct).2 he
    rw [FileSystem.put, Table.get?_put_of_ne hnew, Table.get?_eq_some_iff h.distinct] at hget
    obtain ⟨above, last, hplace, hlast, habove⟩ := h.placed e hget
    exact ⟨above, last, hplace, hlast, hkept above habove⟩

theorem removeBelow (place : Place) : (files.removeBelow place).WellFormed := by
  refine ⟨h.distinct.sublist ((List.filter_sublist).map _), fun e he => ?_⟩
  obtain ⟨hmem, hkept⟩ := List.mem_filter.1 he
  obtain ⟨folder, name, hplace, hname, hfolder⟩ := h.placed e hmem
  refine ⟨folder, name, hplace, hname, ?_⟩
  rw [get?_removeBelow, hfolder]
  split
  · rfl
  · next haround =>
    refine if_neg fun hwithin => ?_
    obtain ⟨rest, rfl, hrest⟩ := Place.isWithin_iff.1 hwithin
    have hbelow : e.1.isWithin place = true :=
      Place.isWithin_iff.2 ⟨rest ++ [name], by rw [hplace, List.append_assoc], by
        simpa [Place.isInside, Place.leavesFolder, hname.staying, hname.ne_root] using hrest⟩
    simp [hbelow] at hkept

end WellFormed

section Opening

variable {path : Path}

theorem placeOf_eq (files : FileSystem) (path : Path) : files.placeOf path =
    if path.text.toList.contains '\x00' then .error .unusablePath
    else if path.text.isEmpty then .error .notFound
    else if path.text.utf8ByteSize > longestPath then .error .nameTooLong
    else files.walk path.start path.steps := rfl

/-- Where a path leads is a matter of its steps, if it can be opened. -/
theorem placeOf_of_openable (h : path.Openable) :
    files.placeOf path = files.walk path.start path.steps := by
  rw [placeOf_eq, if_neg (by simpa using h.printable), if_neg (by simp [h.nonempty]),
    if_neg (Nat.not_lt.2 h.short)]

/-- A path that cannot be opened is refused whatever the files are. -/
theorem exists_placeOf_eq_error (h : ¬ path.Openable) :
    ∃ error, (∀ files : FileSystem, files.placeOf path = .error error) ∧
      (path.text.isEmpty = false → error ≠ .notFound) := by
  by_cases hprintable : path.text.toList.contains '\x00' = true
  · exact ⟨.unusablePath, fun files => by rw [placeOf_eq, if_pos hprintable], fun _ => nofun⟩
  · by_cases hempty : path.text.isEmpty = true
    · exact ⟨.notFound, fun files => by rw [placeOf_eq, if_neg hprintable, if_pos hempty],
        fun hnonempty => by simp [hempty] at hnonempty⟩
    · by_cases hlong : path.text.utf8ByteSize > longestPath
      · refine ⟨.nameTooLong, fun files => ?_, fun _ => nofun⟩
        rw [placeOf_eq, if_neg hprintable, if_neg hempty, if_pos hlong]
      · exact absurd ⟨by simpa using hempty, by simpa using hprintable, Nat.not_lt.1 hlong⟩ h

theorem placeOf_eq_ok_iff : files.placeOf path = .ok place ↔
    path.Openable ∧ files.walk path.start path.steps = .ok place := by
  refine ⟨fun hplace => ?_, fun ⟨hopen, hwalk⟩ => (placeOf_of_openable hopen).trans hwalk⟩
  suffices hopen : path.Openable from ⟨hopen, (placeOf_of_openable hopen).symm.trans hplace⟩
  unfold placeOf at hplace
  dsimp only at hplace
  split at hplace
  · cases hplace
  · next hprintable =>
    split at hplace
    · cases hplace
    · next hnonempty =>
      split at hplace
      · cases hplace
      · next hshort =>
        exact ⟨by simpa using hnonempty, by simpa using hprintable, by simpa using hshort⟩

theorem openable_of_kind? {kind : EntryKind} (h : files.kind? path = some kind) :
    path.Openable := by
  rw [kind?] at h
  split at h
  · next place entry hlookup =>
    obtain ⟨place, hplace, -⟩ := bind_eq_ok_iff.1 hlookup
    exact (placeOf_eq_ok_iff.1 hplace).1
  · cases h

theorem isFileName_of_mem_steps {segment : String} (hsegment : segment ∈ path.steps)
    (hopen : path.Openable) (hbusy : Path.idle segment.toList = false) (hup : segment ≠ "..")
    (hshort : segment.utf8ByteSize ≤ longestName) : IsFileName segment := by
  rw [Path.steps_eq, List.mem_map] at hsegment
  obtain ⟨chars, hchars, rfl⟩ := hsegment
  have hsplit : chars ∈ Path.splitSlash path.text.toList := by
    have hkept := (List.dropWhile_suffix _).subset (List.mem_reverse.1 hchars)
    exact List.mem_reverse.1 hkept
  refine ⟨⟨hbusy, hup, ?_, ?_⟩, hshort⟩
  · rw [String.toList_ofList]
    exact Path.not_mem_of_mem_splitSlash hsplit
  · rw [String.toList_ofList]
    exact fun hnul => hopen.printable (Path.mem_of_mem_splitSlash hsplit hnul)

theorem WellFormed.isEnd_of_get? {entry : Entry} (h : files.WellFormed)
    (hget : files.get? place = some entry) : place.IsEnd := by
  cases haround : Place.isAround place with
  | true => exact Or.inl haround
  | false =>
    obtain ⟨folder, name, heq, hname, -⟩ := h.parent hget haround
    exact Or.inr ⟨folder, name, heq, hname⟩

theorem WellFormed.isEnd_step {segment : String} (h : files.WellFormed) (hopen : path.Openable)
    (hfolder : files.get? place = some .folder) (hsegment : segment ∈ path.steps)
    (hshort : segment.utf8ByteSize ≤ longestName) : (place.step segment).IsEnd := by
  have hplace := h.isEnd_of_get? hfolder
  rw [Place.step]
  split
  · exact hplace
  · next hidle =>
    split
    · rcases hplace with haround | ⟨folder, name, rfl, hname⟩
      · exact Or.inl (Place.prefix_above haround).2
      · rw [Place.above_append_name hname]
        exact h.isEnd_of_get? (h.folder_of_prefix hfolder (List.prefix_append _ _) (by simp))
    · next hup =>
      refine Or.inr ⟨place, segment, rfl, isFileName_of_mem_steps hsegment hopen ?_ hup hshort⟩
      rwa [← Path.idle_toList_iff, Bool.not_eq_true] at hidle

theorem WellFormed.isEnd_walk {start : Place} {segments : List String} (h : files.WellFormed)
    (hopen : path.Openable) (hsub : segments ⊆ path.steps) (hstart : start.IsEnd)
    (hwalk : files.walk start segments = .ok place) : place.IsEnd := by
  induction segments generalizing start with
  | nil =>
    obtain rfl := Except.ok.inj hwalk
    exact hstart
  | cons segment segments ih =>
    obtain ⟨hsegment, hrest⟩ := List.cons_subset.1 hsub
    rw [walk_cons] at hwalk
    split at hwalk
    · cases hwalk
    · cases hwalk
    · next hfolder =>
      split at hwalk
      · cases hwalk
      · next hshort =>
        exact ih hrest (h.isEnd_step hopen hfolder hsegment (Nat.not_lt.1 hshort)) hwalk

/-- A walk ends around the folder that one stands in or at a file name. -/
theorem WellFormed.placeOf_cases (h : files.WellFormed) (hplace : files.placeOf path = .ok place) :
    place.isAround = true ∨ ∃ folder name, place = folder ++ [name] ∧ IsFileName name := by
  obtain ⟨hopen, hwalk⟩ := placeOf_eq_ok_iff.1 hplace
  exact h.isEnd_walk hopen (List.Subset.refl _) (Or.inl path.isAround_start) hwalk

theorem WellFormed.makeFolder {changed : FileSystem} (h : files.WellFormed)
    (hmake : files.makeFolder path = .ok changed) :
    changed.WellFormed ∧ files.get? path.place = none ∧
      changed = files.put path.place .folder ∧ path.place.isAround = false := by
  unfold FileSystem.makeFolder at hmake
  obtain ⟨place, hplace, hmake⟩ := bind_eq_ok_iff.1 hmake
  obtain rfl := placeOf_eq_ok hplace
  cases hget : files.get? path.place with
  | some entry =>
    rw [hget, Option.isSome_some, if_pos rfl] at hmake
    cases hmake
  | none =>
    have haround := not_isAround_of_none hget
    rw [hget, Option.isSome_none, if_neg Bool.false_ne_true] at hmake
    split at hmake
    · next habove =>
      obtain ⟨folder, name, heq, hname⟩ := (h.placeOf_cases hplace).resolve_left (by simp [haround])
      rw [heq, Place.above_append_name hname, hasFolder_iff] at habove
      have hput : changed = files.put path.place .folder := (Except.ok.inj hmake).symm
      refine ⟨?_, rfl, hput, haround⟩
      rw [hput, heq]
      rw [heq] at hget
      exact h.put hname habove (by simp [hget]) .folder
    · cases hmake

/-- A walk can still be taken where every folder has stayed. -/
theorem walk_of_kept {changed : FileSystem} {start : Place} {segments : List String}
    (hkept : ∀ p, files.get? p = some .folder → changed.get? p = some .folder)
    (h : files.walk start segments = .ok place) : changed.walk start segments = .ok place := by
  induction segments generalizing start with
  | nil => exact h
  | cons segment segments ih =>
    rw [walk_cons] at h ⊢
    split at h
    · cases h
    · cases h
    · next hfolder =>
      rw [hkept start hfolder]
      dsimp only
      split at h
      · cases h
      · next hshort =>
        rw [if_neg hshort]
        exact ih h

/-- Bytes that are put where no folder lies are read back. -/
theorem readBytes_put {bytes : ByteArray} (hplace : files.placeOf path = .ok path.place)
    (hfree : files.get? path.place ≠ some .folder) (hslash : ¬ endsInSlash path = true) :
    (files.put path.place (.file bytes)).readBytes path = .ok bytes := by
  have hget : ∀ p, (files.put path.place (.file bytes)).get? p =
      if p = path.place then some (.file bytes) else files.get? p :=
    get?_put (not_isAround hfree)
  have hkept : ∀ p, files.get? p = some .folder →
      (files.put path.place (.file bytes)).get? p = some .folder := by
    intro p hp
    have hne : p ≠ path.place := fun heq => hfree (heq ▸ hp)
    rw [hget, if_neg hne, hp]
  obtain ⟨hopen, hwalk⟩ := placeOf_eq_ok_iff.1 hplace
  have hthere : (files.put path.place (.file bytes)).placeOf path = .ok path.place :=
    placeOf_eq_ok_iff.2 ⟨hopen, walk_of_kept hkept hwalk⟩
  have hlookup : (files.put path.place (.file bytes)).lookup path =
      .ok (path.place, .file bytes) := by
    rw [lookup, hthere, ok_bind, hget, if_pos rfl]
    dsimp only
    rw [if_neg hslash]
    rfl
  rw [readBytes, hlookup]
  rfl

/-- A file that has been written is read back. -/
theorem WellFormed.of_writeBytes {changed : FileSystem} {bytes : ByteArray} (h : files.WellFormed)
    (hwrite : files.writeBytes path bytes = .ok changed) :
    changed.WellFormed ∧ changed = files.put path.place (.file bytes) ∧
      path.place.isAround = false ∧ changed.readBytes path = .ok bytes := by
  unfold FileSystem.writeBytes at hwrite
  obtain ⟨place, hplace, hwrite⟩ := bind_eq_ok_iff.1 hwrite
  obtain rfl := placeOf_eq_ok hplace
  split at hwrite
  · cases hwrite
  · next hrefused =>
    rw [Bool.or_eq_true, not_or, hasFolder_iff] at hrefused
    obtain ⟨hfree, hslash⟩ := hrefused
    have haround := not_isAround hfree
    split at hwrite
    · next habove =>
      obtain ⟨folder, name, heq, hname⟩ := (h.placeOf_cases hplace).resolve_left (by simp [haround])
      have hput : changed = files.put path.place (.file bytes) := (Except.ok.inj hwrite).symm
      have hwell : (files.put path.place (.file bytes)).WellFormed := by
        rw [heq, Place.above_append_name hname, hasFolder_iff] at habove
        rw [heq] at hfree ⊢
        exact h.put hname habove hfree _
      rw [hput]
      exact ⟨hwell, rfl, haround, readBytes_put hplace hfree hslash⟩
    · cases hwrite

end Opening

end FileSystem

end HighlightGrammar
