import HighlightGrammar.Baseline.Suite
import HighlightGrammar.Proofs.Storage.Folders
import HighlightGrammar.Proofs.Storage.Lookups

/-!
# Making the folder of generated reports ready

Whatever lay in the folder of generated reports is gone once it has been made ready: it holds an
empty folder for each kind. Elsewhere at most folders around it have been added. -/
namespace HighlightGrammar

open FileSystem
open HighlightGrammar.Path (IsFileName)

theorem Kind.isFileName_folder (kind : Kind) : IsFileName kind.folder := by
  cases kind <;> exact ⟨⟨by decide, by decide, by decide, by decide⟩, by decide⟩

theorem Kind.folder_injective {kind kind' : Kind} (h : kind.folder = kind'.folder) :
    kind = kind' := by
  cases kind <;> cases kind' <;> first | rfl | exact absurd h (by decide)

theorem Kind.index_injective {kind kind' : Kind} (h : kind.index = kind'.index) : kind = kind' := by
  cases kind <;> cases kind' <;> first | rfl | exact absurd h (by decide)

namespace BaselineLayout

/-- The three folders lie apart, and the one of generated reports is none of those that are always
there. -/
structure Separate (layout : BaselineLayout) : Prop where
  cases_direct : layout.cases.Direct
  baselines_direct : layout.baselines.Direct
  generated_direct : layout.generated.Direct
  generated_inside : layout.generated.place.isAround = false
  cases_apart : layout.cases.place.Apart layout.generated.place
  baselines_apart : layout.baselines.place.Apart layout.generated.place
  cases_baselines : layout.cases.place.Apart layout.baselines.place

/-- Alone with the files, the folder of generated reports can be made ready. -/
def Recreatable (layout : BaselineLayout) (files : FileSystem) : Prop :=
  files.answer layout.prepareGenerated = .ok ()

/-- The folder of generated reports has been made ready, and nothing else has changed but that
folders around it may have been added. -/
structure Prepared (layout : BaselineLayout) (files prepared : FileSystem) : Prop where
  wellFormed : prepared.WellFormed
  openable : ∀ kind : Kind, (layout.generated.join ⟨kind.folder⟩).Openable
  folder : ∀ kind : Kind, prepared.get? (layout.generated.place ++ [kind.folder]) = some .folder
  empty : ∀ rest ≠ [], (∀ kind : Kind, rest ≠ [kind.folder]) →
    prepared.get? (layout.generated.place ++ rest) = none
  elsewhere : ChangesOnly layout.generated files prepared

variable {layout : BaselineLayout} {files wiped prepared : FileSystem}

theorem Separate.generated_nonempty (hsep : layout.Separate) :
    layout.generated.text.isEmpty = false :=
  Path.nonempty_of_isAround hsep.generated_inside

theorem Separate.generated_ne_nil (hsep : layout.Separate) :
    layout.generated.place.isEmpty = false := by
  rw [← Bool.not_eq_true, List.isEmpty_iff]
  intro hnil
  have hinside := hsep.generated_inside
  rw [hnil] at hinside
  cases hinside

theorem addsFolders_makeKinds {way : List Place} {kinds : List Kind} (h : files.WellFormed)
    (hway : ∀ kind ∈ kinds, (layout.generated.join ⟨kind.folder⟩).way ⊆ way)
    (hrun : (kinds.forM fun kind => BaselineError.at (layout.generated.join ⟨kind.folder⟩)
      (Storage.createFolders (layout.generated.join ⟨kind.folder⟩)) :
        ExceptT BaselineError (StateM FileSystem) Unit).run.run files = (.ok (), prepared)) :
    AddsFolders way files prepared ∧ ∀ kind ∈ kinds,
      (layout.generated.join ⟨kind.folder⟩).Openable ∧
        prepared.get? (layout.generated.place ++ [kind.folder]) = some .folder := by
  induction kinds generalizing files with
  | nil =>
    cases hrun
    exact ⟨.refl h, nofun⟩
  | cons kind kinds ih =>
    rw [List.forall_mem_cons] at hway
    rw [List.forM_eq_forM, List.forM_cons] at hrun
    obtain ⟨_, between, hfirst, hrest⟩ := run_bind_eq_ok_iff.1 hrun
    obtain ⟨hadds, hfolder⟩ := addsFolders_createFolders h (run_adapt_eq_ok_iff.1 hfirst)
    obtain ⟨hopen, hfolder⟩ := hfolder rfl
    rw [Path.place_join kind.isFileName_folder] at hfolder
    have hbetween := hadds.mono hway.1
    obtain ⟨hothers, hfolders⟩ := ih hbetween.wellFormed hway.2 hrest
    refine ⟨hbetween.trans hothers, List.forall_mem_cons.2 ⟨⟨hopen ?_, hothers.get?_eq hfolder⟩,
      hfolders⟩⟩
    exact kind.isFileName_folder.nonempty_join

/-- With no folder of generated reports left, making its folders gives no more than these. -/
theorem Prepared.of_makeKinds (hsep : layout.Separate)
    (hempty : ∀ rest, wiped.get? (layout.generated.place ++ rest) = none)
    (helsewhere : ∀ place, place.isWithin layout.generated.place = false →
      wiped.get? place = files.get? place)
    (hadds : AddsFolders (Kind.all.flatMap fun kind =>
      (layout.generated.join ⟨kind.folder⟩).way) wiped prepared)
    (hfolders : ∀ kind ∈ Kind.all, (layout.generated.join ⟨kind.folder⟩).Openable ∧
      prepared.get? (layout.generated.place ++ [kind.folder]) = some .folder) :
    layout.Prepared files prepared := by
  have hway : ∀ place ∈ Kind.all.flatMap fun kind => (layout.generated.join ⟨kind.folder⟩).way,
      place <+: layout.generated.place ∨
        ∃ kind : Kind, place = layout.generated.place ++ [kind.folder] := by
    intro place hplace
    obtain ⟨kind, -, hplace⟩ := List.mem_flatMap.1 hplace
    rcases (Path.mem_way_join_iff kind.isFileName_folder).1 hplace with hplace | rfl
    · exact Or.inl (hsep.generated_direct.prefix_of_mem_way hplace)
    · exact Or.inr ⟨kind, rfl⟩
  refine ⟨hadds.wellFormed, fun kind => (hfolders kind kind.mem_all).1,
    fun kind => (hfolders kind kind.mem_all).2, fun rest hne hkinds => ?_, fun place houtside => ?_⟩
  · rcases hadds.changes (layout.generated.place ++ rest) with hsame | ⟨hplace, -, -⟩
    · rw [hsame, hempty]
    · rcases hway _ hplace with hbegins | ⟨kind, heq⟩
      · have hlength := hbegins.length_le
        rw [List.length_append] at hlength
        exact absurd (List.length_eq_zero_iff.1 (by omega)) hne
      · exact absurd (List.append_cancel_left heq) (hkinds kind)
  · rcases hadds.changes place with hsame | ⟨hplace, hnone, hfolder⟩
    · exact Or.inl (hsame.trans (helsewhere place houtside))
    · rcases hway _ hplace with hbegins | ⟨kind, rfl⟩
      · rw [helsewhere place houtside] at hnone
        exact Or.inr ⟨hbegins, hnone, hfolder⟩
      · rw [Place.isWithin_append _ (Place.isInside_of_isFileName (by
          simpa using kind.isFileName_folder))] at houtside
        cases houtside

/-- If the folders could be made although the path to the folder around them led to nothing, then
nothing lay there. -/
theorem nothing_of_kind?_eq_none (h : files.WellFormed) (hsep : layout.Separate) {kind : Kind}
    (hkind : files.kind? layout.generated = none) {way : List Place}
    (hadds : AddsFolders way files prepared)
    (hfolder : (layout.generated.join ⟨kind.folder⟩).Openable ∧
      prepared.get? (layout.generated.place ++ [kind.folder]) = some .folder) (rest : Place) :
    files.get? (layout.generated.place ++ rest) = none := by
  have hnone : files.get? layout.generated.place = none := by
    rw [Option.eq_none_iff_forall_ne_some]
    intro entry hget
    have hkept := hadds.get?_eq hget
    rw [hadds.wellFormed.folder_of_prefix hfolder.2 (List.prefix_append _ _) (by simp)] at hkept
    obtain rfl := Option.some.inj hkept
    have hopen := kind.isFileName_folder.openable_of_join hfolder.1 hsep.generated_nonempty
    rw [kind?, h.lookup_folder hsep.generated_direct hopen hget] at hkind
    cases hkind
  rw [Option.eq_none_iff_forall_ne_some]
  intro entry hget
  by_cases hrest : rest = []
  · rw [hrest, List.append_nil, hnone] at hget
    cases hget
  · rw [h.folder_of_prefix hget (List.prefix_append _ _) (by simpa using hrest)] at hnone
    cases hnone

theorem prepared_of_run (h : files.WellFormed) (hsep : layout.Separate)
    (hrun : (layout.prepareGenerated : ExceptT BaselineError (StateM FileSystem) Unit).run.run
      files = (.ok (), prepared)) : layout.Prepared files prepared := by
  have hways : ∀ kind ∈ Kind.all, (layout.generated.join ⟨kind.folder⟩).way ⊆
      Kind.all.flatMap fun kind => (layout.generated.join ⟨kind.folder⟩).way :=
    fun kind hkind place hplace => List.mem_flatMap.2 ⟨kind, hkind, hplace⟩
  have hthere : (Storage.isThere layout.generated : StateM FileSystem Bool).run files =
      ((files.kind? layout.generated).isSome, files) := rfl
  rw [prepareGenerated, run_bind, run_lift, hthere] at hrun
  dsimp only at hrun
  cases hkind : files.kind? layout.generated with
  | none =>
    rw [hkind, Option.isSome_none, if_neg Bool.false_ne_true] at hrun
    obtain ⟨hadds, hfolders⟩ := addsFolders_makeKinds h hways hrun
    exact .of_makeKinds hsep
      (nothing_of_kind?_eq_none h hsep hkind hadds (hfolders .source (Kind.mem_all _)))
      (fun _ _ => rfl) hadds hfolders
  | some kind =>
    rw [hkind, Option.isSome_some, if_pos rfl] at hrun
    obtain ⟨_, wiped, hremove, hmake⟩ := run_bind_eq_ok_iff.1 hrun
    have hwipe := (run_removeTree layout.generated files).symm.trans (run_adapt_eq_ok_iff.1 hremove)
    cases hlookup : files.lookup layout.generated with
    | error error =>
      rw [hlookup] at hwipe
      cases hwipe
    | ok found =>
      obtain ⟨place, entry⟩ := found
      obtain ⟨rfl, -⟩ := lookup_eq_ok hlookup
      rw [hlookup] at hwipe
      cases entry with
      | file bytes => cases hwipe
      | folder =>
        obtain rfl : files.removeBelow layout.generated.place = wiped := congrArg Prod.snd hwipe
        have hwell := h.removeBelow layout.generated.place
        obtain ⟨hadds, hfolders⟩ := addsFolders_makeKinds hwell hways hmake
        exact .of_makeKinds hsep (h.removeBelow_get?_append hsep.generated_inside)
          removeBelow_get?_of_not_isWithin hadds hfolders

namespace Prepared

variable (h : layout.Prepared files prepared)

include h

theorem get?_generated : prepared.get? layout.generated.place = some .folder :=
  h.wellFormed.folder_of_prefix (h.folder .source) (List.prefix_append _ _) (by simp)

end Prepared

section Again

variable (h : files.WellFormed) (hsep : layout.Separate)
  (hopen : ∀ kind : Kind, (layout.generated.join ⟨kind.folder⟩).Openable)
  (hget : files.get? layout.generated.place = some .folder)

include h hsep hget

/-- A folder that is there is a name joined to a path, and the first of those around what is in it. -/
theorem exists_parent_generated (kind : Kind) : ∃ (outer : Path) (last : String) (around : List Path),
    (layout.generated.join ⟨kind.folder⟩).ancestors =
      layout.generated.join ⟨kind.folder⟩ :: outer.join ⟨last⟩ :: around ∧
    (outer.join ⟨last⟩).text.toList <+: (layout.generated.join ⟨kind.folder⟩).text.toList ∧
    outer.Direct ∧ IsFileName last ∧ layout.generated.place = outer.place ++ [last] := by
  have hname := kind.isFileName_folder
  have hjoin : (layout.generated.join ⟨kind.folder⟩).moves = layout.generated.moves ++ [kind.folder] :=
    Path.moves_join hname.busy hname.plain
  have hsome : (layout.generated.join ⟨kind.folder⟩).moves ≠ [] := by simp [hjoin]
  obtain ⟨parent, around, hparent, hancestors⟩ := Path.exists_ancestors_eq hsome
  have hmoves : parent.moves = layout.generated.moves := by
    rw [Path.moves_of_parent? hparent, hjoin, List.dropLast_concat]
  have hstart : parent.start = layout.generated.start := by
    rw [Path.start, Path.isAbsolute_of_parent? hparent, Path.isAbsolute_join hname.plain, Path.start]
  have hne : parent.moves ≠ [] := by
    intro hnil
    have hinside := hsep.generated_inside
    rw [Path.place_eq, ← hmoves, hnil, List.foldl_nil, Path.isAround_start] at hinside
    cases hinside
  obtain ⟨outer, last, rfl, hbusy, hplain⟩ := Path.exists_join_of_parent? hparent hne
  rw [Path.moves_join hbusy hplain] at hmoves
  rw [Path.start_join hplain] at hstart
  have hup := hsep.generated_direct.last_ne_up hmoves.symm hsep.generated_inside
  have hplace : layout.generated.place = outer.place ++ [last] := by
    rw [Path.place_eq, ← hmoves, ← hstart, List.foldl_append, List.foldl_cons, List.foldl_nil,
      Place.step_of_busy _ hbusy hup, Path.place_eq]
  obtain ⟨folder, name, heq, hlast, -⟩ := h.parent hget hsep.generated_inside
  rw [hplace] at heq
  obtain ⟨-, hlast'⟩ := List.append_inj' heq rfl
  obtain rfl : last = name := by simpa using hlast'
  exact ⟨outer, last, around, hancestors, Path.prefix_of_parent? hparent,
    hsep.generated_direct.of_moves_append hmoves.symm, hlast, hplace⟩

/-- Of the way to a folder that has been wiped only its end is missing. -/
theorem get?_wiped {place : Place} (hbegins : place <+: layout.generated.place) :
    (files.removeBelow layout.generated.place).get? place =
      if place = layout.generated.place then none else some .folder := by
  split
  · next heq =>
    have hmissing := h.removeBelow_get?_append hsep.generated_inside []
    rw [List.append_nil] at hmissing
    rwa [heq]
  · next hne =>
    rw [removeBelow_get?_of_not_isWithin _ ?_, h.folder_of_prefix hget hbegins hne]
    rw [← Bool.not_eq_true]
    intro hwithin
    obtain ⟨rest, heq, -⟩ := Place.isWithin_iff.1 hwithin
    exact hne (hbegins.eq_of_length_le (by simp [heq]))

include hopen

/-- Without the folder of generated reports no folder is made in it. -/
theorem makeFolder_of_wiped (kind : Kind) : (files.removeBelow layout.generated.place).makeFolder
    (layout.generated.join ⟨kind.folder⟩) = .error .notFound := by
  have hgone := get?_wiped h hsep hget List.prefix_rfl
  rw [if_pos rfl] at hgone
  have hclear : (files.removeBelow layout.generated.place).Clear layout.generated := by
    intro place hmem
    rw [get?_wiped h hsep hget (hsep.generated_direct.prefix_of_mem_way hmem)]
    split
    · exact Or.inr rfl
    · exact Or.inl rfl
  exact (makeFolder_of_missing (hopen kind) kind.isFileName_folder.toIsName hclear
    hgone).resolve_right fun hlong => hlong.2 (h.hasShortNames hsep.generated_direct hget)

/-- Once it has been there the folder of generated reports is made again along with the first folder
in it. -/
theorem exists_run_createFolders_source : ∃ made : FileSystem,
    (Storage.createFolders (layout.generated.join ⟨Kind.source.folder⟩) :
      ExceptT StorageError (StateM FileSystem) Unit).run.run
        (files.removeBelow layout.generated.place) = (.ok (), made) ∧
    made.WellFormed ∧ made.get? layout.generated.place = some .folder ∧
    made.get? (layout.generated.place ++ [Kind.form.folder]) = none := by
  obtain ⟨outer, last, around, hancestors, hbegins, hdirect, hlast, hplace⟩ :=
    exists_parent_generated h hsep hget .source
  have hempty := h.removeBelow_get?_append hsep.generated_inside
  have hgone := get?_wiped h hsep hget List.prefix_rfl
  have houter := get?_wiped h hsep hget (hplace ▸ List.prefix_append outer.place [last])
  rw [if_pos rfl] at hgone
  rw [if_neg (by simp [hplace])] at houter
  -- First the folder of generated reports is made, then the one in it.
  obtain ⟨between, hparent, hwell, hbetween⟩ := (h.removeBelow layout.generated.place)
    |>.exists_makeFolder_join hdirect houter
      ((hopen .source).of_beginning hbegins hlast.nonempty_join) hlast (hplace ▸ hgone)
  simp only [← hplace] at hbetween
  have hfolder : between.get? layout.generated.place = some .folder := by
    rw [hbetween, if_pos rfl]
  have hfree : ∀ kind : Kind, between.get? (layout.generated.place ++ [kind.folder]) = none := by
    intro kind
    rw [hbetween, if_neg (by simp), hempty]
  obtain ⟨made, hsource, hmade, hget'⟩ := hwell.exists_makeFolder_join hsep.generated_direct
    hfolder (hopen .source) Kind.source.isFileName_folder (hfree .source)
  have hvanished : (files.removeBelow layout.generated.place).get?
      (layout.generated.join ⟨Kind.source.folder⟩).place = none := by
    rw [Path.place_join Kind.source.isFileName_folder, hempty]
  refine ⟨made, run_createFolders_of_missing hancestors
    Kind.source.isFileName_folder.nonempty_join (makeFolder_of_wiped h hsep hopen hget .source)
    (kind?_of_get?_eq_none hvanished) hlast.nonempty_join hparent hsource, hmade, ?_, ?_⟩
  · rw [hget', if_neg (by simp), hfolder]
  · rw [hget', if_neg (by simp [Kind.folder]), hfree]

theorem exists_run_makeKinds : ∃ prepared, (Kind.all.forM fun kind =>
    BaselineError.at (layout.generated.join ⟨kind.folder⟩)
      (Storage.createFolders (layout.generated.join ⟨kind.folder⟩)) :
        ExceptT BaselineError (StateM FileSystem) Unit).run.run
      (files.removeBelow layout.generated.place) = (.ok (), prepared) := by
  obtain ⟨made, hsource, hmade, hfolder, hfree⟩ :=
    exists_run_createFolders_source h hsep hopen hget
  have hform := hmade.makeFolder_join hsep.generated_direct hfolder (hopen .form)
    Kind.form.isFileName_folder hfree
  refine ⟨made.put (layout.generated.place ++ [Kind.form.folder]) .folder, ?_⟩
  rw [Kind.all, List.forM_eq_forM, List.forM_cons]
  refine run_bind_eq_ok_iff.2 ⟨(), made, run_adapt_eq_ok_iff.2 hsource, ?_⟩
  rw [List.forM_cons]
  refine run_bind_eq_ok_iff.2 ⟨(), _, run_adapt_eq_ok_iff.2 ?_, rfl⟩
  exact run_createFolders Kind.form.isFileName_folder.nonempty_join hform

/-- Once it has been there the folder of generated reports can be made ready. -/
theorem recreatable_of_folder : layout.Recreatable files := by
  have hlookup := h.lookup_folder hsep.generated_direct
    (Kind.source.isFileName_folder.openable_of_join (hopen .source) hsep.generated_nonempty) hget
  have hthere : (Storage.isThere layout.generated : StateM FileSystem Bool).run files =
      (true, files) := by
    have hkind : files.kind? layout.generated = some .folder := by
      rw [kind?, hlookup]
      rfl
    exact Prod.ext (congrArg Option.isSome hkind) rfl
  have hremove : (Storage.removeTree layout.generated :
      ExceptT StorageError (StateM FileSystem) Unit).run.run files =
        (.ok (), files.removeBelow layout.generated.place) := by
    refine (run_removeTree layout.generated files).trans ?_
    rw [hlookup]
    dsimp only
    rw [hsep.generated_ne_nil, if_neg Bool.false_ne_true]
  obtain ⟨prepared, hprepared⟩ := exists_run_makeKinds h hsep hopen hget
  rw [Recreatable, answer, prepareGenerated, run_bind, run_lift, hthere]
  dsimp only
  rw [if_pos rfl, run_bind, BaselineError.at, run_adapt, hremove]
  exact congrArg Prod.fst hprepared

end Again

theorem mirrors_prepareGenerated {τ : Type} (layout : BaselineLayout) :
    Script.Mirrors (layout.prepareGenerated : ExceptT BaselineError (Script τ) Unit).run
      (layout.prepareGenerated : ExceptT BaselineError (StateM FileSystem) Unit).run := by
  have hkinds := Script.mirrors_forM (τ := τ) (fun kind : Kind =>
    (Script.mirrors_createFolders (layout.generated.join ⟨kind.folder⟩)).adapt
      (BaselineError.storage (layout.generated.join ⟨kind.folder⟩))) Kind.all
  refine (Script.mirrors_isThere layout.generated).lift.run_bind fun there => ?_
  cases there with
  | false => exact hkinds
  | true =>
    exact ((Script.mirrors_request (.removeTree layout.generated)).adapt
      (BaselineError.storage layout.generated)).run_bind fun _ => hkinds

end BaselineLayout

end HighlightGrammar
