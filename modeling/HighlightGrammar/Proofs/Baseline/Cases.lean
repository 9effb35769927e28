import HighlightGrammar.Proofs.Baseline.Preparation
import HighlightGrammar.Baseline.SuiteTasks
import Mathlib.Data.List.TakeDrop

/-!
# What cases come to

A run does not touch what the cases and their approved reports are read from, and each case writes
no more than its own report. So which cases there are, and what each of them comes to, is told by the
files as they were before the run. -/
namespace HighlightGrammar

open FileSystem
open HighlightGrammar.Path (IsName IsFileName)

namespace Path

theorem splitLastDot_subset {name before after : List Char}
    (h : splitLastDot name = some (before, after)) : before ⊆ name := by
  unfold splitLastDot at h
  rw [List.span_eq_takeWhile_dropWhile] at h
  split at h
  · cases h
  · next hspan =>
    cases h
    have hsuffix := List.dropWhile_suffix (l := name.reverse) (· != '.')
    rw [(Prod.mk.inj hspan).2] at hsuffix
    intro c hc
    exact List.mem_reverse.1 (hsuffix.subset (List.mem_cons_of_mem _ (List.mem_reverse.1 hc)))

/-- A stem is made of characters of one segment of the path. -/
theorem exists_segment_of_stem? {path : Path} {stem : String} (h : path.stem? = some stem) :
    ∃ segment ∈ splitSlash (path.text.toList.drop (anchor path.text.toList).length),
      stem.toList ⊆ segment := by
  rw [stem?, Option.map_eq_some_iff] at h
  obtain ⟨name, hname, rfl⟩ := h
  rw [fileName?] at hname
  split at hname
  · next segment hlast =>
    split at hname
    · cases hname
    · cases hname
      refine ⟨segment, path.segments_prefix.subset (List.mem_of_getLast? hlast), ?_⟩
      split
      · next hdot =>
        rw [String.toList_ofList] at hdot ⊢
        exact splitLastDot_subset hdot
      · rw [String.toList_ofList]
        exact List.Subset.refl _
  · cases hname

end Path

/-- A report is named by characters of the name of its case, with an ending of its own. -/
theorem isName_baselineFileName {case : Path} (hprintable : '\x00' ∉ case.text.toList) :
    IsName (baselineFileName case) := by
  have hstem : '/' ∉ (case.stem?.getD "").toList ∧ '\x00' ∉ (case.stem?.getD "").toList := by
    cases hcase : case.stem? with
    | none => exact ⟨by simp, by simp⟩
    | some stem =>
      obtain ⟨segment, hsegment, hsub⟩ := Path.exists_segment_of_stem? hcase
      exact ⟨fun hslash => Path.not_mem_of_mem_splitSlash hsegment (hsub hslash),
        fun hnul => hprintable (List.mem_of_mem_drop (Path.mem_of_mem_splitSlash hsegment (hsub hnul)))⟩
  have hlong : 12 < (baselineFileName case).toList.length := by
    have hending : ".baseline.txt".toList.length = 13 := by decide
    rw [baselineFileName, String.toList_append, List.length_append, hending]
    omega
  refine ⟨?_, fun hup => ?_, ?_, ?_⟩
  · rw [← Bool.not_eq_true, Path.idle_toList_iff]
    rintro (hidle | hidle) <;> simp [hidle] at hlong
  · simp [hup] at hlong
  · rw [baselineFileName, String.toList_append, List.mem_append, not_or]
    exact ⟨hstem.1, by decide⟩
  · rw [baselineFileName, String.toList_append, List.mem_append, not_or]
    exact ⟨hstem.2, by decide⟩

theorem isWithin_kind (outer : Place) (kind : Kind) :
    (outer ++ [kind.folder]).isWithin outer = true :=
  Place.isWithin_append _ (Place.isInside_of_isFileName (by simpa using kind.isFileName_folder))

theorem isWithin_kind_name (outer : Place) (kind : Kind) {name : String} (hname : IsFileName name) :
    (outer ++ [kind.folder] ++ [name]).isWithin outer = true := by
  rw [List.append_assoc]
  refine Place.isWithin_append _ (Place.isInside_of_isFileName ?_)
  simpa using ⟨kind.isFileName_folder, hname⟩

theorem place_join_join (outer : Path) (kind : Kind) {name : String} (hname : IsFileName name) :
    ((outer.join ⟨kind.folder⟩).join ⟨name⟩).place = outer.place ++ [kind.folder] ++ [name] := by
  rw [Path.place_join hname, Path.place_join kind.isFileName_folder]

namespace BaselineLayout

variable {layout : BaselineLayout} {files found : FileSystem} {kind : Kind} {case : Path}
  {name : String}

/-- A file that lies directly in the folder of the cases of a kind. -/
def IsCase (layout : BaselineLayout) (files : FileSystem) (kind : Kind) (case : Path) : Prop :=
  ∃ name, IsFileName name ∧ case = (layout.cases.join ⟨kind.folder⟩).join ⟨name⟩ ∧
    files.kind? case = some .file

/-- The cases of a kind, sorted by name. -/
def casesIn (layout : BaselineLayout) (files : FileSystem) (kind : Kind) : List Path :=
  let folder := layout.cases.join ⟨kind.folder⟩
  if files.kind? folder = some .folder then
    (((files.namesIn folder.place).mergeSort fun a b => decide (a ≤ b)).map fun name =>
      folder.join ⟨name⟩).filter fun path => files.kind? path == some .file
  else []

/-- The cases are those of the given files. -/
structure KeepsCases (layout : BaselineLayout) (files found : FileSystem) : Prop where
  wellFormed : found.WellFormed
  cases : ∀ place, place.isWithin layout.cases.place = true → found.get? place = files.get? place

/-- Cases and approved reports are those of the given files, and reports can be written. -/
structure Ready (layout : BaselineLayout) (files found : FileSystem) : Prop
    extends KeepsCases layout files found where
  baselines : ∀ place, place.isWithin layout.baselines.place = true →
    found.get? place = files.get? place
  folder : ∀ kind : Kind, found.get? (layout.generated.place ++ [kind.folder]) = some .folder
  free : ∀ (kind : Kind) (name : String),
    found.get? (layout.generated.place ++ [kind.folder] ++ [name]) ≠ some .folder

theorem Prepared.ready (hsep : layout.Separate) (h : layout.Prepared files found) :
    layout.Ready files found := by
  refine ⟨⟨h.wellFormed, fun place => h.elsewhere.get?_eq hsep.generated_direct hsep.cases_apart⟩,
    fun place => h.elsewhere.get?_eq hsep.generated_direct hsep.baselines_apart, h.folder,
    fun kind name => ?_⟩
  rw [List.append_assoc, h.empty _ (by simp) (by simp)]
  exact nofun

/-- Writing a report leaves everything ready. -/
theorem Ready.put (hsep : layout.Separate) (h : layout.Ready files found) (kind : Kind)
    (hname : IsFileName name) (bytes : ByteArray) :
    layout.Ready files (found.put (layout.generated.place ++ [kind.folder] ++ [name])
      (.file bytes)) := by
  have hwithin := isWithin_kind_name layout.generated.place kind hname
  have haround := Place.isAround_append_name (layout.generated.place ++ [kind.folder]) hname
  have hkept : ∀ {outer place}, Place.Apart outer layout.generated.place →
      place.isWithin outer = true →
      (found.put (layout.generated.place ++ [kind.folder] ++ [name]) (.file bytes)).get? place =
        found.get? place := by
    intro outer place hapart hplace
    rw [get?_put haround, if_neg]
    rintro rfl
    rw [hapart.not_isWithin hplace] at hwithin
    cases hwithin
  refine ⟨⟨h.wellFormed.put hname (h.folder kind) (h.free kind name) _, fun place hplace => ?_⟩,
    fun place hplace => ?_, fun other => ?_, fun other name' => ?_⟩
  · rw [hkept hsep.cases_apart hplace, h.cases place hplace]
  · rw [hkept hsep.baselines_apart hplace, h.baselines place hplace]
  · rw [get?_put haround, if_neg (by simp), h.folder]
  · rw [get?_put haround]
    split
    · exact nofun
    · exact h.free other name'

theorem nodup_casesIn (h : files.WellFormed) (kind : Kind) : (layout.casesIn files kind).Nodup := by
  unfold casesIn
  dsimp only
  split
  · have hnames : ((files.namesIn (layout.cases.join ⟨kind.folder⟩).place).mergeSort
        fun a b => decide (a ≤ b)).Nodup :=
      (List.mergeSort_perm _ _).nodup_iff.2 (h.nodup_namesIn _)
    refine List.Nodup.filter _ (List.Nodup.map_on (fun a ha b hb hab => ?_) hnames)
    have hmem : ∀ name ∈ (files.namesIn (layout.cases.join ⟨kind.folder⟩).place).mergeSort
        (fun a b => decide (a ≤ b)), IsFileName name := fun name hname =>
      (h.mem_namesIn_iff.1 (List.mem_mergeSort.1 hname)).1
    have hplace := congrArg Path.place hab
    rw [Path.place_join (hmem a ha), Path.place_join (hmem b hb)] at hplace
    simpa using hplace
  · exact List.nodup_nil

theorem KeepsCases.get?_casesFolder (hfound : layout.KeepsCases files found) (kind : Kind) :
    found.get? (layout.cases.join ⟨kind.folder⟩).place =
      files.get? (layout.cases.join ⟨kind.folder⟩).place :=
  hfound.cases _ (by
    rw [Path.place_join kind.isFileName_folder]
    exact isWithin_kind _ kind)

theorem KeepsCases.get?_case (hfound : layout.KeepsCases files found) (kind : Kind)
    (hname : IsFileName name) :
    found.get? ((layout.cases.join ⟨kind.folder⟩).join ⟨name⟩).place =
      files.get? ((layout.cases.join ⟨kind.folder⟩).join ⟨name⟩).place :=
  hfound.cases _ (by
    rw [place_join_join _ _ hname]
    exact isWithin_kind_name _ kind hname)

/-- In whatever order the names come, sorted they are the same. -/
theorem KeepsCases.mergeSort_namesIn (h : files.WellFormed)
    (hfound : layout.KeepsCases files found)
    (kind : Kind) :
    ((found.namesIn (layout.cases.join ⟨kind.folder⟩).place).mergeSort fun a b => decide (a ≤ b)) =
      (files.namesIn (layout.cases.join ⟨kind.folder⟩).place).mergeSort
        fun a b => decide (a ≤ b) := by
  have hperm : (found.namesIn (layout.cases.join ⟨kind.folder⟩).place).Perm
      (files.namesIn (layout.cases.join ⟨kind.folder⟩).place) := by
    refine (List.perm_ext_iff_of_nodup (hfound.wellFormed.nodup_namesIn _)
      (h.nodup_namesIn _)).2 fun name => ?_
    rw [hfound.wellFormed.mem_namesIn_iff, h.mem_namesIn_iff]
    refine and_congr_right fun hname => ?_
    rw [← Path.place_join hname, hfound.get?_case kind hname]
  have hsorted : ∀ names : List String,
      (names.mergeSort fun a b => decide (a ≤ b)).Pairwise fun a b => decide (a ≤ b) = true :=
    List.pairwise_mergeSort (by simpa using fun a b c => String.le_trans)
      (by simpa using String.le_total)
  refine List.Perm.eq_of_pairwise (fun a b _ _ hab hba => ?_) (hsorted _) (hsorted _)
    ((List.mergeSort_perm _ _).trans (hperm.trans (List.mergeSort_perm _ _).symm))
  exact String.le_antisymm (of_decide_eq_true hab) (of_decide_eq_true hba)

/-- What holds of all names in the folders of the cases holds of all cases. -/
theorem forall_case_of_names {P : Kind → Path → Prop} (h : files.WellFormed)
    (hnames : ∀ kind ∈ Kind.all, ∀ name ∈ files.namesIn (layout.cases.join ⟨kind.folder⟩).place,
      P kind ((layout.cases.join ⟨kind.folder⟩).join ⟨name⟩))
    (kind : Kind) (case : Path) (hcase : layout.IsCase files kind case) : P kind case := by
  obtain ⟨name, hname, rfl, hfile⟩ := hcase
  obtain ⟨entry, hget, -⟩ := get?_of_kind? hfile
  rw [Path.place_join hname] at hget
  exact hnames kind kind.mem_all name (h.mem_namesIn_iff.2 ⟨hname, entry, hget⟩)

theorem IsCase.isName_report (h : layout.IsCase files kind case) :
    IsName (baselineFileName case) := by
  obtain ⟨_, -, -, hfile⟩ := h
  exact isName_baselineFileName (openable_of_kind? hfile).printable

section Looking

variable (hsep : layout.Separate)

include hsep

theorem Separate.direct_casesFolder (kind : Kind) : (layout.cases.join ⟨kind.folder⟩).Direct :=
  hsep.cases_direct.join kind.isFileName_folder

theorem Separate.direct_baselineFile (kind : Kind) (hname : IsFileName name) :
    (layout.baselineFile kind name).Direct :=
  (hsep.baselines_direct.join kind.isFileName_folder).join hname

theorem Separate.direct_case (kind : Kind) (hname : IsFileName name) :
    ((layout.cases.join ⟨kind.folder⟩).join ⟨name⟩).Direct :=
  (hsep.direct_casesFolder kind).join hname

theorem mem_casesIn_iff (h : files.WellFormed) :
    case ∈ layout.casesIn files kind ↔ layout.IsCase files kind case := by
  unfold casesIn IsCase
  dsimp only
  constructor
  · intro hcase
    split at hcase
    · obtain ⟨hcase, hfile⟩ := List.mem_filter.1 hcase
      obtain ⟨name, hname, rfl⟩ := List.mem_map.1 hcase
      exact ⟨name, (h.mem_namesIn_iff.1 (List.mem_mergeSort.1 hname)).1, rfl, by simpa using hfile⟩
    · cases hcase
  · rintro ⟨name, hname, rfl, hfile⟩
    obtain ⟨entry, hget, -⟩ := get?_of_kind? hfile
    rw [Path.place_join hname] at hget
    have hfolder := h.folder_of_prefix hget (List.prefix_append _ _) (by simp)
    have hopen := hname.openable_of_join (openable_of_kind? hfile)
      kind.isFileName_folder.nonempty_join
    have hkind : files.kind? (layout.cases.join ⟨kind.folder⟩) = some .folder := by
      rw [kind?, h.lookup_folder (hsep.direct_casesFolder kind) hopen hfolder]
      rfl
    rw [if_pos hkind]
    exact List.mem_filter.2 ⟨List.mem_map_of_mem (List.mem_mergeSort.2
      (h.mem_namesIn_iff.2 ⟨hname, entry, hget⟩)), by simpa using hfile⟩

variable (h : files.WellFormed)

include h

namespace KeepsCases

variable (hfound : layout.KeepsCases files found)

include hfound

theorem kind?_casesFolder (kind : Kind) : found.kind? (layout.cases.join ⟨kind.folder⟩) =
    files.kind? (layout.cases.join ⟨kind.folder⟩) :=
  h.kind?_eq hfound.wellFormed (hsep.direct_casesFolder kind)
    (hfound.get?_casesFolder kind)

theorem kind?_case (kind : Kind) (hname : IsFileName name) :
    found.kind? ((layout.cases.join ⟨kind.folder⟩).join ⟨name⟩) =
      files.kind? ((layout.cases.join ⟨kind.folder⟩).join ⟨name⟩) :=
  h.kind?_eq hfound.wellFormed (hsep.direct_case kind hname)
    (hfound.get?_case kind hname)

theorem answer_readText (hcase : layout.IsCase files kind case) :
    found.answer (Storage.readText case) = files.answer (Storage.readText case) := by
  obtain ⟨name, hname, rfl, hfile⟩ := hcase
  exact h.answer_readText_eq hfound.wellFormed (hsep.direct_case kind hname)
    (hfound.get?_case kind hname) (by simp [hfile])

end KeepsCases

/-- Whatever else goes on, the same cases are found in the same order. -/
theorem delivers_casesOf {τ : Type} (kind : Kind) :
    Script.Delivers (layout.Ready files) (.ok (layout.casesIn files kind)) [] []
      (layout.casesOf kind : ExceptT BaselineError (Script τ) (List Path)).run := by
  refine (Script.delivers_isFolder fun found hfound =>
    hfound.kind?_casesFolder hsep h kind).lift.run_bind ?_
  by_cases hkind : files.kind? (layout.cases.join ⟨kind.folder⟩) = some .folder
  · rw [casesIn, if_pos hkind, hkind, beq_self_eq_true, if_pos rfl]
    refine Script.delivers_names_bind fun found hfound => ⟨_, names_of_kind?
      ((hfound.kind?_casesFolder hsep h kind).trans hkind), ?_⟩
    dsimp only
    rw [hfound.mergeSort_namesIn h kind]
    refine Script.delivers_filterM fun case hcase => ?_
    obtain ⟨name, hname, rfl⟩ := List.mem_map.1 hcase
    have hfile := (h.mem_namesIn_iff.1 (List.mem_mergeSort.1 hname)).1
    exact (Script.delivers_isFile fun found hfound => hfound.kind?_case hsep h kind hfile).lift
  · rw [casesIn, if_neg hkind, beq_eq_false_iff_ne.2 hkind, if_neg Bool.false_ne_true]
    exact Script.delivers_pure _

end Looking

end BaselineLayout

end HighlightGrammar
