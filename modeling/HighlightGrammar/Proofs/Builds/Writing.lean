import HighlightGrammar.Build
import HighlightGrammar.Proofs.Storage.Additions

/-!
# Writing with folders

A text is written after the folders around it have been made. What becomes of that is told by what
lies where the path leads and by the files on the way; folders on the way make no difference. -/
namespace HighlightGrammar

open FileSystem

namespace Path

theorem start_of_parent? {path parent : Path} (h : path.parent? = some parent) :
    parent.start = path.start := by
  rw [start, start, isAbsolute_of_parent? h]

theorem way_subset_of_parent? {path parent : Path} (h : path.parent? = some parent) :
    parent.way ⊆ path.way :=
  way_subset_of_moves (moves_of_parent? h ▸ List.dropLast_prefix _) (isAbsolute_of_parent? h)

theorem mem_way_of_parent? {path parent : Path} (h : path.parent? = some parent) {place : Place}
    (hplace : place ∈ path.way) : place ∈ parent.way ∨ place = path.place := by
  obtain ⟨front, hfront, rfl⟩ := mem_way_iff.1 hplace
  rw [mem_way_iff, moves_of_parent? h, start_of_parent? h, place_eq]
  rcases List.eq_nil_or_concat path.moves with hnil | ⟨moves, last, hlast⟩
  · rw [hnil] at hfront
    rw [hnil, List.prefix_nil.1 hfront]
    exact Or.inr rfl
  · rw [hlast, List.concat_eq_append] at hfront ⊢
    rw [List.dropLast_concat]
    rcases List.prefix_concat_iff.1 hfront with rfl | hbegins
    · exact Or.inr rfl
    · exact Or.inl ⟨front, hbegins, rfl⟩

theorem Direct.of_parent? {path parent : Path} (h : path.Direct) (hparent : path.parent? = some parent) :
    parent.Direct := by
  obtain ⟨rest, hrest⟩ := List.dropLast_prefix path.moves
  exact h.of_moves_append (by rw [moves_of_parent? hparent, hrest])

/-- A path that leads into a folder does not lead there before its last segment. -/
theorem Direct.place_not_mem_way_of_parent? {path parent : Path} (h : path.Direct)
    (haround : path.place.isAround = false) (hparent : path.parent? = some parent) :
    path.place ∉ parent.way := by
  obtain ⟨name, hplace, -⟩ := h.exists_place_eq_concat haround
  intro hmem
  have hlength := ((h.of_parent? hparent).prefix_of_mem_way hmem).length_le
  rw [place_eq parent, moves_of_parent? hparent, start_of_parent? hparent, hplace,
    List.length_append, List.length_singleton] at hlength
  exact absurd hlength (Nat.not_succ_le_self _)

/-- Without segments to take away a path makes no move. -/
theorem way_of_parent?_eq_none {path : Path} (h : path.parent? = none) {place : Place}
    (hplace : place ∈ path.way) : place = path.place := by
  have hmoves : path.moves = [] := by
    by_contra hne
    obtain ⟨parent, hparent⟩ := exists_parent? hne
    rw [h] at hparent
    cases hparent
  obtain ⟨front, hfront, rfl⟩ := mem_way_iff.1 hplace
  rw [hmoves] at hfront
  rw [place_eq, hmoves, List.prefix_nil.1 hfront]

end Path

section

variable {files after between : FileSystem} {path : Path} {text : String}

/-- Makes the folders around a path. -/
def makeAround (path : Path) : ExceptT GrammarError (StateM FileSystem) Unit :=
  match path.parent? with
  | some parent =>
    if parent.text.isEmpty then pure ()
    else (Storage.createFolders parent :
      ExceptT StorageError (StateM FileSystem) Unit).adapt (.storage parent)
  | none => pure ()

theorem writeWithFolders_eq (path : Path) (text : String) :
    (writeWithFolders path text : ExceptT GrammarError (StateM FileSystem) Unit) =
      makeAround path >>= fun _ => (Storage.writeText path text :
        ExceptT StorageError (StateM FileSystem) Unit).adapt (.storage path) := by
  rw [writeWithFolders, makeAround]
  rcases path.parent? with - | parent
  · rfl
  · dsimp only
    split <;> rfl

/-- Folders on the way to the folder around a path are not where the path leads. -/
theorem FileSystem.AddsFolders.get?_place_of_parent? {parent : Path}
    (hadds : AddsFolders parent.way files between) (hdirect : path.Direct)
    (hparent : path.parent? = some parent) :
    between.get? path.place = files.get? path.place := by
  cases haround : path.place.isAround with
  | true => exact get?_eq_of_isAround haround _ _
  | false =>
    rcases hadds.changes path.place with hsame | ⟨hmem, -⟩
    · exact hsame
    · exact absurd hmem (hdirect.place_not_mem_way_of_parent? haround hparent)

/-- Folders are added on the way to a path and not where it leads, and if that succeeds there are
folders all along the way. -/
theorem addsFolders_makeAround (h : files.WellFormed) (hdirect : path.Direct)
    {result : Except GrammarError Unit}
    (hrun : (makeAround path).run.run files = (result, between)) :
    AddsFolders path.way files between ∧ between.get? path.place = files.get? path.place ∧
      (result = .ok () → ∀ place ∈ path.way, place ≠ path.place →
        between.get? place = some .folder) := by
  unfold makeAround at hrun
  cases hparent : path.parent? with
  | none =>
    rw [hparent] at hrun
    cases hrun
    exact ⟨.refl h, rfl, fun _ place hplace hne =>
      absurd (Path.way_of_parent?_eq_none hparent hplace) hne⟩
  | some parent =>
    rw [hparent] at hrun
    dsimp only at hrun
    by_cases hempty : parent.text.isEmpty = true
    · rw [if_pos hempty] at hrun
      cases hrun
      refine ⟨.refl h, rfl, fun _ place hplace hne => get?_of_isAround ?_⟩
      have hmem := (Path.mem_way_of_parent? hparent hplace).resolve_right hne
      obtain ⟨front, hfront, rfl⟩ := Path.mem_way_iff.1 hmem
      rw [Path.moves_of_isEmpty hempty] at hfront
      rw [List.prefix_nil.1 hfront]
      exact parent.isAround_start
    · rw [if_neg hempty, run_adapt] at hrun
      rcases hcreate : (Storage.createFolders parent : ExceptT StorageError (StateM FileSystem)
        Unit).run.run files with ⟨made, changed⟩
      rw [hcreate] at hrun
      cases hrun
      obtain ⟨hadds, hfolder⟩ := addsFolders_createFolders h hcreate
      refine ⟨hadds.mono (Path.way_subset_of_parent? hparent),
        hadds.get?_place_of_parent? hdirect hparent, fun hok place hplace hne => ?_⟩
      have hmade : made = .ok () := by
        cases made with
        | error error => cases hok
        | ok done => rfl
      exact hadds.wellFormed.folder_of_mem_way (hdirect.of_parent? hparent) (hfolder hmade).2
        ((Path.mem_way_of_parent? hparent hplace).resolve_right hne)

theorem keepsTo_makeAround (hdirect : path.Direct) : KeepsTo path (makeAround path) := by
  unfold makeAround
  cases hparent : path.parent? with
  | none => exact keepsTo_pure ()
  | some parent =>
    dsimp only
    split
    · exact keepsTo_pure ()
    · exact (keepsTo_createFolders (hdirect.of_parent? hparent)
        (Path.way_subset_of_parent? hparent)).adapt _

theorem answer_makeAround_of_clear (h : files.WellFormed) (hafter : after.WellFormed)
    (hclear : files.Clear path) (hclear' : after.Clear path) (hdirect : path.Direct) :
    files.answer (makeAround path) = after.answer (makeAround path) := by
  unfold makeAround
  cases hparent : path.parent? with
  | none => rfl
  | some parent =>
    have hsubset := Path.way_subset_of_parent? hparent
    dsimp only
    split
    · rfl
    · next hnonempty =>
      rw [answer_adapt, answer_adapt, answer_createFolders_of_clear h hafter
        (fun place hplace => hclear place (hsubset hplace))
        (fun place hplace => hclear' place (hsubset hplace))
        (hdirect.of_parent? hparent) (by simpa using hnonempty) (Path.endsInMove_of_parent? hparent)]

/-- A text has been written or not: folders may have been added on the way, but nothing else has
changed, save that the text is there if it has been written. -/
structure Writes (path : Path) (bytes : ByteArray) (files : FileSystem)
    (result : Except GrammarError Unit) (after : FileSystem) : Prop where
  wellFormed : after.WellFormed
  changes : ∀ place, (result = .ok () → place ≠ path.place) →
    after.get? place = files.get? place ∨
      (place ∈ path.way ∧ files.get? place = none ∧ after.get? place = some .folder)
  written : result = .ok () → after.readBytes path = .ok bytes

theorem run_writeText (path : Path) (text : String) (files : FileSystem) :
    (Storage.writeText path text : ExceptT StorageError (StateM FileSystem) Unit).run.run files =
      match files.writeBytes path text.toUTF8 with
      | .ok after => (.ok (), after)
      | .error error => (.error error, files) :=
  run_update (fun files => files.writeBytes path text.toUTF8) files

theorem writes_writeWithFolders (h : files.WellFormed) (hdirect : path.Direct)
    {result : Except GrammarError Unit}
    (hrun : (writeWithFolders path text :
      ExceptT GrammarError (StateM FileSystem) Unit).run.run files = (result, after)) :
    Writes path text.toUTF8 files result after := by
  rw [writeWithFolders_eq, run_bind] at hrun
  rcases haround : (makeAround path).run.run files with ⟨error | done, between⟩
  · rw [haround] at hrun
    cases hrun
    obtain ⟨hadds, -⟩ := addsFolders_makeAround h hdirect haround
    exact ⟨hadds.wellFormed, fun place _ => hadds.changes place, nofun⟩
  · rw [haround] at hrun
    dsimp only at hrun
    rw [run_adapt, run_writeText] at hrun
    obtain ⟨hadds, -⟩ := addsFolders_makeAround h hdirect haround
    cases hwrite : between.writeBytes path text.toUTF8 with
    | error error =>
      rw [hwrite] at hrun
      cases hrun
      exact ⟨hadds.wellFormed, fun place _ => hadds.changes place, nofun⟩
    | ok changed =>
      rw [hwrite] at hrun
      cases hrun
      obtain ⟨hwell, hput, hinside, hread⟩ := hadds.wellFormed.of_writeBytes hwrite
      refine ⟨hwell, fun place hother => ?_, fun _ => hread⟩
      rw [hput, get?_put hinside, if_neg (hother rfl)]
      exact hadds.changes place

/-- Whether a text is written does not depend on folders along the way. -/
theorem answer_writeWithFolders_of_gains (hgains : files.Gains after path) (h : files.WellFormed)
    (hafter : after.WellFormed) (hdirect : path.Direct)
    (hsame : after.get? path.place = files.get? path.place) (text : String) :
    files.answer (writeWithFolders path text) = after.answer (writeWithFolders path text) := by
  have hwrite : KeepsTo path ((Storage.writeText path text :
      ExceptT StorageError (StateM FileSystem) Unit).adapt (GrammarError.storage path)) :=
    (keepsTo_writeText hdirect text).adapt _
  rw [writeWithFolders_eq]
  rcases hgains.agreeAlong_or_clear h hafter hdirect with hagree | ⟨hclear, hclear'⟩
  · exact ((keepsTo_makeAround hdirect).bind (fun _ => hwrite) files after hagree).1
  · have hresult := answer_makeAround_of_clear h hafter hclear hclear' hdirect
    rw [answer, answer] at hresult ⊢
    rw [run_bind, run_bind]
    rcases hrun : (makeAround path).run.run files with ⟨result, made⟩
    rcases hrun' : (makeAround path).run.run after with ⟨result', made'⟩
    rw [hrun, hrun'] at hresult
    obtain rfl : result = result' := hresult
    cases result with
    | error error => rfl
    | ok done =>
      obtain ⟨-, hplace, hfolders⟩ := addsFolders_makeAround h hdirect hrun
      obtain ⟨-, hplace', hfolders'⟩ := addsFolders_makeAround hafter hdirect hrun'
      refine (hwrite made made' fun place hmem => ?_).1
      by_cases hself : place = path.place
      · rw [hself, hplace, hplace', hsame]
      · rw [hfolders rfl place hmem hself, hfolders' rfl place hmem hself]

end

end HighlightGrammar
