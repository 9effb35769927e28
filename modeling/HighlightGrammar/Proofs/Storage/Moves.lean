import HighlightGrammar.Proofs.Storage.Ways
import Mathlib.Data.List.TakeWhile

/-!
# The moves of a path

Idle segments lead nowhere, so where a path leads is told by its other segments, its moves. Joining
a name to a path adds a move, and the paths around a path make fewer moves. -/
namespace HighlightGrammar

theorem Path.idle_toList_iff {segment : String} :
    idle segment.toList = true ↔ segment = "" ∨ segment = "." := by
  have hdot : segment.toList = ['.'] ↔ segment = "." := by
    rw [← String.toList_inj]
    rfl
  simp [idle, hdot]

theorem Place.step_of_idle {segment : List Char} (h : Path.idle segment = true) (place : Place) :
    place.step (String.ofList segment) = place := by
  rw [← String.toList_ofList (l := segment), Path.idle_toList_iff] at h
  rw [step, if_pos h]

theorem Place.step_of_busy (place : Place) {segment : String}
    (hbusy : Path.idle segment.toList = false) (hup : segment ≠ "..") :
    place.step segment = place ++ [segment] := by
  rw [← Bool.not_eq_true, Path.idle_toList_iff] at hbusy
  rw [step, if_neg hbusy, if_neg hup]

/-- Among the folders around the one that one stands in, the next one is named behind the last. -/
theorem Place.prefix_above {place : Place} (h : place.isAround = true) :
    place <+: place.above ∧ place.above.isAround = true := by
  unfold above
  split
  · next hnone =>
    rw [List.getLast?_eq_none_iff.1 hnone]
    exact ⟨List.nil_prefix, rfl⟩
  · next last hlast =>
    have hleaves : leavesFolder last = true := List.all_eq_true.1 h last (List.mem_of_getLast? hlast)
    split
    · exact ⟨List.prefix_append _ _, by simpa [isAround, leavesFolder] using h⟩
    · split
      · exact ⟨List.prefix_rfl, h⟩
      · next hup hroot => simp [leavesFolder, hup, hroot] at hleaves

/-- Going up leads around the folder that one stands in. -/
theorem Place.isAround_foldl_up {start : Place} {moves : List String} (h : start.isAround = true)
    (hup : ∀ move ∈ moves, move = "..") : (moves.foldl step start).isAround = true := by
  induction moves generalizing start with
  | nil => exact h
  | cons move moves ih =>
    rw [List.forall_mem_cons] at hup
    rw [List.foldl_cons, hup.1]
    exact ih (prefix_above h).2 hup.2

theorem Place.prefix_step (place : Place) {segment : String} (h : segment ≠ "..") :
    place <+: place.step segment := by
  rw [step, if_neg h]
  split
  · exact List.prefix_rfl
  · exact List.prefix_append _ _

namespace Path

theorem splitSlash_append_slash (front back : List Char) :
    splitSlash (front ++ '/' :: back) = splitSlash front ++ splitSlash back := by
  induction front with
  | nil => simp [splitSlash]
  | cons c front ih =>
    rw [List.cons_append, splitSlash, splitSlash, ih]
    split
    · rfl
    · obtain ⟨segment, segments, hsplit⟩ := List.exists_cons_of_ne_nil (splitSlash_ne_nil front)
      rw [hsplit]
      rfl

theorem splitSlash_of_not_mem {text : List Char} (h : '/' ∉ text) : splitSlash text = [text] := by
  induction text with
  | nil => rfl
  | cons c text ih =>
    rw [List.mem_cons, not_or] at h
    rw [splitSlash, if_neg (Ne.symm h.1), ih h.2]

theorem not_mem_of_mem_splitSlash {text segment : List Char} (h : segment ∈ splitSlash text) :
    '/' ∉ segment := by
  induction text generalizing segment with
  | nil => simp_all [splitSlash]
  | cons c text ih =>
    obtain ⟨first, others, hsplit⟩ := List.exists_cons_of_ne_nil (splitSlash_ne_nil text)
    rw [splitSlash, hsplit] at h
    rw [hsplit] at ih
    split at h
    · rcases List.mem_cons.1 h with rfl | h
      · simp
      · exact ih h
    · next hc =>
      rcases List.mem_cons.1 h with rfl | h
      · rw [List.mem_cons, not_or]
        exact ⟨Ne.symm hc, ih (by simp)⟩
      · exact ih (by simp [h])

theorem mem_of_mem_splitSlash {text segment : List Char} {c : Char}
    (h : segment ∈ splitSlash text) (hc : c ∈ segment) : c ∈ text := by
  induction text generalizing segment with
  | nil =>
    rw [List.mem_singleton.1 h] at hc
    cases hc
  | cons d text ih =>
    obtain ⟨first, others, hsplit⟩ := List.exists_cons_of_ne_nil (splitSlash_ne_nil text)
    rw [splitSlash, hsplit] at h
    rw [hsplit] at ih
    split at h
    · rcases List.mem_cons.1 h with rfl | h
      · cases hc
      · exact List.mem_cons_of_mem _ (ih h hc)
    · rcases List.mem_cons.1 h with rfl | h
      · rcases List.mem_cons.1 hc with rfl | hc
        · exact List.mem_cons_self
        · exact List.mem_cons_of_mem _ (ih List.mem_cons_self hc)
      · exact List.mem_cons_of_mem _ (ih (List.mem_cons_of_mem _ h) hc)

theorem splitSlash_joinSlash {segments : List (List Char)} (hne : segments ≠ [])
    (h : ∀ segment ∈ segments, '/' ∉ segment) : splitSlash (joinSlash segments) = segments := by
  induction segments with
  | nil => exact absurd rfl hne
  | cons segment segments ih =>
    cases segments with
    | nil => exact splitSlash_of_not_mem (h segment (by simp))
    | cons other segments =>
      rw [joinSlash, splitSlash_append_slash, splitSlash_of_not_mem (h segment (by simp)),
        ih (by simp) fun s hs => h s (by simp [hs])]
      · rfl
      · exact fun h => by cases h

/-- The segments of a text that lead somewhere. -/
def movesOf (text : List Char) : List String :=
  ((splitSlash text).filter fun segment => !idle segment).map String.ofList

/-- The segments of a path that lead somewhere. -/
def moves (path : Path) : List String := movesOf path.text.toList

/-- Idle segments make no difference to where steps lead. -/
theorem foldl_step_filter (segments : List (List Char)) (place : Place) :
    ((segments.filter fun segment => !idle segment).map String.ofList).foldl Place.step place =
      (segments.map String.ofList).foldl Place.step place := by
  induction segments generalizing place with
  | nil => rfl
  | cons segment segments ih =>
    by_cases h : idle segment = true
    · rw [List.filter_cons_of_neg (by simp [h]), List.map_cons, List.foldl_cons,
        Place.step_of_idle h, ih]
    · rw [List.filter_cons_of_pos (by simp [h]), List.map_cons, List.map_cons, List.foldl_cons,
        List.foldl_cons, ih]

theorem filter_dropWhile {p : List Char → Bool} (hp : ∀ segment, p segment = true →
    idle segment = true) (segments : List (List Char)) :
    (segments.dropWhile p).filter (fun segment => !idle segment) =
      segments.filter fun segment => !idle segment := by
  induction segments with
  | nil => rfl
  | cons segment segments ih =>
    by_cases h : p segment = true
    · rw [List.dropWhile_cons_of_pos h, ih, List.filter_cons_of_neg (by simp [hp _ h])]
    · rw [List.dropWhile_cons_of_neg h]

theorem filter_dropWhile_reverse {p : List Char → Bool} (hp : ∀ segment, p segment = true →
    idle segment = true) (segments : List (List Char)) :
    ((segments.reverse.dropWhile p).reverse).filter (fun segment => !idle segment) =
      segments.filter fun segment => !idle segment := by
  rw [List.filter_reverse, filter_dropWhile hp, List.filter_reverse, List.reverse_reverse]

/-- The part in front of the segments makes no move. -/
theorem movesOf_drop_anchor (text : List Char) :
    movesOf (text.drop (anchor text).length) = movesOf text := by
  unfold anchor
  split
  · next rest => simp [movesOf, splitSlash, idle]
  · simp [movesOf, splitSlash, idle]
  · next rest => simp [movesOf, splitSlash, idle]
  · rfl

theorem moves_eq_segments (path : Path) : path.moves =
    (path.segments.filter fun segment => !idle segment).map String.ofList := by
  rw [segments, trimmed, filter_dropWhile_reverse fun _ => id, ← movesOf, movesOf_drop_anchor, moves]

theorem steps_eq (path : Path) : path.steps =
    ((splitSlash path.text.toList).reverse.dropWhile List.isEmpty).reverse.map String.ofList := by
  have hempty : ((· == "") ∘ String.ofList) = (List.isEmpty : List Char → Bool) := by
    funext segment
    cases segment with
    | nil => rfl
    | cons c segment => simp
  rw [steps, ← List.map_reverse, List.dropWhile_map, hempty, List.map_reverse]

theorem moves_eq_filter_steps (path : Path) : path.moves =
    (((splitSlash path.text.toList).reverse.dropWhile List.isEmpty).reverse.filter
      fun segment => !idle segment).map String.ofList := by
  rw [filter_dropWhile_reverse fun segment h => by simp [idle, h]]
  rfl

theorem place_eq (path : Path) : path.place = path.moves.foldl Place.step path.start := by
  rw [place, steps_eq, moves_eq_filter_steps, foldl_step_filter]

theorem mem_scanl_step_iff {segments : List (List Char)} {start place : Place} :
    place ∈ (segments.map String.ofList).scanl Place.step start ↔
      ∃ moves, moves <+: (segments.filter fun segment => !idle segment).map String.ofList ∧
        moves.foldl Place.step start = place := by
  induction segments generalizing start with
  | nil => simp [eq_comm]
  | cons segment segments ih =>
    rw [List.map_cons, List.scanl_cons, List.mem_cons, ih]
    by_cases h : idle segment = true
    · rw [Place.step_of_idle h, List.filter_cons_of_neg (by simp [h])]
      refine or_iff_right_of_imp ?_
      rintro rfl
      exact ⟨[], List.nil_prefix, rfl⟩
    · rw [List.filter_cons_of_pos (by simp [h]), List.map_cons]
      constructor
      · rintro (rfl | ⟨moves, hmoves, rfl⟩)
        · exact ⟨[], List.nil_prefix, rfl⟩
        · exact ⟨_ :: moves, List.cons_prefix_cons.2 ⟨rfl, hmoves⟩, rfl⟩
      · rintro ⟨moves, hmoves, rfl⟩
        cases moves with
        | nil => exact Or.inl rfl
        | cons move moves =>
          obtain ⟨rfl, hrest⟩ := List.cons_prefix_cons.1 hmoves
          exact Or.inr ⟨moves, hrest, rfl⟩

theorem mem_way_iff {path : Path} {place : Place} : place ∈ path.way ↔
    ∃ moves, moves <+: path.moves ∧ moves.foldl Place.step path.start = place := by
  rw [way, steps_eq, mem_scanl_step_iff, ← moves_eq_filter_steps]

/-- A name that leads from a folder to something in it. -/
structure IsName (name : String) : Prop where
  busy : idle name.toList = false
  staying : name ≠ ".."
  plain : '/' ∉ name.toList
  printable : '\x00' ∉ name.toList

/-- A name that an entry of a folder can have. -/
structure IsFileName (name : String) : Prop extends IsName name where
  short : name.utf8ByteSize ≤ FileSystem.longestName

instance (name : String) : Decidable (IsFileName name) :=
  decidable_of_iff (idle name.toList = false ∧ name ≠ ".." ∧ '/' ∉ name.toList ∧
      '\x00' ∉ name.toList ∧ name.utf8ByteSize ≤ FileSystem.longestName)
    ⟨fun ⟨hbusy, hup, hplain, hprintable, hshort⟩ => ⟨⟨hbusy, hup, hplain, hprintable⟩, hshort⟩,
      fun h => ⟨h.busy, h.staying, h.plain, h.printable, h.short⟩⟩

section Join

variable {folder : Path} {name : String}

theorem movesOf_of_plain (hbusy : idle name.toList = false) (hplain : '/' ∉ name.toList) :
    movesOf name.toList = [name] := by
  simp [movesOf, splitSlash_of_not_mem hplain, hbusy]

theorem isAbsolute_of_plain (hplain : '/' ∉ name.toList) : isAbsolute ⟨name⟩ = false := by
  rw [isAbsolute, beq_eq_false_iff_ne]
  exact fun h => hplain (List.mem_of_head? h)

theorem movesOf_append_slash (front back : List Char) :
    movesOf (front ++ '/' :: back) = movesOf front ++ movesOf back := by
  rw [movesOf, splitSlash_append_slash, List.filter_append, List.map_append, movesOf, movesOf]

/-- A name is joined to an empty path as it is, and to any other one behind a slash. -/
theorem toList_join (folder : Path) (hplain : '/' ∉ name.toList) :
    (folder.text.toList = [] ∧ (folder.join ⟨name⟩).text.toList = name.toList) ∨
      ∃ front, (folder.text.toList = front ++ ['/'] ∨ folder.text.toList = front ∧ front ≠ []) ∧
        (folder.join ⟨name⟩).text.toList = front ++ '/' :: name.toList := by
  rw [join, isAbsolute_of_plain hplain, if_neg (by simp)]
  by_cases hempty : folder.text.toList = []
  · have htext : folder.text.isEmpty = true := by simpa using hempty
    rw [if_pos (by simp [htext])]
    exact Or.inl ⟨hempty, by simp [hempty]⟩
  · have htext : folder.text.isEmpty = false := by simpa using hempty
    right
    by_cases hslash : folder.text.toList.getLast? = some '/'
    · obtain ⟨front, hfront⟩ := List.getLast?_eq_some_iff.1 hslash
      rw [if_pos (by simp [hslash])]
      exact ⟨front, Or.inl hfront, by simp [hfront]⟩
    · rw [if_neg (by simp [hslash, htext])]
      exact ⟨_, Or.inr ⟨rfl, hempty⟩, by simp⟩

/-- A joined path takes the steps of its folder and then that of the name. -/
theorem steps_join (folder : Path) (hbusy : idle name.toList = false) (hplain : '/' ∉ name.toList) :
    ∃ segments : List (List Char), (folder.join ⟨name⟩).steps = segments.map String.ofList ++ [name] ∧
      (segments.filter fun segment => !idle segment).map String.ofList = folder.moves := by
  have hne : name.toList.isEmpty = false := by
    rw [idle, Bool.or_eq_false_iff] at hbusy
    exact hbusy.1
  rw [steps_eq, moves]
  rcases toList_join folder hplain with ⟨hempty, hjoin⟩ | ⟨front, hfolder, hjoin⟩
  · refine ⟨[], ?_, by rw [hempty]; rfl⟩
    rw [hjoin, splitSlash_of_not_mem hplain, List.reverse_singleton,
      List.dropWhile_cons_of_neg (by simp [hne])]
    simp
  · refine ⟨splitSlash front, ?_, ?_⟩
    · rw [hjoin, splitSlash_append_slash, splitSlash_of_not_mem hplain, List.reverse_append,
        List.reverse_singleton, List.singleton_append, List.dropWhile_cons_of_neg (by simp [hne])]
      simp
    · rcases hfolder with hfolder | ⟨hfolder, -⟩
      · rw [hfolder, movesOf_append_slash]
        simp [movesOf, splitSlash, idle]
      · rw [hfolder, movesOf]

theorem moves_join (hbusy : idle name.toList = false) (hplain : '/' ∉ name.toList) :
    (folder.join ⟨name⟩).moves = folder.moves ++ [name] := by
  have hname := movesOf_of_plain hbusy hplain
  rw [moves, moves]
  rcases toList_join folder hplain with ⟨hempty, hjoin⟩ | ⟨front, hfolder, hjoin⟩
  · rw [hjoin, hempty, hname]
    rfl
  · rw [hjoin, movesOf_append_slash, hname]
    rcases hfolder with hfolder | ⟨hfolder, -⟩
    · rw [hfolder, movesOf_append_slash]
      simp [movesOf, splitSlash, idle]
    · rw [hfolder]

theorem isAbsolute_join (hplain : '/' ∉ name.toList) :
    (folder.join ⟨name⟩).isAbsolute = folder.isAbsolute := by
  rw [isAbsolute, isAbsolute]
  rcases toList_join folder hplain with ⟨hempty, hjoin⟩ | ⟨front, hfolder, hjoin⟩
  · have hname := isAbsolute_of_plain hplain
    rw [hjoin, hempty, ← isAbsolute.eq_1 ⟨name⟩, hname]
    rfl
  · rw [hjoin]
    rcases hfolder with hfolder | ⟨hfolder, hne⟩
    · rw [hfolder]
      cases front <;> rfl
    · rw [hfolder]
      cases front with
      | nil => exact absurd rfl hne
      | cons c front => rfl

end Join

theorem joinSlash_cons_cons (segment other : List Char) (segments : List (List Char)) :
    joinSlash (segment :: other :: segments) = segment ++ '/' :: joinSlash (other :: segments) :=
  rfl

theorem joinSlash_prefix {front whole : List (List Char)} (h : front <+: whole) :
    joinSlash front <+: joinSlash whole := by
  induction front generalizing whole with
  | nil => exact List.nil_prefix
  | cons segment front ih =>
    obtain ⟨others, rfl⟩ := h
    cases front with
    | nil => cases others <;> simp [joinSlash]
    | cons other front =>
      have hrest := ih (List.prefix_append (other :: front) others)
      rw [List.cons_append, List.cons_append, joinSlash_cons_cons, joinSlash_cons_cons,
        List.prefix_append_right_inj, List.cons_prefix_cons]
      exact ⟨rfl, hrest⟩

theorem anchor_append_drop (text : List Char) :
    anchor text ++ text.drop (anchor text).length = text := by
  unfold anchor
  split <;> rfl

/-- The segments of the path without its last one: those in front of idle ones at the end. -/
def inner (path : Path) : List (List Char) := (path.segments.reverse.tail.dropWhile idle).reverse

theorem inner_prefix (path : Path) : path.inner <+: path.segments := by
  rw [inner, ← List.reverse_suffix, List.reverse_reverse]
  exact (List.dropWhile_suffix _).trans (List.tail_suffix _)

theorem segments_prefix (path : Path) :
    path.segments <+: splitSlash (path.text.toList.drop (anchor path.text.toList).length) := by
  rw [segments, trimmed, ← List.reverse_suffix, List.reverse_reverse]
  exact List.dropWhile_suffix _

/-- Apart from the part in front of all segments there is a segment to take away. -/
theorem parent?_eq_some {path parent : Path} (h : path.parent? = some parent) :
    (path.segments = [] ∧ anchor path.text.toList = ['.'] ∧ parent.text.toList = []) ∨
      (path.segments ≠ [] ∧
        parent.text.toList = anchor path.text.toList ++ joinSlash path.inner) := by
  unfold parent? at h
  dsimp only at h
  split at h
  · next hnone =>
    split at h
    · next hfront =>
      cases h
      exact Or.inl ⟨List.reverse_eq_nil_iff.1 hnone, hfront, rfl⟩
    · cases h
  · next last rest hsome =>
    cases h
    refine Or.inr ⟨fun hnone => by simp [hnone] at hsome, ?_⟩
    rw [String.toList_ofList, inner, hsome, List.tail_cons]

theorem prefix_of_parent? {path parent : Path} (h : path.parent? = some parent) :
    parent.text.toList <+: path.text.toList := by
  rcases parent?_eq_some h with ⟨-, -, hparent⟩ | ⟨-, hparent⟩
  · rw [hparent]
    exact List.nil_prefix
  · rw [hparent]
    have hinner := joinSlash_prefix (path.inner_prefix.trans path.segments_prefix)
    rw [joinSlash_splitSlash] at hinner
    have hwhole := (List.prefix_append_right_inj (anchor path.text.toList)).2 hinner
    rwa [anchor_append_drop] at hwhole

theorem isAbsolute_of_parent? {path parent : Path} (h : path.parent? = some parent) :
    parent.isAbsolute = path.isAbsolute := by
  rw [isAbsolute, isAbsolute]
  obtain ⟨rest, hrest⟩ := prefix_of_parent? h
  cases hparent : parent.text.toList with
  | cons c text =>
    rw [hparent] at hrest
    rw [← hrest]
    rfl
  | nil =>
    have hfront : path.text.toList.head? ≠ some '/' := by
      rcases parent?_eq_some h with ⟨-, hfront, -⟩ | ⟨-, hempty⟩
      · intro hslash
        obtain ⟨text, htext⟩ := List.head?_eq_some_iff.1 hslash
        rw [htext] at hfront
        cases hfront
      · intro hslash
        obtain ⟨text, htext⟩ := List.head?_eq_some_iff.1 hslash
        rw [hparent, htext] at hempty
        cases hempty
    rw [beq_eq_false_iff_ne.2 hfront]
    rfl

theorem filter_inner (path : Path) : (path.inner.filter fun segment => !idle segment) =
    (path.segments.filter fun segment => !idle segment).dropLast := by
  have hsegments : path.segments.reverse = (splitSlash (path.text.toList.drop
      (anchor path.text.toList).length)).reverse.dropWhile idle := by
    rw [segments, trimmed, List.reverse_reverse]
  cases hrest : path.segments.reverse with
  | nil => simp [inner, List.reverse_eq_nil_iff.1 hrest]
  | cons last rest =>
    have hlast : idle last = false := by
      have hhead := List.head?_dropWhile_not idle
        (splitSlash (path.text.toList.drop (anchor path.text.toList).length)).reverse
      rwa [← hsegments, hrest] at hhead
    have hall : path.segments = rest.reverse ++ [last] := by
      rw [← List.reverse_reverse path.segments, hrest, List.reverse_cons]
    have hinner := filter_dropWhile_reverse (p := idle) (fun _ => id) rest.reverse
    rw [List.reverse_reverse] at hinner
    rw [inner, hrest, List.tail_cons, hinner, hall, List.filter_append,
      List.filter_cons_of_pos (by simp [hlast]), List.filter_nil, List.dropLast_concat]

theorem movesOf_joinSlash {segments : List (List Char)} (h : ∀ segment ∈ segments, '/' ∉ segment) :
    movesOf (joinSlash segments) =
      (segments.filter fun segment => !idle segment).map String.ofList := by
  cases segments with
  | nil => rfl
  | cons segment segments => rw [movesOf, splitSlash_joinSlash (by simp) h]

/-- In front of a slash the anchor makes no move. -/
theorem movesOf_anchor_append {text front : List Char}
    (h : front <+: text.drop (anchor text).length) :
    movesOf (anchor text ++ front) = movesOf front := by
  unfold anchor at h ⊢
  split at h
  · exact movesOf_append_slash [] front
  · rw [List.prefix_nil.1 h]
    rfl
  · cases front with
    | nil => rfl
    | cons c front =>
      obtain ⟨rfl, -⟩ := List.cons_prefix_cons.1 h
      exact (movesOf_append_slash ['.'] front).trans (movesOf_append_slash [] front).symm
  · rfl

/-- The path without its last segment makes all moves but the last. -/
theorem moves_of_parent? {path parent : Path} (h : path.parent? = some parent) :
    parent.moves = path.moves.dropLast := by
  have hmoves := path.moves_eq_segments
  rcases parent?_eq_some h with ⟨hnone, -, hparent⟩ | ⟨-, hparent⟩
  · rw [hmoves, hnone, moves, hparent]
    rfl
  · have hplain : ∀ segment ∈ path.inner, '/' ∉ segment := fun segment hsegment =>
      not_mem_of_mem_splitSlash
        ((path.inner_prefix.trans path.segments_prefix).subset hsegment)
    have hfront := joinSlash_prefix (path.inner_prefix.trans path.segments_prefix)
    rw [joinSlash_splitSlash] at hfront
    rw [moves, hparent, movesOf_anchor_append hfront, movesOf_joinSlash hplain, filter_inner, hmoves,
      List.map_dropLast]

/-- The paths around a path start as it does and make its first moves. -/
theorem moves_of_mem_ancestorsFrom {fuel : Nat} {path around : Path}
    (h : around ∈ ancestorsFrom fuel path) :
    around.moves <+: path.moves ∧ around.isAbsolute = path.isAbsolute := by
  induction fuel generalizing path with
  | zero =>
    obtain rfl := List.mem_singleton.1 h
    exact ⟨List.prefix_rfl, rfl⟩
  | succ fuel ih =>
    unfold ancestorsFrom at h
    split at h
    · next parent hparent =>
      rcases List.mem_cons.1 h with rfl | h
      · exact ⟨List.prefix_rfl, rfl⟩
      · obtain ⟨hmoves, habsolute⟩ := ih h
        rw [moves_of_parent? hparent] at hmoves
        exact ⟨hmoves.trans (List.dropLast_prefix _),
          habsolute.trans (isAbsolute_of_parent? hparent)⟩
    · obtain rfl := List.mem_singleton.1 h
      exact ⟨List.prefix_rfl, rfl⟩

/-- A path that makes the first moves of another one leads along its way. -/
theorem way_subset_of_moves {path around : Path} (hmoves : around.moves <+: path.moves)
    (habsolute : around.isAbsolute = path.isAbsolute) : around.way ⊆ path.way := by
  intro place hplace
  obtain ⟨front, hfront, rfl⟩ := mem_way_iff.1 hplace
  rw [mem_way_iff, start, start, habsolute]
  exact ⟨front, hfront.trans hmoves, rfl⟩

theorem way_subset_of_mem_ancestorsFrom {fuel : Nat} {path around : Path}
    (h : around ∈ ancestorsFrom fuel path) : around.way ⊆ path.way :=
  way_subset_of_moves (moves_of_mem_ancestorsFrom h).1 (moves_of_mem_ancestorsFrom h).2

theorem place_mem_way_of_mem_ancestors {path around : Path} (h : around ∈ path.ancestors) :
    around.place ∈ path.way := way_subset_of_mem_ancestorsFrom h around.place_mem_way

namespace IsName

variable {name : String}

theorem ne_root (h : IsName name) : name ≠ "/" := by
  rintro rfl
  exact h.plain (by decide)

theorem step (h : IsName name) (place : Place) : place.step name = place ++ [name] :=
  place.step_of_busy h.busy h.staying

end IsName

section Join

variable {folder : Path} {name : String}

theorem start_join (hplain : '/' ∉ name.toList) : (folder.join ⟨name⟩).start = folder.start := by
  rw [start, start, isAbsolute_join hplain]

theorem IsName.place_join (hname : IsName name) (folder : Path) :
    (folder.join ⟨name⟩).place = folder.place ++ [name] := by
  rw [place_eq, place_eq, start_join hname.plain, moves_join hname.busy hname.plain,
    List.foldl_append, List.foldl_cons, List.foldl_nil, hname.step]

theorem place_join (hname : IsFileName name) :
    (folder.join ⟨name⟩).place = folder.place ++ [name] := hname.toIsName.place_join folder

theorem mem_way_join_iff (hname : IsFileName name) {place : Place} :
    place ∈ (folder.join ⟨name⟩).way ↔ place ∈ folder.way ∨ place = folder.place ++ [name] := by
  rw [mem_way_iff, mem_way_iff, start_join hname.plain, moves_join hname.busy hname.plain]
  constructor
  · rintro ⟨moves, hmoves, rfl⟩
    rcases List.prefix_concat_iff.1 hmoves with rfl | hmoves
    · right
      rw [List.foldl_append, List.foldl_cons, List.foldl_nil, hname.step, place_eq]
    · exact Or.inl ⟨moves, hmoves, rfl⟩
  · rintro (⟨moves, hmoves, rfl⟩ | rfl)
    · exact ⟨moves, hmoves.trans (List.prefix_append _ _), rfl⟩
    · refine ⟨folder.moves ++ [name], List.prefix_rfl, ?_⟩
      rw [List.foldl_append, List.foldl_cons, List.foldl_nil, hname.step, place_eq]

end Join

theorem joinSlash_concat {segments : List (List Char)} (hne : segments ≠ []) (last : List Char) :
    joinSlash (segments ++ [last]) = joinSlash segments ++ '/' :: last := by
  induction segments with
  | nil => exact absurd rfl hne
  | cons segment segments ih =>
    cases segments with
    | nil => rfl
    | cons other segments =>
      rw [List.cons_append, List.cons_append, joinSlash_cons_cons, ← List.cons_append, ih (by simp),
        joinSlash_cons_cons, List.append_assoc, List.cons_append]

/-- In front of a segment that is not idle stands nothing or a slash. -/
theorem anchor_cases {text first : List Char}
    (h : [first] <+: splitSlash (text.drop (anchor text).length)) (hbusy : idle first = false) :
    anchor text = [] ∨ (anchor text).getLast? = some '/' := by
  unfold anchor at h ⊢
  split at h
  · exact Or.inr rfl
  · obtain rfl : first = [] := by simpa [splitSlash] using h
    cases hbusy
  · obtain rfl : first = [] := by simpa [splitSlash] using h
    cases hbusy
  · exact Or.inl rfl

/-- A text that is a name or ends in one behind a slash is that name joined to the rest. -/
theorem eq_join_of_text_eq {path : Path} {outer last : List Char}
    (htext : path.text.toList = outer ++ last) (hend : outer = [] ∨ outer.getLast? = some '/')
    (hplain : '/' ∉ last) : path = join ⟨String.ofList outer⟩ ⟨String.ofList last⟩ := by
  have habsolute : isAbsolute ⟨String.ofList last⟩ = false :=
    isAbsolute_of_plain (by simpa using hplain)
  have hcond : ((String.ofList outer).isEmpty ||
      (String.ofList outer).toList.getLast? == some '/') = true := by
    rcases hend with rfl | hend
    · rfl
    · simp [hend]
  rw [join, habsolute, if_neg Bool.false_ne_true, if_pos hcond, ← String.ofList_append, ← htext,
    String.ofList_toList]

/-- A path without its last segment is a name joined to what stands in front of it. -/
theorem exists_join_of_parent? {path parent : Path} (h : path.parent? = some parent)
    (hmoves : parent.moves ≠ []) : ∃ (outer : Path) (last : String),
      parent = outer.join ⟨last⟩ ∧ idle last.toList = false ∧ '/' ∉ last.toList := by
  have hparent : parent.text.toList = anchor path.text.toList ++ joinSlash path.inner := by
    rcases parent?_eq_some h with ⟨-, -, hempty⟩ | ⟨-, hparent⟩
    · rw [moves, hempty] at hmoves
      exact absurd rfl hmoves
    · exact hparent
  have hsplit := path.inner_prefix.trans path.segments_prefix
  have hinner : path.inner ≠ [] := by
    intro hinner
    rw [moves, hparent, hinner, joinSlash, movesOf_anchor_append List.nil_prefix] at hmoves
    exact hmoves rfl
  obtain ⟨front, last, hlast⟩ : ∃ front last, path.inner = front ++ [last] :=
    ⟨_, _, (List.dropLast_concat_getLast hinner).symm⟩
  have hbusy : idle last = false := by
    have hhead := List.head?_dropWhile_not idle path.segments.reverse.tail
    rw [← List.getLast?_reverse, ← inner, hlast, List.getLast?_concat] at hhead
    exact hhead
  have hplain : '/' ∉ last := not_mem_of_mem_splitSlash (hsplit.subset (by simp [hlast]))
  rw [hlast] at hparent hsplit
  obtain ⟨outer, htext, hend⟩ : ∃ outer : List Char,
      parent.text.toList = outer ++ last ∧ (outer = [] ∨ outer.getLast? = some '/') := by
    by_cases hfront : front = []
    · subst hfront
      exact ⟨_, hparent, anchor_cases hsplit hbusy⟩
    · rw [joinSlash_concat hfront, List.append_cons, ← List.append_assoc,
        ← List.append_assoc] at hparent
      exact ⟨_, hparent, Or.inr (by simp)⟩
  exact ⟨_, _, eq_join_of_text_eq htext hend hplain, by simpa using hbusy, by simpa using hplain⟩

theorem exists_parent? {path : Path} (hmoves : path.moves ≠ []) :
    ∃ parent, path.parent? = some parent := by
  rw [moves_eq_segments] at hmoves
  unfold parent?
  dsimp only
  split
  · next hnone =>
    rw [List.reverse_eq_nil_iff.1 hnone] at hmoves
    exact absurd rfl hmoves
  · exact ⟨_, rfl⟩

theorem exists_ancestorsFrom_eq (fuel : Nat) (path : Path) :
    ∃ around, ancestorsFrom fuel path = path :: around := by
  cases fuel with
  | zero => exact ⟨[], rfl⟩
  | succ fuel =>
    rw [ancestorsFrom]
    split
    · exact ⟨_, rfl⟩
    · exact ⟨[], rfl⟩

/-- The paths around a path that has moves start with the path without its last segment. -/
theorem exists_ancestors_eq {path : Path} (hmoves : path.moves ≠ []) :
    ∃ parent around, path.parent? = some parent ∧ path.ancestors = path :: parent :: around := by
  obtain ⟨parent, hparent⟩ := exists_parent? hmoves
  obtain ⟨around, haround⟩ := exists_ancestorsFrom_eq path.text.length parent
  refine ⟨parent, around, hparent, ?_⟩
  rw [ancestors, ancestorsFrom, hparent]
  exact congrArg (path :: ·) haround

/-- Once a path has entered a folder it does not leave it again. -/
def Direct (path : Path) : Prop := ".." ∉ path.moves.dropWhile (· == "..")

instance (path : Path) : Decidable path.Direct :=
  inferInstanceAs (Decidable (".." ∉ path.moves.dropWhile (· == "..")))

theorem Direct.join {folder : Path} {name : String} (h : folder.Direct) (hname : IsFileName name) :
    (folder.join ⟨name⟩).Direct := by
  have hup : (name == "..") = false := by simpa using hname.staying
  rw [Direct, moves_join hname.busy hname.plain, List.dropWhile_append]
  split
  · simpa [hup] using hname.staying.symm
  · rw [List.mem_append, not_or]
    exact ⟨h, by simpa using hname.staying.symm⟩

theorem of_mem_moves {path : Path} {move : String} (h : move ∈ path.moves) :
    idle move.toList = false ∧ '/' ∉ move.toList := by
  rw [moves, movesOf, List.mem_map] at h
  obtain ⟨segment, hsegment, rfl⟩ := h
  obtain ⟨hsplit, hbusy⟩ := List.mem_filter.1 hsegment
  rw [String.toList_ofList]
  exact ⟨by simpa using hbusy, not_mem_of_mem_splitSlash hsplit⟩

theorem isAround_start (path : Path) : path.start.isAround = true := by
  rw [start]
  split <;> rfl

/-- Moves into folders add their names. -/
theorem foldl_step_of_down {moves : List String} (start : Place)
    (h : ∀ move ∈ moves, idle move.toList = false ∧ move ≠ "..") :
    moves.foldl Place.step start = start ++ moves := by
  induction moves generalizing start with
  | nil => exact (List.append_nil start).symm
  | cons move moves ih =>
    rw [List.forall_mem_cons] at h
    rw [List.foldl_cons, start.step_of_busy h.1.1 h.1.2, ih _ h.2, List.append_assoc,
      List.singleton_append]

/-- A direct path leads up first and then only into folders. -/
theorem Direct.exists_place_eq {path : Path} (h : path.Direct) :
    ∃ around inner, path.place = around ++ inner ∧ around.isAround = true ∧
      Place.isInside inner = true := by
  have hrest : ∀ move ∈ path.moves.dropWhile (· == ".."),
      (idle move.toList = false ∧ '/' ∉ move.toList) ∧ move ≠ ".." := fun move hmove =>
    ⟨of_mem_moves ((List.dropWhile_suffix _).subset hmove), fun heq => h (heq ▸ hmove)⟩
  refine ⟨(path.moves.takeWhile (· == "..")).foldl Place.step path.start,
    path.moves.dropWhile (· == ".."), ?_, Place.isAround_foldl_up ?_ fun move hmove => ?_, ?_⟩
  · rw [← foldl_step_of_down _ fun move hmove => ⟨(hrest move hmove).1.1, (hrest move hmove).2⟩,
      ← List.foldl_append, List.takeWhile_append_dropWhile, place_eq]
  · exact path.isAround_start
  · simpa using List.mem_takeWhile_imp hmove
  · simp only [Place.isInside, Place.leavesFolder, Bool.not_eq_true', List.any_eq_false,
      Bool.or_eq_true, beq_iff_eq, not_or]
    refine fun move hmove => ⟨(hrest move hmove).2, ?_⟩
    rintro rfl
    exact (hrest _ hmove).1.2 (by decide)

theorem Direct.of_moves_append {outer path : Path} {rest : List String} (h : path.Direct)
    (hmoves : path.moves = outer.moves ++ rest) : outer.Direct := by
  rw [Direct, hmoves, List.dropWhile_append] at h
  intro hup
  split at h
  · next hnil =>
    rw [List.isEmpty_iff.1 hnil] at hup
    cases hup
  · exact h (List.mem_append_left _ hup)

/-- A direct path into a folder does not end by leaving one. -/
theorem Direct.last_ne_up {path : Path} {front : List String} {last : String} (h : path.Direct)
    (hmoves : path.moves = front ++ [last]) (haround : path.place.isAround = false) : last ≠ ".." := by
  rintro rfl
  rw [Direct, hmoves, List.dropWhile_append] at h
  split at h
  · next hnil =>
    have hup : ∀ move ∈ path.moves, move = ".." := by
      rw [hmoves, List.forall_mem_append]
      exact ⟨by simpa using List.dropWhile_eq_nil_iff.1 (List.isEmpty_iff.1 hnil), by simp⟩
    rw [place_eq, Place.isAround_foldl_up path.isAround_start hup] at haround
    cases haround
  · exact h (by simp)

end Path

namespace Place

/-- Taken from a place, the moves leave no folder that they have entered. -/
def StaysInside (start : Place) (moves : List String) : Prop :=
  ".." ∉ moves ∨ (start.isAround = true ∧ ".." ∉ moves.dropWhile (· == ".."))

theorem StaysInside.step {start : Place} {move : String} {moves : List String}
    (h : StaysInside start (move :: moves)) :
    start <+: start.step move ∧ StaysInside (start.step move) moves := by
  by_cases hup : move = ".."
  · subst hup
    obtain ⟨haround, hrest⟩ := h.resolve_left (by simp)
    obtain ⟨hbegins, habove⟩ := prefix_above haround
    exact ⟨hbegins, Or.inr ⟨habove, by simpa using hrest⟩⟩
  · refine ⟨prefix_step start hup, Or.inl fun hmem => ?_⟩
    rcases h with hnone | ⟨-, hnone⟩
    · exact hnone (List.mem_cons_of_mem _ hmem)
    · rw [List.dropWhile_cons_of_neg (by simpa using hup)] at hnone
      exact hnone (List.mem_cons_of_mem _ hmem)

theorem StaysInside.foldl_prefix {start : Place} {moves front : List String}
    (h : StaysInside start moves) (hfront : front <+: moves) :
    front.foldl Place.step start <+: moves.foldl Place.step start := by
  induction moves generalizing front start with
  | nil =>
    obtain rfl := List.prefix_nil.1 hfront
    exact List.prefix_rfl
  | cons move moves ih =>
    obtain ⟨hstep, hrest⟩ := h.step
    cases front with
    | nil => exact hstep.trans (ih hrest List.nil_prefix)
    | cons first front =>
      obtain ⟨rfl, hfront'⟩ := List.cons_prefix_cons.1 hfront
      exact ih hrest hfront'

end Place

/-- Along a direct path every place lies in those before it. -/
theorem Path.Direct.prefix_of_mem_way {path : Path} (h : path.Direct) {place : Place}
    (hplace : place ∈ path.way) : place <+: path.place := by
  obtain ⟨moves, hmoves, rfl⟩ := mem_way_iff.1 hplace
  have hstays : Place.StaysInside path.start path.moves := Or.inr ⟨path.isAround_start, h⟩
  rw [place_eq]
  exact hstays.foldl_prefix hmoves

end HighlightGrammar
