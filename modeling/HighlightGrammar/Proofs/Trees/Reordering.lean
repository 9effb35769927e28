import HighlightGrammar.Proofs.Trees.Entries
import Mathlib.Data.List.Forall2

/-!
# Reordered mappings

The entries of a mapping stand in an order that says nothing. Two trees are one up to this order
when they differ only in the order of entries inside mappings, at whatever depth. In a tree that is
well keyed no mapping has a key twice. -/
namespace HighlightGrammar

namespace Tree

/-- Two trees are equal up to the order of the entries inside mappings. -/
inductive Reordered : Tree → Tree → Prop
  | refl (tree : Tree) : Reordered tree tree
  | sequence {as bs : List Tree} (items : List.Forall₂ Reordered as bs) :
      Reordered (.sequence as) (.sequence bs)
  | mapping {as bs cs : Entries} (order : as.Perm bs) (keys : bs.map Prod.fst = cs.map Prod.fst)
      (values : List.Forall₂ Reordered (bs.map Prod.snd) (cs.map Prod.snd)) :
      Reordered (.mapping as) (.mapping cs)
  | tagged {tag : String} {a b : Tree} (content : Reordered a b) :
      Reordered (.tagged tag a) (.tagged tag b)

theorem Reordered.sequence_map {α : Type} {xs : List α} {f g : α → Tree}
    (h : ∀ x ∈ xs, Reordered (f x) (g x)) :
    Reordered (.sequence (xs.map f)) (.sequence (xs.map g)) := by
  refine .sequence ?_
  rw [List.forall₂_map_left_iff, List.forall₂_map_right_iff, List.forall₂_same]
  exact h

/-- Mappings whose entries correspond, those of the first in some other order. -/
theorem Reordered.mapping_map {α : Type} {xs : List α} {as : Entries} {f g : α → Tree × Tree}
    (horder : as.Perm (xs.map f)) (hkeys : ∀ x ∈ xs, (f x).1 = (g x).1)
    (hvalues : ∀ x ∈ xs, Reordered (f x).2 (g x).2) :
    Reordered (.mapping as) (.mapping (xs.map g)) := by
  refine .mapping horder ?_ ?_
  · rw [List.map_map, List.map_map]
    exact List.map_congr_left hkeys
  · rw [List.map_map, List.map_map, List.forall₂_map_left_iff, List.forall₂_map_right_iff,
      List.forall₂_same]
    exact hvalues

mutual

/-- No mapping in a tree has a key twice. All trees that are read from text are so. -/
def wellKeyed : Tree → Bool
  | mapping entries => decide (Entries.DistinctKeys entries) && entriesWellKeyed entries
  | sequence items => itemsWellKeyed items
  | tagged _ content => content.wellKeyed
  | _ => true
termination_by structural tree => tree

def itemsWellKeyed : List Tree → Bool
  | [] => true
  | item :: items => item.wellKeyed && itemsWellKeyed items
termination_by structural items => items

def entriesWellKeyed : List (Tree × Tree) → Bool
  | [] => true
  | (key, value) :: rest => key.wellKeyed && value.wellKeyed && entriesWellKeyed rest
termination_by structural entries => entries

end

theorem wellKeyed_sequence_iff {items : List Tree} :
    (sequence items).wellKeyed = true ↔ ∀ item ∈ items, item.wellKeyed = true := by
  rw [wellKeyed]
  induction items with
  | nil => simp [itemsWellKeyed]
  | cons item items ih => simp [itemsWellKeyed, ih]

theorem wellKeyed_mapping_iff {entries : Entries} :
    (mapping entries).wellKeyed = true ↔ entries.DistinctKeys ∧
      ∀ e ∈ entries, e.1.wellKeyed = true ∧ e.2.wellKeyed = true := by
  have hentries : entriesWellKeyed entries = true ↔
      ∀ e ∈ entries, e.1.wellKeyed = true ∧ e.2.wellKeyed = true := by
    induction entries with
    | nil => simp [entriesWellKeyed]
    | cons e entries ih =>
      obtain ⟨key, value⟩ := e
      simp only [entriesWellKeyed, Bool.and_eq_true, ih, List.forall_mem_cons]
  rw [wellKeyed, Bool.and_eq_true, decide_eq_true_eq, hentries]

theorem wellKeyed_of_mem_entries {entries : Entries} {e : Tree × Tree}
    (h : (mapping entries).wellKeyed = true) (hmem : e ∈ entries) : e.2.wellKeyed = true :=
  ((wellKeyed_mapping_iff.1 h).2 e hmem).2

theorem distinctKeys_of_wellKeyed {entries : Entries} (h : (mapping entries).wellKeyed = true) :
    entries.DistinctKeys := (wellKeyed_mapping_iff.1 h).1

theorem wellKeyed_put {entries : Entries} {key value : Tree}
    (h : (mapping entries).wellKeyed = true) (hkey : key.wellKeyed = true)
    (hvalue : value.wellKeyed = true) : (mapping (entries.put key value)).wellKeyed = true := by
  obtain ⟨hdistinct, hentries⟩ := wellKeyed_mapping_iff.1 h
  have hkeys : ∀ e ∈ entries.put key value, e.1.wellKeyed = true := by
    intro e he
    have hmem := List.mem_map_of_mem (f := Prod.fst) he
    have hold : ∀ k ∈ entries.map Prod.fst, k.wellKeyed = true := by
      intro k hk
      obtain ⟨e', he', rfl⟩ := List.mem_map.1 hk
      exact (hentries e' he').1
    rcases @Table.keys_put _ _ same key value entries with heq | ⟨-, heq⟩
    · rw [Entries.put, heq] at hmem
      exact hold _ hmem
    · rw [Entries.put, heq] at hmem
      rcases List.mem_append.1 hmem with hmem | hmem
      · exact hold _ hmem
      · rwa [List.mem_singleton.1 hmem]
  refine wellKeyed_mapping_iff.2 ⟨hdistinct.put key value, fun e he => ⟨hkeys e he, ?_⟩⟩
  rcases Table.mem_put he with he | hwritten
  · exact (hentries e he).2
  · rwa [hwritten]

theorem wellKeyed_putTexts {entries : Entries} {named : List (String × Tree)}
    (h : (mapping entries).wellKeyed = true) (hnamed : ∀ e ∈ named, e.2.wellKeyed = true) :
    (mapping (entries.putTexts named)).wellKeyed = true := by
  induction named generalizing entries with
  | nil => exact h
  | cons e named ih =>
    exact ih (wellKeyed_put h rfl (hnamed e (by simp))) fun e' he' => hnamed e' (by simp [he'])

def entries : Tree → Entries
  | mapping entries => entries
  | _ => []

/-- A tree stands in a value as an item or under a key. -/
inductive Inside (tree : Tree) : Tree → Prop
  | item {items : List Tree} (mem : tree ∈ items) : Inside tree (.sequence items)
  | value {key : Tree} {entries : Entries} (mem : (key, tree) ∈ entries) :
      Inside tree (.mapping entries)

theorem Inside.sizeOf_lt {tree value : Tree} (h : Inside tree value) :
    sizeOf tree < sizeOf value := by
  cases h with
  | item mem =>
    have hlt := List.sizeOf_lt_of_mem mem
    rw [sequence.sizeOf_spec]
    omega
  | value mem =>
    have hlt := List.sizeOf_lt_of_mem mem
    rw [mapping.sizeOf_spec]
    rw [Prod.mk.sizeOf_spec] at hlt
    omega

theorem Inside.of_mem {entries : Entries} {e : Tree × Tree} (h : e ∈ entries) :
    Inside e.2 (.mapping entries) := by
  obtain ⟨key, value⟩ := e
  exact .value h

theorem Inside.wellKeyed {tree value : Tree} (h : Inside tree value)
    (hvalue : value.wellKeyed = true) : tree.wellKeyed = true := by
  cases h with
  | item mem => exact wellKeyed_sequence_iff.1 hvalue tree mem
  | value mem => exact wellKeyed_of_mem_entries hvalue mem

/-- A property of trees that passes from what stands in the values of a mapping to the mapping holds
for all trees if it holds for those that are no mappings. -/
@[elab_as_elim]
theorem ruleInduction {P : Tree → Prop} (other : ∀ tree, (∀ es, tree ≠ .mapping es) → P tree)
    (mapping : ∀ es : Entries, (∀ e ∈ es, ∀ tree, Inside tree e.2 → P tree) → P (.mapping es))
    (tree : Tree) : P tree := by
  induction hn : sizeOf tree using Nat.strongRecOn generalizing tree with
  | ind n ih =>
    cases tree with
    | mapping es =>
      refine mapping es fun e he inner hinner => ?_
      have hvalue : Inside e.2 (.mapping es) := .of_mem he
      have hlt := Nat.lt_trans hinner.sizeOf_lt hvalue.sizeOf_lt
      exact ih (sizeOf inner) (by omega) inner rfl
    | _ => exact other _ (by rintro es ⟨⟩)

end Tree

end HighlightGrammar
