import HighlightGrammar.Grammar.VariableTable
import Mathlib.Data.List.Perm.Basic

/-!
# Overriding a table

Overrides are sorted by name and then declared one by one. A name that is declared twice keeps its
first position and takes its last text, so the names of an overridden table are those of the table
and behind them the other names of the overrides, and a text comes from the overrides if they have
one. -/
namespace HighlightGrammar

namespace VariableTable

theorem placeByName_perm (entry : String × String) (sorted : List (String × String)) :
    (placeByName entry sorted).Perm (entry :: sorted) := by
  induction sorted with
  | nil => exact .refl _
  | cons e sorted ih =>
    rw [placeByName]
    split
    · exact .refl _
    · exact (ih.cons e).trans (.swap entry e sorted)

theorem byName_perm (table : VariableTable) : table.byName.Perm table.entries := by
  have hfold : ∀ entries sorted : List (String × String),
      (entries.foldl (fun sorted e => placeByName e sorted) sorted).Perm (entries ++ sorted) := by
    intro entries
    induction entries with
    | nil => exact fun _ => .refl _
    | cons e entries ih =>
      intro sorted
      refine (ih (placeByName e sorted)).trans ?_
      exact ((placeByName_perm e sorted).append_left entries).trans List.perm_middle
  simpa [byName] using hfold table.entries []

variable {table : VariableTable} {entries : List (String × String)}

/-- Each name keeps its first position. -/
theorem names_insertAll (hdistinct : (entries.map Prod.fst).Nodup) :
    (table.insertAll entries).names =
      table.names ++ (entries.map Prod.fst).filter (· ∉ table.names) := by
  induction entries generalizing table with
  | nil => simp [insertAll]
  | cons e entries ih =>
    have hrest := List.nodup_cons.1 hdistinct
    have hinsert : table.insertAll (e :: entries) = (table.insert e.1 e.2).insertAll entries := rfl
    rw [hinsert, ih hrest.2, names_insert]
    by_cases he : e.1 ∈ table.names
    · simp [he]
    · have hsame : ∀ name ∈ entries.map Prod.fst,
          decide (name ∉ table.names ++ [e.1]) = decide (name ∉ table.names) := by
        intro name hname
        have hne : name ≠ e.1 := fun heq => hrest.1 (heq ▸ hname)
        simp [hne]
      rw [if_neg he, List.filter_congr hsame, List.map_cons, List.filter_cons_of_pos (by simpa),
        List.append_assoc, List.singleton_append]

/-- Each name takes its last text. -/
theorem get?_insertAll (hdistinct : (entries.map Prod.fst).Nodup) (name : String) :
    (table.insertAll entries).get? name =
      (Table.get? (· == ·) name entries).or (table.get? name) := by
  induction entries generalizing table with
  | nil => rfl
  | cons e entries ih =>
    have hrest := List.nodup_cons.1 hdistinct
    have hinsert : table.insertAll (e :: entries) = (table.insert e.1 e.2).insertAll entries := rfl
    rw [hinsert, ih hrest.2, get?_insert]
    by_cases he : name = e.1
    · have hnone : Table.get? (· == ·) name entries = none := by
        rw [Table.get?, Option.map_eq_none_iff, List.find?_eq_none]
        intro e' he' hsame
        exact hrest.1 (he ▸ beq_iff_eq.1 hsame ▸ List.mem_map_of_mem he')
      rw [if_pos he, hnone]
      simp [Table.get?, he]
    · have hskip : Table.get? (· == ·) name (e :: entries) = Table.get? (· == ·) name entries := by
        simp [Table.get?, Ne.symm he]
      rw [if_neg he, hskip]

theorem get?_eq_some_iff {name text : String} :
    table.get? name = some text ↔ (name, text) ∈ table.entries :=
  Table.get?_eq_some_iff table.distinct

theorem distinct_byName (table : VariableTable) : (table.byName.map Prod.fst).Nodup :=
  (table.byName_perm.map Prod.fst).nodup_iff.2 table.distinct

variable {overrides : VariableTable}

theorem names_applyOverrides : (table.applyOverrides overrides).names =
    table.names ++ (overrides.byName.map Prod.fst).filter (· ∉ table.names) :=
  names_insertAll overrides.distinct_byName

theorem get?_applyOverrides (name : String) : (table.applyOverrides overrides).get? name =
    (overrides.get? name).or (table.get? name) := by
  have hsorted : Table.get? (· == ·) name overrides.byName = overrides.get? name := by
    ext text
    rw [get?_eq_some_iff, Table.get?_eq_some_iff overrides.distinct_byName,
      overrides.byName_perm.mem_iff]
  rw [applyOverrides, get?_insertAll overrides.distinct_byName, hsorted]

/-- Every variable comes from one of the two tables. -/
theorem mem_applyOverrides {v : String × String}
    (h : v ∈ (table.applyOverrides overrides).entries) :
    v ∈ overrides.entries ∨ v ∈ table.entries := by
  rw [← get?_eq_some_iff, get?_applyOverrides, Option.or_eq_some_iff] at h
  rcases h with h | ⟨-, h⟩
  · exact Or.inl (get?_eq_some_iff.1 h)
  · exact Or.inr (get?_eq_some_iff.1 h)

end VariableTable

end HighlightGrammar
