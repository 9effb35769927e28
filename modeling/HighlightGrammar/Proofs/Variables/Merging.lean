import HighlightGrammar.Proofs.Text.ByteOrder
import HighlightGrammar.Proofs.Variables.Overriding

/-!
# Merging overrides into a table

The overrides that name new variables stand behind the table in the order of their bytes, whatever
order they were given in. Overriding twice is overriding once, and overrides of different names do
not disturb each other. -/
namespace HighlightGrammar

namespace VariableTable

theorem mem_names_iff {table : VariableTable} {name : String} :
    name ∈ table.names ↔ (table.get? name).isSome := by
  rw [Option.isSome_iff_exists, names, List.mem_map]
  simp only [get?_eq_some_iff]
  constructor
  · rintro ⟨⟨_, text⟩, hmem, rfl⟩
    exact ⟨text, hmem⟩
  · rintro ⟨text, hmem⟩
    exact ⟨_, hmem, rfl⟩

theorem get?_eq_none_of_not_mem {table : VariableTable} {name : String} (h : name ∉ table.names) :
    table.get? name = none := by
  rwa [mem_names_iff, Option.not_isSome_iff_eq_none] at h

/-- A table is told by the order of its names and by their texts. -/
theorem eq_of_names_eq {table other : VariableTable} (hnames : table.names = other.names)
    (htexts : ∀ name, table.get? name = other.get? name) : table = other := by
  have hentries : ∀ table : VariableTable,
      table.entries = table.names.map fun name => (name, (table.get? name).getD "") := by
    intro table
    rw [names, List.map_map]
    refine (List.map_id _).symm.trans (List.map_congr_left fun v hv => ?_)
    rw [Function.comp_apply, get?_eq_some_iff.2 hv]
    rfl
  have hsame : table.entries = other.entries := by
    rw [hentries table, hentries other, hnames]
    exact List.map_congr_left fun name _ => by rw [htexts]
  cases table
  cases other
  cases hsame
  rfl

section

variable {entry : String × String} {sorted : List (String × String)}

theorem pairwise_placeByName (h : sorted.Pairwise fun a b => a.1 ≤ b.1) :
    (placeByName entry sorted).Pairwise fun a b => a.1 ≤ b.1 := by
  induction sorted with
  | nil => exact List.pairwise_singleton _ _
  | cons e sorted ih =>
    obtain ⟨hfirst, hrest⟩ := List.pairwise_cons.1 h
    rw [placeByName]
    split
    · next hlt =>
      have hle : entry.1 ≤ e.1 := String.not_lt.1 (String.lt_asymm hlt)
      refine List.pairwise_cons.2 ⟨?_, h⟩
      exact List.forall_mem_cons.2 ⟨hle, fun e' he' => String.le_trans hle (hfirst e' he')⟩
    · next hnot =>
      refine List.pairwise_cons.2 ⟨fun e' he' => ?_, ih hrest⟩
      rcases List.mem_cons.1 ((placeByName_perm entry sorted).mem_iff.1 he') with rfl | he'
      · exact String.not_lt.1 hnot
      · exact hfirst e' he'

/-- Sorted entries come in the order of their names, and no name comes twice. -/
theorem pairwise_byName (table : VariableTable) :
    (table.byName.map Prod.fst).Pairwise (· < ·) := by
  have hfold : ∀ entries sorted : List (String × String),
      (sorted.Pairwise fun a b => a.1 ≤ b.1) →
      (entries.foldl (fun sorted e => placeByName e sorted) sorted).Pairwise fun a b =>
        a.1 ≤ b.1 := by
    intro entries
    induction entries with
    | nil => exact fun _ h => h
    | cons e entries ih => exact fun sorted h => ih _ (pairwise_placeByName h)
  have hle : (table.byName.map Prod.fst).Pairwise (· ≤ ·) :=
    List.pairwise_map.2 (hfold table.entries [] .nil)
  refine hle.imp₂ ?_ table.distinct_byName
  exact fun a b hle hne => String.not_le.1 fun hge => hne (String.le_antisymm hle hge)

end

variable {table overrides others : VariableTable}

theorem mem_map_byName_iff {name : String} :
    name ∈ table.byName.map Prod.fst ↔ name ∈ table.names :=
  (table.byName_perm.map Prod.fst).mem_iff

/-- The names that overrides add to a table. -/
theorem pairwise_added (table overrides : VariableTable) :
    ((overrides.byName.map Prod.fst).filter (· ∉ table.names)).Pairwise fun a b =>
      Text.bytes a < Text.bytes b :=
  (overrides.pairwise_byName.filter _).imp Text.bytes_lt_of_lt

theorem names_applyOverrides_self :
    ((table.applyOverrides overrides).applyOverrides overrides).names =
      (table.applyOverrides overrides).names := by
  have hnone : (overrides.byName.map Prod.fst).filter
      (· ∉ (table.applyOverrides overrides).names) = [] := by
    rw [List.filter_eq_nil_iff]
    intro name hname
    have hknown : name ∈ (table.applyOverrides overrides).names := by
      have hsome := mem_names_iff.1 (mem_map_byName_iff.1 hname)
      rw [mem_names_iff, get?_applyOverrides, Option.isSome_or, hsome, Bool.true_or]
    simpa using hknown
  rw [names_applyOverrides, hnone, List.append_nil]

theorem get?_applyOverrides_comm (hdisjoint : ∀ name ∈ others.names, name ∉ overrides.names)
    (name : String) : ((table.applyOverrides overrides).applyOverrides others).get? name =
      ((table.applyOverrides others).applyOverrides overrides).get? name := by
  simp only [get?_applyOverrides]
  by_cases hname : name ∈ others.names
  · rw [get?_eq_none_of_not_mem (hdisjoint name hname), Option.none_or, Option.none_or]
  · rw [get?_eq_none_of_not_mem hname, Option.none_or, Option.none_or]

theorem idxOf_names_applyOverrides {name : String} (h : name ∈ table.names) :
    (table.applyOverrides overrides).names.idxOf name = table.names.idxOf name := by
  rw [names_applyOverrides, List.idxOf_append_of_mem h]

theorem mem_names_applyOverrides {name : String} (h : name ∈ table.names) :
    name ∈ (table.applyOverrides overrides).names := by
  rw [names_applyOverrides]
  exact List.mem_append_left _ h

/-- An overridden table has the names of the table and behind them, by their bytes, those that only
the overrides have; a text comes from the overrides where they have one. The same overrides change
nothing when they come again, and overrides of other names may come before or after. -/
theorem applyOverrides_merges (table overrides : VariableTable) :
    (∃ added, (table.applyOverrides overrides).names = table.names ++ added ∧
      (∀ name, name ∈ added ↔ name ∈ overrides.names ∧ name ∉ table.names) ∧
      added.Pairwise fun a b => Text.bytes a < Text.bytes b) ∧
    (∀ name, (table.applyOverrides overrides).get? name =
      (overrides.get? name).or (table.get? name)) ∧
    (table.applyOverrides overrides).applyOverrides overrides = table.applyOverrides overrides ∧
    ∀ others : VariableTable, (∀ name ∈ others.names, name ∉ overrides.names) →
      (∀ name, ((table.applyOverrides overrides).applyOverrides others).get? name =
        ((table.applyOverrides others).applyOverrides overrides).get? name) ∧
      ∀ name ∈ table.names,
        ((table.applyOverrides overrides).applyOverrides others).names.idxOf name =
          table.names.idxOf name ∧
        ((table.applyOverrides others).applyOverrides overrides).names.idxOf name =
          table.names.idxOf name := by
  refine ⟨⟨_, names_applyOverrides, ?_, pairwise_added table overrides⟩, get?_applyOverrides, ?_, ?_⟩
  · intro name
    rw [List.mem_filter, mem_map_byName_iff, decide_eq_true_eq]
  · refine eq_of_names_eq names_applyOverrides_self fun name => ?_
    rw [get?_applyOverrides, get?_applyOverrides, ← Option.or_assoc, Option.or_self]
  · intro others hdisjoint
    refine ⟨get?_applyOverrides_comm hdisjoint, fun name hname => ⟨?_, ?_⟩⟩
    · rw [idxOf_names_applyOverrides (mem_names_applyOverrides hname),
        idxOf_names_applyOverrides hname]
    · rw [idxOf_names_applyOverrides (mem_names_applyOverrides hname),
        idxOf_names_applyOverrides hname]

def keywordTable : VariableTable := .ofList [("identifier", "x"), ("keyword", "{{identifier}}")]

def letterOverrides : VariableTable :=
  .ofList [("zeta", "Z"), ("\u00e9", "E"), ("identifier", "ID"), ("Zeta", "z")]

theorem applyOverrides_merges_letters :
    (∀ name ∈ (ofList [("digit", "D")]).names, name ∉ letterOverrides.names) ∧
    ∀ name, ((keywordTable.applyOverrides letterOverrides).applyOverrides
        (.ofList [("digit", "D")])).get? name =
      ((keywordTable.applyOverrides (.ofList [("digit", "D")])).applyOverrides
        letterOverrides).get? name := by
  have hdisjoint : ∀ name ∈ (ofList [("digit", "D")]).names, name ∉ letterOverrides.names := by
    decide +kernel
  exact ⟨hdisjoint, ((applyOverrides_merges keywordTable letterOverrides).2.2.2 _ hdisjoint).1⟩

/-- Capital letters come before small ones and these before all others. -/
example : (keywordTable.applyOverrides letterOverrides).entries =
    [("identifier", "ID"), ("keyword", "{{identifier}}"), ("Zeta", "z"), ("zeta", "Z"),
      ("\u00e9", "E")] := by decide +kernel

end VariableTable

end HighlightGrammar
