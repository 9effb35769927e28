import HighlightGrammar.Tree
import Mathlib.Data.List.Nodup

/-!
# Entries with distinct keys

The keys of a mapping are pairwise different. Writing under a new key appends an entry, so the
entries of such a mapping can be written again one by one, and fields with new names stand behind
the attributes in their order. -/
namespace HighlightGrammar

namespace Table

variable {κ ν : Type} {same : κ → κ → Bool}

theorem put_of_fresh {key : κ} {value : ν} {table : List (κ × ν)}
    (h : ∀ e ∈ table, same e.1 key = false) :
    put same key value table = table ++ [(key, value)] := by
  induction table with
  | nil => rfl
  | cons e rest ih =>
    have hrest := ih fun e' he => h e' (by simp [he])
    simp [put, h e (by simp), hrest]

/-- Writing keeps every key, and adds the new one if no key is the same. -/
theorem keys_put (key : κ) (value : ν) (table : List (κ × ν)) :
    (put same key value table).map Prod.fst = table.map Prod.fst ∨
      ((∀ e ∈ table, same e.1 key = false) ∧
        (put same key value table).map Prod.fst = table.map Prod.fst ++ [key]) := by
  by_cases h : ∀ e ∈ table, same e.1 key = false
  · exact Or.inr ⟨h, by simp [put_of_fresh h]⟩
  · left
    induction table with
    | nil => exact absurd (by simp) h
    | cons e rest ih =>
      by_cases he : same e.1 key = true
      · simp [put, he]
      · have hrest : ¬ ∀ e' ∈ rest, same e'.1 key = false := by
          intro hall
          refine h fun e' he' => ?_
          rcases List.mem_cons.1 he' with rfl | he'
          · simpa using he
          · exact hall e' he'
        simpa [put, he] using ih hrest

theorem putAll_of_fresh {table entries : List (κ × ν)}
    (h : (table ++ entries).Pairwise fun a b => same a.1 b.1 = false) :
    putAll same table entries = table ++ entries := by
  induction entries generalizing table with
  | nil => simp [putAll]
  | cons e entries ih =>
    have hfresh : ∀ e' ∈ table, same e'.1 e.1 = false := fun e' he' =>
      (List.pairwise_append.1 h).2.2 e' he' e (by simp)
    have hrest : putAll same (table ++ [e]) entries = table ++ [e] ++ entries :=
      ih (by simpa using h)
    calc putAll same table (e :: entries)
        = putAll same (put same e.1 e.2 table) entries := rfl
      _ = table ++ e :: entries := by rw [put_of_fresh hfresh, hrest]; simp

theorem putAll_of_nodup [DecidableEq κ] {table entries : List (κ × ν)}
    (h : ((table ++ entries).map Prod.fst).Nodup) :
    putAll (· == ·) table entries = table ++ entries := by
  apply putAll_of_fresh
  rw [List.Nodup, List.pairwise_map] at h
  exact h.imp fun hne => beq_eq_false_iff_ne.2 hne

theorem ofList_of_nodup [DecidableEq κ] {entries : List (κ × ν)}
    (h : (entries.map Prod.fst).Nodup) : ofList (· == ·) entries = entries := by
  have hnil : (([] ++ entries).map Prod.fst).Nodup := h
  exact putAll_of_nodup hnil

theorem mem_put {key : κ} {value : ν} {table : List (κ × ν)} {e : κ × ν}
    (h : e ∈ put same key value table) : e ∈ table ∨ e.2 = value := by
  induction table with
  | nil =>
    obtain rfl := List.mem_singleton.1 h
    exact Or.inr rfl
  | cons e' rest ih =>
    by_cases hkey : same e'.1 key = true
    · simp only [put, hkey, if_true] at h
      rcases List.mem_cons.1 h with rfl | h
      · exact Or.inr rfl
      · exact Or.inl (by simp [h])
    · simp only [put, hkey] at h
      rcases List.mem_cons.1 h with rfl | h
      · exact Or.inl (by simp)
      · rcases ih h with h | h
        · exact Or.inl (by simp [h])
        · exact Or.inr h

/-- No value of a table is made up. -/
theorem mem_putAll {table entries : List (κ × ν)} {e : κ × ν} (h : e ∈ putAll same table entries) :
    e ∈ table ∨ e.2 ∈ entries.map Prod.snd := by
  induction entries generalizing table with
  | nil => exact Or.inl h
  | cons e' entries ih =>
    rcases ih h with h | h
    · rcases mem_put h with h | h
      · exact Or.inl h
      · exact Or.inr (by simp [h])
    · exact Or.inr (by simp only [List.map_cons, List.mem_cons, h, or_true])

theorem nodup_keys_putAll [DecidableEq κ] {table entries : List (κ × ν)}
    (h : (table.map Prod.fst).Nodup) : ((putAll (· == ·) table entries).map Prod.fst).Nodup := by
  induction entries generalizing table with
  | nil => exact h
  | cons e entries ih => exact ih (nodup_keys_put h)

end Table

namespace Tree

@[simp] theorem same_string_right (text : String) (key : Tree) :
    same key (.string text) = true ↔ key = .string text := by
  cases key <;> simp [same]

@[simp] theorem same_string_left (text : String) (key : Tree) :
    same (.string text) key = true ↔ key = .string text := by
  cases key with
  | string other =>
    simp only [same, beq_iff_eq, string.injEq]
    exact eq_comm
  | _ => simp [same]

def plainText? : Tree → Option String
  | string text => some text
  | _ => none

theorem plainText?_eq_some_iff {tree : Tree} {text : String} :
    tree.plainText? = some text ↔ tree = .string text := by
  cases tree <;> simp [plainText?]

end Tree

namespace Entries

/-- No entry has the key of an earlier one. -/
def DistinctKeys (entries : Entries) : Prop :=
  entries.Pairwise fun a b => Tree.same a.1 b.1 = false

instance (entries : Entries) : Decidable entries.DistinctKeys :=
  inferInstanceAs (Decidable (entries.Pairwise fun a b => Tree.same a.1 b.1 = false))

/-- The keys that are plain strings, in order. -/
def textKeys (entries : Entries) : List String := entries.filterMap fun e => e.1.plainText?

theorem mem_textKeys_iff {entries : Entries} {name : String} :
    name ∈ entries.textKeys ↔ ∃ value, (.string name, value) ∈ entries := by
  simp only [textKeys, List.mem_filterMap, Tree.plainText?_eq_some_iff]
  constructor
  · rintro ⟨⟨key, value⟩, he, rfl⟩
    exact ⟨value, he⟩
  · rintro ⟨value, he⟩
    exact ⟨_, he, rfl⟩

theorem DistinctKeys.nodup_textKeys {entries : Entries} (h : entries.DistinctKeys) :
    entries.textKeys.Nodup := by
  refine List.Pairwise.filterMap _ ?_ h
  rintro ⟨k, v⟩ ⟨k', v'⟩ hne name hname name' hname' rfl
  obtain rfl : k = .string name := Tree.plainText?_eq_some_iff.1 hname
  obtain rfl : k' = .string name := Tree.plainText?_eq_some_iff.1 hname'
  simp [Tree.same] at hne

theorem DistinctKeys.put {entries : Entries} (h : entries.DistinctKeys) (key value : Tree) :
    (entries.put key value).DistinctKeys := by
  have hkeys : ∀ es : Entries, es.DistinctKeys ↔
      (es.map Prod.fst).Pairwise fun a b => Tree.same a b = false := fun es => by
    rw [List.pairwise_map]
    rfl
  rw [hkeys] at h ⊢
  rcases @Table.keys_put _ _ Tree.same key value entries with heq | ⟨hfresh, heq⟩
  · rwa [Entries.put, heq]
  · rw [Entries.put, heq, List.pairwise_append]
    refine ⟨h, by simp, fun a ha b hb => ?_⟩
    obtain ⟨e, he, rfl⟩ := List.mem_map.1 ha
    obtain rfl := List.mem_singleton.1 hb
    exact hfresh e he

/-- A key that is a plain string finds the one value that stands under it. -/
theorem DistinctKeys.get?_eq_some_iff {entries : Entries} (h : entries.DistinctKeys)
    {name : String} {value : Tree} :
    entries.get? name = some value ↔ (.string name, value) ∈ entries := by
  induction entries with
  | nil => simp [get?, Table.get?]
  | cons e entries ih =>
    obtain ⟨key, first⟩ := e
    obtain ⟨hfirst, hrest⟩ := List.pairwise_cons.1 h
    by_cases hkey : key = .string name
    · subst hkey
      have hfresh : (.string name, value) ∉ entries := by
        intro hmem
        have hsame := hfirst _ hmem
        simp [Tree.same] at hsame
      have hget : get? ((.string name, first) :: entries) name = some first := by
        simp [get?, Table.get?]
      simp [hget, hfresh, eq_comm]
    · have hdiffer : Tree.same key (.string name) = false := by
        rwa [Bool.eq_false_iff, ne_eq, Tree.same_string_right]
      simpa [get?, Table.get?, hdiffer, Ne.symm hkey] using ih hrest

/-- What stands under a string key stood there before or was written there. -/
theorem mem_put_string {entries : Entries} {key value v : Tree} {name : String}
    (h : (.string name, v) ∈ entries.put key value) :
    (.string name, v) ∈ entries ∨ key = .string name ∧ v = value := by
  induction entries with
  | nil =>
    obtain ⟨hkey, hvalue⟩ := Prod.mk.inj (List.mem_singleton.1 h)
    exact Or.inr ⟨hkey.symm, hvalue⟩
  | cons e entries ih =>
    by_cases hsame : Tree.same e.1 key = true
    · simp only [put, Table.put, hsame, if_true, List.mem_cons, Prod.mk.injEq] at h
      rcases h with ⟨hkey, hvalue⟩ | h
      · rw [← hkey, Tree.same_string_left] at hsame
        exact Or.inr ⟨hsame, hvalue⟩
      · exact Or.inl (by simp [h])
    · simp only [put, Table.put, hsame] at h
      rcases List.mem_cons.1 h with h | h
      · exact Or.inl (by simp [h])
      · rcases ih h with h | h
        · exact Or.inl (by simp [h])
        · exact Or.inr h

theorem mem_putText_self (entries : Entries) (name : String) (value : Tree) :
    (.string name, value) ∈ entries.putText name value := by
  induction entries with
  | nil => simp [putText, put, Table.put]
  | cons e entries ih =>
    by_cases hkey : e.1 = .string name
    · simp [putText, put, Table.put, hkey]
    · have hsame : Tree.same e.1 (.string name) = false := by
        rwa [Bool.eq_false_iff, ne_eq, Tree.same_string_right]
      simpa [putText, put, Table.put, hsame] using Or.inr ih

theorem mem_putText_of_ne {entries : Entries} {name other : String} (hne : other ≠ name)
    (value : Tree) {v : Tree} (h : (.string other, v) ∈ entries) :
    (.string other, v) ∈ entries.putText name value := by
  induction entries with
  | nil => cases h
  | cons e entries ih =>
    by_cases hkey : e.1 = .string name
    · rcases List.mem_cons.1 h with rfl | h
      · exact absurd (Tree.string.inj hkey) hne
      · simp [putText, put, Table.put, hkey, h]
    · have hsame : Tree.same e.1 (.string name) = false := by
        rwa [Bool.eq_false_iff, ne_eq, Tree.same_string_right]
      rcases List.mem_cons.1 h with rfl | h
      · simp [putText, put, Table.put, hsame]
      · simpa [putText, put, Table.put, hsame] using Or.inr (ih h)

theorem mem_putText_iff {entries : Entries} (hkeys : entries.DistinctKeys) {name other : String}
    {value v : Tree} : (.string other, v) ∈ entries.putText name value ↔
      (other = name ∧ v = value) ∨ (other ≠ name ∧ (.string other, v) ∈ entries) := by
  constructor
  · intro h
    by_cases hname : other = name
    · subst hname
      have hput := hkeys.put (.string other) value
      have hself := hput.get?_eq_some_iff.2 (mem_putText_self entries other value)
      have hmem := hput.get?_eq_some_iff.2 h
      exact Or.inl ⟨rfl, Option.some.inj (hmem.symm.trans hself)⟩
    · rcases mem_put_string h with h | ⟨hkey, -⟩
      · exact Or.inr ⟨hname, h⟩
      · exact absurd (Tree.string.inj hkey).symm hname
  · rintro (⟨rfl, rfl⟩ | ⟨hne, h⟩)
    · exact mem_putText_self entries other v
    · exact mem_putText_of_ne hne value h

/-- Under a string key stands what was written there or, if nothing was, what stood there. -/
theorem mem_putTexts_iff {entries : Entries} (hkeys : entries.DistinctKeys)
    {named : List (String × Tree)} (hnodup : (named.map Prod.fst).Nodup) {name : String}
    {value : Tree} : (.string name, value) ∈ entries.putTexts named ↔
      (name, value) ∈ named ∨ (name ∉ named.map Prod.fst ∧ (.string name, value) ∈ entries) := by
  induction named generalizing entries with
  | nil => simp [putTexts]
  | cons e named ih =>
    obtain ⟨key, written⟩ := e
    obtain ⟨hfresh, hrest⟩ := List.nodup_cons.1 hnodup
    have hput : (entries.putText key written).DistinctKeys := hkeys.put (.string key) written
    have hcons : entries.putTexts ((key, written) :: named) =
        (entries.putText key written).putTexts named := rfl
    rw [hcons, ih hput hrest, mem_putText_iff hkeys]
    simp only [List.mem_cons, List.map_cons, Prod.mk.injEq, not_or]
    constructor
    · rintro (h | ⟨hnot, ⟨rfl, rfl⟩ | ⟨hne, h⟩⟩)
      · exact Or.inl (Or.inr h)
      · exact Or.inl (Or.inl ⟨rfl, rfl⟩)
      · exact Or.inr ⟨⟨hne, hnot⟩, h⟩
    · rintro ((⟨rfl, rfl⟩ | h) | ⟨⟨hne, hnot⟩, h⟩)
      · exact Or.inr ⟨hfresh, Or.inl ⟨rfl, rfl⟩⟩
      · exact Or.inl h
      · exact Or.inr ⟨hnot, Or.inr ⟨hne, h⟩⟩

/-- Fields with new names stand behind the entries in their order. -/
theorem putTexts_eq_append {entries : Entries} {named : List (String × Tree)}
    (hnodup : (named.map Prod.fst).Nodup) (hfresh : ∀ e ∈ named, e.1 ∉ entries.textKeys) :
    entries.putTexts named = entries ++ named.map fun e => (.string e.1, e.2) := by
  induction named generalizing entries with
  | nil => simp [putTexts]
  | cons e named ih =>
    rw [List.map_cons, List.nodup_cons] at hnodup
    have hput : entries.putText e.1 e.2 = entries ++ [(.string e.1, e.2)] := by
      refine Table.put_of_fresh fun e' he' => ?_
      rw [Bool.eq_false_iff, ne_eq, Tree.same_string_right]
      intro hkey
      refine hfresh e (by simp) (mem_textKeys_iff.2 ⟨e'.2, ?_⟩)
      rw [← hkey]
      exact he'
    have hrest : (entries.putText e.1 e.2).putTexts named =
        entries.putText e.1 e.2 ++ named.map fun e => (.string e.1, e.2) := by
      refine ih hnodup.2 fun e' he' => ?_
      rw [hput, mem_textKeys_iff]
      rintro ⟨value, hvalue⟩
      rcases List.mem_append.1 hvalue with hvalue | hvalue
      · exact hfresh e' (by simp [he']) (mem_textKeys_iff.2 ⟨value, hvalue⟩)
      · simp only [List.mem_singleton, Prod.mk.injEq, Tree.string.injEq] at hvalue
        exact hnodup.1 (hvalue.1 ▸ List.mem_map_of_mem he')
    calc entries.putTexts (e :: named) = (entries.putText e.1 e.2).putTexts named := rfl
      _ = entries ++ (e :: named).map fun e => (.string e.1, e.2) := by rw [hrest, hput]; simp

end Entries

end HighlightGrammar
