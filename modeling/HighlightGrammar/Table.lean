/-! # Insertion-ordered tables

A table is a list of keys with their values. Writing under a key that is already there replaces the
value and moves nothing; a new key goes to the end. The equality of keys is a parameter, since the
keys of a document tree are compared by meaning. -/
namespace HighlightGrammar.Table

variable {κ ν μ : Type}

/-- Writes a value under a key. -/
def put (same : κ → κ → Bool) (key : κ) (value : ν) : List (κ × ν) → List (κ × ν)
  | [] => [(key, value)]
  | (k, v) :: rest => if same k key then (k, value) :: rest else (k, v) :: put same key value rest

/-- Writes all entries of a list, in order. -/
def putAll (same : κ → κ → Bool) (table entries : List (κ × ν)) : List (κ × ν) :=
  entries.foldl (fun table e => put same e.1 e.2 table) table

/-- The table with the entries of a list, in order of first arrival and with the last values. -/
def ofList (same : κ → κ → Bool) (entries : List (κ × ν)) : List (κ × ν) := putAll same [] entries

/-- The first value whose key is the given one. -/
def get? (same : κ → κ → Bool) (key : κ) (table : List (κ × ν)) : Option ν :=
  (table.find? fun e => same e.1 key).map Prod.snd

/-- Whether two tables have the same keys with the same values, order aside. -/
def agree (same : κ → κ → Bool) (value : ν → ν → Bool) (left right : List (κ × ν)) : Bool :=
  left.length == right.length &&
    left.all fun e => match get? same e.1 right with
      | some v => value e.2 v
      | none => false

section Keys

variable [BEq κ] [LawfulBEq κ]

theorem keys_put_of_mem {key : κ} {value : ν} {table : List (κ × ν)}
    (h : key ∈ table.map Prod.fst) :
    (put (· == ·) key value table).map Prod.fst = table.map Prod.fst := by
  induction table with
  | nil => simp at h
  | cons e rest ih =>
    obtain ⟨k, v⟩ := e
    by_cases hk : k = key
    · simp [put, hk]
    · have : key ∈ rest.map Prod.fst := by
        rcases List.mem_cons.1 h with h | h
        · exact absurd h.symm hk
        · exact h
      simp [put, hk, ih this]

theorem put_of_not_mem {key : κ} {value : ν} {table : List (κ × ν)}
    (h : key ∉ table.map Prod.fst) :
    put (· == ·) key value table = table ++ [(key, value)] := by
  induction table with
  | nil => rfl
  | cons e rest ih =>
    obtain ⟨k, v⟩ := e
    simp only [List.map_cons, List.mem_cons, not_or] at h
    simp [put, Ne.symm h.1, ih h.2]

theorem nodup_keys_put {key : κ} {value : ν} {table : List (κ × ν)}
    (h : (table.map Prod.fst).Nodup) : ((put (· == ·) key value table).map Prod.fst).Nodup := by
  by_cases hk : key ∈ table.map Prod.fst
  · rw [keys_put_of_mem hk]; exact h
  · rw [put_of_not_mem hk, List.map_append, List.nodup_append]
    refine ⟨h, by simp, ?_⟩
    intro a ha b hb
    simp only [List.map_cons, List.map_nil, List.mem_singleton] at hb
    rintro rfl
    exact hk (hb ▸ ha)

theorem get?_put_self {key : κ} {value : ν} {table : List (κ × ν)} :
    get? (· == ·) key (put (· == ·) key value table) = some value := by
  induction table with
  | nil => simp [put, get?]
  | cons e rest ih =>
    obtain ⟨k, v⟩ := e
    by_cases hk : k = key
    · simp [put, get?, hk]
    · simpa [put, get?, hk] using ih

theorem get?_put_of_ne {key other : κ} {value : ν} {table : List (κ × ν)} (h : other ≠ key) :
    get? (· == ·) other (put (· == ·) key value table) = get? (· == ·) other table := by
  induction table with
  | nil => simp [put, get?, Ne.symm h]
  | cons e rest ih =>
    obtain ⟨k, v⟩ := e
    by_cases hk : k = key
    · simp [put, get?, hk, Ne.symm h]
    · by_cases ho : k = other
      · simp [put, get?, ho, h]
      · simpa [put, get?, hk, ho] using ih

theorem get?_eq_some_iff {table : List (κ × ν)} (h : (table.map Prod.fst).Nodup) {key : κ}
    {value : ν} : get? (· == ·) key table = some value ↔ (key, value) ∈ table := by
  induction table with
  | nil => simp [get?]
  | cons e rest ih =>
    obtain ⟨k, v⟩ := e
    obtain ⟨hk, hrest⟩ := List.nodup_cons.1 h
    have hget := ih hrest
    by_cases hkey : k = key
    · subst hkey
      have hnot : (k, value) ∉ rest := fun hmem => hk (List.mem_map.2 ⟨_, hmem, rfl⟩)
      simp [get?, hnot, eq_comm]
    · simpa [get?, hkey, Ne.symm hkey] using hget

end Keys

end HighlightGrammar.Table
