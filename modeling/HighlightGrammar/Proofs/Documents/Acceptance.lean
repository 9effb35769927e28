import HighlightGrammar.Proofs.Documents.Idempotence

/-!
# Which documents are accepted

Only the variables of a document can be refused. An entry is refused in the same words whatever was
read before it, so reading a document fails at the first entry that is refused. The variables of a
document that is accepted are those of the last mapping among the sections that open them. -/
namespace HighlightGrammar

/-- Writing a value adds no key but its own. -/
theorem Entries.forall_key_put {P : Tree → Prop} {entries : Entries} {key : Tree} (value : Tree)
    (h : ∀ e ∈ entries, P e.1) (hkey : P key) : ∀ e ∈ entries.put key value, P e.1 := by
  intro e he
  have hmem : e.1 ∈ (entries.put key value).map Prod.fst := List.mem_map_of_mem he
  have hold : e.1 ∈ entries.map Prod.fst → P e.1 := by
    intro hold
    obtain ⟨e', he', heq⟩ := List.mem_map.1 hold
    exact heq ▸ h e' he'
  rcases @Table.keys_put _ _ Tree.same key value entries with heq | ⟨-, heq⟩
  · rw [Entries.put, heq] at hmem
    exact hold hmem
  · rw [Entries.put, heq] at hmem
    rcases List.mem_append.1 hmem with hmem | hmem
    · exact hold hmem
    · exact List.mem_singleton.1 hmem ▸ hkey

theorem Entries.forall_key_putTexts {P : Tree → Prop} {entries : Entries}
    {named : List (String × Tree)} (h : ∀ e ∈ entries, P e.1) (hnamed : ∀ e ∈ named, P (.string e.1)) :
    ∀ e ∈ entries.putTexts named, P e.1 := by
  induction named generalizing entries with
  | nil => exact h
  | cons e named ih =>
    exact ih (forall_key_put e.2 h (hnamed e (by simp))) fun e' he' => hnamed e' (by simp [he'])

namespace GrammarBody

theorem forall_key_addSections {P : Tree → Prop} {body : GrammarBody} {entries : Entries}
    (h : ∀ e ∈ body.attributes, P e.1) (hentries : ∀ e ∈ entries, P e.1) :
    ∀ e ∈ (body.addSections entries).attributes, P e.1 := by
  induction entries generalizing body with
  | nil => exact h
  | cons e entries ih =>
    have hadd : ∀ e' ∈ (body.addEntry (.ofSection e.1 e.2)).attributes, P e'.1 := by
      unfold RuleEntry.ofSection
      split
      · exact h
      · exact h
      · exact Entries.forall_key_put e.2 h (hentries e (by simp))
    exact ih hadd fun e' he' => hentries e' (by simp [he'])

/-- A body is written under the keys of its attributes and those of the two sections of rules. -/
theorem forall_key_toTree {P : Tree → Prop} {body : GrammarBody} (h : ∀ e ∈ body.attributes, P e.1)
    (hpatterns : P (.string "patterns")) (hrepository : P (.string "repository")) :
    ∃ written, body.toTree = .mapping written ∧ ∀ e ∈ written, P e.1 := by
  refine ⟨_, rfl, Entries.forall_key_putTexts h fun e he => ?_⟩
  rcases List.mem_append.1 he with he | he
  · cases hsection : body.patterns with
    | none => simp [hsection, Rule.patternsEntry] at he
    | some rules =>
      rw [hsection, Rule.patternsEntry, List.mem_singleton] at he
      exact he ▸ hpatterns
  · cases hsection : body.repository with
    | none => simp [hsection, Rule.repositoryEntry] at he
    | some rules =>
      rw [hsection, Rule.repositoryEntry, List.mem_singleton] at he
      exact he ▸ hrepository

end GrammarBody

namespace Document

/-- A key that reads "variables", plain or behind tags. -/
def OpensVariables (key : Tree) : Prop := key.text? = some "variables"

instance (key : Tree) : Decidable (OpensVariables key) :=
  inferInstanceAs (Decidable (key.text? = some "variables"))

/-- Names with their texts as a document declares them: plain strings under plain strings. -/
def declaration (declared : List (String × String)) : Tree :=
  .mapping (declared.map fun e => (.string e.1, .string e.2))

/-- An entry that can be read: what opens the variables says nothing or declares some. -/
def Accepted (e : Tree × Tree) : Prop :=
  OpensVariables e.1 → e.2 = .null ∨ ∃ declared, e.2 = declaration declared

/-- An entry of the variables that does not give a name its text, and what is said of it. -/
inductive Undeclarable : Tree × Tree → ShapeError → Prop
  | name {key : Tree} (value : Tree) (h : ∀ name, key ≠ .string name) : Undeclarable (key, value)
      ⟨variablesPath, s!"variable name must be a string, found {key.describe}"⟩
  | text (name : String) {value : Tree} (h : ∀ text, value ≠ .string text) :
      Undeclarable (.string name, value)
        ⟨variablesPath.child name, s!"variable must be a string, found {value.describe}"⟩

/-- Variables that are refused, and what is said of them. A mapping is refused for its first entry
that declares nothing. -/
inductive Offends : Tree → ShapeError → Prop
  | shape {value : Tree} (hnull : value ≠ .null) (hmapping : ∀ entries, value ≠ .mapping entries) :
      Offends value ⟨variablesPath, s!"expected a variable table, found {value.describe}"⟩
  | entry (before : List (String × String)) {e : Tree × Tree} (after : Entries)
      {error : ShapeError} (h : Undeclarable e error) : Offends
        (.mapping ((before.map fun e => (.string e.1, .string e.2)) ++ e :: after)) error

/-- A tree that is not a document, and what is said of it. A mapping is refused for its first entry
that is refused. -/
inductive Refused : Tree → ShapeError → Prop
  | root {tree : Tree} (h : ∀ entries, tree ≠ .mapping entries) :
      Refused tree ⟨.root, s!"expected a grammar mapping, found {tree.describe}"⟩
  | entry {before : Entries} {e : Tree × Tree} (after : Entries) {error : ShapeError}
      (hbefore : ∀ earlier ∈ before, Accepted earlier) (hopens : OpensVariables e.1)
      (h : Offends e.2 error) : Refused (.mapping (before ++ e :: after)) error

/-- What is declared by the last mapping among the sections that open the variables, if there is
one; the other sections say nothing. -/
inductive LastDeclared : Entries → List (String × String) → Prop
  | nothing {entries : Entries} (h : ∀ e ∈ entries, OpensVariables e.1 → e.2 = .null) :
      LastDeclared entries []
  | last (before : Entries) {key : Tree} (declared : List (String × String)) {after : Entries}
      (hopens : OpensVariables key) (hafter : ∀ e ∈ after, OpensVariables e.1 → e.2 = .null) :
      LastDeclared (before ++ (key, declaration declared) :: after) declared

theorem opensVariables_iff {key : Tree} :
    OpensVariables key ↔ Section.of key = .variableTable := by
  unfold OpensVariables Section.of
  cases key.text? with
  | none => simp
  | some name =>
    dsimp only
    split
    · next h => simp [h]
    · next h =>
      have hother : (if name = "repository" then Section.repository else .attribute) ≠
          .variableTable := by split <;> simp
      split <;> simp [h, hother]

/-! ### One section -/

section Variables

variable {entries : Entries} {table : VariableTable} {error : ShapeError}

theorem variablesOf_eq_ok_iff {result : VariableTable} :
    variablesOf entries table = .ok result ↔ ∃ declared,
      Tree.mapping entries = declaration declared ∧ result = table.insertAll declared := by
  constructor
  · intro h
    fun_induction variablesOf entries table with
    | case1 table => exact ⟨[], rfl, (Except.ok.inj h).symm⟩
    | case2 name text rest table ih =>
      obtain ⟨declared, hrest, rfl⟩ := ih h
      obtain rfl := Tree.mapping.inj hrest
      exact ⟨(name, text) :: declared, rfl, rfl⟩
    | _ => cases h
  · rintro ⟨declared, hentries, rfl⟩
    obtain rfl := Tree.mapping.inj hentries
    exact variablesOf_strings declared table

theorem Undeclarable.variablesOf_cons {e : Tree × Tree} (h : Undeclarable e error) :
    variablesOf (e :: entries) table = .error error := by
  cases h with
  | @name key value hname =>
    cases key with
    | string name => exact absurd rfl (hname name)
    | _ => rfl
  | @text name value htext =>
    cases value with
    | string text => exact absurd rfl (htext text)
    | _ => rfl

theorem variablesOf_eq_error_iff :
    variablesOf entries table = .error error ↔ Offends (.mapping entries) error := by
  constructor
  · intro h
    fun_induction variablesOf entries table with
    | case1 => cases h
    | case2 name text rest table ih =>
      cases ih h with
      | shape hnull hmapping => exact absurd rfl (hmapping rest)
      | entry before after h => exact .entry ((name, text) :: before) after h
    | case3 name value rest table hvalue =>
      cases h
      exact .entry [] rest (.text name hvalue)
    | case4 key value rest table hboth hname =>
      cases h
      exact .entry [] rest (.name value hname)
  · intro h
    cases h with
    | shape hnull hmapping => exact absurd rfl (hmapping entries)
    | entry before after h =>
      rw [variablesOf_append]
      exact h.variablesOf_cons

end Variables

section Section

variable {document : Document} {key value : Tree}

theorem add_variables_eq_ok_iff (hopens : OpensVariables key) {next : Document} :
    document.add key value = .ok next ↔ value = .null ∧ next = document ∨
      ∃ declared, value = declaration declared ∧
        next = { document with variableTable := .ofList declared } := by
  rw [opensVariables_iff] at hopens
  unfold add
  rw [hopens]
  cases value with
  | null => simp [declaration, eq_comm]
  | mapping entries =>
    simp only [bind_eq_ok_iff, variablesOf_eq_ok_iff, reduceCtorEq, false_and, false_or]
    constructor
    · rintro ⟨table, ⟨declared, hentries, rfl⟩, hnext⟩
      exact ⟨declared, hentries, (Except.ok.inj hnext).symm⟩
    · rintro ⟨declared, hentries, rfl⟩
      exact ⟨_, ⟨declared, hentries, rfl⟩, rfl⟩
  | _ => simp [declaration]

/-- What is said of an entry does not depend on what was read before it. -/
theorem add_eq_error_iff {error : ShapeError} :
    document.add key value = .error error ↔ OpensVariables key ∧ Offends value error := by
  by_cases hopens : OpensVariables key
  · simp only [hopens, true_and]
    rw [opensVariables_iff] at hopens
    unfold add
    rw [hopens]
    cases value with
    | mapping entries =>
      simp only [bind_eq_error_iff, variablesOf_eq_error_iff]
      exact ⟨fun h => h.resolve_right (by rintro ⟨table, -, h⟩; cases h), Or.inl⟩
    | null =>
      refine ⟨nofun, fun h => ?_⟩
      cases h with
      | shape hnull => exact absurd rfl hnull
    | _ =>
      constructor
      · intro h
        cases h
        exact .shape nofun nofun
      · intro h
        cases h
        rfl
  · rw [add_eq_ok_of_section (mt opensVariables_iff.2 hopens)]
    simp [hopens]

end Section

/-! ### All sections -/

/-- What adding an entry to a document says of the entry. -/
def check (e : Tree × Tree) : Except ShapeError Unit := (empty.add e.1 e.2).map fun _ => ()

theorem check_eq_error_iff {e : Tree × Tree} {error : ShapeError} :
    check e = .error error ↔ OpensVariables e.1 ∧ Offends e.2 error := by
  have hadd : empty.add e.1 e.2 = .error error ↔ OpensVariables e.1 ∧ Offends e.2 error :=
    add_eq_error_iff
  rw [← hadd, check]
  cases empty.add e.1 e.2 <;> simp [Except.map]

theorem check_eq_ok_iff {e : Tree × Tree} : check e = .ok () ↔ Accepted e := by
  have hadd : check e = .ok () ↔ ∃ next, empty.add e.1 e.2 = .ok next := by
    rw [check]
    cases empty.add e.1 e.2 <;> simp [Except.map]
  rw [hadd]
  by_cases hopens : OpensVariables e.1
  · simp only [Accepted, hopens, add_variables_eq_ok_iff, true_imp_iff]
    constructor
    · rintro ⟨next, ⟨hnull, -⟩ | ⟨declared, hvalue, -⟩⟩
      · exact Or.inl hnull
      · exact Or.inr ⟨declared, hvalue⟩
    · rintro (hnull | ⟨declared, hvalue⟩)
      · exact ⟨_, Or.inl ⟨hnull, rfl⟩⟩
      · exact ⟨_, Or.inr ⟨declared, hvalue, rfl⟩⟩
  · simp only [Accepted, hopens, add_eq_ok_of_section (mt opensVariables_iff.2 hopens)]
    simp

theorem ofTree_mapping_eq_error_iff {entries : Entries} {error : ShapeError} :
    ofTree (.mapping entries) = .error error ↔ entries.forM check = .error error :=
  foldlM_eq_error_iff fun document e fault =>
    (add_eq_error_iff : document.add e.1 e.2 = .error fault ↔ _).trans check_eq_error_iff.symm

theorem exists_ofTree_eq_ok_iff {tree : Tree} : (∃ document, ofTree tree = .ok document) ↔
    ∃ entries, tree = .mapping entries ∧ ∀ e ∈ entries, Accepted e := by
  cases tree with
  | mapping entries =>
    have hchecks : (∃ document, ofTree (.mapping entries) = .ok document) ↔
        entries.forM check = .ok () := by
      cases hread : ofTree (.mapping entries) with
      | ok document =>
        cases hcheck : entries.forM check with
        | ok passed => simp
        | error fault =>
          rw [ofTree_mapping_eq_error_iff.2 hcheck] at hread
          cases hread
      | error fault => simp [ofTree_mapping_eq_error_iff.1 hread]
    rw [hchecks, forM_eq_ok_iff]
    simp only [check_eq_ok_iff, Tree.mapping.injEq, exists_eq_left']
  | _ => simp [ofTree]

theorem ofTree_eq_error_iff {tree : Tree} {error : ShapeError} :
    ofTree tree = .error error ↔ Refused tree error := by
  cases tree with
  | mapping entries =>
    rw [ofTree_mapping_eq_error_iff, forM_eq_error_iff]
    simp only [check_eq_ok_iff, check_eq_error_iff]
    constructor
    · rintro ⟨before, e, after, rfl, hbefore, hopens, h⟩
      exact .entry after hbefore hopens h
    · intro h
      cases h with
      | root h => exact absurd rfl (h entries)
      | entry after hbefore hopens h => exact ⟨_, _, after, rfl, hbefore, hopens, h⟩
  | _ =>
    constructor
    · intro h
      cases h
      exact .root nofun
    · intro h
      cases h
      rfl

/-- The entries that open the variables. -/
def variableSections (entries : Entries) : Entries :=
  entries.filter fun e => decide (OpensVariables e.1)

/-- Whatever the other entries hold, nothing is said of them. -/
theorem ofTree_variableSections_eq_error_iff {entries : Entries} {error : ShapeError} :
    ofTree (.mapping (variableSections entries)) = .error error ↔
      ofTree (.mapping entries) = .error error := by
  have hother : ∀ e : Tree × Tree, decide (OpensVariables e.1) = false → check e = .ok () :=
    fun e he => check_eq_ok_iff.2 fun hopens => absurd hopens (by simpa using he)
  rw [ofTree_mapping_eq_error_iff, ofTree_mapping_eq_error_iff, variableSections,
    forM_filter hother]

/-- A section that declares nothing leaves the last declaration the last one. -/
theorem LastDeclared.append {entries : Entries} {declared : List (String × String)}
    (h : LastDeclared entries declared) {e : Tree × Tree} (he : OpensVariables e.1 → e.2 = .null) :
    LastDeclared (entries ++ [e]) declared := by
  have hmore : ∀ after : Entries, (∀ e ∈ after, OpensVariables e.1 → e.2 = .null) →
      ∀ e' ∈ after ++ [e], OpensVariables e'.1 → e'.2 = .null := by
    intro after hafter e' he'
    rcases List.mem_append.1 he' with he' | he'
    · exact hafter e' he'
    · exact List.mem_singleton.1 he' ▸ he
  cases h with
  | nothing h => exact .nothing (hmore _ h)
  | @last before key _ after hopens hafter =>
    rw [List.append_assoc, List.cons_append]
    exact .last before declared hopens (hmore after hafter)

theorem variableTable_of_ofTree {entries : Entries} {document : Document}
    (h : ofTree (.mapping entries) = .ok document) :
    ∃ declared, LastDeclared entries declared ∧ document.variableTable = .ofList declared := by
  -- The last section decides, so sections are taken from the end.
  induction entries using List.reverseRecOn generalizing document with
  | nil =>
    cases h
    exact ⟨[], .nothing nofun, rfl⟩
  | append_singleton entries e ih =>
    rw [ofTree, List.foldlM_append] at h
    obtain ⟨earlier, hearlier, hlast⟩ := bind_eq_ok_iff.1 h
    obtain ⟨declared, hdeclared, htable⟩ := ih hearlier
    have hadd : earlier.add e.1 e.2 = .ok document := by simpa using hlast
    by_cases hopens : OpensVariables e.1
    · rcases (add_variables_eq_ok_iff hopens).1 hadd with ⟨hnull, rfl⟩ | ⟨declared, hvalue, rfl⟩
      · exact ⟨declared, hdeclared.append fun _ => hnull, htable⟩
      · have hlast : LastDeclared (entries ++ [(e.1, declaration declared)]) declared :=
          .last entries declared hopens nofun
        rw [← hvalue] at hlast
        exact ⟨declared, hlast, rfl⟩
    · rw [add_eq_ok_of_section (mt opensVariables_iff.2 hopens)] at hadd
      cases hadd
      exact ⟨declared, hdeclared.append fun h => absurd h hopens, htable⟩

/-- In a tree without repeated keys every name is declared once, so the table keeps the order. -/
theorem LastDeclared.entries_ofList {entries : Entries} {declared : List (String × String)}
    (h : LastDeclared entries declared) (hkeys : (Tree.mapping entries).wellKeyed = true) :
    (VariableTable.ofList declared).entries = declared := by
  cases h with
  | nothing => rfl
  | @last before key _ after =>
    have hdeclared : (declaration declared).wellKeyed = true :=
      Tree.wellKeyed_of_mem_entries hkeys (List.mem_append_right before List.mem_cons_self)
    have hdistinct := Tree.distinctKeys_of_wellKeyed hdeclared
    have hnames : (declared.map Prod.fst).Nodup := by
      rw [Entries.DistinctKeys, List.pairwise_map] at hdistinct
      refine List.pairwise_map.2 (hdistinct.imp fun hne heq => ?_)
      simp [Tree.same, heq] at hne
    rw [VariableTable.ofList, VariableTable.entries_insertAll]
    exact Table.ofList_of_nodup hnames

/-- Whatever opens the variables is read apart from the body. -/
theorem forall_key_body_of_ofTree {tree : Tree} {document : Document}
    (h : ofTree tree = .ok document) :
    ∃ written, document.body.toTree = .mapping written ∧ ∀ e ∈ written, ¬ OpensVariables e.1 := by
  obtain ⟨entries, -, hbody⟩ := body_of_ofTree h
  have hsections : ∀ e ∈ sections entries, ¬ OpensVariables e.1 := by
    intro e he
    have hsection : Section.of e.1 ≠ .variableTable := by simpa using (List.mem_filter.1 he).2
    exact mt opensVariables_iff.1 hsection
  have hempty : ∀ e ∈ GrammarBody.empty.attributes, ¬ OpensVariables e.1 := by
    simp [GrammarBody.empty]
  rw [hbody]
  exact GrammarBody.forall_key_toTree (P := fun key => ¬ OpensVariables key)
    (GrammarBody.forall_key_addSections (P := fun key => ¬ OpensVariables key) hempty hsections)
    (by decide) (by decide)

theorem text_variablesPath_child (name : String) :
    (variablesPath.child name).text = "variables/" ++ name := by
  have htext : (variablesPath.child name).text = "variables" ++ "/" ++ name := rfl
  have hfront : "variables" ++ "/" = "variables/" := rfl
  rw [htext, hfront]

theorem Offends.text_path {value : Tree} {error : ShapeError} (h : Offends value error) :
    error.path.text = "variables" ∨ ∃ name, error.path.text = "variables/" ++ name := by
  cases h with
  | shape => exact Or.inl rfl
  | entry before after h =>
    cases h with
    | name => exact Or.inl rfl
    | text name => exact Or.inr ⟨name, text_variablesPath_child name⟩

theorem Refused.text_path {tree : Tree} {error : ShapeError} (h : Refused tree error) :
    error.path.text = "<root>" ∨ error.path.text = "variables" ∨
      ∃ name, error.path.text = "variables/" ++ name := by
  cases h with
  | root => exact Or.inl rfl
  | entry after hbefore hopens h => exact Or.inr h.text_path

/-- A tree is a document when it is a mapping in which whatever opens the variables is null or
declares texts under names; otherwise it is refused at its first entry that is not so. The entries
that do not open the variables are never the reason. The variables of a document are those of the
last section that declares some, in order, and its body is written without any. -/
theorem ofTree_accepts (tree : Tree) :
    ((∃ document, ofTree tree = .ok document) ↔
      ∃ entries, tree = .mapping entries ∧ ∀ e ∈ entries, Accepted e) ∧
    (∀ error, ofTree tree = .error error ↔ Refused tree error) ∧
    (∀ error, Refused tree error → error.path.text = "<root>" ∨ error.path.text = "variables" ∨
      ∃ name, error.path.text = "variables/" ++ name) ∧
    (∀ entries, tree = .mapping entries → ∀ error, ofTree tree = .error error ↔
      ofTree (.mapping (variableSections entries)) = .error error) ∧
    ∀ document, ofTree tree = .ok document →
      (∃ declared, LastDeclared tree.entries declared ∧
        document.variableTable = .ofList declared ∧
        (tree.wellKeyed = true → document.variableTable.entries = declared)) ∧
      ∃ written, document.body.toTree = .mapping written ∧
        ∀ e ∈ written, ¬ OpensVariables e.1 := by
  refine ⟨exists_ofTree_eq_ok_iff, fun _ => ofTree_eq_error_iff, fun _ => Refused.text_path, ?_, ?_⟩
  · rintro entries rfl error
    exact ofTree_variableSections_eq_error_iff.symm
  · intro document hread
    obtain ⟨entries, rfl, -⟩ := body_of_ofTree hread
    obtain ⟨declared, hlast, htable⟩ := variableTable_of_ofTree hread
    refine ⟨⟨declared, hlast, htable, fun hkeys => ?_⟩, forall_key_body_of_ofTree hread⟩
    rw [htable]
    exact hlast.entries_ofList hkeys

/-- Variables that are declared twice, once behind a tag, and nulled at the end. -/
def redeclaredTree : Tree := .mapping [
  (.string "variables", .mapping [(.string "word", .string "[a-z]")]),
  (.string "patterns", .number (.int 1)),
  (.tagged "!again" (.string "variables"), .mapping [(.string "digit", .string "[0-9]")]),
  (.tagged "!none" (.string "variables"), .null)]

theorem ofTree_accepts_redeclared :
    ∃ document, ofTree redeclaredTree = .ok document ∧
      document.variableTable.entries = [("digit", "[0-9]")] ∧
      ∃ written, document.body.toTree = .mapping written ∧
        ∀ e ∈ written, ¬ OpensVariables e.1 := by
  have hread : ofTree redeclaredTree =
      .ok ⟨⟨[(.string "patterns", .number (.int 1))], none, none⟩, .ofList [("digit", "[0-9]")]⟩ :=
    rfl
  obtain ⟨-, hbody⟩ := (ofTree_accepts redeclaredTree).2.2.2.2 _ hread
  exact ⟨_, hread, rfl, hbody⟩

end Document

end HighlightGrammar
