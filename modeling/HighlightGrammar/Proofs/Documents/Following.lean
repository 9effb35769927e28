import HighlightGrammar.Proofs.Documents.Rewriting
import HighlightGrammar.Proofs.Rules.Places

/-!
# Following segments into a tree

A segment leads from a mapping to what stands under a key and from a sequence to the item at a
position. Rules stand among the items of `patterns` and among the values of the mappings that hold
rules by name. Where no mapping has a key twice, the segments that tell where a rule stands lead
there. -/
namespace HighlightGrammar

namespace Tree

/-- What stands directly under a segment: the value of a string key, the item at a position. -/
def child? (segment : String) : Tree → Option Tree
  | mapping entries => Entries.get? entries segment
  | sequence items => (items.zipIdx.find? fun e => toString e.2 == segment).map Prod.fst
  | _ => none

/-- Where segments lead from a tree. -/
def follow : List String → Tree → Option Tree
  | [], tree => some tree
  | segment :: rest, tree => (tree.child? segment).bind (follow rest)

theorem child?_sequence (items : List Tree) (index : Nat) :
    (sequence items).child? (toString index) = items[index]? := by
  have hfrom : ∀ start, ((items.zipIdx start).find? fun e =>
      toString e.2 == toString (start + index)).map Prod.fst = items[index]? := by
    induction items generalizing index with
    | nil => simp
    | cons item items ih =>
      intro start
      cases index with
      | zero => simp
      | succ index =>
        have hlater : (toString start == toString (start + (index + 1))) = false := by
          rw [beq_eq_false_iff_ne]
          intro heq
          have := Rule.position_inj heq
          omega
        have hrest := ih index (start + 1)
        rw [Nat.add_right_comm, Nat.add_assoc] at hrest
        simp only [List.zipIdx_cons, List.find?_cons, hlater, List.getElem?_cons_succ]
        exact hrest
  simpa [child?] using hfrom 0

/-- A tree stands where a rule is expected directly below another one: as an item of `patterns` or
as a value of a mapping of which all keys are strings and whose own key is one of `maps`. -/
inductive RuleBelow (maps : List String) (tree : Tree) : String → String → Tree → Prop
  | item {items : List Tree} {index : Nat} {inner : Tree}
      (listed : (string "patterns", sequence items) ∈ tree.entries)
      (get : items[index]? = some inner) : RuleBelow maps tree "patterns" (toString index) inner
  | value {key : String} {named : Entries} {name : String} {inner : Tree} (map : key ∈ maps)
      (listed : (string key, mapping named) ∈ tree.entries)
      (texts : ∀ e ∈ named, e.1.plainText?.isSome = true)
      (mem : (string name, inner) ∈ named) : RuleBelow maps tree key name inner

/-- A tree stands where a rule is expected, at whatever depth below a rule. -/
inductive RuleAt : Tree → List String → Tree → Prop
  | here (tree : Tree) : RuleAt tree [] tree
  | inside {tree key name nested place inner} (step : RuleBelow ruleMapKeys tree key name nested)
      (rest : RuleAt nested place inner) : RuleAt tree (key :: name :: place) inner

/-- A tree stands where a rule is expected in a document. The document itself is no rule: it has
rules to start with and rules by name, but no groups. -/
def DocumentRuleAt (tree : Tree) (place : List String) (inner : Tree) : Prop :=
  ∃ key name nested rest, place = key :: name :: rest ∧
    RuleBelow ["repository"] tree key name nested ∧ RuleAt nested rest inner

section

variable {maps : List String} {tree inner : Tree} {key name : String} {place : List String}

theorem entries_eq_nil {tree : Tree} (h : ∀ es, tree ≠ .mapping es) : tree.entries = [] := by
  cases tree with
  | mapping es => exact absurd rfl (h es)
  | _ => rfl

theorem exists_mapping_of_mem_entries {tree : Tree} {e : Tree × Tree} (h : e ∈ tree.entries) :
    ∃ es, tree = .mapping es := by
  cases tree with
  | mapping es => exact ⟨es, rfl⟩
  | _ => cases h

theorem wellKeyed_of_mem_entries_of {tree : Tree} (h : tree.wellKeyed = true) {e : Tree × Tree}
    (hmem : e ∈ tree.entries) : e.2.wellKeyed = true := by
  obtain ⟨es, rfl⟩ := exists_mapping_of_mem_entries hmem
  exact wellKeyed_of_mem_entries h hmem

theorem RuleBelow.wellKeyed (h : RuleBelow maps tree key name inner)
    (hkeys : tree.wellKeyed = true) : inner.wellKeyed = true := by
  cases h with
  | item listed get =>
    have hitems := wellKeyed_of_mem_entries_of hkeys listed
    exact wellKeyed_sequence_iff.1 hitems inner (List.mem_of_getElem? get)
  | value map listed texts mem =>
    have hnamed := wellKeyed_of_mem_entries_of hkeys listed
    exact wellKeyed_of_mem_entries hnamed mem

theorem child?_of_mem_entries (hkeys : tree.wellKeyed = true) {value : Tree}
    (hmem : (string name, value) ∈ tree.entries) : tree.child? name = some value := by
  obtain ⟨es, rfl⟩ := exists_mapping_of_mem_entries hmem
  exact (distinctKeys_of_wellKeyed hkeys).get?_eq_some_iff.2 hmem

theorem RuleBelow.follow_append (h : RuleBelow maps tree key name inner)
    (hkeys : tree.wellKeyed = true) (rest : List String) :
    tree.follow (key :: name :: rest) = inner.follow rest := by
  cases h with
  | item listed get =>
    rw [follow, child?_of_mem_entries hkeys listed, Option.bind_some, follow, child?_sequence, get,
      Option.bind_some]
  | value map listed texts mem =>
    have hnamed := wellKeyed_of_mem_entries_of hkeys listed
    rw [follow, child?_of_mem_entries hkeys listed, Option.bind_some, follow,
      child?_of_mem_entries hnamed mem, Option.bind_some]

/-- The segments that tell where a rule stands lead to it. -/
theorem RuleAt.follow_eq (h : RuleAt tree place inner) (hkeys : tree.wellKeyed = true) :
    tree.follow place = some inner := by
  induction h with
  | here => rfl
  | inside step _ ih => rw [step.follow_append hkeys, ih (step.wellKeyed hkeys)]

theorem RuleAt.wellKeyed (h : RuleAt tree place inner) (hkeys : tree.wellKeyed = true) :
    inner.wellKeyed = true := by
  induction h with
  | here => exact hkeys
  | inside step _ ih => exact ih (step.wellKeyed hkeys)

theorem DocumentRuleAt.wellKeyed (h : DocumentRuleAt tree place inner)
    (hkeys : tree.wellKeyed = true) : inner.wellKeyed = true := by
  obtain ⟨key, name, nested, rest, -, hbelow, hat⟩ := h
  exact hat.wellKeyed (hbelow.wellKeyed hkeys)

theorem DocumentRuleAt.follow_eq (h : DocumentRuleAt tree place inner)
    (hkeys : tree.wellKeyed = true) : tree.follow place = some inner := by
  obtain ⟨key, name, nested, rest, rfl, hbelow, hat⟩ := h
  rw [hbelow.follow_append hkeys, hat.follow_eq (hbelow.wellKeyed hkeys)]

end

end Tree

end HighlightGrammar
