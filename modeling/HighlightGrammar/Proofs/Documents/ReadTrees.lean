import HighlightGrammar.Proofs.Documents.Sections

/-!
# The trees that are read

Reading refuses a key that is in its mapping already, so every tree that a text holds is well keyed,
whatever its aliases expand to. -/
namespace HighlightGrammar.Yaml

/-- Whatever an expansion makes has a property. -/
def Yields {α : Type} (P : α → Prop) (expansion : Expansion α) : Prop :=
  ∀ jumps a rest, expansion jumps = .ok (a, rest) → P a

namespace Yields

variable {α β : Type} {P : α → Prop} {Q : β → Prop}

theorem pure {a : α} (h : P a) : Yields P (Pure.pure a) := by
  intro jumps b rest hb
  cases hb
  exact h

theorem bind {first : Expansion α} {next : α → Expansion β} (hfirst : Yields P first)
    (hnext : ∀ a, P a → Yields Q (next a)) : Yields Q (first >>= next) := by
  intro jumps b rest h
  obtain ⟨e, he, hrest⟩ := bind_eq_ok_iff.1 h
  exact hnext e.1 (hfirst jumps e.1 e.2 he) e.2 b rest hrest

theorem lift {result : Except ReadError α} (h : ∀ a, result = .ok a → P a) :
    Yields P (StateT.lift result) := by
  intro jumps a rest ha
  cases result with
  | error error => cases ha
  | ok b =>
    cases ha
    exact h _ rfl

theorem mapM {f : α → Expansion β} {items : List α} (h : ∀ a ∈ items, Yields Q (f a)) :
    Yields (fun made => ∀ b ∈ made, Q b) (items.mapM f) := by
  induction items with
  | nil => exact Yields.pure (by simp)
  | cons a items ih =>
    rw [List.mapM_cons]
    refine (h a (by simp)).bind fun b hb => ?_
    refine (ih fun a' ha' => h a' (by simp [ha'])).bind fun made hmade => ?_
    refine Yields.pure fun c hc => ?_
    rcases List.mem_cons.1 hc with rfl | hc
    · exact hb
    · exact hmade c hc

theorem foldlM {f : β → α → Expansion β} {items : List α} {b : β} (hb : Q b)
    (h : ∀ b, Q b → ∀ a ∈ items, Yields Q (f b a)) : Yields Q (items.foldlM f b) := by
  induction items generalizing b with
  | nil => exact Yields.pure hb
  | cons a items ih =>
    rw [List.foldlM_cons]
    refine (h b hb a (by simp)).bind fun next hnext => ?_
    exact ih hnext fun b' hb' a' ha' => h b' hb' a' (by simp [ha'])

end Yields

theorem wellKeyed_of_resolve {text : List Char} {tree : Tree} (h : resolve text = .tree tree) :
    tree.wellKeyed = true := by
  have hfloat : (floatOrString text).wellKeyed = true := by
    unfold floatOrString
    split <;> rfl
  unfold resolve at h
  split at h
  · cases h
    rfl
  · split at h
    · cases h
      rfl
    · split at h
      · cases h
        rfl
      · split at h
        · cases h
        · cases h
          exact hfloat
    · cases h
      exact hfloat

theorem wellKeyed_of_required {α : Type} {make : α → Tree} {value? : Option α} {tree : Tree}
    (hmake : ∀ a, (make a).wellKeyed = true) (h : required (value?.map make) = .ok tree) :
    tree.wellKeyed = true := by
  cases value? with
  | none => cases h
  | some value =>
    cases h
    exact hmake value

/-- The tree of a scalar holds no mapping. -/
theorem wellKeyed_of_scalarTree {tag : Option (List UInt8)} {isPlain : Bool} {text : List Char}
    {tree : Tree} (h : scalarTree tag isPlain text = .ok tree) : tree.wellKeyed = true := by
  have hown : ∀ own : Tree, (if isPlain then resolvePlain text else
      .ok (.string (String.ofList text))) = .ok own → own.wellKeyed = true := by
    intro own hown
    split at hown
    · unfold resolvePlain at hown
      split at hown
      · next hresolve =>
        cases hown
        exact wellKeyed_of_resolve hresolve
      · cases hown
    · cases hown
      rfl
  unfold scalarTree at h
  dsimp only at h
  generalize (if isPlain then resolvePlain text else
    .ok (.string (String.ofList text))) = own at h hown
  split at h
  · exact hown tree h
  · exact hown tree h
  · cases own with
    | error error => cases h
    | ok content =>
      cases h
      exact hown content rfl
  · exact wellKeyed_of_required (fun _ => rfl) h
  · exact wellKeyed_of_required (fun _ => rfl) h
  · exact wellKeyed_of_required (fun _ => rfl) h
  · split at h
    · cases h
      rfl
    · cases h
  · cases h
    rfl

theorem wellKeyed_collectionTree {tag : Option (List UInt8)} {tree : Tree}
    (h : tree.wellKeyed = true) : (collectionTree tag tree).wellKeyed = true := by
  unfold collectionTree
  split
  · exact h
  · exact h

theorem wellKeyed_addEntry {entries read : Entries} {key value : Tree}
    (h : (Tree.mapping entries).wellKeyed = true) (hkey : key.wellKeyed = true)
    (hvalue : value.wellKeyed = true) (hadd : addEntry entries key value = .ok read) :
    (Tree.mapping read).wellKeyed = true := by
  unfold addEntry at hadd
  split at hadd
  · cases hadd
  · next hnew =>
    cases hadd
    obtain ⟨hdistinct, hentries⟩ := Tree.wellKeyed_mapping_iff.1 h
    refine Tree.wellKeyed_mapping_iff.2 ⟨?_, ?_⟩
    · refine List.pairwise_append.2 ⟨hdistinct, by simp, fun a ha b hb => ?_⟩
      obtain rfl := List.mem_singleton.1 hb
      simp only [List.any_eq_true, not_exists, not_and, Bool.not_eq_true] at hnew
      exact hnew a ha
    · intro e he
      rcases List.mem_append.1 he with he | he
      · exact hentries e he
      · obtain rfl := List.mem_singleton.1 he
        exact ⟨hkey, hvalue⟩

variable (anchored : Anchored)

theorem expand_zero (node : SlotNode) : expand anchored 0 node =
    follow anchored node >>= fun followed => match followed with
      | .scalar tag isPlain text => StateT.lift (scalarTree tag isPlain text)
      | .aliasTo _ => StateT.lift (.error .unknownAlias)
      | .sequence _ _ => StateT.lift (.error .depth)
      | .mapping _ _ => StateT.lift (.error .depth) := by
  delta expand
  apply congrArg (follow anchored node >>= ·)
  funext followed
  cases followed <;> rfl

theorem expand_succ (depth : Nat) (node : SlotNode) : expand anchored (depth + 1) node =
    follow anchored node >>= fun followed => match followed with
      | .scalar tag isPlain text => StateT.lift (scalarTree tag isPlain text)
      | .aliasTo _ => StateT.lift (.error .unknownAlias)
      | .sequence tag items => do
        let items ← items.mapM (expand anchored depth)
        return collectionTree tag (.sequence items)
      | .mapping tag entries => do
        let entries ← entries.foldlM (fun read e => do
          let key ← expand anchored depth e.1
          let value ← expand anchored depth e.2
          StateT.lift (addEntry read key value)) []
        return collectionTree tag (.mapping entries) := by
  delta expand
  apply congrArg (follow anchored node >>= ·)
  funext followed
  cases followed <;> rfl

/-- Every node expands to a well keyed tree, by induction on the depth. -/
theorem yields_expand (depth : Nat) (node : SlotNode) :
    Yields (fun tree => tree.wellKeyed = true) (expand anchored depth node) := by
  have hfollow : Yields (fun _ => True) (follow anchored node) := fun _ _ _ _ => trivial
  induction depth generalizing node with
  | zero =>
    rw [expand_zero]
    refine hfollow.bind fun followed _ => ?_
    cases followed with
    | scalar tag isPlain text => exact Yields.lift fun tree htree => wellKeyed_of_scalarTree htree
    | _ => exact Yields.lift fun tree htree => by cases htree
  | succ depth ih =>
    rw [expand_succ]
    have hexpand : ∀ inner, Yields (fun tree => tree.wellKeyed = true)
        (expand anchored depth inner) := fun inner => ih inner fun _ _ _ _ => trivial
    refine hfollow.bind fun followed _ => ?_
    cases followed with
    | scalar tag isPlain text => exact Yields.lift fun tree htree => wellKeyed_of_scalarTree htree
    | aliasTo slot => exact Yields.lift fun tree htree => by cases htree
    | sequence tag items =>
      refine (Yields.mapM fun item _ => hexpand item).bind fun made hmade => ?_
      exact Yields.pure (wellKeyed_collectionTree (Tree.wellKeyed_sequence_iff.2 hmade))
    | mapping tag entries =>
      have hread : Yields (fun read => (Tree.mapping read).wellKeyed = true)
          (entries.foldlM (fun read e => do
            let key ← expand anchored depth e.1
            let value ← expand anchored depth e.2
            StateT.lift (addEntry read key value)) []) := by
        refine Yields.foldlM rfl fun read hread e _ => ?_
        refine (hexpand e.1).bind fun key hkey => ?_
        refine (hexpand e.2).bind fun value hvalue => ?_
        exact Yields.lift fun _ hadd => wellKeyed_addEntry hread hkey hvalue hadd
      refine hread.bind fun read hread => ?_
      exact Yields.pure (wellKeyed_collectionTree hread)

/-- Every tree that a text holds is well keyed. -/
theorem wellKeyed_of_read {text : String} {tree : Tree} (h : read text = .ok tree) :
    tree.wellKeyed = true := by
  unfold read at h
  split at h
  · cases h
  · split at h
    · obtain ⟨slotted, -, hslotted⟩ := bind_eq_ok_iff.1 h
      obtain ⟨⟨made, rest⟩, hexpand, hmade⟩ := bind_eq_ok_iff.1 hslotted
      cases hmade
      exact yields_expand _ _ _ _ _ _ hexpand
    · cases h

end HighlightGrammar.Yaml
