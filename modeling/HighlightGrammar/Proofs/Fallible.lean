/-!
# Results that may be faults

When a computation that may fail has succeeded, its parts have succeeded; when it has failed, one of
them has. -/
namespace HighlightGrammar

variable {ε δ α β : Type}

theorem ok_bind (a : α) (next : α → Except ε β) : (Except.ok a >>= next) = next a := rfl

theorem bind_eq_ok_iff {first : Except ε α} {next : α → Except ε β} {b : β} :
    (first >>= next) = .ok b ↔ ∃ a, first = .ok a ∧ next a = .ok b := by
  cases first <;> simp [bind, Except.bind]

theorem mapError_eq_ok_iff {result : Except ε α} {f : ε → δ} {a : α} :
    result.mapError f = .ok a ↔ result = .ok a := by
  cases result with
  | ok value =>
    have hvalue : (Except.ok value : Except ε α).mapError f = .ok value := rfl
    rw [hvalue, Except.ok.injEq, Except.ok.injEq]
  | error fault => exact ⟨nofun, nofun⟩

theorem bind_eq_error_iff {first : Except ε α} {next : α → Except ε β} {e : ε} :
    (first >>= next) = .error e ↔ first = .error e ∨ ∃ a, first = .ok a ∧ next a = .error e := by
  cases first <;> simp [bind, Except.bind]

theorem mapError_eq_error_iff {result : Except ε α} {f : ε → δ} {d : δ} :
    result.mapError f = .error d ↔ ∃ e, result = .error e ∧ f e = d := by
  cases result with
  | ok value => exact ⟨nofun, nofun⟩
  | error fault =>
    have hfault : (Except.error fault : Except ε α).mapError f = .error (f fault) := rfl
    rw [hfault, Except.error.injEq]
    exact ⟨fun heq => ⟨fault, rfl, heq⟩, fun ⟨_, hsame, heq⟩ => by cases hsame; exact heq⟩

theorem toOption_eq_some_iff {result : Except ε α} {a : α} :
    result.toOption = some a ↔ result = .ok a := by
  cases result <;> simp [Except.toOption]

theorem forM_eq_ok_iff {f : α → Except ε Unit} {items : List α} :
    items.forM f = .ok () ↔ ∀ item ∈ items, f item = .ok () := by
  induction items with
  | nil => simp [List.forM, pure, Except.pure]
  | cons item items ih =>
    have hstep : (item :: items).forM f = (f item >>= fun _ => items.forM f) := rfl
    rw [hstep, bind_eq_ok_iff, List.forall_mem_cons, ih]
    exact ⟨fun ⟨(), hitem, hrest⟩ => ⟨hitem, hrest⟩, fun ⟨hitem, hrest⟩ => ⟨(), hitem, hrest⟩⟩

/-- A run over items fails at the first one that fails. -/
theorem forM_eq_error_iff {f : α → Except ε Unit} {items : List α} {e : ε} :
    items.forM f = .error e ↔ ∃ before item after, items = before ++ item :: after ∧
      (∀ earlier ∈ before, f earlier = .ok ()) ∧ f item = .error e := by
  induction items with
  | nil =>
    refine ⟨nofun, ?_⟩
    rintro ⟨before, item, after, hitems, -⟩
    simp at hitems
  | cons first items ih =>
    have hstep : (first :: items).forM f = (f first >>= fun _ => items.forM f) := rfl
    rw [hstep, bind_eq_error_iff, ih]
    constructor
    · rintro (hfirst | ⟨⟨⟩, hfirst, before, item, after, rfl, hbefore, hitem⟩)
      · exact ⟨[], first, items, rfl, nofun, hfirst⟩
      · exact ⟨first :: before, item, after, rfl, List.forall_mem_cons.2 ⟨hfirst, hbefore⟩, hitem⟩
    · rintro ⟨before, item, after, hitems, hbefore, hitem⟩
      cases before with
      | nil =>
        obtain ⟨rfl, -⟩ := List.cons.inj hitems
        exact Or.inl hitem
      | cons front before =>
        obtain ⟨rfl, hrest⟩ := List.cons.inj hitems
        obtain ⟨hfirst, hbefore⟩ := List.forall_mem_cons.1 hbefore
        exact Or.inr ⟨(), hfirst, before, item, after, hrest, hbefore, hitem⟩

section

variable {σ : Type} {step : σ → α → Except ε σ} {check : α → Except ε Unit}

/-- When a step fails for an item whatever state it starts from, a run of steps fails like a run of
checks. -/
theorem foldlM_eq_error_iff
    (hcheck : ∀ state item e, step state item = .error e ↔ check item = .error e)
    {items : List α} {state : σ} {e : ε} :
    items.foldlM step state = .error e ↔ items.forM check = .error e := by
  induction items generalizing state with
  | nil => exact ⟨nofun, nofun⟩
  | cons item items ih =>
    have hchecks : (item :: items).forM check = (check item >>= fun _ => items.forM check) := rfl
    rw [List.foldlM_cons, hchecks, bind_eq_error_iff, bind_eq_error_iff, hcheck]
    refine or_congr_right ?_
    simp only [ih]
    constructor
    · rintro ⟨next, hnext, hrest⟩
      cases hitem : check item with
      | ok passed => exact ⟨passed, rfl, hrest⟩
      | error fault =>
        rw [(hcheck state item fault).2 hitem] at hnext
        cases hnext
    · rintro ⟨passed, hpassed, hrest⟩
      cases hitem : step state item with
      | ok next => exact ⟨next, rfl, hrest⟩
      | error fault =>
        rw [(hcheck state item fault).1 hitem] at hpassed
        cases hpassed

/-- What passes a check can be left out of a run of checks. -/
theorem forM_filter {keep : α → Bool} (hkeep : ∀ item, keep item = false → check item = .ok ())
    (items : List α) : (items.filter keep).forM check = items.forM check := by
  induction items with
  | nil => rfl
  | cons item items ih =>
    have hchecks : (item :: items).forM check = (check item >>= fun _ => items.forM check) := rfl
    cases hitem : keep item with
    | true =>
      rw [List.filter_cons_of_pos hitem, hchecks, ← ih]
      rfl
    | false =>
      rw [List.filter_cons_of_neg (by simp [hitem]), hchecks, hkeep item hitem, ih]
      rfl

end

end HighlightGrammar
