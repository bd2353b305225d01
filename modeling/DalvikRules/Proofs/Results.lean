import Mathlib.Data.List.Forall2

/-!
# Steps that can fail

A chain of steps succeeds if each of its steps does, and a list of steps has one result for each of
its elements.
-/

namespace DalvikRules

variable {α β ε : Type}

theorem bind_eq_ok_iff {step : Except ε α} {next : α → Except ε β} {result : β} :
    (step >>= next) = .ok result ↔ ∃ a, step = .ok a ∧ next a = .ok result := by
  cases step with
  | error failure =>
    refine iff_of_false (fun h => by cases h) ?_
    rintro ⟨_, h, _⟩
    cases h
  | ok a =>
    constructor
    · exact fun h => ⟨a, rfl, h⟩
    · rintro ⟨_, h, hnext⟩
      cases h
      exact hnext

theorem bind_eq_error_iff {step : Except ε α} {next : α → Except ε β} {failure : ε} :
    (step >>= next) = .error failure ↔
      step = .error failure ∨ ∃ a, step = .ok a ∧ next a = .error failure := by
  cases step with
  | error other =>
    constructor
    · exact fun h => .inl (congrArg Except.error (Except.error.inj h))
    · rintro (h | ⟨_, h, _⟩)
      · exact congrArg Except.error (Except.error.inj h)
      · cases h
  | ok a =>
    constructor
    · exact fun h => .inr ⟨a, rfl, h⟩
    · rintro (h | ⟨_, h, hnext⟩)
      · cases h
      · cases h
        exact hnext

/-- The results of a list stand in the order of its elements. -/
theorem mapM_eq_ok_iff {step : α → Except ε β} {l : List α} {results : List β} :
    l.mapM step = .ok results ↔ List.Forall₂ (fun a b => step a = .ok b) l results := by
  induction l generalizing results with
  | nil =>
    rw [List.mapM_nil, List.forall₂_nil_left_iff]
    exact ⟨fun h => (Except.ok.inj h).symm, fun h => congrArg Except.ok h.symm⟩
  | cons first rest ih =>
    rw [List.mapM_cons, bind_eq_ok_iff, List.forall₂_cons_left_iff]
    constructor
    · rintro ⟨result, hresult, hrest⟩
      obtain ⟨others, hothers, h⟩ := bind_eq_ok_iff.mp hrest
      exact ⟨result, others, hresult, ih.mp hothers, (Except.ok.inj h).symm⟩
    · rintro ⟨result, others, hresult, hothers, rfl⟩
      exact ⟨result, hresult, bind_eq_ok_iff.mpr ⟨others, ih.mpr hothers, rfl⟩⟩

/-- Each result of a list comes from one of its elements. -/
theorem exists_mem_of_mapM_eq_ok {step : α → Except ε β} {l : List α} {results : List β}
    (h : l.mapM step = .ok results) {b : β} (hb : b ∈ results) : ∃ a ∈ l, step a = .ok b := by
  have hall := mapM_eq_ok_iff.mp h
  clear h
  induction hall with
  | nil => cases hb
  | cons hfirst _ ih =>
    rcases List.mem_cons.mp hb with rfl | hrest
    · exact ⟨_, List.mem_cons_self, hfirst⟩
    · obtain ⟨a, ha, hstep⟩ := ih hrest
      exact ⟨a, List.mem_cons_of_mem _ ha, hstep⟩

/-- A list fails as the first of its elements that fails does. -/
theorem mapM_eq_error_iff {step : α → Except ε β} {l : List α} {failure : ε} :
    l.mapM step = .error failure ↔
      ∃ before a after, l = before ++ a :: after ∧
        (∀ earlier ∈ before, ∃ b, step earlier = .ok b) ∧ step a = .error failure := by
  induction l with
  | nil => simp [pure, Except.pure]
  | cons first rest ih =>
    rw [List.mapM_cons, bind_eq_error_iff]
    constructor
    · rintro (hfirst | ⟨result, hresult, hrest⟩)
      · exact ⟨[], first, rest, rfl, by simp, hfirst⟩
      · obtain hrest | ⟨_, _, hnone⟩ := bind_eq_error_iff.mp hrest
        · obtain ⟨before, a, after, rfl, hbefore, ha⟩ := ih.mp hrest
          refine ⟨first :: before, a, after, rfl, ?_, ha⟩
          rw [List.forall_mem_cons]
          exact ⟨⟨result, hresult⟩, hbefore⟩
        · cases hnone
    · rintro ⟨before, a, after, heq, hbefore, ha⟩
      cases before with
      | nil =>
        cases heq
        exact .inl ha
      | cons other before =>
        cases heq
        rw [List.forall_mem_cons] at hbefore
        obtain ⟨⟨result, hresult⟩, hbefore⟩ := hbefore
        have hrest := ih.mpr ⟨before, a, after, rfl, hbefore, ha⟩
        exact .inr ⟨result, hresult, bind_eq_error_iff.mpr (.inl hrest)⟩

/-- If no element of a list fails then the list does not fail. -/
theorem exists_mapM_eq_ok {step : α → Except ε β} (h : ∀ a, ∃ b, step a = .ok b) (l : List α) :
    ∃ results, l.mapM step = .ok results := by
  choose result hresult using h
  refine ⟨l.map result, mapM_eq_ok_iff.mpr ?_⟩
  rw [List.forall₂_map_right_iff, List.forall₂_same]
  exact fun a _ => hresult a

end DalvikRules
