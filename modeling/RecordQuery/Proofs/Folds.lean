set_option autoImplicit false

/-!
# Folds that stop at a fault

A fold whose steps can fail succeeds if all of them do, and fails with the fault of the first one
that fails.  The calls of a run and the entries of a table are both gone through in this way.
-/

namespace RecordQuery

variable {ε σ α : Type} {step : σ → α → Except ε σ} {as : List α}

theorem foldlM_cons_of_ok {a : α} {s next : σ} (h : step s a = .ok next) :
    (a :: as).foldlM step s = as.foldlM step next := by
  rw [List.foldlM_cons, h]
  rfl

theorem foldlM_cons_of_error {a : α} {s : σ} {e : ε} (h : step s a = .error e) :
    (a :: as).foldlM step s = .error e := by
  rw [List.foldlM_cons, h]
  rfl

theorem foldlM_cons_eq_ok_iff {a : α} {s r : σ} :
    (a :: as).foldlM step s = .ok r ↔ ∃ next, step s a = .ok next ∧ as.foldlM step next = .ok r := by
  cases hstep : step s a with
  | error e => simp [foldlM_cons_of_error hstep]
  | ok next => simp [foldlM_cons_of_ok hstep]

/-- Each step of a fold that succeeds is one that succeeds. -/
theorem exists_ok_of_foldlM {s r : σ} (h : as.foldlM step s = .ok r) :
    ∀ a ∈ as, ∃ before after, step before a = .ok after := by
  induction as generalizing s with
  | nil => exact fun _ ha => nomatch ha
  | cons a as ih =>
    cases hstep : step s a with
    | error e =>
      rw [foldlM_cons_of_error hstep] at h
      nomatch h
    | ok next =>
      rw [foldlM_cons_of_ok hstep] at h
      exact List.forall_mem_cons.mpr ⟨⟨s, next, hstep⟩, ih h⟩

/-- A fold fails where its first failing step does, whatever comes behind. -/
theorem foldlM_eq_error_iff {s : σ} {e : ε} :
    as.foldlM step s = .error e ↔
      ∃ before a after middle, as = before ++ a :: after ∧ before.foldlM step s = .ok middle ∧
        step middle a = .error e := by
  constructor
  · intro h
    induction as generalizing s with
    | nil => nomatch h
    | cons a as ih =>
      cases hstep : step s a with
      | error other =>
        rw [foldlM_cons_of_error hstep] at h
        cases h
        exact ⟨[], a, as, s, rfl, rfl, hstep⟩
      | ok next =>
        rw [foldlM_cons_of_ok hstep] at h
        obtain ⟨before, failing, after, middle, rfl, hbefore, hfailing⟩ := ih h
        exact ⟨a :: before, failing, after, middle, rfl,
          (foldlM_cons_of_ok hstep).trans hbefore, hfailing⟩
  · rintro ⟨before, a, after, middle, rfl, hbefore, hfailing⟩
    rw [List.foldlM_append, hbefore]
    exact foldlM_cons_of_error hfailing

end RecordQuery
