/-!
# Outcomes of steps in a row

A computation that runs one step after another succeeds when every step does, and fails with the
fault of the first step that fails.  These are the two readings of a row of steps by which longer
computations are taken apart.
-/

namespace Interlinear.Outcome

variable {ε α β : Type}

@[simp]
theorem ok_bind (a : α) (step : α → Except ε β) : (Except.ok a >>= step) = step a := rfl

@[simp]
theorem error_bind (e : ε) (step : α → Except ε β) :
    (Except.error e >>= step) = Except.error e := rfl

theorem bind_eq_ok_iff
    {first : Except ε α} {step : α → Except ε β} {b : β} :
    (first >>= step) = .ok b ↔ ∃ a, first = .ok a ∧ step a = .ok b := by
  cases first with
  | error e => simp
  | ok a => simp

theorem bind_eq_error_iff
    {first : Except ε α} {step : α → Except ε β} {e : ε} :
    (first >>= step) = .error e ↔ first = .error e ∨ ∃ a, first = .ok a ∧ step a = .error e := by
  cases first with
  | error other => simp
  | ok a => simp

theorem map_eq_error_iff {f : α → β} {outcome : Except ε α} {e : ε} :
    outcome.map f = .error e ↔ outcome = .error e := by
  cases outcome <;> simp [Except.map]

@[simp]
theorem mapError_ok {ε' : Type} (f : ε → ε') (a : α) :
    (Except.ok a : Except ε α).mapError f = .ok a := rfl

@[simp]
theorem mapError_error {ε' : Type} (f : ε → ε') (e : ε) :
    (Except.error e : Except ε α).mapError f = .error (f e) := rfl

theorem mapError_eq_ok_iff {ε' : Type} {f : ε → ε'} {outcome : Except ε α} {a : α} :
    outcome.mapError f = .ok a ↔ outcome = .ok a := by
  cases outcome <;> simp

/-- A row of steps fails at the first step that fails, after the steps before it. -/
theorem foldlM_eq_error_iff {step : β → α → Except ε β} {start : β} {entries : List α} {e : ε} :
    entries.foldlM step start = .error e ↔
      ∃ before entry after reached, entries = before ++ entry :: after ∧
        before.foldlM step start = .ok reached ∧ step reached entry = .error e := by
  induction entries generalizing start with
  | nil =>
      constructor
      · intro h
        cases h
      · rintro ⟨before, entry, after, reached, hsplit, -⟩
        simp at hsplit
  | cons first entries ih =>
      rw [List.foldlM_cons, bind_eq_error_iff]
      simp only [ih]
      constructor
      · rintro (hfirst | ⟨next, hnext, before, entry, after, reached, rfl, hbefore, hentry⟩)
        · exact ⟨[], first, entries, start, rfl, rfl, hfirst⟩
        · refine ⟨first :: before, entry, after, reached, rfl, ?_, hentry⟩
          rw [List.foldlM_cons, hnext]
          exact hbefore
      · rintro ⟨before, entry, after, reached, hsplit, hbefore, hentry⟩
        cases before with
        | nil =>
            obtain ⟨rfl, rfl⟩ := List.cons.inj hsplit
            obtain rfl := Except.ok.inj hbefore
            exact .inl hentry
        | cons other before =>
            obtain ⟨rfl, rfl⟩ := List.cons.inj hsplit
            rw [List.foldlM_cons, bind_eq_ok_iff] at hbefore
            obtain ⟨next, hnext, hbefore⟩ := hbefore
            exact .inr ⟨next, hnext, before, entry, after, reached, rfl, hbefore, hentry⟩

end Interlinear.Outcome
