/-!
Steps that may fail, one after the other: a sequence succeeds exactly when each of its steps does,
and fails only as its steps do. Two sequences whose steps agree, unless the first is cut off for one
reason, agree in the same way.
-/

namespace FinalGrades.Attempt

variable {ε α β : Type}

@[simp] theorem pure_eq_ok (a : α) : (pure a : Except ε α) = .ok a := rfl

@[simp] theorem ok_bind (a : α) (next : α → Except ε β) : (Except.ok a >>= next) = next a := rfl

@[simp] theorem error_bind (e : ε) (next : α → Except ε β) :
    (Except.error e >>= next) = .error e := rfl

@[simp] theorem bind_ok (first : Except ε α) : (first >>= Except.ok) = first := by
  cases first <;> rfl

theorem bind_eq_ok_iff {first : Except ε α} {next : α → Except ε β} {b : β} :
    (first >>= next) = .ok b ↔ ∃ a, first = .ok a ∧ next a = .ok b := by
  cases first with
  | error e => simp
  | ok a => simp

theorem bind_eq_error_iff {first : Except ε α} {next : α → Except ε β} {e : ε} :
    (first >>= next) = .error e ↔
      first = .error e ∨ ∃ a, first = .ok a ∧ next a = .error e := by
  cases first with
  | error e' => simp
  | ok a => simp

theorem map_eq_ok_iff {first : Except ε α} {f : α → β} {b : β} :
    first.map f = .ok b ↔ ∃ a, first = .ok a ∧ f a = b := by
  cases first with
  | error e => simp [Except.map]
  | ok a => simp [Except.map]

theorem mapError_eq_ok_iff {ε' : Type} {first : Except ε α} {f : ε → ε'} {a : α} :
    first.mapError f = .ok a ↔ first = .ok a := by
  cases first with
  | error e =>
    constructor
    · rintro ⟨⟩
    · rintro ⟨⟩
  | ok b =>
    constructor
    · rintro ⟨⟩; rfl
    · rintro ⟨⟩; rfl

theorem eq_ok_of_toOption {first : Except ε α} {a : α} (h : first.toOption = some a) :
    first = .ok a := by
  cases first with
  | error e => cases h
  | ok b =>
    cases h
    rfl

section FailsAs

variable {p : ε → Prop} {first : Except ε α}

/-- Whatever goes wrong is of the kind. -/
def FailsAs (p : ε → Prop) (attempt : Except ε α) : Prop := ∀ e, attempt = .error e → p e

theorem FailsAs.ok (a : α) : FailsAs p (.ok a : Except ε α) := fun _ h => nomatch h

theorem FailsAs.error {e : ε} (h : p e) : FailsAs p (.error e : Except ε α) := by
  intro e' he
  cases he
  exact h

theorem FailsAs.bind {next : α → Except ε β} (h : FailsAs p first)
    (hnext : ∀ a, first = .ok a → FailsAs p (next a)) : FailsAs p (first >>= next) := by
  cases hfirst : first with
  | error e => exact .error (h e hfirst)
  | ok a => exact hnext a hfirst

end FailsAs

section CutBy

variable {e : ε} {first other : Except ε α}

/-- The first attempt is cut off for the one reason, or the other one ends alike. -/
def CutBy (e : ε) (first other : Except ε α) : Prop := first = .error e ∨ other = first

theorem CutBy.refl (e : ε) (first : Except ε α) : CutBy e first first := .inr rfl

theorem CutBy.error (e : ε) (other : Except ε α) : CutBy e (.error e) other := .inl rfl

theorem CutBy.bind {next next' : α → Except ε β} (h : CutBy e first other)
    (hnext : ∀ a, first = .ok a → CutBy e (next a) (next' a)) :
    CutBy e (first >>= next) (other >>= next') := by
  rcases h with rfl | rfl
  · exact .error e _
  · cases hother : other with
    | error cause => exact .refl e _
    | ok a => exact hnext a hother

theorem CutBy.eq_ok (h : CutBy e first other) {a : α} (ha : first = .ok a) : other = .ok a := by
  subst ha
  exact h.resolve_left fun hcut => nomatch hcut

end CutBy

end FinalGrades.Attempt
