import FinalGrades.Formula.Tree
import FinalGrades.Proofs.Attempt

/-!
When a formula has a value: exactly if every name that occurs in it is bound, and otherwise the
leftmost name that is not bound is reported. Nothing else can go wrong, and bindings for other names
do not count.
-/

namespace FinalGrades

open Attempt

def Bindings.lacks (bindings : Bindings) (name : String) : Bool := (bindings.lookup name).isNone

theorem Bindings.lacks_cons {bindings : Bindings} {bound name : String} {value : Binary64} :
    Bindings.lacks ((bound, value) :: bindings) name = true ↔
      bound ≠ name ∧ bindings.lacks name = true := by
  unfold lacks
  rw [List.lookup_cons]
  cases hname : name == bound with
  | true => simp [(beq_iff_eq.mp hname).symm]
  | false => simp [Ne.symm (beq_eq_false_iff_ne.mp hname)]

/-- A value, unless one of the names lacks a binding, and then the first of those. -/
def Settles (bindings : Bindings) (names : List String) (result : Except FormulaError Binary64) :
    Prop :=
  match names.find? bindings.lacks with
  | none => ∃ value, result = .ok value
  | some name => result = .error (.unboundVariable name)

namespace Settles

variable {bindings : Bindings} {names more : List String}

theorem ok (value : Binary64) : Settles bindings [] (.ok value) := ⟨value, rfl⟩

theorem bind {first : Except FormulaError Binary64}
    {next : Binary64 → Except FormulaError Binary64} (hfirst : Settles bindings names first)
    (hnext : ∀ value, Settles bindings more (next value)) :
    Settles bindings (names ++ more) (first >>= next) := by
  unfold Settles at hfirst ⊢
  rw [List.find?_append]
  cases hname : names.find? bindings.lacks with
  | none =>
    rw [hname] at hfirst
    obtain ⟨value, rfl⟩ := hfirst
    exact hnext value
  | some name =>
    rw [hname] at hfirst
    subst hfirst
    rfl

end Settles

theorem settles_lookup (bindings : Bindings) (name : String) :
    Settles bindings [name] ((Formula.variable name).value bindings) := by
  cases h : bindings.lookup name with
  | none => simp [Settles, Bindings.lacks, Formula.value, h]
  | some value => simp [Settles, Bindings.lacks, Formula.value, h]

mutual

theorem Formula.settles (bindings : Bindings) :
    (formula : Formula) → Settles bindings formula.occurrences (formula.value bindings)
  | .number value => by
    rw [Formula.value]
    exact Settles.ok value
  | .variable name => settles_lookup bindings name
  | .negation inner => by
    rw [Formula.value, Formula.occurrences, ← List.append_nil inner.occurrences]
    exact (inner.settles bindings).bind fun value => Settles.ok (-value)
  | .chain first steps => by
    rw [Formula.value, Formula.occurrences]
    exact (first.settles bindings).bind fun value => steps.settles bindings value

theorem Steps.settles (bindings : Bindings) (total : Binary64) :
    (steps : Steps) → Settles bindings steps.occurrences (steps.value bindings total)
  | .done => by
    rw [Steps.value]
    exact Settles.ok total
  | .step operator operand more => by
    rw [Steps.value, Steps.occurrences]
    exact (operand.settles bindings).bind fun value => more.settles bindings _

end

section Agreement

variable {bindings others : Bindings}

mutual

/-- Bindings that agree on the names in a formula give it the same value. -/
theorem Formula.value_congr : (formula : Formula) →
    (∀ name ∈ formula.occurrences, bindings.lookup name = others.lookup name) →
      formula.value bindings = formula.value others
  | .number value, _ => by rw [Formula.value, Formula.value]
  | .variable name, h => by
    rw [Formula.value, Formula.value, h name List.mem_cons_self]
  | .negation inner, h => by
    have hinner := inner.value_congr h
    rw [Formula.value, Formula.value, hinner]
  | .chain first steps, h => by
    rw [Formula.occurrences] at h
    have hfirst := first.value_congr fun name hname => h name (List.mem_append_left _ hname)
    have hsteps := steps.value_congr fun name hname => h name (List.mem_append_right _ hname)
    rw [Formula.value, Formula.value, hfirst]
    exact congrArg (first.value others >>= ·) (funext hsteps)

theorem Steps.value_congr : (steps : Steps) →
    (∀ name ∈ steps.occurrences, bindings.lookup name = others.lookup name) →
      ∀ total, steps.value bindings total = steps.value others total
  | .done, _ => fun total => by rw [Steps.value, Steps.value]
  | .step operator operand more, h => fun total => by
    rw [Steps.occurrences] at h
    have hoperand := operand.value_congr fun name hname => h name (List.mem_append_left _ hname)
    have hmore := more.value_congr fun name hname => h name (List.mem_append_right _ hname)
    rw [Steps.value, Steps.value, hoperand]
    exact congrArg (operand.value others >>= ·) (funext fun value => hmore _)

end

end Agreement

end FinalGrades
