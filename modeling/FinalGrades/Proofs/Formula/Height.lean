import FinalGrades.Proofs.Formula.Parsing

/-!
How high the tree of a formula can be. A level of depth adds a sum, a product and at most one sign
or pair of parentheses to a path from the root, and a run of operators adds one node however long
it is. So the limit of depth bounds how many formulas are open inside each other while a tree is
worked out or searched for names.
-/

namespace FinalGrades

mutual

/-- One for a leaf; a negation or a chain stands one above its highest operand. -/
def Formula.height : Formula → Nat
  | .number _ => 1
  | .variable _ => 1
  | .negation inner => inner.height + 1
  | .chain first steps => max first.height steps.height + 1

def Steps.height : Steps → Nat
  | .done => 0
  | .step _ operand more => max operand.height more.height

end

mutual

/-- The value, worked out with at most `frames` formulas open inside each other. -/
def Formula.valueWithin (bindings : Bindings) :
    Nat → Formula → Option (Except FormulaError Binary64)
  | 0, _ => none
  | _ + 1, .number value => some (.ok value)
  | _ + 1, .variable name =>
    match bindings.lookup name with
    | some value => some (.ok value)
    | none => some (.error (.unboundVariable name))
  | frames + 1, .negation inner =>
    match inner.valueWithin bindings frames with
    | some (.ok value) => some (.ok (-value))
    | other => other
  | frames + 1, .chain first steps =>
    match first.valueWithin bindings frames with
    | some (.ok total) => steps.valueWithin bindings frames total
    | other => other

/-- The steps of one chain are worked out one after the other, so they share their frames. -/
def Steps.valueWithin (bindings : Bindings) (frames : Nat) (total : Binary64) :
    Steps → Option (Except FormulaError Binary64)
  | .done => some (.ok total)
  | .step operator operand more =>
    match operand.valueWithin bindings frames with
    | some (.ok value) => more.valueWithin bindings frames (operator.apply total value)
    | other => other

end

mutual

/-- The names from the left, found with at most `frames` formulas open inside each other. -/
def Formula.occurrencesWithin : Nat → Formula → Option (List String)
  | 0, _ => none
  | _ + 1, .number _ => some []
  | _ + 1, .variable name => some [name]
  | frames + 1, .negation inner => inner.occurrencesWithin frames
  | frames + 1, .chain first steps => do
    return (← first.occurrencesWithin frames) ++ (← steps.occurrencesWithin frames)

def Steps.occurrencesWithin (frames : Nat) : Steps → Option (List String)
  | .done => some []
  | .step _ operand more => do
    return (← operand.occurrencesWithin frames) ++ (← more.occurrencesWithin frames)

end

section Frames

variable {bindings : Bindings}

mutual

/-- As many frames as the tree is high are enough to work it out. -/
theorem Formula.valueWithin_eq : (formula : Formula) → (frames : Nat) → formula.height ≤ frames →
    formula.valueWithin bindings frames = some (formula.value bindings)
  | formula, 0, h => by cases formula <;> simp [Formula.height] at h
  | .number value, _ + 1, _ => by rw [Formula.valueWithin, Formula.value]
  | .variable name, _ + 1, _ => by
    rw [Formula.valueWithin, Formula.value]
    cases bindings.lookup name <;> rfl
  | .negation inner, frames + 1, h => by
    rw [Formula.height, Nat.add_le_add_iff_right] at h
    rw [Formula.valueWithin, Formula.value, inner.valueWithin_eq frames h]
    cases inner.value bindings <;> rfl
  | .chain first steps, frames + 1, h => by
    rw [Formula.height, Nat.add_le_add_iff_right, Nat.max_le] at h
    rw [Formula.valueWithin, Formula.value, first.valueWithin_eq frames h.1]
    cases first.value bindings with
    | error e => rfl
    | ok total => exact steps.valueWithin_eq frames total h.2

theorem Steps.valueWithin_eq : (steps : Steps) → (frames : Nat) → (total : Binary64) →
    steps.height ≤ frames →
    steps.valueWithin bindings frames total = some (steps.value bindings total)
  | .done, _, _, _ => by rw [Steps.valueWithin, Steps.value]
  | .step operator operand more, frames, total, h => by
    rw [Steps.height, Nat.max_le] at h
    rw [Steps.valueWithin, Steps.value, operand.valueWithin_eq frames h.1]
    cases operand.value bindings with
    | error e => rfl
    | ok value => exact more.valueWithin_eq frames _ h.2

end

mutual

/-- To find the names just as many frames are enough, and fewer are not. -/
theorem Formula.occurrencesWithin_eq : (formula : Formula) → (frames : Nat) →
    formula.occurrencesWithin frames =
      if formula.height ≤ frames then some formula.occurrences else none
  | formula, 0 => by cases formula <;> simp [Formula.height, Formula.occurrencesWithin]
  | .number value, _ + 1 => by
    simp [Formula.height, Formula.occurrencesWithin, Formula.occurrences]
  | .variable name, _ + 1 => by
    simp [Formula.height, Formula.occurrencesWithin, Formula.occurrences]
  | .negation inner, frames + 1 => by
    simp only [Formula.height, Formula.occurrencesWithin, Formula.occurrences,
      inner.occurrencesWithin_eq frames, Nat.add_le_add_iff_right]
  | .chain first steps, frames + 1 => by
    simp only [Formula.height, Formula.occurrencesWithin, Formula.occurrences,
      first.occurrencesWithin_eq frames, steps.occurrencesWithin_eq frames,
      Nat.add_le_add_iff_right, Nat.max_le]
    split <;> split <;> simp_all

theorem Steps.occurrencesWithin_eq : (steps : Steps) → (frames : Nat) →
    steps.occurrencesWithin frames =
      if steps.height ≤ frames then some steps.occurrences else none
  | .done, _ => by simp [Steps.height, Steps.occurrencesWithin, Steps.occurrences]
  | .step operator operand more, frames => by
    simp only [Steps.height, Steps.occurrencesWithin, Steps.occurrences,
      operand.occurrencesWithin_eq frames, more.occurrencesWithin_eq frames, Nat.max_le]
    split <;> split <;> simp_all

end

end Frames

namespace Kind

def height : (kind : Kind) → kind.Value → Nat
  | .one _, formula => Formula.height formula
  | .steps _, rest => Steps.height rest

/-- How high the tree of a phrase can be without any depth. -/
def flatHeight : Kind → Nat
  | .one (.chain .additive) => 3
  | .one (.chain .multiplicative) | .steps .additive => 2
  | .one .signed | .one .operand | .steps .multiplicative => 1

end Kind

namespace Phrase

theorem height_chained_le (first : Formula) (steps : Steps) :
    (Formula.chained first steps).height ≤ max first.height steps.height + 1 := by
  cases steps with
  | done =>
    rw [Formula.chained]
    omega
  | step operator operand more =>
    show (Formula.chain first (.step operator operand more)).height ≤ _
    rw [Formula.height]

/-- Each level of depth that is left adds two to the height: a sum and a product, or a sign. -/
theorem height_tree_le {limit depth : Nat} {kind : Kind} (phrase : Phrase kind)
    (h : phrase.Within limit depth) :
    kind.height phrase.tree ≤ 2 * (limit - depth) + kind.flatHeight := by
  induction phrase generalizing depth with
  | @chain level first rest ihFirst ihRest =>
    obtain ⟨hfirst, hrest⟩ := within_chain.mp h
    have hheight := height_chained_le first.tree rest.tree
    have hoperand := ihFirst hfirst
    have hsteps := ihRest hrest
    cases level <;> simp only [Kind.height, Kind.flatHeight, Precedence.operand, tree] at * <;>
      omega
  | done => exact Nat.zero_le _
  | @step level operator fits operand more ihOperand ihMore =>
    obtain ⟨hoperand, hmore⟩ := within_step.mp h
    have hfirst := ihOperand hoperand
    have hrest := ihMore hmore
    rw [tree, Kind.height, Steps.height]
    cases level <;> simp only [Kind.height, Kind.flatHeight, Precedence.operand] at * <;> omega
  | signed sign fits inner ih =>
    obtain ⟨hdepth, hinner⟩ := within_signed.mp h
    have hheight := ih hinner
    rw [tree]
    split <;> simp only [Kind.height, Kind.flatHeight, Formula.height] at * <;> omega
  | bare operand ih => exact ih h
  | number value =>
    simp only [tree, Kind.height, Kind.flatHeight, Formula.height]
    omega
  | name text =>
    simp only [tree, Kind.height, Kind.flatHeight, Formula.height]
    omega
  | parens inner ih =>
    obtain ⟨hdepth, hinner⟩ := within_parens.mp h
    have hheight := ih hinner
    simp only [tree, Kind.height, Kind.flatHeight] at *
    omega

end Phrase

namespace Formula

/--
However long a formula is, the limit of depth bounds the height of its tree, and with it the frames
that are enough to work it out or to search it for names.
-/
theorem height_le_of_parse {text : String} {limits : Limits} {tree : Formula}
    (h : parse text limits = .ok tree) :
    tree.height ≤ 2 * limits.maxDepth + 3 ∧
      (∀ bindings, tree.valueWithin bindings (2 * limits.maxDepth + 3) =
        some (tree.value bindings)) ∧
      tree.occurrencesWithin (2 * limits.maxDepth + 3) = some tree.occurrences := by
  obtain ⟨_, _, derivation, _, hwithin, rfl⟩ := exists_derivation h
  have hheight : derivation.tree.height ≤ 2 * limits.maxDepth + 3 :=
    derivation.height_tree_le hwithin
  refine ⟨hheight, fun bindings => valueWithin_eq _ _ hheight, ?_⟩
  rw [occurrencesWithin_eq, if_pos hheight]

/-- Without any depth a sum of products is as high as the bound. -/
theorem height_le_of_parse_flat : ∃ tree, parse "A*B-C" ⟨5, 0⟩ = .ok tree ∧ tree.height = 3 ∧
    ∀ bindings, tree.valueWithin bindings 3 = some (tree.value bindings) := by
  have hscan : (Lexeme.scan 0 "A*B-C".toList).toOption =
      some [⟨.name "A", ['A'], 0⟩, ⟨.times, ['*'], 1⟩, ⟨.name "B", ['B'], 2⟩, ⟨.minus, ['-'], 3⟩,
        ⟨.name "C", ['C'], 4⟩] := by
    decide +kernel
  have hparse : parse "A*B-C" ⟨5, 0⟩ = .ok _ :=
    parse_of_derivation (by decide)
      (Lexeme.lexed_of_scan (Attempt.eq_ok_of_toOption hscan))
      (.chain (.chain (.bare (.name "A")) (.step .times rfl (.bare (.name "B")) .done))
        (.step .minus rfl (.chain (.bare (.name "C")) .done) .done)) rfl
      (by simp [Phrase.Within, Phrase.leaves])
  exact ⟨_, hparse, by decide, (height_le_of_parse hparse).2.1⟩

end Formula

end FinalGrades
