import FinalGrades.Proofs.Formula.Parsing
import FinalGrades.Proofs.Formula.Value

/-!
Which errors can come from where: reading a text fails only for what is wrong with the text, and
working out a formula only for a name without a value.
-/

namespace FinalGrades

open Attempt

/-- The text alone is at fault. -/
def FormulaError.OfText (error : FormulaError) : Prop := error.isSyntax = true

theorem Lexeme.scan_failsAs (position : Nat) (text : List Char) :
    FailsAs FormulaError.OfText (scan position text) := by
  fun_induction scan position text with
  | case1 position => exact .ok _
  | case2 position c rest hblank ih => exact ih
  | case3 position c rest hblank symbol hsymbol ih => exact ih.bind fun _ _ => .ok _
  | case4 => exact .error rfl
  | case5 position c rest hblank hc literal value hvalue _ ih => exact ih.bind fun _ _ => .ok _
  | case6 position c rest hblank hliteral hc name _ ih => exact ih.bind fun _ _ => .ok _
  | case7 => exact .error rfl

namespace Formula

theorem ofText_unexpected (lexemes : List Lexeme) : (unexpected lexemes).OfText := by
  cases lexemes <;> rfl

theorem whole_failsAs (result : Formula × List Lexeme) :
    FailsAs FormulaError.OfText (whole result) := by
  unfold whole
  split
  · exact .ok _
  · exact .error (ofText_unexpected _)

end Formula

namespace Kind

theorem closed_failsAs (inner : Formula × List Lexeme) :
    FailsAs FormulaError.OfText (closed inner) := by
  unfold closed
  split
  · exact .ok _
  · exact .error (Formula.ofText_unexpected _)

theorem read_failsAs (limit : Nat) (kind : Kind) (depth : Nat) (lexemes : List Lexeme) :
    FailsAs FormulaError.OfText (kind.read limit depth lexemes) := by
  induction kind, depth, lexemes using Kind.read_induct with
  | chain level depth lexemes ihFirst ihRest =>
    rw [read_chain]
    refine ihFirst.bind fun first hfirst => ?_
    exact (ihRest _ (length_lt_of_read hfirst)).bind fun tail _ => .ok _
  | stepsNil level depth =>
    rw [read_steps_nil]
    exact .ok _
  | stepsDone level depth lexeme rest hop =>
    rw [read_steps_done hop]
    exact .ok _
  | stepsStep level depth lexeme rest operator hop ihOperand ihMore =>
    rw [read_steps_step hop]
    refine ihOperand.bind fun operand hoperand => ?_
    exact (ihMore _ (length_lt_of_read hoperand)).bind fun tail _ => .ok _
  | signedNil depth =>
    rw [read_signed_nil]
    exact .error rfl
  | signedBare depth lexeme rest hsign ih =>
    rw [read_signed_bare hsign]
    exact ih
  | signedSign depth lexeme rest sign hsign ih =>
    rw [read_signed_sign hsign]
    split
    · exact .error rfl
    · exact ih.bind fun inner _ => .ok _
  | operandNil depth =>
    rw [read_operand_nil]
    exact .error rfl
  | operandNumber depth lexeme rest value htoken =>
    rw [read_operand_number htoken]
    exact .ok _
  | operandName depth lexeme rest text htoken =>
    rw [read_operand_name htoken]
    exact .ok _
  | operandParens depth lexeme rest htoken ih =>
    rw [read_operand_parens htoken]
    split
    · exact .error rfl
    · exact ih.bind fun inner _ => closed_failsAs inner
  | operandOther depth lexeme rest hnumber hname hopen =>
    rw [read_operand_other hnumber hname hopen]
    exact .error (Formula.ofText_unexpected _)

end Kind

namespace Formula

/-- A text that is not read is itself at fault. -/
theorem parse_failsAs (text : String) (limits : Limits) :
    FailsAs FormulaError.OfText (parse text limits) := by
  by_cases hlength : text.length ≤ limits.maxLength
  · rw [parse_eq_read hlength]
    refine (Lexeme.scan_failsAs 0 text.toList).bind fun lexemes _ => ?_
    exact (Kind.read_failsAs _ _ _ lexemes).bind fun result _ => whole_failsAs result
  · rw [parse_of_long (Nat.lt_of_not_le hlength)]
    exact .error rfl

/-- A formula that is worked out fails only for a name without a value. -/
theorem value_failsAs (tree : Formula) (bindings : Bindings) :
    FailsAs (fun error => error.isSyntax = false) (tree.value bindings) := by
  have hsettles := tree.settles bindings
  unfold Settles at hsettles
  split at hsettles
  · obtain ⟨value, hvalue⟩ := hsettles
    rw [hvalue]
    exact .ok _
  · rw [hsettles]
    exact .error rfl

end Formula

end FinalGrades
