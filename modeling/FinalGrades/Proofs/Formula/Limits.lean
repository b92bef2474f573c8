import FinalGrades.Outcome
import FinalGrades.Proofs.Formula.Parsing

/-!
What the limits change: a formula that can be read under some limits is read to the same tree under
others, unless these find it too long or too deeply nested. Any other error is found under wider
limits, too.
-/

namespace FinalGrades

open Attempt

/-- The formula is refused for its size alone, and the other limits leave more room for it. -/
def FormulaError.IsLifted (limits other : Limits) : FormulaError → Prop
  | .tooLong _ _ => limits.maxLength < other.maxLength
  | .tooDeep _ => limits.maxDepth < other.maxDepth
  | _ => False

namespace Kind

variable {limit other depth : Nat}

theorem cutBy_of_room {α : Type} {first second : Except FormulaError α} (hle : limit ≤ other)
    (h : CutBy (.tooDeep limit) first second) :
    CutBy (.tooDeep limit) (if limit ≤ depth then .error (.tooDeep limit) else first)
      (if other ≤ depth then .error (.tooDeep other) else second) := by
  by_cases hroom : limit ≤ depth
  · rw [if_pos hroom]
    exact .error _ _
  · rw [if_neg hroom, if_neg (by omega)]
    exact h

/-- Two readers at the same place do the same, until the one with less depth finds it too deep. -/
theorem read_cutBy (hle : limit ≤ other) (kind : Kind) (depth : Nat) (lexemes : List Lexeme) :
    CutBy (.tooDeep limit) (kind.read limit depth lexemes) (kind.read other depth lexemes) := by
  induction kind, depth, lexemes using Kind.read_induct with
  | chain level depth lexemes ihFirst ihRest =>
    rw [read_chain, read_chain]
    exact ihFirst.bind fun first hfirst =>
      (ihRest _ (length_lt_of_read hfirst)).bind fun tail _ => .refl _ _
  | stepsNil level depth =>
    rw [read_steps_nil, read_steps_nil]
    exact .refl _ _
  | stepsDone level depth lexeme rest hop =>
    rw [read_steps_done hop, read_steps_done hop]
    exact .refl _ _
  | stepsStep level depth lexeme rest operator hop ihOperand ihMore =>
    rw [read_steps_step hop, read_steps_step hop]
    refine ihOperand.bind fun operand hoperand => ?_
    exact (ihMore _ (length_lt_of_read hoperand)).bind fun tail _ => .refl _ _
  | signedNil depth =>
    rw [read_signed_nil, read_signed_nil]
    exact .refl _ _
  | signedBare depth lexeme rest hsign ih =>
    rw [read_signed_bare hsign, read_signed_bare hsign]
    exact ih
  | signedSign depth lexeme rest sign hsign ih =>
    rw [read_signed_sign hsign, read_signed_sign hsign]
    exact cutBy_of_room hle (ih.bind fun inner _ => .refl _ _)
  | operandNil depth =>
    rw [read_operand_nil, read_operand_nil]
    exact .refl _ _
  | operandNumber depth lexeme rest value htoken =>
    rw [read_operand_number htoken, read_operand_number htoken]
    exact .refl _ _
  | operandName depth lexeme rest text htoken =>
    rw [read_operand_name htoken, read_operand_name htoken]
    exact .refl _ _
  | operandParens depth lexeme rest htoken ih =>
    rw [read_operand_parens htoken, read_operand_parens htoken]
    exact cutBy_of_room hle (ih.bind fun inner _ => .refl _ _)
  | operandOther depth lexeme rest hnumber hname hopen =>
    rw [read_operand_other hnumber hname hopen, read_operand_other hnumber hname hopen]
    exact .refl _ _

end Kind

namespace Formula

variable {text : String} {limits other : Limits} {tree : Formula}

/-- Under more depth a text that is not too long is read alike, unless the depth was the reason. -/
theorem parse_cutBy (hlength : text.length ≤ limits.maxLength)
    (hother : text.length ≤ other.maxLength) (hdepth : limits.maxDepth ≤ other.maxDepth) :
    CutBy (.tooDeep limits.maxDepth) (parse text limits) (parse text other) := by
  rw [parse_eq_read hlength, parse_eq_read hother]
  refine (CutBy.refl _ _).bind fun lexemes _ => ?_
  exact (Kind.read_cutBy hdepth _ _ _).bind fun result _ => .refl _ _

theorem parse_of_wider (h : parse text limits = .ok tree) (hlength : text.length ≤ other.maxLength)
    (hdepth : limits.maxDepth ≤ other.maxDepth) : parse text other = .ok tree :=
  (parse_cutBy (parse_eq_ok.mp h).1 hlength hdepth).eq_ok h

/-- A limit is the only reason for which a readable formula is refused. -/
theorem parse_under_other (other : Limits) (h : parse text limits = .ok tree) :
    parse text other = .ok tree ∨
      (other.maxLength < text.length ∧
        parse text other = .error (.tooLong text.length other.maxLength)) ∨
      (text.length ≤ other.maxLength ∧ parse text other = .error (.tooDeep other.maxDepth)) := by
  by_cases hlength : text.length ≤ other.maxLength
  · rcases Nat.le_total limits.maxDepth other.maxDepth with hle | hle
    · exact .inl (parse_of_wider h hlength hle)
    · rcases parse_cutBy hlength (parse_eq_ok.mp h).1 hle with hdeep | hsame
      · exact .inr (.inr ⟨hlength, hdeep⟩)
      · exact .inl (hsame.symm.trans h)
  · have hlong := Nat.lt_of_not_le hlength
    exact .inr (.inl ⟨hlong, parse_of_long hlong⟩)

theorem parse_ne_ok {error : FormulaError} (h : parse text limits = .error error)
    (hlifted : ¬error.IsLifted limits other) : parse text other ≠ .ok tree := by
  intro htree
  rcases parse_under_other limits htree with hsame | ⟨hlong, hsame⟩ | ⟨hshort, hsame⟩
  · rw [h] at hsame
    cases hsame
  · rw [h] at hsame
    cases hsame
    exact hlifted (Nat.lt_of_lt_of_le hlong (parse_eq_ok.mp htree).1)
  · rw [h] at hsame
    cases hsame
    rw [parse_of_wider htree hshort (Nat.le_of_not_lt hlifted)] at h
    cases h

theorem scan_of_blank {span : List Char} (h : span.all Text.isBlank = true) (position : Nat) :
    Lexeme.scan position span = .ok [] := by
  induction span generalizing position with
  | nil => rw [Lexeme.scan]
  | cons c span ih =>
    obtain ⟨hc, hspan⟩ := Bool.and_eq_true_iff.mp h
    rw [Lexeme.scan, if_pos hc, ih hspan]

theorem isBlankText_of_parse (h : parse text limits = .ok tree) :
    Text.isBlankText text = false := by
  obtain ⟨_, lexemes, hscan, hread⟩ := parse_eq_ok.mp h
  cases hblank : Text.isBlankText text with
  | false => rfl
  | true =>
    rw [scan_of_blank hblank] at hscan
    cases hscan
    exact absurd (Kind.length_lt_of_read hread) (Nat.lt_irrefl _)

theorem tree_eq_of_parse {tree' : Formula} (h : parse text limits = .ok tree)
    (h' : parse text other = .ok tree') : tree = tree' := by
  rcases parse_under_other other h with hsame | ⟨_, hlong⟩ | ⟨_, hdeep⟩
  · exact Except.ok.inj (hsame.symm.trans h')
  · cases hlong.symm.trans h'
  · cases hdeep.symm.trans h'

end Formula

theorem ParsedFormula.ofText_eq_ok {text : String} {limits : Limits} {parsed : ParsedFormula} :
    ofText text limits = .ok parsed ↔
      ∃ tree, Formula.parse text limits = .ok tree ∧ parsed = ⟨text, tree⟩ := by
  rw [ofText, bind_eq_ok_iff]
  refine exists_congr fun tree => and_congr_right fun _ => ?_
  rw [pure_eq_ok, Except.ok.injEq, eq_comm]

theorem ParsedFormula.eq_of_ofText {text : String} {limits other : Limits}
    {parsed parsed' : ParsedFormula} (h : ofText text limits = .ok parsed)
    (h' : ofText text other = .ok parsed') : parsed = parsed' := by
  obtain ⟨tree, htree, rfl⟩ := ofText_eq_ok.mp h
  obtain ⟨tree', htree', rfl⟩ := ofText_eq_ok.mp h'
  rw [Formula.tree_eq_of_parse htree htree']

namespace Formula

/--
Narrower limits cut formulas off, and change nothing else. What is read under them is read to the
same tree under wider ones; what is read under the wider ones is under them too long, too deep or
read alike; and an error that is not the limits' own is the same under both. So all readings of a
text, whatever their limits, are one and give every student the same outcome.
-/
theorem narrower_limits_cut_off (text : String) {narrow wide : Limits}
    (hlength : narrow.maxLength ≤ wide.maxLength) (hdepth : narrow.maxDepth ≤ wide.maxDepth) :
    (∀ tree, parse text narrow = .ok tree → parse text wide = .ok tree) ∧
    (∀ tree, parse text wide = .ok tree →
      (narrow.maxLength < text.length →
        parse text narrow = .error (.tooLong text.length narrow.maxLength)) ∧
      (text.length ≤ narrow.maxLength →
        parse text narrow = .ok tree ∨ parse text narrow = .error (.tooDeep narrow.maxDepth))) ∧
    (∀ error, parse text narrow = .error error →
      (∀ length limit, error ≠ .tooLong length limit) → (∀ limit, error ≠ .tooDeep limit) →
      parse text wide = .error error) ∧
    ∀ limits other first second, ParsedFormula.ofText text limits = .ok first →
      ParsedFormula.ofText text other = .ok second →
      first = second ∧ ∀ grades, first.evaluate grades = second.evaluate grades := by
  refine ⟨fun tree htree => ?_, fun tree htree => ⟨parse_of_long, fun hshort => ?_⟩,
    fun error herror hlong hdeep => ?_, ?_⟩
  · have hshort := (parse_eq_ok.mp htree).1
    exact parse_of_wider htree (Nat.le_trans hshort hlength) hdepth
  · rcases parse_cutBy hshort (parse_eq_ok.mp htree).1 hdepth with hcut | hsame
    · exact .inr hcut
    · exact .inl (hsame.symm.trans htree)
  · have hshort : text.length ≤ narrow.maxLength := by
      by_contra hover
      cases (parse_of_long (Nat.lt_of_not_le hover)).symm.trans herror
      exact hlong _ _ rfl
    rcases parse_cutBy hshort (Nat.le_trans hshort hlength) hdepth with hcut | hsame
    · cases hcut.symm.trans herror
      exact absurd rfl (hdeep _)
    · exact hsame.trans herror
  · intro limits other first second hfirst hsecond
    obtain rfl := ParsedFormula.eq_of_ofText hfirst hsecond
    exact ⟨rfl, fun _ => rfl⟩

/-- One level less than the two parentheses need stops `((A))`, or changes nothing. -/
theorem narrower_limits_cut_off_parentheses :
    (5 ≤ 8 ∧ 1 ≤ 2) ∧ parse "((A))" ⟨8, 2⟩ = .ok (.variable "A") ∧
      (parse "((A))" ⟨5, 1⟩ = .ok (.variable "A") ∨
        parse "((A))" ⟨5, 1⟩ = .error (.tooDeep 1)) := by
  have hlimits : 5 ≤ 8 ∧ 1 ≤ 2 := by decide
  have hscan : (Lexeme.scan 0 "((A))".toList).toOption =
      some [⟨.openParen, ['('], 0⟩, ⟨.openParen, ['('], 1⟩, ⟨.name "A", ['A'], 2⟩,
        ⟨.closeParen, [')'], 3⟩, ⟨.closeParen, [')'], 4⟩] := by
    decide +kernel
  have hwide : parse "((A))" ⟨8, 2⟩ = .ok (.variable "A") :=
    parse_of_derivation (by decide) (Lexeme.lexed_of_scan (eq_ok_of_toOption hscan))
      (.chain (.chain (.bare (.parens (.chain (.chain (.bare (.parens
        (.chain (.chain (.bare (.name "A")) .done) .done))) .done) .done))) .done) .done) rfl
      (by simp [Phrase.Within, Phrase.leaves])
  have hcut := @narrower_limits_cut_off "((A))" ⟨5, 1⟩ ⟨8, 2⟩ hlimits.1 hlimits.2
  exact ⟨hlimits, hwide, (hcut.2.1 _ hwide).2 (Nat.le_refl 5)⟩

end Formula

end FinalGrades
