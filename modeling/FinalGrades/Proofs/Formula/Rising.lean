import FinalGrades.Proofs.Formula.Image
import FinalGrades.Proofs.Number.Order

/-!
Formulas whose value rises with the components. Sums, products and quotients by a literal keep the
order of doubles from zero on, as long as nothing leaves their range; a minus does not, and neither
does a divisor that rises. The text decides which formulas these are.
-/

namespace FinalGrades

namespace Binary64

variable {x y : Binary64}

/-- From zero on and in this order, as far as both are finite. -/
def Rises (x y : Binary64) : Prop :=
  x.isFinite = true → y.isFinite = true → 0 ≤ x.position ∧ x.position ≤ y.position

namespace Rises

variable {a b : Binary64}

theorem unsigned (h : x.IsUnsigned) : Rises x x := by
  intro hx _
  cases h with
  | infinite => cases hx
  | finite =>
    rw [position_finite, signed, if_neg Bool.false_ne_true]
    exact ⟨Int.natCast_nonneg _, Int.le_refl _⟩

theorem add (h : Rises x y) (h' : Rises a b) : Rises (x + a) (y + b) := by
  intro hlower hupper
  obtain ⟨hx, ha⟩ := isFinite_of_add hlower
  obtain ⟨hy, hb⟩ := isFinite_of_add hupper
  obtain ⟨hnonneg, hle⟩ := h hx hy
  obtain ⟨hnonneg', hle'⟩ := h' ha hb
  rw [position_add hx ha, position_add hy hb]
  refine ⟨rounded_nonneg Nat.one_pos (by omega), rounded_mono Nat.one_pos Nat.one_pos ?_⟩
  omega

theorem mul (h : Rises x y) (h' : Rises a b) : Rises (x * a) (y * b) := by
  intro hlower hupper
  obtain ⟨hx, ha⟩ := isFinite_of_mul hlower
  obtain ⟨hy, hb⟩ := isFinite_of_mul hupper
  obtain ⟨hnonneg, hle⟩ := h hx hy
  obtain ⟨hnonneg', hle'⟩ := h' ha hb
  have hproduct : x.position * a.position ≤ y.position * b.position :=
    Int.mul_le_mul hle hle' hnonneg' (Int.le_trans hnonneg hle)
  rw [position_mul hx ha, position_mul hy hb]
  exact ⟨rounded_nonneg unit_pos (Int.mul_nonneg hnonneg hnonneg'),
    rounded_mono unit_pos unit_pos
      (Int.mul_le_mul_of_nonneg_right hproduct (Int.natCast_nonneg _))⟩

/-- The divisor is the same on both sides; over zero nothing is finite. -/
theorem div (h : Rises x y) (ha : a.IsUnsigned) : Rises (x / a) (y / a) := by
  intro hlower hupper
  have hx := isFinite_of_div hlower
  have hy := isFinite_of_div hupper
  obtain ⟨hnonneg, hle⟩ := h hx hy
  cases ha with
  | infinite =>
    rw [position_div_infinite hx, position_div_infinite hy]
    exact ⟨Int.le_refl _, Int.le_refl _⟩
  | @finite n hn =>
    rcases Nat.eq_zero_or_pos n with hzero | hpos
    · rw [isFinite_div_zero hzero] at hlower
      cases hlower
    · have hunit : (0 : Int) ≤ unit := Int.natCast_nonneg _
      rw [position_div hx hpos, position_div hy hpos]
      exact ⟨rounded_nonneg hpos (Int.mul_nonneg hnonneg hunit),
        rounded_mono hpos hpos (Int.mul_le_mul_of_nonneg_right
          (Int.mul_le_mul_of_nonneg_right hle hunit) (Int.natCast_nonneg _))⟩

end Rises

end Binary64

mutual

/-- Every divisor is a number. -/
def Formula.DividesByNumbers : Formula → Prop
  | .number _ | .variable _ => True
  | .negation inner => inner.DividesByNumbers
  | .chain first steps => first.DividesByNumbers ∧ steps.DividesByNumbers

def Steps.DividesByNumbers : Steps → Prop
  | .done => True
  | .step operator operand more =>
    (operator = .over → ∃ value, operand = .number value) ∧ operand.DividesByNumbers ∧
      more.DividesByNumbers

end

mutual

/-- Nothing is taken away, and every divisor is a number; numbers are as formulas have them. -/
def Formula.Rising : Formula → Prop
  | .number value => value.IsUnsigned
  | .variable _ => True
  | .negation _ => False
  | .chain first steps => first.Rising ∧ steps.Rising

def Steps.Rising : Steps → Prop
  | .done => True
  | .step operator operand more =>
    operator ≠ .minus ∧ (operator = .over → ∃ value, operand = .number value) ∧ operand.Rising ∧
      more.Rising

end

section Text

def Kind.DividesByNumbers : (kind : Kind) → kind.Value → Prop
  | .one _, formula => Formula.DividesByNumbers formula
  | .steps _, rest => Steps.DividesByNumbers rest

def Kind.Rising : (kind : Kind) → kind.Value → Prop
  | .one _, formula => Formula.Rising formula
  | .steps _, rest => Steps.Rising rest

namespace Phrase

/-- A chain without steps is its first operand. -/
theorem dividesByNumbers_chained {first : Formula} {steps : Steps}
    (h : (Formula.chained first steps).DividesByNumbers) :
    first.DividesByNumbers ∧ steps.DividesByNumbers := by
  cases steps with
  | done => exact ⟨h, trivial⟩
  | step operator operand more => exact h

theorem rising_chained {first : Formula} {steps : Steps} (hfirst : first.Rising)
    (hsteps : steps.Rising) : (Formula.chained first steps).Rising := by
  cases steps with
  | done => exact hfirst
  | step operator operand more => exact ⟨hfirst, hsteps⟩

theorem rising_tree {kind : Kind} (phrase : Phrase kind)
    (h : ∀ token ∈ phrase.tokens, token.WellFormed ∧ token ≠ .minus)
    (hdivisors : kind.DividesByNumbers phrase.tree) : kind.Rising phrase.tree := by
  induction phrase with
  | chain first rest ihFirst ihRest =>
    rw [tokens_chain, List.forall_mem_append] at h
    obtain ⟨hfirst, hrest⟩ := dividesByNumbers_chained hdivisors
    exact rising_chained (ihFirst h.1 hfirst) (ihRest h.2 hrest)
  | done => exact trivial
  | step operator fits operand more ihOperand ihMore =>
    rw [tokens_step, List.forall_mem_cons, List.forall_mem_append] at h
    obtain ⟨hover, hoperand, hmore⟩ := hdivisors
    have hminus : operator ≠ .minus := by
      rintro rfl
      exact h.1.2 rfl
    exact ⟨hminus, hover, ihOperand h.2.1 hoperand, ihMore h.2.2 hmore⟩
  | signed sign fits inner ih =>
    rw [tokens_signed, List.forall_mem_cons] at h
    have hminus : sign ≠ .minus := by
      rintro rfl
      exact h.1.2 rfl
    rw [tree, if_neg hminus] at hdivisors ⊢
    exact ih h.2 hdivisors
  | bare operand ih => exact ih h hdivisors
  | number value => exact (h _ List.mem_cons_self).1
  | name text => exact trivial
  | parens inner ih =>
    rw [tokens_parens, List.forall_mem_cons, List.forall_mem_append] at h
    exact ih h.2.1 hdivisors

end Phrase

namespace Lexeme

variable {position : Nat} {text : List Char} {lexemes : List Lexeme} {lexeme : Lexeme}

theorem Lexed.mem_text (h : Lexed position text lexemes) (hmem : lexeme ∈ lexemes) {c : Char}
    (hc : c ∈ lexeme.text) : c ∈ text := by
  induction h with
  | done => cases hmem
  | blank _ _ ih => exact List.mem_cons_of_mem _ (ih hmem)
  | symbol _ _ ih =>
    rcases List.mem_cons.mp hmem with rfl | hmem
    · exact List.mem_cons.mpr (.inl (List.mem_singleton.mp hc))
    · exact List.mem_cons_of_mem _ (ih hmem)
  | number _ _ _ ih =>
    rcases List.mem_cons.mp hmem with rfl | hmem
    · exact List.mem_append_left _ hc
    · exact List.mem_append_right _ (ih hmem)
  | name _ _ _ ih =>
    rcases List.mem_cons.mp hmem with rfl | hmem
    · exact List.mem_append_left _ hc
    · exact List.mem_append_right _ (ih hmem)

theorem symbol?_eq_minus {c : Char} (h : Token.symbol? c = some .minus) : c = '-' := by
  unfold Token.symbol? at h
  split at h <;> first | rfl | cases h

theorem Lexed.mem_minus (h : Lexed position text lexemes) (hmem : lexeme ∈ lexemes)
    (htoken : lexeme.token = .minus) : '-' ∈ text := by
  rcases h.shape hmem with ⟨c, hsymbol, htext⟩ | ⟨_, hnumber⟩ | ⟨_, hname⟩
  · rw [htoken] at hsymbol
    obtain rfl := symbol?_eq_minus hsymbol
    exact h.mem_text hmem (by rw [htext]; exact List.mem_singleton_self _)
  · rw [htoken] at hnumber
    cases hnumber
  · rw [htoken] at hname
    cases hname

end Lexeme

theorem Formula.rising_of_parse {text : String} {limits : Limits} {tree : Formula}
    (h : parse text limits = .ok tree) (hminus : '-' ∉ text.toList)
    (hdivisors : tree.DividesByNumbers) : tree.Rising := by
  obtain ⟨lexemes, hlexed, derivation, htokens, _, rfl⟩ := exists_derivation h
  refine derivation.rising_tree (fun token htoken => ?_) hdivisors
  rw [htokens] at htoken
  obtain ⟨lexeme, hmem, rfl⟩ := List.mem_map.mp htoken
  exact ⟨hlexed.wellFormed hmem, fun htoken => hminus (hlexed.mem_minus hmem htoken)⟩

end Text

section Value

open Attempt Binary64

variable {bindings others : Bindings}

/-- The operators other than minus keep the order; a quotient does if its divisor is a literal. -/
theorem Operator.rises_apply {operator : Operator} {x y a b : Binary64} (hminus : operator ≠ .minus)
    (hover : operator = .over → a = b ∧ a.IsUnsigned) (h : Rises x y) (h' : Rises a b) :
    Rises (operator.apply x a) (operator.apply y b) := by
  match operator, hminus, hover with
  | .plus, _, _ => exact h.add h'
  | .minus, hminus, _ => exact absurd rfl hminus
  | .times, _, _ => exact h.mul h'
  | .over, _, hover =>
    obtain ⟨rfl, hunsigned⟩ := hover rfl
    exact h.div hunsigned

-- The two runs take the same steps, so the induction is on the formula they share. A value that is
-- not finite says nothing about the other run, and nothing finite comes of it.

mutual

theorem Formula.rises_value
    (hnames : ∀ name x y, bindings.lookup name = some x → others.lookup name = some y → Rises x y) :
    (formula : Formula) → formula.Rising → ∀ {x y}, formula.value bindings = .ok x →
      formula.value others = .ok y → Rises x y
  | .number value, h, x, y, hx, hy => by
    rw [Formula.value] at hx hy
    obtain rfl := Except.ok.inj hx
    obtain rfl := Except.ok.inj hy
    exact Rises.unsigned h
  | .variable name, _, x, y, hx, hy => by
    rw [Formula.value] at hx hy
    cases hlookup : bindings.lookup name with
    | none =>
      rw [hlookup] at hx
      cases hx
    | some value =>
      cases hother : others.lookup name with
      | none =>
        rw [hother] at hy
        cases hy
      | some other =>
        rw [hlookup] at hx
        rw [hother] at hy
        obtain rfl := Except.ok.inj hx
        obtain rfl := Except.ok.inj hy
        exact hnames name value other hlookup hother
  | .negation _, h, _, _, _, _ => absurd h id
  | .chain first steps, ⟨hfirst, hsteps⟩, x, y, hx, hy => by
    rw [Formula.value, bind_eq_ok_iff] at hx hy
    obtain ⟨a, ha, hx⟩ := hx
    obtain ⟨b, hb, hy⟩ := hy
    exact steps.rises_value hnames hsteps (first.rises_value hnames hfirst ha hb) hx hy

theorem Steps.rises_value
    (hnames : ∀ name x y, bindings.lookup name = some x → others.lookup name = some y → Rises x y) :
    (steps : Steps) → steps.Rising → ∀ {total more x y}, Rises total more →
      steps.value bindings total = .ok x → steps.value others more = .ok y → Rises x y
  | .done, _, total, more, x, y, h, hx, hy => by
    rw [Steps.value] at hx hy
    obtain rfl := Except.ok.inj hx
    obtain rfl := Except.ok.inj hy
    exact h
  | .step operator operand rest, hrising, total, more, x, y, h, hx, hy => by
    obtain ⟨hminus, hover, hoperand, hrest⟩ := hrising
    rw [Steps.value, bind_eq_ok_iff] at hx hy
    obtain ⟨a, ha, hx⟩ := hx
    obtain ⟨b, hb, hy⟩ := hy
    refine rest.rises_value hnames hrest (Operator.rises_apply hminus (fun hquotient => ?_) h
      (operand.rises_value hnames hoperand ha hb)) hx hy
    obtain ⟨value, rfl⟩ := hover hquotient
    rw [Formula.value] at ha hb
    obtain rfl := Except.ok.inj ha
    exact ⟨Except.ok.inj hb, hoperand⟩

end

end Value

end FinalGrades
