import FinalGrades.Proofs.Formula.Names
import FinalGrades.Proofs.Formula.Parsing
import FinalGrades.Proofs.Formula.Value
import FinalGrades.Proofs.Outcome.Decision
import Mathlib

/-!
The names of a formula in the order in which they appear. Going through the tree once and keeping
what is new gives the same list; evaluation stops at the first name of it that is not bound, and
depends on nothing but the values of these names.
-/

namespace FinalGrades

/-- What occurs, each once and in the order of the first occurrences. -/
structure FirstAppearances (occurrences names : List String) : Prop where
  once : names.Nodup
  mem : ∀ name, name ∈ names ↔ name ∈ occurrences
  ordered : names.Pairwise fun a b => occurrences.idxOf a < occurrences.idxOf b

section Distinct

variable {names : List String} {a b : String}

theorem nodup_eraseDups (names : List String) : names.eraseDups.Nodup := by
  match names with
  | [] => exact .nil
  | name :: rest =>
    rw [List.eraseDups_cons, List.nodup_cons, List.mem_eraseDups]
    exact ⟨by simp, nodup_eraseDups (rest.filter fun other => !other == name)⟩
termination_by names.length
decreasing_by exact Nat.lt_succ_of_le (List.length_filter_le _ _)

theorem idxOf_lt_of_find? (hne : a ≠ b)
    (h : names.find? (fun name => name == a || name == b) = some a) :
    names.idxOf a < names.idxOf b := by
  induction names with
  | nil => cases h
  | cons name rest ih =>
    by_cases ha : name = a
    · subst ha
      rw [List.idxOf_cons_self, List.idxOf_cons_ne _ hne]
      exact Nat.succ_pos _
    · by_cases hb : name = b
      · rw [List.find?_cons_of_pos (by simp [hb])] at h
        exact absurd (Option.some.inj h) ha
      · rw [List.find?_cons_of_neg (by simp [ha, hb])] at h
        rw [List.idxOf_cons_ne _ ha, List.idxOf_cons_ne _ hb]
        exact Nat.succ_lt_succ (ih h)

/-- Of two names in a list without repetitions the one that stands before the other is found. -/
theorem pairwise_find? (h : names.Nodup) : names.Pairwise fun a b =>
    a ≠ b ∧ names.find? (fun name => name == a || name == b) = some a := by
  induction names with
  | nil => exact .nil
  | cons name rest ih =>
    obtain ⟨hnew, hrest⟩ := List.nodup_cons.mp h
    refine .cons (fun b hb => ⟨?_, List.find?_cons_of_pos (by simp)⟩) ?_
    · rintro rfl
      exact hnew hb
    · refine (ih hrest).imp_of_mem fun {a b} ha hb hfind => ⟨hfind.1, ?_⟩
      have hneA : name ≠ a := fun heq => hnew (heq ▸ ha)
      have hneB : name ≠ b := fun heq => hnew (heq ▸ hb)
      rw [List.find?_cons_of_neg (by simp [hneA, hneB])]
      exact hfind.2

theorem firstAppearances_eraseDups (names : List String) :
    FirstAppearances names names.eraseDups where
  once := nodup_eraseDups names
  mem _ := List.mem_eraseDups
  ordered := by
    refine (pairwise_find? (nodup_eraseDups names)).imp fun ⟨hne, hfind⟩ => ?_
    rw [find?_eraseDups] at hfind
    exact idxOf_lt_of_find? hne hfind

end Distinct

/-- The name at the end, unless it is there already. -/
def appear (seen : List String) (name : String) : List String :=
  if seen.contains name then seen else seen ++ [name]

theorem appear_eraseDups (front : List String) (name : String) :
    appear front.eraseDups name = (front ++ [name]).eraseDups := by
  have hseen : front.eraseDups.contains name = true ↔ name ∈ front := by
    rw [List.contains_iff_mem, List.mem_eraseDups]
  rw [appear, List.eraseDups_append]
  by_cases hname : name ∈ front
  · rw [if_pos (hseen.mpr hname)]
    simp [List.removeAll, hname]
  · rw [if_neg (mt hseen.mp hname)]
    simp [List.removeAll, hname, List.eraseDups_cons]

theorem foldl_appear (front names : List String) :
    names.foldl appear front.eraseDups = (front ++ names).eraseDups := by
  induction names generalizing front with
  | nil => simp
  | cons name rest ih =>
    rw [List.foldl_cons, appear_eraseDups, ih, List.append_assoc, List.singleton_append]

mutual

/-- The names of a formula added to those that were seen before it. -/
def Formula.collect (seen : List String) : Formula → List String
  | .number _ => seen
  | .variable name => appear seen name
  | .negation inner => inner.collect seen
  | .chain first steps => steps.collect (first.collect seen)

def Steps.collect (seen : List String) : Steps → List String
  | .done => seen
  | .step _ operand more => more.collect (operand.collect seen)

end

mutual

theorem Formula.collect_eq_foldl : (formula : Formula) → (seen : List String) →
    formula.collect seen = formula.occurrences.foldl appear seen
  | .number _, seen => by rw [Formula.collect, Formula.occurrences, List.foldl_nil]
  | .variable name, seen => by
    rw [Formula.collect, Formula.occurrences, List.foldl_cons, List.foldl_nil]
  | .negation inner, seen => by
    rw [Formula.collect, Formula.occurrences, inner.collect_eq_foldl]
  | .chain first steps, seen => by
    rw [Formula.collect, Formula.occurrences, List.foldl_append, steps.collect_eq_foldl,
      first.collect_eq_foldl]

theorem Steps.collect_eq_foldl : (steps : Steps) → (seen : List String) →
    steps.collect seen = steps.occurrences.foldl appear seen
  | .done, seen => by rw [Steps.collect, Steps.occurrences, List.foldl_nil]
  | .step _ operand more, seen => by
    rw [Steps.collect, Steps.occurrences, List.foldl_append, more.collect_eq_foldl,
      operand.collect_eq_foldl]

end

namespace Formula

variable {formula : Formula} {bindings others : Bindings} {error : FormulaError}

theorem names_eq_collect (formula : Formula) : formula.names = formula.collect [] := by
  rw [collect_eq_foldl, names]
  exact (foldl_appear [] formula.occurrences).symm

/-- Evaluation fails at the first name that is not bound, and in no other way. -/
theorem value_eq_error_iff : formula.value bindings = .error error ↔
    ∃ name, formula.names.find? bindings.lacks = some name ∧ error = .unboundVariable name := by
  have hsettles := formula.settles bindings
  unfold Settles at hsettles
  rw [names, find?_eraseDups]
  cases hname : formula.occurrences.find? bindings.lacks with
  | none =>
    rw [hname] at hsettles
    obtain ⟨value, hvalue⟩ := hsettles
    simp [hvalue]
  | some name =>
    rw [hname] at hsettles
    rw [hsettles]
    simp [eq_comm]

theorem value_eq_of_names
    (h : ∀ name ∈ formula.names, bindings.lookup name = others.lookup name) :
    formula.value bindings = formula.value others :=
  formula.value_congr fun name hname => h name (List.mem_eraseDups.mpr hname)

/-- The identifiers among the lexemes, in upper case and in the order of the text. -/
def identifiers (lexemes : List Lexeme) : List String :=
  lexemes.filterMap fun lexeme =>
    lexeme.token.name?.map fun _ => Text.upper (String.ofList lexeme.text)

theorem identifiers_eq {position : Nat} {text : List Char} {lexemes : List Lexeme}
    (h : Lexeme.Lexed position text lexemes) :
    identifiers lexemes = (lexemes.map (·.token)).filterMap Token.name? := by
  rw [List.filterMap_map]
  refine List.filterMap_congr fun lexeme hmem => ?_
  rcases h.shape hmem with ⟨c, hsymbol, _⟩ | ⟨_, htoken⟩ | ⟨hspan, htoken⟩
  · simp [(Token.plain_of_symbol? hsymbol).1]
  · simp [htoken, Token.name?]
  · simp [htoken, Token.name?, Lexeme.upper_of_isNameChar hspan.chars]

/-- The names in a tree are the identifiers of the text that it was read from. -/
theorem occurrences_of_parse {text : String} {limits : Limits}
    (h : parse text limits = .ok formula) : ∃ lexemes,
      Lexeme.scan 0 text.toList = .ok lexemes ∧ formula.occurrences = identifiers lexemes := by
  obtain ⟨lexemes, hlexed, derivation, htokens, _, rfl⟩ := exists_derivation h
  refine ⟨lexemes, Lexeme.scan_of_lexed hlexed, ?_⟩
  rw [identifiers_eq hlexed, ← htokens]
  exact derivation.occurrences_tree

/--
The names of a tree are what one pass over it collects: each of them once, in the order in which
they first occur, which is that of the identifiers in a text. A tree has a value unless a name is
not bound; then the first such name is reported. Nothing else goes into its value.
-/
theorem names_decide_value (formula : Formula) :
    (formula.names = formula.collect [] ∧ FirstAppearances formula.occurrences formula.names) ∧
    (∀ text limits, parse text limits = .ok formula → ∃ lexemes,
      Lexeme.scan 0 text.toList = .ok lexemes ∧
        FirstAppearances (identifiers lexemes) formula.names) ∧
    (∀ bindings error, formula.value bindings = .error error ↔
      ∃ name, formula.names.find? bindings.lacks = some name ∧ error = .unboundVariable name) ∧
    ∀ bindings others : Bindings,
      (∀ name ∈ formula.names, bindings.lookup name = others.lookup name) →
        formula.value bindings = formula.value others := by
  have hfirst : FirstAppearances formula.occurrences formula.names :=
    firstAppearances_eraseDups formula.occurrences
  refine ⟨⟨names_eq_collect formula, hfirst⟩, fun text limits h => ?_,
    fun bindings error => value_eq_error_iff, fun bindings others => value_eq_of_names⟩
  obtain ⟨lexemes, hscan, hoccurrences⟩ := occurrences_of_parse h
  exact ⟨lexemes, hscan, hoccurrences ▸ hfirst⟩

theorem names_decide_value_repeated : ∃ formula lexemes, parse "b / (a + B) - c" {} = .ok formula ∧
    formula.names = ["B", "A", "C"] ∧
    Lexeme.scan 0 "b / (a + B) - c".toList = .ok lexemes ∧
    FirstAppearances (identifiers lexemes) formula.names ∧
    formula.value [("B", 2)] = .error (.unboundVariable "A") ∧
    formula.value [("A", 2), ("B", 2), ("C", 2)] =
      formula.value [("D", 4), ("C", 2), ("B", 2), ("A", 2), ("B", 5)] := by
  let formula : Formula := .chain
    (.chain (.variable "B") (.step .over
      (.chain (.variable "A") (.step .plus (.variable "B") .done)) .done))
    (.step .minus (.variable "C") .done)
  have hparse : parse "b / (a + B) - c" {} = .ok formula := by cbv
  have hnames : formula.names = ["B", "A", "C"] := by decide +kernel
  obtain ⟨_, hparsed, hvalue, hagree⟩ := names_decide_value formula
  obtain ⟨lexemes, hscan, hfirst⟩ := hparsed _ _ hparse
  refine ⟨formula, lexemes, hparse, hnames, hscan, hfirst, ?_, ?_⟩
  · exact (hvalue _ _).mpr ⟨"A", by decide +kernel, rfl⟩
  · exact hagree _ _ (by decide +kernel)

end Formula

end FinalGrades
