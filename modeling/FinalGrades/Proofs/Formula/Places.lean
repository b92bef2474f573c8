import FinalGrades.Proofs.Coverage.Words
import FinalGrades.Proofs.Formula.Pieces
import FinalGrades.Proofs.Formula.Viable
import FinalGrades.Proofs.Formula.Writing
import Mathlib

/-!
What the error for a formula says about its text: the place it names is the first one at which
the text cannot go on to a formula.
-/

namespace FinalGrades

open Attempt

namespace Lexeme

variable {position : Nat} {text front rest : List Char} {lexemes used more : List Lexeme}
  {lexeme : Lexeme} {error : FormulaError}

/-- Neither a blank nor the first character of a token. -/
structure StartsNothing (c : Char) : Prop where
  blank : Text.isBlank c = false
  symbol : Token.symbol? c = none
  literal : isLiteralChar c = false
  name : isNameStart c = false

theorem ends_of_front {p : Char → Bool} (h : Ends p rest) (hfront : front <+: rest) :
    Ends p front := by
  obtain ⟨after, rfl⟩ := hfront
  exact (ends_append.mp h).1

/--
Where a run of digits and points begins: after another character, or with a point after a name,
whose digits are its own.
-/
def Begins (run before : List Char) (lexemes : List Lexeme) : Prop :=
  Ends isLiteralChar before.reverse ∨
    run.head? = some '.' ∧ ∃ lexeme ∈ lexemes.getLast?, IsName lexeme.text ∧
      lexeme.text <:+ before

/-- The first fault of a text that is not cut into lexemes; what precedes it is. -/
inductive Halts (position : Nat) (text : List Char) : FormulaError → Prop
  | character {before c after lexemes place} : text = before ++ c :: after →
      place = position + before.length → Lexed position before lexemes → StartsNothing c →
      Halts position text (.unexpectedChar c place)
  | number {before run after lexemes} : text = before ++ (run ++ after) →
      Lexed position before lexemes → run ≠ [] → (∀ d ∈ run, isLiteralChar d = true) →
      Ends isLiteralChar after → Begins run before lexemes → ¬IsLiteral run →
      Halts position text (.invalidNumber (String.ofList run))

theorem Begins.prepend {run before : List Char} (h : Begins run before lexemes)
    (hne : before ≠ []) (front : List Char) (first : List Lexeme) :
    Begins run (front ++ before) (first ++ lexemes) := by
  rcases h with hends | ⟨hhead, last, hlast, hname, hsuffix⟩
  · left
    rw [List.reverse_append, ends_append]
    exact ⟨hends, fun hnil => absurd (List.reverse_eq_nil_iff.mp hnil) hne⟩
  · refine .inr ⟨hhead, last, ?_, hname, hsuffix.trans (List.suffix_append _ _)⟩
    rw [List.getLast?_append, Option.mem_def.mp hlast]
    rfl

theorem Halts.prepend (h : Halts (position + front.length) rest error) (first : List Lexeme)
    (lexed : ∀ before lexemes, before <+: rest → Lexed (position + front.length) before lexemes →
      Lexed position (front ++ before) (first ++ lexemes))
    (begins : ∀ run, run ≠ [] → (∀ d ∈ run, isLiteralChar d = true) → run <+: rest →
      Begins run front first) : Halts position (front ++ rest) error := by
  cases h with
  | @character before c after lexemes place htext hplace hbefore hc =>
    refine .character (by rw [htext, List.append_assoc]) ?_
      (lexed before lexemes ⟨_, htext.symm⟩ hbefore) hc
    rw [hplace, List.length_append, Nat.add_assoc]
  | @number before run after lexemes htext hbefore hne hrun hends hbegins hliteral =>
    refine .number (by rw [htext, List.append_assoc])
      (lexed before lexemes ⟨_, htext.symm⟩ hbefore) hne hrun hends ?_ hliteral
    by_cases hnil : before = []
    · subst hnil
      obtain rfl := hbefore.unique .done
      simpa using begins run hne hrun ⟨after, htext.symm⟩
    · exact hbegins.prepend hnil front first

theorem halts_of_scan (h : scan position text = .error error) : Halts position text error := by
  fun_induction scan position text generalizing error with
  | case1 position => cases h
  | case2 position c rest hblank ih =>
    have hrest : Halts (position + [c].length) rest error := ih h
    have hc : isLiteralChar c = false := by
      by_contra hc
      simp [(isLiteralChar_alone (by simpa using hc)).1] at hblank
    show Halts position ([c] ++ rest) error
    exact hrest.prepend [] (fun before lexemes _ hbefore => .blank hblank hbefore)
      fun _ _ _ _ => .inl (ends_cons _ hc)
  | case3 position c rest hblank symbol hsymbol ih =>
    rcases bind_eq_error_iff.mp h with h | ⟨_, _, h⟩
    · have hrest : Halts (position + [c].length) rest error := ih h
      have hc : isLiteralChar c = false := by
        by_contra hc
        simp [(isLiteralChar_alone (by simpa using hc)).2] at hsymbol
      show Halts position ([c] ++ rest) error
      exact hrest.prepend [⟨symbol, [c], position⟩]
        (fun before lexemes _ hbefore => .symbol hsymbol hbefore)
        fun _ _ _ _ => .inl (ends_cons _ hc)
    · cases h
  | case4 position c rest hblank hc literal hnone =>
    cases h
    have hchars : ∀ d ∈ literal, isLiteralChar d = true := all_cons_takeWhile hc
    have hliteral : ¬IsLiteral literal := fun hliteral => by
      rw [(readUnsigned_eq_some_iff hchars).mpr ⟨hliteral, rfl⟩] at hnone
      cases hnone
    refine .number ?_ .done (List.cons_ne_nil _ _) hchars (ends_dropWhile _ rest)
      (.inl (ends_nil _)) hliteral
    rw [List.nil_append, List.cons_append, List.takeWhile_append_dropWhile]
  | case5 position c rest hblank hc literal value hvalue _ =>
    rename_i ih
    rcases bind_eq_error_iff.mp h with hrest | ⟨_, _, h⟩
    · obtain ⟨hliteral, rfl⟩ := (readUnsigned_eq_some_iff (all_cons_takeWhile hc)).mp hvalue
      have hends := ends_dropWhile isLiteralChar rest
      have hhalts := (ih hrest).prepend [⟨.number (literalValue literal), literal, position⟩]
        (fun before lexemes hprefix hbefore =>
          .number hliteral (ends_of_front hends hprefix) hbefore)
        fun run hne hrun hprefix => by
          obtain ⟨d, run, rfl⟩ := List.exists_cons_of_ne_nil hne
          have hd := ends_of_front hends hprefix d rfl
          simp [hrun d List.mem_cons_self] at hd
      rwa [List.cons_append, List.takeWhile_append_dropWhile] at hhalts
    · cases h
  | case6 position c rest hblank hliteral hc name _ =>
    rename_i ih
    rcases bind_eq_error_iff.mp h with hrest | ⟨_, _, h⟩
    · have hname : IsName name :=
        ⟨all_cons_takeWhile (isNameChar_of_isNameStart hc), c, rfl, hc⟩
      have hends := ends_dropWhile isNameChar rest
      have hhalts := (ih hrest).prepend
        [⟨.name (String.ofList (name.map Char.toUpper)), name, position⟩]
        (fun before lexemes hprefix hbefore =>
          .name hname (ends_of_front hends hprefix) hbefore)
        fun run hne hrun hprefix => by
          obtain ⟨d, run, rfl⟩ := List.exists_cons_of_ne_nil hne
          have hd := ends_of_front hends hprefix d rfl
          rcases isLiteralChar_iff.mp (hrun d List.mem_cons_self) with hdigit | rfl
          · simp [isNameChar_of_isDigit hdigit] at hd
          · exact .inr ⟨rfl, _, rfl, hname, List.suffix_refl _⟩
      rwa [List.cons_append, List.takeWhile_append_dropWhile] at hhalts
    · cases h
  | case7 position c rest hblank hliteral hc hsymbol =>
    cases h
    have hnone : Token.symbol? c = none := Option.eq_none_iff_forall_ne_some.mpr hsymbol
    exact .character rfl rfl .done ⟨by simpa using hblank, hnone, by simpa using hliteral,
      by simpa using hc⟩

theorem exists_spelling {tokens : List Token}
    (h : ∀ token ∈ tokens, token = .number 0 ∨ token = .closeParen) :
    ∃ text, Spells text tokens ∧ Ends isLiteralChar text ∧ Ends isNameChar text := by
  induction tokens with
  | nil => exact ⟨[], spells_nil, ends_nil _, ends_nil _⟩
  | cons token tokens ih =>
    obtain ⟨text, hspells, hliteral, _⟩ :=
      ih fun other hmem => h other (List.mem_cons_of_mem _ hmem)
    rcases h token List.mem_cons_self with rfl | rfl
    · have hzero : IsLiteral ['0'] :=
        ⟨List.all_eq_true.mp rfl, ⟨'0', List.mem_singleton_self _, rfl⟩, Nat.zero_le 1⟩
      have hvalue : literalValue ['0'] = 0 := by decide +kernel
      have hnumber := hspells.number hzero hliteral
      rw [hvalue] at hnumber
      exact ⟨' ' :: '0' :: text, hnumber.blank, ends_cons _ rfl, ends_cons _ rfl⟩
    · exact ⟨')' :: text, hspells.symbol rfl, ends_cons _ rfl, ends_cons _ rfl⟩

end Lexeme

namespace Formula

variable {limit : Nat} {tokens : List Token} {text : String} {limits : Limits}
  {error : FormulaError}

/-- The tokens of a text that is read under this limit of depth, and some limit of length. -/
def Accepts (maxDepth : Nat) (tokens : List Token) : Prop :=
  ∃ (text : String) (limits : Limits) (tree : Formula) (lexemes : List Lexeme),
    limits.maxDepth = maxDepth ∧ parse text limits = .ok tree ∧
      Lexeme.Lexed 0 text.toList lexemes ∧ lexemes.map (·.token) = tokens

theorem Accepts.exists_derivation (h : Accepts limit tokens) :
    ∃ derivation : Derivation, derivation.tokens = tokens := by
  obtain ⟨text, limits, tree, lexemes, _, hparse, hlexed, rfl⟩ := h
  obtain ⟨others, hothers, derivation, htokens, _⟩ := Formula.exists_derivation hparse
  rw [hlexed.unique hothers]
  exact ⟨derivation, htokens⟩

theorem accepts_of_viable {before : List Char} {used : List Lexeme}
    (hlexed : Lexeme.Lexed 0 before used)
    (hviable : Phrase.Viable limit 0 (.one (.chain .additive)) (used.map (·.token))) :
    ∃ more, Accepts limit (used.map (·.token) ++ more) := by
  obtain ⟨derivation, more, htokens, hwithin, hmore⟩ := hviable
  obtain ⟨text, hspells, hliteral, hname⟩ := Lexeme.exists_spelling hmore
  obtain ⟨lexemes, hlexemes, rfl⟩ := hspells (0 + before.length)
  have hall := hlexed.append hlexemes hliteral hname
  refine ⟨_, String.ofList (before ++ text), ⟨(before ++ text).length, limit⟩, derivation.tree,
    used ++ lexemes, rfl, ?_, ?_, List.map_append⟩
  · exact parse_of_derivation (by simp) (by simpa using hall)
      derivation (by rw [htokens, List.map_append]) hwithin
  · simpa using hall

theorem parse_eq_error (h : parse text limits = .error error) :
    limits.maxLength < text.length ∧ error = .tooLong text.length limits.maxLength ∨
      text.length ≤ limits.maxLength ∧ (Lexeme.scan 0 text.toList = .error error ∨
        ∃ lexemes, Lexeme.Lexed 0 text.toList lexemes ∧ (error = .tooDeep limits.maxDepth ∨
          ∃ used bad, lexemes = used ++ bad ∧ StopsAt limits.maxDepth error used bad)) := by
  by_cases hlength : text.length ≤ limits.maxLength
  · refine .inr ⟨hlength, ?_⟩
    rw [parse_eq_read hlength] at h
    rcases bind_eq_error_iff.mp h with hscan | ⟨lexemes, hscan, h⟩
    · exact .inl hscan
    · refine .inr ⟨lexemes, Lexeme.lexed_of_scan hscan, ?_⟩
      by_cases hdeep : error = .tooDeep limits.maxDepth
      · exact .inl hdeep
      · rcases bind_eq_error_iff.mp h with hread | ⟨⟨tree, after⟩, hread, hwhole⟩
        · exact .inr (stopsAt_of_error hdeep hread)
        · cases after with
          | nil => cases hwhole
          | cons lexeme after =>
            cases hwhole
            exact .inr (stopsAt_of_rest hread)
  · have hlong := Nat.lt_of_not_le hlength
    rw [parse_of_long hlong] at h
    cases h
    exact .inl ⟨hlong, rfl⟩

theorem not_accepts_of_stopsAt {used bad rest : List Lexeme} (h : StopsAt limit error used bad)
    (hrest : rest.head? = bad.head?) (maxDepth : Nat) :
    ¬Accepts maxDepth ((used ++ rest).map (·.token)) := fun haccepts => by
  obtain ⟨derivation, htokens⟩ := haccepts.exists_derivation
  exact h.refused rest hrest derivation htokens

end Formula

namespace FormulaError

/-- The text is not cut into lexemes. -/
def isLexical : FormulaError → Bool
  | .unexpectedChar _ _ | .invalidNumber _ => true
  | _ => false

/-- What an error says about the text and the limits that it comes from. -/
def Locates (text : String) (limits : Limits) : FormulaError → Prop
  | .tooLong length limit =>
    length = text.length ∧ limit = limits.maxLength ∧ limits.maxLength < text.length
  | .unexpectedChar c position => ∃ before after lexemes, text.toList = before ++ c :: after ∧
      before.length = position ∧ Lexeme.Lexed 0 before lexemes ∧ Lexeme.StartsNothing c
  | .invalidNumber literal => ∃ before after lexemes,
      text.toList = before ++ (literal.toList ++ after) ∧ Lexeme.Lexed 0 before lexemes ∧
        literal.toList ≠ [] ∧ (∀ d ∈ literal.toList, isLiteralChar d = true) ∧
        Ends isLiteralChar after ∧ Lexeme.Begins literal.toList before lexemes ∧
        ((∀ d ∈ literal.toList, isDigit d = false) ∨ 1 < literal.toList.count '.')
  | .unexpectedToken found position => ∃ used lexeme rest,
      Lexeme.Lexed 0 text.toList (used ++ lexeme :: rest) ∧
        lexeme.text <+: text.toList.drop position ∧ lexeme.position = position ∧
        lexeme.token.describe = found ∧
        (∃ more, Formula.Accepts limits.maxDepth (used.map (·.token) ++ more)) ∧
        ∀ maxDepth more, ¬Formula.Accepts maxDepth (used.map (·.token) ++ lexeme.token :: more)
  | .unexpectedEnd => ∃ lexemes, Lexeme.Lexed 0 text.toList lexemes ∧
      (∀ maxDepth, ¬Formula.Accepts maxDepth (lexemes.map (·.token))) ∧
        ∃ more ≠ [], Formula.Accepts limits.maxDepth (lexemes.map (·.token) ++ more)
  | .tooDeep limit => limit = limits.maxDepth ∧ ∃ lexemes, Lexeme.Lexed 0 text.toList lexemes
  | .unboundVariable _ | .nonFinite => False

variable {text : String} {limits : Limits} {error : FormulaError}

theorem locates_of_halts (h : Lexeme.Halts 0 text.toList error) :
    error.Locates text limits ∧ error.isLexical = true := by
  cases h with
  | character htext hplace hlexed hc =>
    exact ⟨⟨_, _, _, htext, by rw [hplace, Nat.zero_add], hlexed, hc⟩, rfl⟩
  | @number before run after lexemes htext hlexed hne hrun hends hbegins hliteral =>
    refine ⟨⟨before, after, lexemes, ?_⟩, rfl⟩
    rw [String.toList_ofList]
    refine ⟨htext, hlexed, hne, hrun, hends, hbegins, ?_⟩
    by_contra hnone
    obtain ⟨hdigit, hpoint⟩ := not_or.mp hnone
    exact hliteral ⟨hrun, by simpa using hdigit, Nat.le_of_not_lt hpoint⟩

theorem locates_of_stopsAt {used bad : List Lexeme}
    (hlexed : Lexeme.Lexed 0 text.toList (used ++ bad))
    (h : Formula.StopsAt limits.maxDepth error used bad) :
    error.Locates text limits ∧ error.isLexical = false := by
  obtain rfl := h.cause
  cases bad with
  | nil =>
    rw [List.append_nil] at hlexed
    have hnot := Formula.not_accepts_of_stopsAt h rfl
    rw [List.append_nil] at hnot
    obtain ⟨more, hmore⟩ := Formula.accepts_of_viable hlexed h.viable
    refine ⟨⟨used, hlexed, hnot, more, ?_, hmore⟩, rfl⟩
    rintro rfl
    rw [List.append_nil] at hmore
    exact hnot _ hmore
  | cons lexeme rest =>
    obtain ⟨before, after, htext, hposition, hbefore⟩ := hlexed.split
    rw [Nat.zero_add] at hposition
    refine ⟨⟨used, lexeme, rest, hlexed, ?_, rfl, rfl, ?_, fun maxDepth more haccepts => ?_⟩, rfl⟩
    · rw [htext, hposition, List.drop_left]
      exact List.prefix_append _ _
    · exact Formula.accepts_of_viable hbefore h.viable
    · -- Any tokens are those of some lexemes.
      have hhead : (lexeme :: more.map fun token => (⟨token, [], 0⟩ : Lexeme)).head? =
          (lexeme :: rest).head? := rfl
      refine Formula.not_accepts_of_stopsAt h hhead maxDepth ?_
      simpa [Function.comp_def] using haccepts

end FormulaError

namespace Formula

variable {text : String} {limits : Limits} {error : FormulaError}

theorem locates_of_parse (h : parse text limits = .error error) :
    error.Locates text limits ∧ (text.length ≤ limits.maxLength →
      (error.isLexical = true ↔ ¬∃ lexemes, Lexeme.Lexed 0 text.toList lexemes)) := by
  rcases parse_eq_error h with ⟨hlong, rfl⟩ | ⟨_, hscan | ⟨lexemes, hlexed, hdeep | hstops⟩⟩
  · exact ⟨⟨rfl, rfl, hlong⟩, fun hshort => absurd hlong (Nat.not_lt.mpr hshort)⟩
  · obtain ⟨hlocates, hlexical⟩ := FormulaError.locates_of_halts (Lexeme.halts_of_scan hscan)
    refine ⟨hlocates, fun _ => iff_of_true hlexical ?_⟩
    rintro ⟨lexemes, hlexed⟩
    rw [Lexeme.scan_of_lexed hlexed] at hscan
    cases hscan
  · subst hdeep
    have hlexical : (FormulaError.tooDeep limits.maxDepth).isLexical = false := rfl
    exact ⟨⟨rfl, lexemes, hlexed⟩,
      fun _ => iff_of_false (by simp [hlexical]) (not_not.mpr ⟨_, hlexed⟩)⟩
  · obtain ⟨used, bad, rfl, hstops⟩ := hstops
    obtain ⟨hlocates, hlexical⟩ := FormulaError.locates_of_stopsAt hlexed hstops
    exact ⟨hlocates, fun _ => iff_of_false (by simp [hlexical]) (not_not.mpr ⟨_, hlexed⟩)⟩

/--
A text that is too long is reported as such, and otherwise a text that is not cut into lexemes as
that. Every error is what is wrong at the place it names: what precedes it could go on to a formula
that is read under the same limit of depth, and with the token it names nothing could.
-/
theorem parse_error_locates (text : String) (limits : Limits) :
    (limits.maxLength < text.length →
      parse text limits = .error (.tooLong text.length limits.maxLength)) ∧
    (text.length ≤ limits.maxLength → ((∃ error : FormulaError, error.isLexical = true ∧
      parse text limits = .error error) ↔ ¬∃ lexemes, Lexeme.Lexed 0 text.toList lexemes)) ∧
    ∀ error, parse text limits = .error error → error.Locates text limits := by
  refine ⟨fun hlong => if_pos hlong, fun hshort => ?_, fun error h => (locates_of_parse h).1⟩
  cases hparse : parse text limits with
  | ok tree =>
    obtain ⟨lexemes, hlexed, _⟩ := exists_derivation hparse
    simpa using ⟨lexemes, hlexed⟩
  | error cause =>
    rw [← (locates_of_parse hparse).2 hshort]
    constructor
    · rintro ⟨error, hlexical, herror⟩
      cases herror
      exact hlexical
    · exact fun hlexical => ⟨cause, hlexical, rfl⟩

/-- The parenthesis of `A (` cannot follow the name, which is a formula already. -/
theorem parse_error_locates_parenthesis : parse "A (" {} = .error (.unexpectedToken "(" 2) ∧
    (FormulaError.unexpectedToken "(" 2).Locates "A (" {} := by
  have hparse : parse "A (" {} = .error (.unexpectedToken "(" 2) := by cbv
  exact ⟨hparse, (parse_error_locates "A (" {}).2.2 _ hparse⟩

/-- The digit before the points is part of the name, not of the run that is reported. -/
theorem parse_error_run_after_name : parse "P1.." {} = .error (.invalidNumber "..") ∧
    ¬IsRun isLiteralChar "..".toList "P1..".toList := by
  refine ⟨by cbv, fun hrun => ?_⟩
  rw [show "P1..".toList = 'P' :: ("1..".toList ++ []) from rfl, IsRun.cons_iff rfl,
    IsRun.append_iff (by decide) (List.all_eq_true.mp rfl) (ends_nil _)] at hrun
  rcases hrun with hrun | hrun
  · exact absurd hrun (by decide)
  · exact IsRun.not_nil hrun

end Formula

end FinalGrades
