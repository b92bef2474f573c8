import FinalGrades.Json.Text

/-!
Texts between quotes: what is written for a text has no quote of its own, ends where it should, and
stands for the text.
-/

namespace FinalGrades.Json

variable {c letter : Char} {rest text : List Char}

/-- What is written for a character: an escape of one letter, one of four digits, or itself. -/
theorem encodeChar_cases (c : Char) :
    (∃ letter, encodeChar c = ['\\', letter] ∧ letter ≠ 'u' ∧ escapedChar? letter = some c) ∨
      (c.toNat < 0x20 ∧ encodeChar c =
        ['\\', 'u', '0', '0', hexDigit (c.toNat / 16), hexDigit (c.toNat % 16)]) ∨
      (c ≠ '"' ∧ c ≠ '\\' ∧ ¬c.toNat < 0x20 ∧ encodeChar c = [c]) := by
  unfold encodeChar
  cases hletter : escapeLetter? c with
  | some letter =>
    refine .inl ⟨letter, rfl, ?_⟩
    unfold escapeLetter? at hletter
    split at hletter
    next hself =>
      cases hletter
      rcases hself with rfl | rfl <;> decide
    next =>
      repeat' split at hletter
      all_goals cases hletter
      all_goals subst_vars; decide
  | none =>
    have hplain : ¬(c = '"' ∨ c = '\\') := by
      intro hself
      rw [escapeLetter?, if_pos hself] at hletter
      cases hletter
    right
    by_cases hcontrol : c.toNat < 0x20
    · exact .inl ⟨hcontrol, if_pos hcontrol⟩
    · exact .inr ⟨fun h => hplain (.inl h), fun h => hplain (.inr h), hcontrol, if_neg hcontrol⟩

theorem unit?_control :
    ∀ n < 0x20, unit? '0' '0' (hexDigit (n / 16)) (hexDigit (n % 16)) = some n := by
  decide

theorem notHalf_control : ∀ n < 0x20, isLowHalf n = false ∧ isHighHalf n = false := by
  decide

theorem decode?_encodeChar (c : Char) (rest : List Char) :
    decode? (encodeChar c ++ rest) = (decode? rest).map (c :: ·) := by
  rcases encodeChar_cases c with ⟨letter, htext, hletter, hread⟩ | ⟨hcontrol, htext⟩ |
    ⟨hquote, hslash, hcontrol, htext⟩
  · have hstep : decode? ('\\' :: letter :: rest) = _ :=
      decode?.eq_3 letter rest fun _ _ _ _ _ hu => absurd hu hletter
    rw [htext, List.cons_append, List.singleton_append, hstep, hread]
    cases decode? rest <;> rfl
  · obtain ⟨hlow, hhigh⟩ := notHalf_control _ hcontrol
    rw [htext]
    simp only [List.cons_append, List.nil_append, decode?, unit?_control _ hcontrol]
    simp only [Option.bind_eq_bind, Option.bind_some, hlow, hhigh, Bool.false_eq_true, if_false,
      Char.ofNat_toNat]
    cases decode? rest <;> rfl
  · have hstep : decode? (c :: rest) = _ := decode?.eq_5 c rest
      (fun _ _ _ _ _ h => absurd h hslash) (fun _ _ h => absurd h hslash) fun h => absurd h hslash
    have hplain : ¬(c = '"' ∨ c.toNat < 32) := fun h => h.elim hquote hcontrol
    rw [htext, List.singleton_append, hstep, if_neg hplain]
    cases decode? rest <;> rfl

theorem decode?_encode (text : List Char) : decode? (encode text) = some text := by
  induction text with
  | nil => rfl
  | cons c text ih =>
    have hcons : encode (c :: text) = encodeChar c ++ encode text := rfl
    rw [hcons, decode?_encodeChar, ih]
    rfl

theorem scan_encodeChar (c : Char) (rest : List Char) :
    scan (encodeChar c ++ rest) = (encodeChar c ++ (scan rest).1, (scan rest).2) := by
  rcases encodeChar_cases c with ⟨letter, htext, hletter, hread⟩ | ⟨hcontrol, htext⟩ |
    ⟨hquote, hslash, hcontrol, htext⟩
  · have hstep : scan ('\\' :: letter :: rest) = _ :=
      scan.eq_2 letter rest fun _ _ _ _ _ hu => absurd hu hletter
    rw [htext, List.cons_append, List.singleton_append, hstep, hread]
    rfl
  · rw [htext]
    simp only [List.cons_append, List.nil_append, scan, unit?_control _ hcontrol]
    rfl
  · have hstep : scan (c :: rest) = _ := scan.eq_3 c rest
      (fun _ _ _ _ _ h => absurd h hslash) fun _ _ h => absurd h hslash
    have hplain : ¬(c = '"' ∨ c = '\\' ∨ c.toNat < 32) :=
      fun h => h.elim hquote fun h => h.elim hslash hcontrol
    rw [htext, List.singleton_append, hstep, if_neg hplain]
    rfl

theorem scan_encode (text rest : List Char) :
    scan (encode text ++ '"' :: rest) = (encode text, '"' :: rest) := by
  induction text with
  | nil => simp [encode, scan]
  | cons c text ih =>
    have hcons : encode (c :: text) = encodeChar c ++ encode text := rfl
    rw [hcons, List.append_assoc, scan_encodeChar, ih]

end FinalGrades.Json
