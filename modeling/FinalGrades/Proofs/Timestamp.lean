import FinalGrades.Proofs.Number.Notation
import FinalGrades.Timestamp

/-!
Timestamps that are written are read again, those within a leap second included.
-/

namespace FinalGrades.Timestamp

section Padded

variable {width n : Nat} {rest : List Char}

theorem isDigits_padded (width n : Nat) : IsDigits (padded width n) := by
  have hdigits := isDigits_digitsOf n
  refine ⟨?_, fun c hc => ?_⟩
  · intro hnone
    exact hdigits.1 (List.append_eq_nil_iff.mp hnone).2
  · rcases List.mem_append.mp hc with hc | hc
    · exact isDigit_of_mem_zeros hc
    · exact hdigits.2 c hc

theorem digitsValue_padded (width n : Nat) : digitsValue 0 (padded width n) = n := by
  rw [padded, digitsValue_append, digitsValue_zeros, Nat.zero_mul, digitsValue_digitsOf]

theorem length_padded (hwidth : 0 < width) (h : n < 10 ^ width) :
    (padded width n).length = width := by
  have hlength : (digitsOf n).length ≤ width :=
    (Nat.length_toDigits_le_iff (by decide) hwidth).mpr h
  rw [padded, List.length_append, List.length_replicate]
  omega

theorem skipBlanks_cons {c : Char} (h : Text.isBlank c = false) :
    skipBlanks (c :: rest) = c :: rest :=
  List.dropWhile_cons_of_neg (by rw [h]; decide)

theorem isBlank_of_isDigit {c : Char} (h : isDigit c = true) : Text.isBlank c = false :=
  (isLiteralChar_alone (isLiteralChar_iff.mpr (.inl h))).1

theorem skipBlanks_padded (width n : Nat) (rest : List Char) :
    skipBlanks (padded width n ++ rest) = padded width n ++ rest := by
  obtain ⟨c, more, hpadded, hc⟩ := (isDigits_padded width n).head
  rw [hpadded]
  exact skipBlanks_cons (isBlank_of_isDigit hc)

theorem readNumber_padded (hwidth : 0 < width) (h : n < 10 ^ width) (rest : List Char) :
    readNumber width (padded width n ++ rest) = some (n, rest) := by
  have hlength := length_padded hwidth h
  have hdigits := isDigits_padded width n
  have htake : ((padded width n ++ rest).take width).takeWhile isDigit = padded width n := by
    rw [List.take_append_of_le_length (Nat.le_of_eq hlength.symm),
      List.take_of_length_le (Nat.le_of_eq hlength), List.takeWhile_eq_self_iff]
    exact hdigits.2
  unfold readNumber
  rw [skipBlanks_padded]
  dsimp only
  rw [htake, hdigits.isEmpty, if_neg (by decide), digitsValue_padded, List.drop_left]

end Padded

section Parts

variable {rest : List Char}

theorem afterMark_cons {mark : Char} (h : Text.isBlank mark = false) (rest : List Char) :
    afterMark mark (mark :: rest) = some rest := by
  rw [afterMark, skipBlanks_cons h]
  exact if_pos rfl

theorem readYear_yearText (year : Int) (ends : Ends isDigit rest) :
    readYear (yearText year ++ rest) = some (year, rest) := by
  have hdigits := isDigits_padded 4 year.natAbs
  unfold yearText
  split
  next hplain =>
    -- Four digits: the first of them is no sign.
    have hfour : year.natAbs < 10 ^ 4 := by omega
    have hread := readNumber_padded (by decide) hfour rest
    obtain ⟨c, more, hpadded, hc⟩ := hdigits.head
    have hsign : ¬(c = '-' ∨ c = '+') := by
      rintro (rfl | rfl) <;> cases hc
    rw [hpadded, List.cons_append] at hread ⊢
    rw [readYear, skipBlanks_cons (isBlank_of_isDigit hc)]
    dsimp only
    have hvalue : (year.natAbs : Int) = year := by omega
    rw [if_neg hsign, hread, Option.map_some, hvalue]
  next =>
    have htake := hdigits.takeWhile ends
    by_cases hyear : year < 0
    · rw [if_pos hyear, List.cons_append, readYear, skipBlanks_cons (by decide)]
      dsimp only
      rw [if_pos (.inl rfl), htake, hdigits.isEmpty, if_neg (by decide), digitsValue_padded,
        List.drop_left, if_pos rfl]
      have hvalue : -(year.natAbs : Int) = year := by omega
      rw [hvalue]
    · rw [if_neg hyear, List.cons_append, readYear, skipBlanks_cons (by decide)]
      dsimp only
      rw [if_pos (.inr rfl), htake, hdigits.isEmpty, if_neg (by decide), digitsValue_padded,
        List.drop_left, if_neg (by decide)]
      have hvalue : (year.natAbs : Int) = year := by omega
      rw [hvalue]

theorem daysInMonth_le (year : Int) (month : Nat) : Day.daysInMonth year month ≤ 31 := by
  unfold Day.daysInMonth
  split
  · split <;> omega
  · split <;> omega

theorem lt_of_isValid {day : Day} (h : day.isValid = true) :
    day.month < 10 ^ 2 ∧ day.day < 10 ^ 2 := by
  have hlast := daysInMonth_le day.year day.month
  simp only [Day.isValid, Bool.and_eq_true, decide_eq_true_eq] at h
  omega

/-- The text of a day. -/
theorem readDay_written {day : Day} (h : day.isValid = true) (rest : List Char) :
    readDay (yearText day.year ++ '-' :: (padded 2 day.month ++
      '-' :: (padded 2 day.day ++ rest))) = some (day, rest) := by
  obtain ⟨hmonth, hday⟩ := lt_of_isValid h
  rw [readDay, readYear_yearText _ (ends_cons _ rfl)]
  simp only [Option.bind_eq_bind, Option.bind_some]
  rw [afterMark_cons rfl, Option.bind_some, readNumber_padded (by decide) hmonth, Option.bind_some]
  dsimp only
  rw [afterMark_cons rfl, Option.bind_some, readNumber_padded (by decide) hday, Option.bind_some]
  exact if_pos h

/-- A fraction of so many digits. -/
theorem readFraction_padded {width n : Nat} (hwidth : 0 < width) (hmost : width ≤ 9)
    (h : n < 10 ^ width) (ends : Ends isDigit rest) :
    readFraction ('.' :: (padded width n ++ rest)) = some (n * 10 ^ (9 - width), rest) := by
  have hdigits := isDigits_padded width n
  have hlength := length_padded hwidth h
  have hkept : (padded width n).take 9 = padded width n :=
    List.take_of_length_le (by rw [hlength]; exact hmost)
  rw [readFraction, hdigits.takeWhile ends]
  dsimp only
  rw [hdigits.isEmpty, if_neg (by decide), hkept, digitsValue_padded, hlength,
    List.drop_left' hlength]
  rfl

theorem readFraction_fractionText {nanos : Nat} (h : nanos < nanosPerSecond) :
    readFraction (fractionText nanos ++ ['Z']) = some (nanos, ['Z']) := by
  have hends : Ends isDigit ['Z'] := ends_cons _ rfl
  simp only [nanosPerSecond] at h
  unfold fractionText
  split
  next hnone =>
    subst hnone
    rfl
  split
  next hmilli =>
    have hvalue : nanos / 1000000 * 10 ^ (9 - 3) = nanos := by omega
    rw [List.cons_append, readFraction_padded (by decide) (by decide) (by omega) hends, hvalue]
  split
  next hmicro =>
    have hvalue : nanos / 1000 * 10 ^ (9 - 6) = nanos := by omega
    rw [List.cons_append, readFraction_padded (by decide) (by decide) (by omega) hends, hvalue]
  next =>
    have hvalue : nanos * 10 ^ (9 - 9) = nanos := by omega
    rw [List.cons_append, readFraction_padded (by decide) (by decide) h hends, hvalue]

theorem readClock_padded {hour minute second nanos : Nat} (hhour : hour ≤ 23)
    (hminute : minute ≤ 59) (hsecond : second ≤ 60) (hnanos : nanos < nanosPerSecond) :
    readClock (padded 2 hour ++ ':' :: (padded 2 minute ++ ':' :: (padded 2 second ++
      (fractionText nanos ++ ['Z'])))) =
      some (3600 * hour + 60 * minute + (second - if second = 60 then 1 else 0),
        nanos + (if second = 60 then 1 else 0) * nanosPerSecond, ['Z']) := by
  rw [readClock, readNumber_padded (by decide) (by omega)]
  simp only [Option.bind_eq_bind, Option.bind_some]
  rw [afterMark_cons rfl, Option.bind_some, readNumber_padded (by decide) (by omega),
    Option.bind_some]
  dsimp only
  rw [afterMark_cons rfl, Option.bind_some, readNumber_padded (by decide) (by omega),
    Option.bind_some]
  dsimp only
  rw [readFraction_fractionText hnanos, Option.bind_some]
  exact if_neg (by omega)

end Parts

/-- A second of a day that there is; only the last of a minute can be longer than others. -/
structure Valid (time : Timestamp) : Prop where
  day : time.day.isValid = true
  second : time.second < secondsPerDay
  nanos : time.nanos < nanosPerSecond ∨
    (time.second % 60 = 59 ∧ time.nanos < 2 * nanosPerSecond)

theorem readClock_written {time : Timestamp} (h : time.Valid) :
    readClock (padded 2 (time.second / 3600) ++ ':' :: (padded 2 (time.second / 60 % 60) ++
      ':' :: (padded 2 (time.second % 60 + time.nanos / nanosPerSecond) ++
        (fractionText (time.nanos % nanosPerSecond) ++ ['Z'])))) =
      some (time.second, time.nanos, ['Z']) := by
  have hsecond := h.second
  have hnanos := h.nanos
  simp only [secondsPerDay, nanosPerSecond] at hsecond hnanos
  have hwhole : 3600 * (time.second / 3600) + 60 * (time.second / 60 % 60) + time.second % 60 =
      time.second := by omega
  have hlong : time.second % 60 + time.nanos / nanosPerSecond ≤ 60 := by
    simp only [nanosPerSecond]
    omega
  rw [readClock_padded (by omega) (by omega) hlong (Nat.mod_lt _ (by decide))]
  by_cases hleap : time.nanos < nanosPerSecond
  · have hno : time.second % 60 ≠ 60 := by omega
    rw [Nat.div_eq_of_lt hleap, Nat.mod_eq_of_lt hleap, Nat.add_zero, if_neg hno, Nat.sub_zero,
      Nat.zero_mul, Nat.add_zero, hwhole]
  · simp only [nanosPerSecond] at hleap
    have hlast : time.second % 60 + time.nanos / nanosPerSecond = 60 := by
      simp only [nanosPerSecond]
      omega
    have hrest : time.nanos % nanosPerSecond + 1 * nanosPerSecond = time.nanos := by
      simp only [nanosPerSecond]
      omega
    have hend : 3600 * (time.second / 3600) + 60 * (time.second / 60 % 60) + (60 - 1) =
        time.second := by omega
    rw [hlast, if_pos rfl, hrest, hend]

/-- A timestamp that was written is read again. -/
theorem read?_write {time : Timestamp} (h : time.Valid) : read? time.write = some time := by
  have hday := readDay_written h.day ('T' :: (padded 2 (time.second / 3600) ++
    ':' :: (padded 2 (time.second / 60 % 60) ++ ':' ::
      (padded 2 (time.second % 60 + time.nanos / nanosPerSecond) ++
        (fractionText (time.nanos % nanosPerSecond) ++ ['Z'])))))
  have huniversal : toUniversal time.day time.second 0 = (time.day, time.second) := by
    have hsecond := h.second
    unfold toUniversal
    dsimp only
    rw [if_neg (by omega), if_neg (by omega), Int.sub_zero, Int.toNat_natCast]
  have hrange : Day.inRange time.day.year = true := by
    have hvalid := h.day
    simp only [Day.isValid, Bool.and_eq_true] at hvalid
    exact hvalid.1.1.1.1
  rw [read?, write, String.toList_ofList]
  simp only [List.append_assoc, List.cons_append] at hday ⊢
  rw [hday]
  simp only [Option.bind_eq_bind, Option.bind_some]
  have hoffset : readOffset (skipBlanks ['Z']) = some (0, []) := rfl
  rw [if_pos (.inl trivial), readClock_written h, Option.bind_some]
  dsimp only
  rw [hoffset, Option.bind_some]
  dsimp only
  rw [huniversal]
  exact if_pos ⟨rfl, hrange⟩

end FinalGrades.Timestamp
