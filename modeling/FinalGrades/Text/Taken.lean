/-!
A value read from the front of a text, with what follows it. The rest is shorter, so readers may
call each other on it.
-/

namespace FinalGrades.Text

/-- A value that took up at least one character of `text`. -/
structure Taken (α : Type) (text : List Char) where
  value : α
  rest : List Char
  shorter : rest.length < text.length

namespace Taken

variable {α β : Type} {text : List Char}

def map (f : α → β) (taken : Taken α text) : Taken β text :=
  ⟨f taken.value, taken.rest, taken.shorter⟩

/-- The same reading of a longer text. -/
def widen {longer : List Char} (taken : Taken α text) (h : text.length ≤ longer.length) :
    Taken α longer :=
  ⟨taken.value, taken.rest, Nat.lt_of_lt_of_le taken.shorter h⟩

/-- The same reading after one more character. -/
def after {c : Char} (taken : Taken α text) : Taken α (c :: text) :=
  taken.widen (Nat.le_succ _)

/-- A reading from where another one ended. -/
def andThen (taken : Taken α text) (next : Taken β taken.rest) : Taken β text :=
  next.widen (Nat.le_of_lt taken.shorter)

/-- A value read from one character and perhaps more. -/
def upTo {c : Char} (value : α) (rest : List Char) (h : rest.length ≤ text.length) :
    Taken α (c :: text) :=
  ⟨value, rest, Nat.lt_succ_of_le h⟩

/-- A value read from one character. -/
def one {c : Char} (value : α) : Taken α (c :: text) := upTo value text (Nat.le_refl _)

end Taken

theorem length_dropWhile_le (p : Char → Bool) (text : List Char) :
    (text.dropWhile p).length ≤ text.length :=
  (List.dropWhile_suffix p).length_le

theorem length_lt_of_eq {text rest : List Char} {c : Char} (h : text = c :: rest) :
    rest.length < text.length :=
  h ▸ Nat.lt_succ_self _

theorem length_drop_le (n : Nat) (text : List Char) : (text.drop n).length ≤ text.length :=
  (List.drop_suffix n text).length_le

/-- What follows `lead` at the front of `text`, if the text begins with it. -/
def after? : (lead text : List Char) → Option (List Char)
  | [], text => some text
  | _ :: _, [] => none
  | l :: lead, c :: text => if l = c then after? lead text else none

theorem length_of_after? {lead text rest : List Char} (h : after? lead text = some rest) :
    text.length = lead.length + rest.length := by
  induction lead generalizing text with
  | nil => cases h; simp
  | cons l lead ih =>
    cases text with
    | nil => cases h
    | cons c text =>
      unfold after? at h
      split at h
      · simp only [List.length_cons, ih h]
        omega
      · cases h

end FinalGrades.Text
