import FinalGrades.Text.Joint

/-!
How many terminal columns a text takes. A text is measured from its end, and of the part already
measured a `Trail` is kept: the joint that it begins with and a selector in front of that.
-/

namespace FinalGrades.Text

/-- A selector of the form of the character before it. -/
inductive Selector where
  | picture
  | text
  | fullWidth
deriving DecidableEq

namespace Selector

def ofChar? (c : Char) : Option Selector :=
  match c.toNat with
  | 0xFE01 => some .fullWidth
  | 0xFE0E => some .text
  | 0xFE0F => some .picture
  | _ => none

/-- The joint of a text that is still there for a character before the selector. -/
def keeps (selector : Selector) (joint : Joint) : Bool :=
  joint.isScript || (selector = .picture && joint.isJoined)

/-- The columns and the joint of a character in the form selected, if it has that form. A quote is
as wide as an ideograph; a picture takes no column of its own before a joiner and an emoji. -/
def form? (selector : Selector) (after : Joint) (c : Char) : Option (Nat × Joint) :=
  match selector with
  | picture =>
    if inRanges selectableRanges c then some (if after.isJoined then 0 else 2, .emoji) else none
  | text =>
    if inRanges selectableRanges c && inRanges emojiRanges c && !isEnclosedIdeograph c then
      some (1, .free)
    else none
  | fullWidth => if isCurlyQuote c then some (2, .free) else none

end Selector

/-- The beginning of a text, as far as it matters to the character before it. -/
structure Trail where
  joint : Joint
  selector : Option Selector

namespace Trail

/-- A text without a selector in front. -/
def ofJoint (joint : Joint) : Trail := ⟨joint, none⟩

/-- The joint for a character to which the selector does not apply. -/
def bare (after : Trail) : Joint :=
  if after.selector.isNone || after.joint.isScript then after.joint else .free

/-- The trail of a selector before a joint. -/
def select (selector : Selector) (joint : Joint) : Trail :=
  ⟨if selector.keeps joint then joint else .free, some selector⟩

/-- The columns that a character adds to the text after it, and the trail of both. -/
def extend (after : Trail) (c : Char) : Int × Trail :=
  match after.selector.bind (·.form? after.joint c) with
  | some (columns, joint) => (columns, ofJoint joint)
  | none =>
    let joint := after.bare
    match Selector.ofChar? c with
    | some selector => (0, select selector joint)
    | none =>
      if joint.passesMarks && isJoiner c then (0, ofJoint joint.withJoiner)
      else if joint.passesMarks && inRanges unseenMarkRanges c then (0, ofJoint joint)
      else
        match joint.join? c with
        | some (columns, joint) => (columns, ofJoint joint)
        | none => ((alone c).1, ofJoint (alone c).2)

end Trail

/-- Columns and trail of a text. -/
def measured (text : List Char) : Int × Trail :=
  text.foldr (fun c (columns, after) =>
      let (more, trail) := after.extend c
      (columns + more, trail))
    (0, .ofJoint .free)

/-- A character in front adds what the rest of the text leaves it. -/
theorem measured_cons (c : Char) (text : List Char) :
    measured (c :: text) =
      ((measured text).1 + ((measured text).2.extend c).1, ((measured text).2.extend c).2) :=
  rfl

/-- Columns of a text. -/
def width (text : List Char) : Nat := (measured text).1.toNat

end FinalGrades.Text
