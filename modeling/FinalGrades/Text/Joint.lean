import FinalGrades.Text.Case
import FinalGrades.Text.EmojiTable
import FinalGrades.Text.WidthTable

/-!
Characters drawn as one with the text after them. Emoji sequences and the ligatures of some scripts
take fewer columns than their characters do alone, so the columns of a character hang on the
`Joint` that the text after it begins with.
-/

namespace FinalGrades.Text

/-- What a text begins with, as far as it can join the character before it. -/
inductive Joint where
  /-- Nothing that joins. -/
  | free
  /-- A line feed, which ends a line together with a carriage return. -/
  | lineFeed
  /-- An emoji. -/
  | emoji
  /-- A skin tone. -/
  | tone
  /-- One regional letter or several. -/
  | region (several : Bool)
  /-- A joiner before an emoji, after a keycap or not. -/
  | joined (keycap : Bool)
  /-- One regional letter before a joined emoji. -/
  | joinedRegion
  /-- Several regional letters before a joined emoji. -/
  | joinedRegions (odd : Bool)
  /-- The end of a tag before a joined emoji, after as many tag letters. -/
  | tagLetters (count : Nat)
  /-- As many tag digits in front of the letters and the end of such a tag. -/
  | tagDigits (count : Nat)
  /-- The Kirat Rai sign E. -/
  | kiratRaiE
  /-- The Kirat Rai sign AI. -/
  | kiratRaiAi
  /-- An Arabic alef. -/
  | alef
  /-- A Hebrew lamed. -/
  | lamed (joiner : Bool)
  /-- A Khmer letter whose subscript form is drawn below the letter before. -/
  | subscribed
  /-- A Buginese ya. -/
  | ya (joiner : Bool)
  /-- The Buginese sign I before a joiner and a ya. -/
  | signIYa
  /-- A Tifinagh consonant. -/
  | tifinagh (joiner : Bool)
  /-- The Tifinagh consonant joiner before a consonant. -/
  | tifinaghJoiner
  /-- The second of two Lisu tone letters. -/
  | lisuTone
  /-- An Old Turkic I. -/
  | orkhonI (joiner : Bool)

/-- The zero width joiner. -/
def isJoiner (c : Char) : Bool := c.toNat = 0x200D

def isRegionalLetter (c : Char) : Bool := 0x1F1E6 ≤ c.toNat && c.toNat ≤ 0x1F1FF

def isSkinTone (c : Char) : Bool := 0x1F3FB ≤ c.toNat && c.toNat ≤ 0x1F3FF

def isTagLetter (c : Char) : Bool := 0xE0061 ≤ c.toNat && c.toNat ≤ 0xE007A

def isTagDigit (c : Char) : Bool := 0xE0030 ≤ c.toNat && c.toNat ≤ 0xE0039

/-- The black flag, which a tag makes the flag of a region. -/
def isFlag (c : Char) : Bool := c.toNat = 0x1F3F4

/-- A character of the block of enclosed ideographs. -/
def isEnclosedIdeograph (c : Char) : Bool := 0x1F200 ≤ c.toNat && c.toNat ≤ 0x1F2FF

/-- A single or double curly quote. -/
def isCurlyQuote (c : Char) : Bool :=
  c.toNat = 0x2018 || c.toNat = 0x2019 || c.toNat = 0x201C || c.toNat = 0x201D

def isTifinaghConsonant (c : Char) : Bool :=
  (0x2D31 ≤ c.toNat && c.toNat ≤ 0x2D65) || c.toNat = 0x2D6F

/-- Letters of the Arabic joining group of alef. -/
def alefRanges : List (Nat × Nat) :=
  [(0x622, 0x623), (0x625, 0x625), (0x627, 0x627), (0x671, 0x673), (0x675, 0x675), (0x773, 0x774),
    (0x870, 0x882)]

/-- Letters of the Arabic joining group of lam. -/
def lamRanges : List (Nat × Nat) :=
  [(0x644, 0x644), (0x6B5, 0x6B8), (0x76A, 0x76A), (0x8A6, 0x8A6), (0x8C7, 0x8C7)]

/-- Khmer letters whose subscript form stays below the letter before. -/
def subscribedRanges : List (Nat × Nat) :=
  [(0x1780, 0x1782), (0x1784, 0x1787), (0x1789, 0x178C), (0x178E, 0x1793), (0x1795, 0x1798),
    (0x179B, 0x179D), (0x17A0, 0x17A0), (0x17A2, 0x17A2), (0x17A7, 0x17A7), (0x17AB, 0x17AC),
    (0x17AF, 0x17AF)]

/-- Marks that are not drawn at all, and do not come between the parts of a ligature. -/
def unseenMarkRanges : List (Nat × Nat) :=
  [(0x34F, 0x34F), (0x17B4, 0x17B5), (0x180B, 0x180D), (0x180F, 0x180F), (0xFE00, 0xFE0F),
    (0xE0100, 0xE01EF)]

/-- What a character of one column offers to the one before it. -/
def narrowJoint (c : Char) : Joint :=
  match c.toNat with
  | 0x5DC => .lamed false
  | 0x1A10 => .ya false
  | 0xA4FC | 0xA4FD => .lisuTone
  | 0x10C03 => .orkhonI false
  | 0x16D67 => .kiratRaiE
  | 0x16D68 => .kiratRaiAi
  | _ =>
    if inRanges alefRanges c then .alef
    else if inRanges subscribedRanges c then .subscribed
    else if isTifinaghConsonant c then .tifinagh false
    else if isRegionalLetter c then .region false
    else .free

/-- What a character of two columns offers to the one before it. -/
def wideJoint (c : Char) : Joint :=
  if isSkinTone c then .tone else if inRanges emojiRanges c then .emoji else .free

/-- The columns of a character that joins nothing after it, and what it begins. -/
def alone (c : Char) : Nat × Joint :=
  if c = '\n' then (1, .lineFeed)
  else if c.toNat ≤ 0xA0 then (1, .free)
  else if c.toNat = 0x17D8 then (3, .free)
  else if inRanges zeroWidthRanges c then (0, .free)
  else if inRanges doubleWidthRanges c then (2, wideJoint c)
  else (1, narrowJoint c)

/-- A mark that leaves the Arabic letters around it joined. -/
def isTransparentMark (c : Char) : Bool := (alone c).1 = 0 && !inRanges unjoiningRanges c

namespace Joint

/-- The joint belongs to a ligature of a script. -/
def isScript : Joint → Bool
  | alef | lamed _ | subscribed | ya _ | signIYa | tifinagh _ | tifinaghJoiner | lisuTone
  | orkhonI _ => true
  | _ => false

/-- A joiner and an emoji, so that the emoji before the joiner takes no column. -/
def isJoined : Joint → Bool
  | joined _ => true
  | _ => false

/-- Joiners and unseen marks do not part the ligature; in Arabic they are like other marks. -/
def passesMarks : Joint → Bool
  | alef => false
  | joint => joint.isScript

/-- The joint after a joiner in front of it. -/
def withJoiner : Joint → Joint
  | lamed _ => lamed true
  | ya _ => ya true
  | tifinagh _ => tifinagh true
  | orkhonI _ => orkhonI true
  | joint => joint

/-- The character as one of a ligature or an emoji sequence with the text after it: the columns
that it adds, or takes away again, and what it begins. -/
def join? (after : Joint) (c : Char) : Option (Int × Joint) :=
  match after with
  | lineFeed => if c = '\r' then some (0, free) else none
  | alef =>
    if inRanges lamRanges c then some (0, free)
    else if isTransparentMark c then some (0, alef)
    else none
  | lamed true => if c.toNat = 0x5D0 then some (0, free) else none
  | subscribed => if c.toNat = 0x17D2 then some (-1, free) else none
  | ya true => if c.toNat = 0x1A17 then some (0, signIYa) else none
  | signIYa => if c.toNat = 0x1A15 then some (0, free) else none
  | tifinagh joiner =>
    if c.toNat = 0x2D7F then some (1, tifinaghJoiner)
    else if joiner && isTifinaghConsonant c then some (0, free)
    else none
  | tifinaghJoiner => if isTifinaghConsonant c then some (-1, free) else none
  | lisuTone => if 0xA4F8 ≤ c.toNat ∧ c.toNat ≤ 0xA4FB then some (0, free) else none
  | orkhonI true => if c.toNat = 0x10C32 then some (0, free) else none
  | kiratRaiE =>
    match c.toNat with
    | 0x16D63 | 0x16D69 => some (0, free)
    | 0x16D67 => some (0, kiratRaiAi)
    | 0x16D68 => some (1, kiratRaiE)
    | _ => none
  | kiratRaiAi => if c.toNat = 0x16D63 then some (0, free) else none
  | emoji => if isJoiner c then some (0, joined false) else none
  | tone =>
    if inRanges tonedRanges c then some (0, emoji)
    else if isJoiner c then some (0, joined false)
    else none
  | region several =>
    if isRegionalLetter c then some (1, region true)
    else if several && isJoiner c then some (0, joined false)
    else none
  | joined false =>
    if c.toNat = 0x20E3 then some (0, joined true)
    else if isRegionalLetter c then some (1, joinedRegion)
    else if isSkinTone c then some (0, tone)
    else if c.toNat = 0xE007F then some (0, tagLetters 0)
    else if inRanges emojiRanges c then some (0, emoji)
    else none
  | joinedRegion => if isRegionalLetter c then some (-1, joinedRegions false) else none
  | joinedRegions odd =>
    if isRegionalLetter c then some (if odd then -1 else 3, joinedRegions !odd)
    else if isJoiner c then some (0, joined false)
    else none
  | tagLetters count =>
    if isTagLetter c && count < 6 then some (0, tagLetters (count + 1))
    else if isTagDigit c && count < 5 then some (0, tagDigits 1)
    else if isFlag c && 3 ≤ count then some (0, emoji)
    else none
  | tagDigits count =>
    if isTagDigit c && count < 3 then some (0, tagDigits (count + 1))
    else if isFlag c && count = 3 then some (0, emoji)
    else none
  | _ => none

end Joint

end FinalGrades.Text
