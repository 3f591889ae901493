import Winnow.Text.ColumnTable
import Winnow.Text.Printable

/-!
# Display columns

The number of terminal columns a text takes: two for wide East Asian
characters and emoji, none for combining and invisible characters, one for
most others.  Some sequences take other columns than their characters do on
their own: a line end of two characters, emoji made of several characters, and
letters that are joined into one.

A text is read from its end.  What a character takes depends on what follows
it, of which `Ahead` keeps as much as matters; `step` gives the columns of one
character and what is ahead of the character before it.
-/

namespace Winnow.Text

/-! ## What follows a character -/

/-- Letters, or parts of a ligature, that may be joined with the letter before them. -/
inductive Joinable where
  | lamed
  | buginYa
  | buginVowelYa
  | tifinagh
  | tifinaghAfterJoiner
  | lisuTone
  | orkhonI
  | coengLetter
  deriving DecidableEq, Repr

/-- What follows a character. -/
inductive Following where
  /-- Nothing that matters. -/
  | other
  | lineFeed
  /-- A skin tone. -/
  | tone
  /-- One letter of a flag. -/
  | flagLetter
  /-- Several letters of flags. -/
  | flagLetters
  | emoji
  /-- A joiner before an emoji. -/
  | joinedEmoji
  /-- The frame of a keycap, joined to an emoji. -/
  | joinedKeycap
  /-- One letter of a flag, joined to an emoji. -/
  | joinedFlagLetter
  /-- Several letters of flags, joined to an emoji, and whether they pair up. -/
  | joinedFlagLetters (paired : Bool)
  /-- The end of the tags of a flag, joined to an emoji: its letters, and the digits before them. -/
  | joinedTags (letters digits : Nat)
  | kiratVowelE
  | kiratVowelAi
  | alef
  /-- A letter, and whether a joiner stands before it. -/
  | letter (l : Joinable) (joined : Bool)
  deriving DecidableEq, Repr

/-- How a selector asks for the character before it to be shown. -/
inductive Presentation where
  | asText
  | asEmoji
  | wide
  deriving DecidableEq, Repr

/-- What is ahead of a character: a selector, and what follows. -/
structure Ahead where
  following : Following
  selector : Option Presentation := none
  deriving DecidableEq, Repr

namespace Following

/-- Whether the letters are joined across signs that are not shown. -/
def spansSigns : Following → Bool
  | alef | letter _ _ => true
  | _ => false

/-- Whether an emoji before it is joined to another. -/
def joinsEmoji : Following → Bool
  | joinedEmoji | joinedKeycap => true
  | _ => false

end Following

namespace Ahead

/-- Nothing that matters is ahead. -/
def nothing : Ahead := ⟨.other, none⟩

/-- A selector before what is ahead, which ends most sequences. -/
def select (a : Ahead) (p : Presentation) : Ahead :=
  if a.following.spansSigns || (p == .asEmoji && a.following.joinsEmoji) then
    ⟨a.following, some p⟩
  else ⟨.other, some p⟩

/-- What is ahead when its selector does not apply. -/
def unselect (a : Ahead) : Ahead :=
  match a.selector with
  | none => a
  | some _ => if a.following.spansSigns then ⟨a.following, none⟩ else nothing

end Ahead

/-! ## Classes of characters -/

/-- Whether a character lies in one of some ranges. -/
def inClass (ranges : List (Nat × Nat)) (c : Char) : Bool := inRanges ranges c.toNat

/-- The zero width joiner. -/
def joiner : Char := Char.ofNat 0x200D

/-- The selector that a character is. -/
def presentation? (c : Char) : Option Presentation :=
  match c.toNat with
  | 0xFE01 => some .wide
  | 0xFE0E => some .asText
  | 0xFE0F => some .asEmoji
  | _ => none

/-- Whether a character can be asked to be shown as text, for which it takes one column. -/
def hasTextForm (c : Char) : Bool :=
  inClass twofoldRanges c && inClass emojiRanges c && !inClass [(0x1F200, 0x1F2FF)] c

/-- Whether a character is a quotation mark that can be asked to be wide. -/
def isQuotationMark (c : Char) : Bool :=
  inClass [(0x2018, 0x2019), (0x201C, 0x201D)] c

/-- Whether a character can be put into a ligature without effect. -/
def isIgnoredMark (c : Char) : Bool :=
  inClass [(0x34F, 0x34F), (0x17B4, 0x17B5), (0x180B, 0x180D), (0x180F, 0x180F),
    (0x200D, 0x200D), (0xFE00, 0xFE0F), (0xE0100, 0xE01EF)] c

/-- Whether a character takes no column and leaves the letters beside it joined. -/
def isTransparent (c : Char) : Bool := inClass zeroWidthRanges c && !inClass partingRanges c

/-- Whether a character is a letter of a flag. -/
def isFlagLetter (c : Char) : Bool := inClass [(0x1F1E6, 0x1F1FF)] c

/-- Whether a character is a skin tone. -/
def isTone (c : Char) : Bool := inClass [(0x1F3FB, 0x1F3FF)] c

/-- Whether a character is shown as an emoji on its own. -/
def isEmoji (c : Char) : Bool := inClass emojiRanges c && !isFlagLetter c && !isTone c

/-- Whether a character is a lam, which an alef after it is joined with. -/
def isLam (c : Char) : Bool :=
  inClass [(0x644, 0x644), (0x6B5, 0x6B8), (0x76A, 0x76A), (0x8A6, 0x8A6), (0x8C7, 0x8C7)] c

/-- Whether a character is an alef. -/
def isAlef (c : Char) : Bool :=
  inClass [(0x622, 0x623), (0x625, 0x625), (0x627, 0x627), (0x671, 0x673), (0x675, 0x675),
    (0x773, 0x774), (0x870, 0x882)] c

/-- Whether a character is a Khmer letter that can be written below another. -/
def isCoengLetter (c : Char) : Bool :=
  inClass [(0x1780, 0x1782), (0x1784, 0x1787), (0x1789, 0x178C), (0x178E, 0x1793),
    (0x1795, 0x1798), (0x179B, 0x179D), (0x17A0, 0x17A0), (0x17A2, 0x17A2), (0x17A7, 0x17A7),
    (0x17AB, 0x17AC), (0x17AF, 0x17AF)] c

/-- Whether a character is a Tifinagh consonant. -/
def isTifinagh (c : Char) : Bool := inClass [(0x2D31, 0x2D65), (0x2D6F, 0x2D6F)] c

/-! ## Columns on their own -/

/-- Columns of one character. -/
def charColumns (c : Char) : Nat :=
  let n := c.toNat
  if n ≤ 0xA0 then 1
  else if n = 0x17D8 then 3
  else if inRanges zeroWidthRanges n then 0
  else if inRanges wideRanges n then 2
  else 1

/-- What a character is to the one before it. -/
def followingOf (c : Char) : Following :=
  match c.toNat with
  | 0x5DC => .letter .lamed false
  | 0x1A10 => .letter .buginYa false
  | 0xA4FC | 0xA4FD => .letter .lisuTone true
  | 0x10C03 => .letter .orkhonI false
  | 0x16D67 => .kiratVowelE
  | 0x16D68 => .kiratVowelAi
  | _ =>
    if isAlef c then .alef
    else if isCoengLetter c then .letter .coengLetter true
    else if isTifinagh c then .letter .tifinagh false
    else if isFlagLetter c then .flagLetter
    else if isTone c then .tone
    else if isEmoji c then .emoji
    else .other

/-! ## Columns in sequences -/

/-- The columns of a letter or a sign before a letter that it is joined with, and what the two are
to the character before them. -/
def joinLetter? (l : Joinable) (joined : Bool) (c : Char) : Option (Int × Following) :=
  match l, joined, c.toNat with
  | .lamed, true, 0x5D0 => some (0, .other)
  | .buginYa, true, 0x1A17 => some (0, .letter .buginVowelYa true)
  | .buginVowelYa, _, 0x1A15 => some (0, .other)
  | .tifinagh, _, 0x2D7F => some (1, .letter .tifinaghAfterJoiner true)
  | .tifinagh, true, _ => if isTifinagh c then some (0, .other) else none
  | .tifinaghAfterJoiner, _, _ => if isTifinagh c then some (-1, .other) else none
  | .lisuTone, _, n => if 0xA4F8 ≤ n && n ≤ 0xA4FB then some (0, .other) else none
  | .orkhonI, true, 0x10C32 => some (0, .other)
  | .coengLetter, _, 0x17D2 => some (-1, .other)
  | _, _, _ => none

/-- The columns of a character before an emoji that it is joined to. -/
def joinEmoji? (c : Char) : Option (Int × Following) :=
  if c.toNat = 0x20E3 then some (0, .joinedKeycap)
  else if isFlagLetter c then some (1, .joinedFlagLetter)
  else if isTone c then some (0, .tone)
  else if c.toNat = 0xE007F then some (0, .joinedTags 0 0)
  else if isEmoji c then some (0, .emoji)
  else none

/-- The columns of a character before the tags of a flag. -/
def joinTags? (letters digits : Nat) (c : Char) : Option (Int × Following) :=
  if 0xE0061 ≤ c.toNat && c.toNat ≤ 0xE007A && digits == 0 && letters < 6 then
    some (0, .joinedTags (letters + 1) 0)
  else if 0xE0030 ≤ c.toNat && c.toNat ≤ 0xE0039 && letters ≤ 4 && digits < 3 then
    some (0, .joinedTags letters (digits + 1))
  else if c.toNat = 0x1F3F4 && ((digits == 0 && 3 ≤ letters) || digits == 3) then
    some (0, .emoji)
  else none

/-- The columns of a character that forms a sequence with what follows, and what the sequence is to
the character before it. -/
def sequence? (c : Char) : Following → Option (Int × Following)
  | .alef =>
    if isLam c then some (0, .other)
    else if isTransparent c then some (0, .alef)
    else none
  | .letter l joined => joinLetter? l joined c
  | .tone =>
    if inClass tonedRanges c then some (0, .emoji)
    else if c = joiner then some (0, .joinedEmoji)
    else none
  | .flagLetter => if isFlagLetter c then some (1, .flagLetters) else none
  | .flagLetters =>
    if isFlagLetter c then some (1, .flagLetters)
    else if c = joiner then some (0, .joinedEmoji)
    else none
  | .emoji => if c = joiner then some (0, .joinedEmoji) else none
  | .joinedEmoji => joinEmoji? c
  | .joinedFlagLetter => if isFlagLetter c then some (-1, .joinedFlagLetters true) else none
  | .joinedFlagLetters paired =>
    if isFlagLetter c then some (if paired then 3 else -1, .joinedFlagLetters !paired)
    else if c = joiner then some (0, .joinedEmoji)
    else none
  | .joinedTags letters digits => joinTags? letters digits c
  | .kiratVowelE =>
    match c.toNat with
    | 0x16D63 | 0x16D69 => some (0, .other)
    | 0x16D67 => some (0, .kiratVowelAi)
    | 0x16D68 => some (1, .kiratVowelE)
    | _ => none
  | .kiratVowelAi => if c.toNat = 0x16D63 then some (0, .other) else none
  | _ => none

/-- The columns of a character that no selector applies to, and what is ahead of the one before. -/
def plainStep (c : Char) (following : Following) : Int × Ahead :=
  match following with
  | .letter l joined =>
    if isIgnoredMark c then (0, ⟨.letter l (joined || c == joiner), none⟩) else alone
  | _ => alone
where
  /-- The columns by the sequence, if there is one. -/
  alone : Int × Ahead :=
    match sequence? c following with
    | some (columns, following) => (columns, ⟨following, none⟩)
    | none => (charColumns c, ⟨followingOf c, none⟩)

/-- The columns of a character below the marks and letters of other scripts. -/
def basicStep (c : Char) (following : Following) : Int × Ahead :=
  if c = '\n' then (1, ⟨.lineFeed, none⟩)
  else if c = '\r' && following == .lineFeed then (0, .nothing)
  else (1, .nothing)

/-- The columns of a character, and what is ahead of the one before it. -/
def step (c : Char) (a : Ahead) : Int × Ahead :=
  let onOwn := if c.toNat ≤ 0xA0 then basicStep c a.unselect.following
    else match presentation? c with
      | some p => (0, a.select p)
      | none => plainStep c a.unselect.following
  match a.selector with
  | some .asEmoji =>
    if inClass twofoldRanges c then
      (if a.following.joinsEmoji then 0 else 2, ⟨.emoji, none⟩)
    else onOwn
  | some .asText => if hasTextForm c then (1, .nothing) else onOwn
  | some .wide => if isQuotationMark c then (2, .nothing) else onOwn
  | none => onOwn

/-- Columns of a text. -/
def columns (s : String) : Nat :=
  let (total, _) := s.toList.foldr
    (fun c (total, ahead) => let (columns, ahead) := step c ahead; (total + columns, ahead))
    (0, Ahead.nothing)
  total.toNat

end Winnow.Text
