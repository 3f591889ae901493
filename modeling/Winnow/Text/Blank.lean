/-!
# Blank characters, and cutting text

Blank means the Unicode property White_Space.  `trim` removes blanks at both
ends, `split` cuts a text at every occurrence of one separator, so a text with
`n` separators has `n + 1` pieces and joining the pieces gives the text back.
-/

namespace Winnow.Text

/-! ## Blanks -/

/-- The characters with the property White_Space. -/
def isBlank (c : Char) : Bool :=
  let n := c.toNat
  (9 ≤ n && n ≤ 13) || n == 0x20 || n == 0x85 || n == 0xA0 || n == 0x1680 ||
    (0x2000 ≤ n && n ≤ 0x200A) || n == 0x2028 || n == 0x2029 || n == 0x202F ||
    n == 0x205F || n == 0x3000

/-- Drops the blanks in front. -/
def trimStartChars (cs : List Char) : List Char := cs.dropWhile isBlank

/-- Drops the blanks at both ends. -/
def trimChars (cs : List Char) : List Char :=
  (trimStartChars (trimStartChars cs).reverse).reverse

/-- The text without the blanks at both ends. -/
def trim (s : String) : String := String.ofList (trimChars s.toList)

/-- Whether the text holds blanks only. -/
def isBlankText (s : String) : Bool := s.toList.all isBlank

/-! ## Cutting and joining -/

/-- The pieces between the separators, in order. -/
def splitChars (sep : Char) : List Char → List (List Char)
  | [] => [[]]
  | c :: rest =>
    if c = sep then [] :: splitChars sep rest
    else match splitChars sep rest with
      | [] => [[c]]
      | piece :: pieces => (c :: piece) :: pieces

/-- The pieces of a text between the separators, in order. -/
def split (sep : Char) (s : String) : List String :=
  (splitChars sep s.toList).map String.ofList

/-- The trimmed pieces of a text that hold more than blanks. -/
def splitTrimmed (sep : Char) (s : String) : List String :=
  ((split sep s).map trim).filter (fun piece => !piece.isEmpty)

/-- The texts one after another with a separator between neighbours. -/
def join (sep : String) (pieces : List String) : String := String.intercalate sep pieces

/-- The parts before and after the first separator, if there is one. -/
def cutFirst (sep : Char) : List Char → Option (List Char × List Char)
  | [] => none
  | c :: rest =>
    if c = sep then some ([], rest)
    else (cutFirst sep rest).map fun (before, after) => (c :: before, after)

/-- The parts before and after the last separator, if there is one. -/
def cutLast (sep : Char) (cs : List Char) : Option (List Char × List Char) :=
  (cutFirst sep cs.reverse).map fun (after, before) => (before.reverse, after.reverse)

/-- The rest of a text after a lead it starts with. -/
def dropLead? : List Char → List Char → Option (List Char)
  | [], rest => some rest
  | _ :: _, [] => none
  | p :: lead, c :: rest => if p = c then dropLead? lead rest else none

/-- The text before a tail it ends with. -/
def dropTail? (tail cs : List Char) : Option (List Char) :=
  (dropLead? tail.reverse cs.reverse).map List.reverse

/-- Whether a text starts with a lead. -/
def startsWith (lead : String) (s : String) : Bool := (dropLead? lead.toList s.toList).isSome

/-- Whether a text ends with a tail. -/
def endsWith (tail : String) (s : String) : Bool := (dropTail? tail.toList s.toList).isSome

/-- Whether characters occur one after another within others. -/
def occursChars (part : List Char) : List Char → Bool
  | [] => part.isEmpty
  | c :: rest => (dropLead? part (c :: rest)).isSome || occursChars part rest

/-- Whether a text occurs within another. -/
def occursIn (part : String) (s : String) : Bool := occursChars part.toList s.toList

/-- Replaces every occurrence of one character by a text. -/
def replaceChar (c : Char) (by_ : String) (s : String) : String :=
  String.join (s.toList.map fun x => if x = c then by_ else String.singleton x)

/-! ## Letters and digits of ASCII -/

/-- The value of an ASCII digit. -/
def digit? (c : Char) : Option Nat :=
  if '0'.toNat ≤ c.toNat ∧ c.toNat ≤ '9'.toNat then some (c.toNat - '0'.toNat) else none

/-- The value of a digit of base 16, its letters in either case. -/
def hexValue? (c : Char) : Option Nat :=
  let n := c.toNat
  if 48 ≤ n ∧ n ≤ 57 then some (n - 48)
  else if 97 ≤ n ∧ n ≤ 102 then some (n - 87)
  else if 65 ≤ n ∧ n ≤ 70 then some (n - 55)
  else none

/-- Whether the character is an ASCII digit. -/
def isDigit (c : Char) : Bool := (digit? c).isSome

/-- Lowers the ASCII letters of a text. -/
def lowerAscii (s : String) : String := String.ofList (s.toList.map Char.toLower)

/-- The number a list of ASCII digits writes in base ten. -/
def natOfDigits (cs : List Char) : Nat :=
  cs.foldl (fun n c => 10 * n + (digit? c).getD 0) 0

/-- Decimal digits of a natural number. -/
def natText (n : Nat) : String := String.ofList (Nat.toDigits 10 n)

/-- Decimal digits of an integer, with a minus sign when it is negative. -/
def intText (n : Int) : String :=
  if n < 0 then "-" ++ natText n.natAbs else natText n.natAbs

/-- Digits in front filled up with zeros to a width. -/
def padZeros (width : Nat) (digits : String) : String :=
  String.ofList (List.replicate (width - digits.length) '0') ++ digits

end Winnow.Text
