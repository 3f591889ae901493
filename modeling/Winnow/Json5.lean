import Winnow.Decimal.Reader
import Winnow.Json.Reader

/-!
# Relaxed data documents

JSON5 as it is written by hand: comments, names without quotes, single quotes,
commas after the last item, and more forms of numbers.  `Json5.read?` reads the
one value of a text.
-/

namespace Winnow.Json5

open Winnow.Text

/-! ## Blanks and comments -/

/-- The characters that end a line. -/
def isBreak (c : Char) : Bool := c = '\n' || c = '\r' || c = '\u2028' || c = '\u2029'

/-- The blanks of relaxed documents. -/
def isSpace (c : Char) : Bool := (isBlank c && c ≠ '\u0085') || c = '\uFEFF'

/-- The rest after the end of a comment between marks. -/
def dropComment? : List Char → Option (List Char)
  | '*' :: '/' :: rest => some rest
  | _ :: rest => dropComment? rest
  | [] => none

/-- Drops blanks and comments in front, at most `fuel` of them. -/
def skip? : Nat → List Char → Option (List Char)
  | 0, _ => none
  | fuel + 1, cs =>
    match cs.dropWhile isSpace with
    | '/' :: '/' :: rest => skip? fuel (rest.dropWhile fun c => !isBreak c)
    | '/' :: '*' :: rest => (dropComment? rest).bind (skip? fuel)
    | rest => some rest

/-- Drops all blanks and comments in front. -/
def skipAll? (cs : List Char) : Option (List Char) := skip? (cs.length + 1) cs

/-! ## Strings -/

/-- The character of two digits of base 16, and what follows. -/
def takeByte? : List Char → Option (Char × List Char)
  | a :: b :: rest => do some (Char.ofNat (16 * (← hexValue? a) + (← hexValue? b)), rest)
  | _ => none

/-- The characters that an escape writes, after its backslash, and what follows. -/
def takeEscape? : List Char → Option (List Char × List Char)
  | [] => none
  | 'u' :: rest => do
    let (c, rest) ← Json.takeEscape? rest
    some ([c], rest)
  | 'x' :: rest => do
    let (c, rest) ← takeByte? rest
    some ([c], rest)
  | 'b' :: rest => some (['\x08'], rest)
  | 'f' :: rest => some (['\x0c'], rest)
  | 'n' :: rest => some (['\n'], rest)
  | 'r' :: rest => some (['\r'], rest)
  | 't' :: rest => some (['\t'], rest)
  | 'v' :: rest => some (['\x0b'], rest)
  | '\r' :: '\n' :: rest => some ([], rest)
  | c :: rest =>
    if isBreak c then some ([], rest)
    else if !isDigit c then some ([c], rest)
    else if c = '0' && !rest.head?.any isDigit then some (['\x00'], rest)
    else none

/-- The rest of a string after the characters read so far, last first. -/
def takeString? (quote : Char) : Nat → List Char → List Char → Option (String × List Char)
  | 0, _, _ | _ + 1, _, [] => none
  | fuel + 1, read, c :: rest =>
    if c = quote then some (String.ofList read.reverse, rest)
    else if c = '\n' ∨ c = '\r' then none
    else if c = '\\' then do
      let (cs, rest) ← takeEscape? rest
      takeString? quote fuel (cs.reverse ++ read) rest
    else takeString? quote fuel (c :: read) rest

/-- Whether a character is a quote. -/
def isQuote (c : Char) : Bool := c = '\x22' || c = '\x27'

/-! ## Names -/

/-- Whether a name without quotes starts with a character. -/
def startsName (c : Char) : Bool :=
  c.isAlpha || c = '_' || c = '$' || (0x80 ≤ c.toNat && !isSpace c)

/-- Whether a character goes on a name without quotes. -/
def continuesName (c : Char) : Bool := startsName c || isDigit c

/-- The rest of a name without quotes after the characters read so far, last first. -/
def takeName? : Nat → List Char → List Char → Option (String × List Char)
  | 0, _, _ => none
  | fuel + 1, read, cs =>
    let goesOn (c : Char) : Bool := if read.isEmpty then startsName c else continuesName c
    match cs with
    | '\\' :: 'u' :: rest => do
      let (c, rest) ← Json.takeEscape? rest
      if goesOn c then takeName? fuel (c :: read) rest else none
    | c :: rest =>
      if goesOn c then takeName? fuel (c :: read) rest
      else if read.isEmpty then none
      else some (String.ofList read.reverse, c :: rest)
    | [] => if read.isEmpty then none else some (String.ofList read.reverse, [])

/-! ## Numbers -/

/-- A whole number, or the decimal nearest to it when it does not fit 64 bits. -/
def wholeNumber (negative : Bool) (n : Nat) : Json :=
  let i : Int := if negative then -n else n
  ((Json.int64? (.integer i)).map .integer).getD (.decimal (Decimal.ofScientific negative n 0))

/-- The digits of base 16 in front, as a number, and what follows. -/
def takeHexNumber? (negative : Bool) (cs : List Char) : Option (Json × List Char) :=
  let digits := cs.takeWhile fun c => (hexValue? c).isSome
  if digits.isEmpty then none
  else
    let n := digits.foldl (fun n c => 16 * n + (hexValue? c).getD 0) 0
    some (wholeNumber negative n, cs.drop digits.length)

/-- An exponent in front, if there is one, and what follows. -/
def takeExponent? (cs : List Char) : Option (Option Int × List Char) :=
  match cs with
  | c :: rest =>
    if c = 'e' ∨ c = 'E' then
      let (negative, rest) := Decimal.takeSign rest
      let (digits, rest) := Decimal.takeDigits rest
      let n : Int := natOfDigits digits
      if digits.isEmpty then none else some (some (if negative then -n else n), rest)
    else some (none, cs)
  | [] => some (none, [])

/-- A number in base ten, with digits on one side of the point at least; a zero in front stands
alone. -/
def takeDecimal? (negative : Bool) (cs : List Char) : Option (Json × List Char) := do
  let (whole, rest) := Decimal.takeDigits cs
  if whole.head? = some '0' ∧ 1 < whole.length then none
  let (fraction, rest) := match rest with
    | '.' :: rest => let (digits, rest) := Decimal.takeDigits rest; (some digits, rest)
    | rest => (none, rest)
  let digits := whole ++ fraction.getD []
  if digits.isEmpty then none
  let (exponent, rest) ← takeExponent? rest
  if fraction.isNone ∧ exponent.isNone then
    some (wholeNumber negative (natOfDigits whole), rest)
  else
    let shift : Int := (fraction.getD []).length
    some (.decimal (Decimal.ofScientific negative (natOfDigits digits)
      (exponent.getD 0 - shift)), rest)

/-- A number with its sign, and what follows it, which goes on no name. -/
def takeNumber? (cs : List Char) : Option (Json × List Char) := do
  let (negative, cs) := Decimal.takeSign cs
  let (value, rest) ← match dropLead? "Infinity".toList cs, dropLead? "NaN".toList cs, cs with
    | some rest, _, _ => some (Json.decimal (.infinite negative), rest)
    | _, some rest, _ => some (.decimal .nan, rest)
    | _, _, '0' :: 'x' :: rest | _, _, '0' :: 'X' :: rest => takeHexNumber? negative rest
    | _, _, cs => takeDecimal? negative cs
  if rest.head?.any continuesName then none else some (value, rest)

/-! ## Values -/

/-- The values that are words. -/
def wordValue? (name : String) : Option Json :=
  match name with
  | "null" => some .null
  | "true" => some (.bool true)
  | "false" => some (.bool false)
  | _ => none

mutual

/-- One value and what follows it. -/
def takeValue? : Nat → List Char → Option (Json × List Char)
  | 0, _ => none
  | fuel + 1, cs => do
    match ← skipAll? cs with
    | [] => none
    | '[' :: rest => takeItems? fuel [] rest
    | '{' :: rest => takeMembers? fuel [] rest
    | c :: rest =>
      if isQuote c then do
        let (s, rest) ← takeString? c (rest.length + 1) [] rest
        some (.string s, rest)
      else
        let name := (c :: rest).takeWhile continuesName
        match wordValue? (String.ofList name) with
        | some value => some (value, (c :: rest).drop name.length)
        | none => takeNumber? (c :: rest)

/-- The items of an array, with those read so far, last first; a comma may follow the last. -/
def takeItems? : Nat → List Json → List Char → Option (Json × List Char)
  | 0, _, _ => none
  | fuel + 1, read, cs => do
    match ← skipAll? cs with
    | ']' :: rest => some (.array read.reverse, rest)
    | cs => do
      let (item, rest) ← takeValue? fuel cs
      match ← skipAll? rest with
      | ',' :: rest => takeItems? fuel (item :: read) rest
      | ']' :: rest => some (.array (item :: read).reverse, rest)
      | _ => none

/-- The members of an object, with those read so far, last first; a comma may follow the last. -/
def takeMembers? : Nat → List (String × Json) → List Char → Option (Json × List Char)
  | 0, _, _ => none
  | fuel + 1, read, cs => do
    match ← skipAll? cs with
    | '}' :: rest => some (Json.ofPairs read.reverse, rest)
    | cs => do
      let (name, rest) ← match cs with
        | c :: rest =>
          if isQuote c then takeString? c (rest.length + 1) [] rest
          else takeName? (cs.length + 1) [] cs
        | [] => none
      let (value, rest) ← match ← skipAll? rest with
        | ':' :: rest => takeValue? fuel rest
        | _ => none
      match ← skipAll? rest with
      | ',' :: rest => takeMembers? fuel ((name, value) :: read) rest
      | '}' :: rest => some (Json.ofPairs ((name, value) :: read).reverse, rest)
      | _ => none

end

/-- The value that a text holds. -/
def read? (s : String) : Option Json := do
  let cs := s.toList
  let (value, rest) ← takeValue? (2 * cs.length + 2) cs
  if (← skipAll? rest).isEmpty then some value else none

end Winnow.Json5
