import Winnow.Bounds
import Winnow.Decimal.Reader
import Winnow.Json.Basic

/-!
# Object documents

RON writes values with the names of their types: structures in parentheses,
maps in braces and lists in brackets, with comments and a comma after the last
item where one is wanted.  The names of types do not count here: a structure
is an object, a tuple an array, and a name alone is `null`.  `Ron.read?` reads
the one value of a text.
-/

namespace Winnow.Ron

open Winnow.Text

/-! ## Blanks and comments -/

/-- The blanks of these documents. -/
def isSpace (c : Char) : Bool :=
  let n := c.toNat
  (9 ≤ n && n ≤ 13) || n == 0x20 || n == 0x85 || n == 0x200E || n == 0x200F || n == 0x2028 ||
    n == 0x2029

/-- The rest after the end of comments between marks, of which `level` are open. -/
def dropComment? : Nat → List Char → Option (List Char)
  | 0, cs => some cs
  | _ + 1, [] => none
  | level + 1, '/' :: '*' :: rest => dropComment? (level + 2) rest
  | level + 1, '*' :: '/' :: rest => dropComment? level rest
  | level + 1, _ :: rest => dropComment? (level + 1) rest

/-- Drops blanks and comments in front, at most `fuel` of them. -/
def skip? : Nat → List Char → Option (List Char)
  | 0, _ => none
  | fuel + 1, cs =>
    match cs.dropWhile isSpace with
    | '/' :: '/' :: rest => skip? fuel (rest.dropWhile (· ≠ '\n'))
    | '/' :: '*' :: rest => (dropComment? 1 rest).bind (skip? fuel)
    | '/' :: _ => none
    | rest => some rest

/-- Drops all blanks and comments in front. -/
def skipAll? (cs : List Char) : Option (List Char) := skip? (cs.length + 1) cs

/-- The rest behind words in front, with blanks and comments after each of them. -/
def dropWords? : List String → List Char → Option (List Char)
  | [], cs => some cs
  | word :: words, cs => do dropWords? words (← skipAll? (← dropLead? word.toList cs))

/-! ## Names -/

/-- Whether a name starts with a character. -/
def startsName (c : Char) : Bool :=
  c.isAlpha || c = '_' || (0x80 ≤ c.toNat && !isSpace c && !isBlank c)

/-- Whether a character goes on a name. -/
def continuesName (c : Char) : Bool := startsName c || isDigit c

/-- Whether a character goes on a name that is marked as one. -/
def continuesMarked (c : Char) : Bool := continuesName c || c = '.' || c = '+' || c = '-'

/-- A name and what follows it; the lead of a string is no name. -/
def takeName? (cs : List Char) : Option (String × List Char) :=
  let take (goesOn : Char → Bool) (cs : List Char) : Option (String × List Char) :=
    let name := cs.takeWhile goesOn
    if name.isEmpty then none else some (String.ofList name, cs.drop name.length)
  match cs with
  | 'r' :: '\x22' :: _ | 'b' :: '\x22' :: _ | 'b' :: '\x27' :: _ => none
  | 'b' :: 'r' :: '\x22' :: _ | 'b' :: 'r' :: '#' :: _ => none
  | 'r' :: '#' :: rest => take continuesMarked rest
  | c :: rest => if startsName c then take continuesName (c :: rest) else none
  | [] => none

/-! ## Strings -/

/-- The digits between braces of an escape by number, and what follows. -/
def takeCode? (cs : List Char) : Option (Char × List Char) := do
  let digits := cs.takeWhile (· ≠ '\x7d')
  if digits.isEmpty ∨ 6 < digits.length then none
  let n := (← digits.mapM hexValue?).foldl (fun n d => 16 * n + d) 0
  match cs.drop digits.length with
  | '\x7d' :: rest => if n.isValidChar then some (Char.ofNat n, rest) else none
  | _ => none

/-- The character that an escape writes, after its backslash, and what follows. -/
def takeEscape? : List Char → Option (Char × List Char)
  | 'n' :: rest => some ('\n', rest)
  | 'r' :: rest => some ('\r', rest)
  | 't' :: rest => some ('\t', rest)
  | '0' :: rest => some ('\x00', rest)
  | 'x' :: a :: b :: rest => do
    let n := 16 * (← hexValue? a) + (← hexValue? b)
    if n < 0x80 then some (Char.ofNat n, rest) else none
  | 'u' :: '\x7b' :: rest => takeCode? rest
  | c :: rest => if c = '\\' ∨ c = '\x22' ∨ c = '\x27' then some (c, rest) else none
  | [] => none

/-- The rest of a string after the characters read so far, last first. -/
def takeString? : Nat → List Char → List Char → Option (String × List Char)
  | 0, _, _ | _ + 1, _, [] => none
  | fuel + 1, read, c :: rest =>
    if c = '\x22' then some (String.ofList read.reverse, rest)
    else if c = '\\' then do
      let (c, rest) ← takeEscape? rest
      takeString? fuel (c :: read) rest
    else takeString? fuel (c :: read) rest

/-- The rest of a string without escapes, which a tail ends, after the characters read so far, last
first. -/
def takeRaw? (tail : List Char) : List Char → List Char → Option (String × List Char)
  | _, [] => none
  | read, c :: rest =>
    match dropLead? tail (c :: rest) with
    | some rest => some (String.ofList read.reverse, rest)
    | none => takeRaw? tail (c :: read) rest

/-- A string without escapes after its lead; as many marks as stand in front of its quote stand
behind the one that ends it. -/
def takeMarked? (cs : List Char) : Option (String × List Char) :=
  let marks := cs.takeWhile (· = '#')
  match cs.drop marks.length with
  | '\x22' :: rest => takeRaw? ('\x22' :: marks) [] rest
  | _ => none

/-- A character between quotes, after the first of them, and what follows. -/
def takeLetter? (cs : List Char) : Option (String × List Char) := do
  let (c, rest) ← match cs with
    | '\\' :: rest => takeEscape? rest
    | c :: rest => some (c, rest)
    | [] => none
  match rest with
  | '\x27' :: rest => some (c.toString, rest)
  | _ => none

/-! ## Numbers -/

/-- The lead of a base, and what follows. -/
def takeBase : List Char → Nat × List Char
  | '0' :: 'x' :: rest => (16, rest)
  | '0' :: 'o' :: rest => (8, rest)
  | '0' :: 'b' :: rest => (2, rest)
  | cs => (10, cs)

/-- The number that digits of a base write; underscores may stand behind the first digit. -/
def natOf? (base : Nat) (cs : List Char) : Option Nat :=
  if cs.isEmpty ∨ cs.head? = some '_' then none
  else (cs.filter (· ≠ '_')).foldlM (fun n c => do
    let d ← hexValue? c
    if d < base then some (base * n + d) else none) 0

/-- The least and greatest number of a width that is named behind a number. -/
def widths : List (String × Int × Int) := [
  ("i8", -0x80, 0x7f), ("i16", -0x8000, 0x7fff), ("i32", -0x80000000, 0x7fffffff),
  ("i64", Bounds.int64Min, Bounds.int64Max),
  ("u8", 0, 0xff), ("u16", 0, 0xffff), ("u32", 0, Bounds.uint32Max), ("u64", 0, Bounds.uint64Max)]

/-- Whether a character stands in a whole number behind its sign, whatever its base. -/
def isWholePart (c : Char) : Bool := (hexValue? c).isSome || c = '_'

/-- A whole number, of 64 bits at most, and what follows. -/
def takeWhole? (cs : List Char) : Option (Json × List Char) := do
  let (negative, cs) := Decimal.takeSign cs
  let (base, cs) := takeBase cs
  let digits := cs.takeWhile isWholePart
  let magnitude ← natOf? base digits
  let n : Int := if negative then -magnitude else magnitude
  let rest := cs.drop digits.length
  let suffix := rest.takeWhile continuesName
  let (least, greatest, rest) := match widths.lookup (String.ofList suffix) with
    | some (least, greatest) => (least, greatest, rest.drop suffix.length)
    | none => (Bounds.int64Min, (Bounds.uint64Max : Int), rest)
  if least ≤ n ∧ n ≤ greatest then some (.integer n, rest) else none

/-- The words that are decimals. -/
def wordDecimal? (negative : Bool) (name : String) : Option Decimal :=
  match name with
  | "inf" | "inff32" | "inff64" => some (.infinite negative)
  | "NaN" | "NaNf32" | "NaNf64" => some .nan
  | _ => none

/-- The characters of a decimal without the underscores, each of which stands behind a digit or
another underscore. -/
def ungroup? : Bool → List Char → Option (List Char)
  | _, [] => some []
  | afterDigit, c :: rest =>
    if c = '_' then if afterDigit then ungroup? true rest else none
    else
      let afterDigit := if c = '.' then false else afterDigit || (c ≠ '+' && c ≠ '-')
      (ungroup? afterDigit rest).map (c :: ·)

/-- Whether a character stands in a decimal. -/
def isDecimalPart (c : Char) : Bool :=
  isDigit c || c = 'e' || c = 'E' || c = '.' || c = '+' || c = '-' || c = '_'

/-- A decimal and what follows. -/
def takeDecimal? (cs : List Char) : Option (Json × List Char) := do
  let (negative, unsigned) := Decimal.takeSign cs
  let name := unsigned.takeWhile continuesName
  match wordDecimal? negative (String.ofList name) with
  | some x => some (.decimal x, unsigned.drop name.length)
  | none =>
    let digits := cs.takeWhile isDecimalPart
    let x ← Decimal.read? (String.ofList (← ungroup? false digits))
    let rest := cs.drop digits.length
    match String.ofList (rest.takeWhile continuesName) with
    | "f32" | "f64" => some (.decimal x, rest.drop 3)
    | _ => some (.decimal x, rest)

/-- A number and what follows: a decimal where it goes on further than a whole number does, else a
whole number that fits, else a decimal. -/
def takeNumber? (cs : List Char) : Option (Json × List Char) :=
  let unsigned := (Decimal.takeSign cs).2
  if (unsigned.takeWhile isWholePart).length < (unsigned.takeWhile isDecimalPart).length then
    takeDecimal? cs
  else (takeWhole? cs).or (takeDecimal? cs)

/-! ## Values -/

/-- The values that are words. -/
def wordValue? (name : String) : Option Json :=
  match name with
  | "true" => some (.bool true)
  | "false" => some (.bool false)
  | "None" => some .null
  | _ => (wordDecimal? false name).map .decimal

/-- Whether the parts of a structure start with the name of a field. -/
def startsField (cs : List Char) : Bool :=
  match takeName? cs with
  | some (_, rest) => ((skipAll? rest).bind List.head?) == some ':'
  | none => false

/-- The rest behind a comma, if there is one, with the blanks and comments around it; tells whether
there is one. -/
def dropComma? (cs : List Char) : Option (Bool × List Char) := do
  match ← skipAll? cs with
  | ',' :: rest => some (true, ← skipAll? rest)
  | rest => some (false, rest)

mutual

/-- One value and what follows it; `depth` more values may hold others. -/
def takeValue? : Nat → Nat → List Char → Option (Json × List Char)
  | 0, _, _ => none
  | fuel + 1, depth, cs =>
    match cs, takeName? cs, depth with
    | _, some ("Some", rest), depth => do
      match ← skipAll? rest, depth with
      | '(' :: rest, depth + 1 => do
        let (value, rest) ← takeValue? fuel depth (← skipAll? rest)
        match ← dropComma? rest with
        | (_, ')' :: rest) => some (value, rest)
        | _ => none
      | _, _ => none
    | _, some (name, rest), depth =>
      match wordValue? name with
      | some value => some (value, rest)
      | none => do
        match ← skipAll? rest with
        | '(' :: rest => takeParts? fuel depth rest
        | rest => some (.null, rest)
    | '(' :: ')' :: rest, none, _ => some (.null, rest)
    | '(' :: rest, none, depth => takeParts? fuel depth rest
    | '[' :: rest, none, depth + 1 => do takeItems? ']' fuel depth [] (← skipAll? rest)
    | '{' :: rest, none, depth + 1 => do takeMembers? '\x7d' fuel depth [] (← skipAll? rest)
    | '\x22' :: rest, none, _ => do
      let (s, rest) ← takeString? (rest.length + 1) [] rest
      some (.string s, rest)
    | 'r' :: rest, none, _ => do
      let (s, rest) ← takeMarked? rest
      some (.string s, rest)
    | '\x27' :: rest, none, _ => do
      let (s, rest) ← takeLetter? rest
      some (.string s, rest)
    | cs, none, _ => takeNumber? cs

/-- The parts of a structure or a tuple after its parenthesis. -/
def takeParts? : Nat → Nat → List Char → Option (Json × List Char)
  | 0, _, _ | _ + 1, 0, _ => none
  | fuel + 1, depth + 1, cs => do
    let cs ← skipAll? cs
    if startsField cs then takeMembers? ')' fuel depth [] cs else takeItems? ')' fuel depth [] cs

/-- The items up to a character that ends them, with those read so far, last first; a comma may
follow the last. -/
def takeItems? (close : Char) :
    Nat → Nat → List Json → List Char → Option (Json × List Char)
  | 0, _, _, _ => none
  | fuel + 1, depth, read, cs =>
    if cs.head? = some close then some (.array read.reverse, cs.drop 1)
    else do
      let (item, rest) ← takeValue? fuel depth cs
      let (goesOn, rest) ← dropComma? rest
      if goesOn ∨ rest.head? = some close then takeItems? close fuel depth (item :: read) rest
      else none

/-- The members up to a character that ends them, with those read so far, last first: the fields
of a structure, or those of a map, whose names are values that are texts. -/
def takeMembers? (close : Char) :
    Nat → Nat → List (String × Json) → List Char → Option (Json × List Char)
  | 0, _, _, _ => none
  | fuel + 1, depth, read, cs =>
    if cs.head? = some close then some (Json.ofPairs read.reverse, cs.drop 1)
    else do
      let (name, rest) ←
        if close = ')' then takeName? cs
        else (takeValue? fuel depth cs).bind fun (name, rest) =>
          name.text?.map fun name => (name, rest)
      let (value, rest) ← match ← skipAll? rest with
        | ':' :: rest => do takeValue? fuel depth (← skipAll? rest)
        | _ => none
      let (goesOn, rest) ← dropComma? rest
      if goesOn ∨ rest.head? = some close then
        takeMembers? close fuel depth ((name, value) :: read) rest
      else none

end

/-! ## Documents -/

/-- The names of the extensions that a document can ask for. -/
def extensions : List String := [
  "unwrap_newtypes", "implicit_some", "unwrap_variant_newtypes", "explicit_struct_names"]

/-- The rest behind the names of extensions, one at least. -/
def dropExtensions? : Nat → List Char → Option (List Char)
  | 0, _ => none
  | fuel + 1, cs => do
    let (name, rest) ← takeName? cs
    if !extensions.contains name then none
    let (goesOn, rest) ← dropComma? rest
    if !rest.head?.any continuesName then some rest
    else if goesOn then dropExtensions? fuel rest
    else none

/-- The rest behind the requests for extensions in front of a document. -/
def dropHeader? : Nat → List Char → Option (List Char)
  | 0, _ => none
  | fuel + 1, cs =>
    if cs.head? = some '#' then do
      let rest ← dropWords? ["#", "!", "[", "enable", "("] cs
      let rest ← dropExtensions? (rest.length + 1) rest
      dropHeader? fuel (← dropWords? [")", "]"] rest)
    else some cs

/-- Deepest nesting of a document. -/
def maxDepth : Nat := 128

/-- The value that a document holds. -/
def read? (s : String) : Option Json := do
  let cs ← skipAll? s.toList
  let cs ← dropHeader? (cs.length + 1) cs
  let (value, rest) ← takeValue? (3 * cs.length + 3) maxDepth cs
  if (← skipAll? rest).isEmpty then some value else none

end Winnow.Ron
