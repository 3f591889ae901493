import Winnow.Json.Number

/-!
# Reading data values

`Json.read?` reads one value from a text.  Arrays and objects may nest up to a
limit; the last of equal member names wins; a text that is no value, holds
more than one value, or a number out of range is not read.
-/

namespace Winnow.Json

open Winnow.Text

/-! ## Blanks and words -/

/-- The blanks of data documents. -/
def isSpace (c : Char) : Bool := c = ' ' || c = '\n' || c = '\t' || c = '\r'

/-- Drops blanks in front. -/
def skipSpace (cs : List Char) : List Char := cs.dropWhile isSpace

/-! ## Strings -/

/-- Four hexadecimal digits and what follows. -/
def takeUnit? : List Char → Option (Nat × List Char)
  | a :: b :: c :: d :: rest => do
    let a ← hexValue? a
    let b ← hexValue? b
    let c ← hexValue? c
    let d ← hexValue? d
    some (4096 * a + 256 * b + 16 * c + d, rest)
  | _ => none

/-- The character of an escape by code unit, after the `u`; a pair of surrogates is one character
and a lone one is refused. -/
def takeEscape? (cs : List Char) : Option (Char × List Char) := do
  let (first, rest) ← takeUnit? cs
  if 0xD800 ≤ first ∧ first ≤ 0xDBFF then
    match rest with
    | '\\' :: 'u' :: rest =>
      let (second, rest) ← takeUnit? rest
      if 0xDC00 ≤ second ∧ second ≤ 0xDFFF then
        some (Char.ofNat (0x10000 + (first - 0xD800) * 1024 + (second - 0xDC00)), rest)
      else none
    | _ => none
  else if 0xDC00 ≤ first ∧ first ≤ 0xDFFF then none
  else some (Char.ofNat first, rest)

/-- The characters of a string after its opening quote, last first, and what follows. -/
def takeString? : Nat → List Char → List Char → Option (String × List Char)
  | 0, _, _ => none
  | _ + 1, _, [] => none
  | fuel + 1, read, c :: rest =>
    if c.toNat = 0x22 then some (String.ofList read.reverse, rest)
    else if c.toNat < 32 then none
    else if c = '\\' then
      match rest with
      | 'u' :: rest => do
        let (x, rest) ← takeEscape? rest
        takeString? fuel (x :: read) rest
      | 'b' :: rest => takeString? fuel (Char.ofNat 8 :: read) rest
      | 'f' :: rest => takeString? fuel (Char.ofNat 12 :: read) rest
      | 'n' :: rest => takeString? fuel ('\n' :: read) rest
      | 'r' :: rest => takeString? fuel ('\r' :: read) rest
      | 't' :: rest => takeString? fuel ('\t' :: read) rest
      | x :: rest =>
        if x = '\\' ∨ x = '/' ∨ x.toNat = 0x22 then takeString? fuel (x :: read) rest else none
      | [] => none
    else takeString? fuel (c :: read) rest

/-! ## Values -/

mutual

/-- One value and what follows it; `depth` more arrays or objects may open. -/
def takeValue? : Nat → Nat → List Char → Option (Json × List Char)
  | 0, _, _ => none
  | fuel + 1, depth, cs =>
    match skipSpace cs with
    | [] => none
    | 'n' :: 'u' :: 'l' :: 'l' :: rest => some (.null, rest)
    | 't' :: 'r' :: 'u' :: 'e' :: rest => some (.bool true, rest)
    | 'f' :: 'a' :: 'l' :: 's' :: 'e' :: rest => some (.bool false, rest)
    | '[' :: rest =>
      match depth with
      | 0 => none
      | depth + 1 =>
        match skipSpace rest with
        | ']' :: rest => some (.array [], rest)
        | rest => takeItems? fuel depth [] rest
    | '{' :: rest =>
      match depth with
      | 0 => none
      | depth + 1 =>
        match skipSpace rest with
        | '}' :: rest => some (.object [], rest)
        | rest => takeMembers? fuel depth [] rest
    | c :: rest =>
      if c.toNat = 0x22 then
        (takeString? (rest.length + 1) [] rest).map fun (s, rest) => (.string s, rest)
      else takeNumber? (c :: rest)

/-- The items of an array from an item on, with those read so far, last first. -/
def takeItems? : Nat → Nat → List Json → List Char → Option (Json × List Char)
  | 0, _, _, _ => none
  | fuel + 1, depth, read, cs => do
    let (item, rest) ← takeValue? fuel depth cs
    match skipSpace rest with
    | ',' :: rest => takeItems? fuel depth (item :: read) rest
    | ']' :: rest => some (.array (item :: read).reverse, rest)
    | _ => none

/-- The members of an object from a name on, with those read so far, last first. -/
def takeMembers? : Nat → Nat → List (String × Json) → List Char → Option (Json × List Char)
  | 0, _, _, _ => none
  | fuel + 1, depth, read, cs => do
    let (name, rest) ← match skipSpace cs with
      | c :: rest => if c.toNat = 0x22 then takeString? (rest.length + 1) [] rest else none
      | [] => none
    let (value, rest) ← match skipSpace rest with
      | ':' :: rest => takeValue? fuel depth rest
      | _ => none
    match skipSpace rest with
    | ',' :: rest => takeMembers? fuel depth ((name, value) :: read) rest
    | '}' :: rest => some (ofPairs ((name, value) :: read).reverse, rest)
    | _ => none

end

/-! ## Documents -/

/-- The value a text holds when arrays and objects nest at most `depth` deep. -/
def readNested? (depth : Nat) (s : String) : Option Json :=
  let cs := s.toList
  match takeValue? (2 * cs.length + 2) depth cs with
  | some (value, rest) => if (skipSpace rest).isEmpty then some value else none
  | none => none

/-- Deepest nesting of a document. -/
def maxDepth : Nat := 127

/-- The value a document holds. -/
def read? (s : String) : Option Json := readNested? maxDepth s

end Winnow.Json
