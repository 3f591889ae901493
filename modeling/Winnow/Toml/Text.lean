import Winnow.Text.Blank

/-!
# Blanks, comments and strings of settings documents

The lexical forms of TOML.  Lines end with a line feed, which a carriage
return may stand before.  Strings stand between double quotes, where a
backslash escapes, or between single quotes, where nothing does; between three
quotes they run over several lines.
-/

namespace Winnow.Toml

open Winnow.Text

/-! ## Blanks and comments -/

/-- The blanks within a line. -/
def isSpace (c : Char) : Bool := c = ' ' || c = '\t'

/-- Drops the blanks in front. -/
def skipSpace (cs : List Char) : List Char := cs.dropWhile isSpace

/-- The characters that cannot stand for themselves. -/
def isControl (c : Char) : Bool := (c.toNat < 32 && c != '\t') || c.toNat == 127

/-- The rest after a line end. -/
def dropBreak? : List Char → Option (List Char)
  | '\n' :: rest | '\r' :: '\n' :: rest => some rest
  | _ => none

/-- Drops a well-formed comment up to its line end. -/
def skipComment? : List Char → Option (List Char)
  | [] => some []
  | c :: rest =>
    if (dropBreak? (c :: rest)).isSome then some (c :: rest)
    else if isControl c then none
    else skipComment? rest

/-- Drops blanks, line ends and comments in front, at most `fuel` lines of them. -/
def skipLines? : Nat → List Char → Option (List Char)
  | 0, _ => none
  | fuel + 1, cs =>
    match skipSpace cs with
    | '#' :: rest => (skipComment? rest).bind (skipLines? fuel)
    | cs =>
      match dropBreak? cs with
      | some rest => skipLines? fuel rest
      | none => some cs

/-- Drops what may stand between a statement and the next line. -/
def endLine? (cs : List Char) : Option (List Char) :=
  match skipSpace cs with
  | [] => some []
  | '#' :: rest => skipComment? rest
  | cs => dropBreak? cs

/-! ## Code points -/

/-- The number of a fixed count of digits of base 16, after a number so far. -/
def takeHex? : Nat → Nat → List Char → Option (Nat × List Char)
  | 0, n, cs => some (n, cs)
  | _ + 1, _, [] => none
  | count + 1, n, c :: rest => do takeHex? count (16 * n + (← hexValue? c)) rest

/-- The character of a code point, and what follows. -/
def takeCodePoint? (count : Nat) (cs : List Char) : Option (Char × List Char) := do
  let (n, rest) ← takeHex? count 0 cs
  if n.isValidChar then some (Char.ofNat n, rest) else none

/-! ## Strings -/

/-- The double quote, between which a backslash escapes. -/
def doubleQuote : Char := '\x22'

/-- The single quote, between which every character stands for itself. -/
def singleQuote : Char := '\x27'

/-- The character that an escape writes, after its backslash, and what follows. -/
def takeEscape? : List Char → Option (Char × List Char)
  | 'b' :: rest => some ('\x08', rest)
  | 'e' :: rest => some ('\x1b', rest)
  | 't' :: rest => some ('\t', rest)
  | 'n' :: rest => some ('\n', rest)
  | 'f' :: rest => some ('\x0c', rest)
  | 'r' :: rest => some ('\r', rest)
  | '\\' :: rest => some ('\\', rest)
  | 'x' :: rest => takeCodePoint? 2 rest
  | 'u' :: rest => takeCodePoint? 4 rest
  | 'U' :: rest => takeCodePoint? 8 rest
  | c :: rest => if c = doubleQuote then some (c, rest) else none
  | [] => none

/-- The rest of a one-line string after the characters read so far, last first. -/
def takeLine? (quote : Char) : Nat → List Char → List Char → Option (String × List Char)
  | 0, _, _ | _ + 1, _, [] => none
  | fuel + 1, read, c :: rest =>
    if c = quote then some (String.ofList read.reverse, rest)
    else if c = '\\' ∧ quote = doubleQuote then do
      let (c, rest) ← takeEscape? rest
      takeLine? quote fuel (c :: read) rest
    else if isControl c then none
    else takeLine? quote fuel (c :: read) rest

/-- Drops blanks and line ends. -/
def skipBreaks : List Char → List Char
  | ' ' :: rest | '\t' :: rest | '\n' :: rest | '\r' :: '\n' :: rest => skipBreaks rest
  | cs => cs

/-- The rest of a string over several lines after the characters read so far, last first.  Up to
two quotes may stand before the three that end it; a backslash at the end of a line joins it to
the next word. -/
def takeLines? (quote : Char) : Nat → List Char → List Char → Option (String × List Char)
  | 0, _, _ | _ + 1, _, [] => none
  | fuel + 1, read, '\r' :: '\n' :: rest => takeLines? quote fuel ('\n' :: '\r' :: read) rest
  | fuel + 1, read, c :: rest =>
    let quotes := min 5 ((c :: rest).takeWhile (· = quote)).length
    if 3 ≤ quotes then
      some (String.ofList (List.replicate (quotes - 3) quote ++ read).reverse,
        rest.drop (quotes - 1))
    else if c = '\\' ∧ quote = doubleQuote then
      if (dropBreak? (skipSpace rest)).isSome then takeLines? quote fuel read (skipBreaks rest)
      else do
        let (c, rest) ← takeEscape? rest
        takeLines? quote fuel (c :: read) rest
    else if isControl c ∧ c ≠ '\n' then none
    else takeLines? quote fuel (c :: read) rest

/-- A string after its first quote. -/
def takeString? (quote : Char) (cs : List Char) : Option (String × List Char) :=
  let fuel := cs.length + 1
  if cs.take 2 = [quote, quote] then
    let cs := cs.drop 2
    takeLines? quote fuel [] ((dropBreak? cs).getD cs)
  else takeLine? quote fuel [] cs

/-! ## Keys -/

/-- The characters of a key without quotes. -/
def isKeyChar (c : Char) : Bool := c.isAlphanum || c = '_' || c = '-'

/-- One key, and what follows. -/
def takeKey? : List Char → Option (String × List Char)
  | [] => none
  | c :: rest =>
    if c = doubleQuote ∨ c = singleQuote then takeLine? c (rest.length + 1) [] rest
    else
      let key := (c :: rest).takeWhile isKeyChar
      if key.isEmpty then none else some (String.ofList key, (c :: rest).drop key.length)

/-- A key within tables. -/
structure Path where
  /-- The keys of the tables, from the outside in. -/
  parents : List String
  key : String
  deriving DecidableEq, Repr

/-- Most keys that a path can have. -/
def maxKeys : Nat := 80

/-- A path of at most `fuel` keys with points between them, after the parents read so far, last
first. -/
def takePath? : Nat → List String → List Char → Option (Path × List Char)
  | 0, _, _ => none
  | fuel + 1, read, cs => do
    let (key, rest) ← takeKey? (skipSpace cs)
    match skipSpace rest with
    | '.' :: rest => takePath? fuel (key :: read) rest
    | rest => some (⟨read.reverse, key⟩, rest)

end Winnow.Toml
