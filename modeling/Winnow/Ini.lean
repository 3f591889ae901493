import Winnow.Json.Basic
import Winnow.Text.Blank

/-!
# Documents of sections

An INI document gives texts by key, in sections or in front of them.  A
backslash escapes in sections, keys and values; parts of a value can stand
between quotes.  A section opened again takes the place of the one before.
-/

namespace Winnow.Ini

open Winnow.Text

/-! ## Texts -/

/-- The characters that an escape writes, after its backslash, and what follows. -/
def takeEscape? : List Char → Option (List Char × List Char)
  | [] => none
  | '0' :: rest => some (['\x00'], rest)
  | 'a' :: rest => some (['\x07'], rest)
  | 'b' :: rest => some (['\x08'], rest)
  | 't' :: rest => some (['\t'], rest)
  | 'r' :: rest => some (['\r'], rest)
  | 'n' :: rest => some (['\n'], rest)
  | '\n' :: rest => some ([], rest)
  | 'x' :: rest => do
    let digits := match rest.take 4 with
      | '+' :: digits => digits
      | digits => digits
    let n := (← digits.mapM hexValue?).foldl (fun n d => 16 * n + d) 0
    if rest.length < 4 ∨ !n.isValidChar then none else some ([Char.ofNat n], rest.drop 4)
  | c :: rest => some ([c], rest)

/-- The characters up to one that ends them, with escapes, after those read so far, last first, and
what follows; `atEnd` tells whether the document may end them too. -/
def takeUntil? (isEnd : Char → Bool) (atEnd : Bool) :
    Nat → List Char → List Char → Option (List Char × List Char)
  | 0, _, _ => none
  | _ + 1, read, [] => if atEnd then some (read.reverse, []) else none
  | fuel + 1, read, c :: rest =>
    if isEnd c then some (read.reverse, c :: rest)
    else if c = '\\' then do
      let (cs, rest) ← takeEscape? rest
      takeUntil? isEnd atEnd fuel (cs.reverse ++ read) rest
    else takeUntil? isEnd atEnd fuel (c :: read) rest

/-- A trimmed text up to a character that ends it, and what follows that. -/
def takeName? (isEnd : Char → Bool) (cs : List Char) : Option (String × List Char) := do
  let (name, rest) ← takeUntil? isEnd false (cs.length + 1) [] cs
  some (trim (String.ofList name), rest.drop 1)

/-- Whether a line ends at a character. -/
def isBreak (c : Char) : Bool := c = '\n' || c = '\r'

/-- The characters without the blanks at the end. -/
def trimEndChars (cs : List Char) : List Char := (trimStartChars cs.reverse).reverse

/-- The rest of a value after the parts between quotes read so far: more of them, then a part
without quotes up to the end of the line. -/
def takeParts? : Nat → List Char → List Char → Option (List Char × List Char)
  | 0, _, _ => none
  | fuel + 1, read, cs =>
    match cs with
    | [] => some (read, [])
    | c :: rest =>
      if c = '\x22' ∨ c = '\x27' then do
        let (part, rest) ← takeUntil? (· = c) false (rest.length + 1) [] rest
        takeParts? fuel (read ++ part) (rest.drop 1)
      else do
        let (part, rest) ← takeUntil? isBreak true (cs.length + 1) [] cs
        some (read ++ trimEndChars part, rest)

/-- A value, and what follows it. -/
def takeValue? (cs : List Char) : Option (String × List Char) := do
  let cs := cs.dropWhile fun c => isBlank c && !isBreak c
  let plain := match cs.head? with
    | some c => c ≠ '\x22' && c ≠ '\x27'
    | none => true
  let (value, rest) ← takeParts? (cs.length + 1) [] cs
  some (String.ofList (if plain then trimStartChars value else value), rest)

/-! ## Lines -/

/-- Drops blanks; tells whether a line starts behind them, with what was told in front of them. -/
def skipBlanks (atStart : Bool) : List Char → Bool × List Char
  | c :: rest => if isBlank c then skipBlanks (c = '\n') rest else (atStart, c :: rest)
  | [] => (atStart, [])

/-- What was read of a document: the entries in front of sections, those of sections, and the open
section. -/
structure Draft where
  general : Keyed Json := []
  sections : Keyed (Keyed Json) := []
  current : Option String := none

namespace Draft

/-- Opens a section. -/
def openSection (name : String) (d : Draft) : Draft :=
  { d with sections := d.sections.put name [], current := some name }

/-- Puts a value into the open section. -/
def put (key value : String) (d : Draft) : Draft :=
  match d.current with
  | none => { d with general := d.general.put key (.string value) }
  | some name =>
    let entries := Keyed.put ((d.sections.get? name).getD []) key (.string value)
    { d with sections := d.sections.put name entries }

/-- The entries of a document, the sections as objects after those in front of them. -/
def toJson (d : Draft) : Json :=
  .object (d.sections.foldl
    (fun entries (name, items) => Keyed.put entries name (.object items)) d.general)

end Draft

/-- The rest of a document after what was read; a comment stands at the start of a line. -/
def takeLines? : Nat → Bool → Draft → List Char → Option Draft
  | 0, _, _, _ => none
  | fuel + 1, atStart, d, cs =>
    match skipBlanks atStart cs with
    | (_, []) => some d
    | (atStart, c :: rest) =>
      if c = ';' ∨ c = '#' then
        if atStart then takeLines? fuel true d ((rest.dropWhile (· ≠ '\n')).drop 1) else none
      else if c = '[' then do
        let (name, rest) ← takeName? (· = ']') rest
        takeLines? fuel false (d.openSection name) rest
      else do
        let (key, rest) ← takeName? (fun c => c = '=' || c = ':') (c :: rest)
        if key.isEmpty then none
        else do
          let (value, rest) ← takeValue? rest
          takeLines? fuel false (d.put key value) rest

/-- The object that a document gives. -/
def read? (s : String) : Option Json :=
  let cs := s.toList
  (takeLines? (cs.length + 1) true {} cs).map Draft.toJson

end Winnow.Ini
