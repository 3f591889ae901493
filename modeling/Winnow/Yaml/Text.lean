import Winnow.Yaml.Cursor

/-!
# Texts of documents

The forms of a text in YAML: without quotes, between quotes, and in lines that
are indented below a mark.  Lines of the first two are folded into one.  A text
belongs to a block whose column is given; its further lines stand right of it.
-/

namespace Winnow.Yaml

/-! ## Without quotes -/

/-- Whether a text without quotes ends in front of some characters. -/
def endsPlain (inFlow afterSpace : Bool) : List Char → Bool
  | [] => true
  | c :: rest =>
    c = '\n' || (c = '#' && afterSpace) || (inFlow && isFlowMark c) ||
      (c = ':' && (endsWord rest || (inFlow && startsFlowMark rest)))

/-- The marks that no text without quotes starts with. -/
def isIndicator (inFlow : Bool) (c : Char) : Bool :=
  isFlowMark c || ['#', '&', '*', '!', '%', '@', '\x60', '\x27', '\x22'].contains c ||
    (!inFlow && (c = '|' || c = '>'))

/-- Whether a text without quotes starts with some characters. -/
def startsPlain (inFlow : Bool) : List Char → Bool
  | [] => false
  | c :: rest =>
    if c = '-' || c = ':' then !endsWord rest && !(inFlow && startsFlowMark rest)
    else if c = '?' then !endsWord rest
    else !isIndicator inFlow c && !endsWord [c]

/-- The characters of a text without quotes up to its end on the line, and what follows. -/
def plainLine (inFlow afterSpace : Bool) : List Char → List Char × List Char
  | [] => ([], [])
  | c :: rest =>
    if endsPlain inFlow afterSpace (c :: rest) then ([], c :: rest)
    else
      let (line, rest) := plainLine inFlow (isSpace c) rest
      (c :: line, rest)

/-- The characters without the blanks at the end. -/
def dropEndSpaces (cs : List Char) : List Char := (cs.reverse.dropWhile isSpace).reverse

/-- A text without quotes after the characters read so far, on at most `fuel` lines. -/
def takePlain? (inFlow : Bool) (column : Int) :
    Nat → List Char → Cursor → Option (String × Cursor)
  | 0, _, _ => none
  | fuel + 1, read, c =>
    let (line, rest) := plainLine inFlow false c.rest
    let words := dropEndSpaces line
    let text := read ++ words
    let after := c.skip words.length
    if rest.head? ≠ some '\n' then some (String.ofList text, after)
    else
      let (gap, next) := after.gap
      if gap.tabUpTo column then none
      else if next.atEnd || endsPlain inFlow true next.rest || (!inFlow && next.column ≤ column)
      then some (String.ofList text, after)
      else takePlain? inFlow column fuel (text ++ gap.folded) next

/-! ## Between quotes -/

/-- The characters that stand for themselves or another after a backslash. -/
def escapes : List (Char × Char) := [
  ('0', '\x00'), ('a', '\x07'), ('b', '\x08'), ('t', '\t'), ('\t', '\t'), ('n', '\n'),
  ('v', '\x0b'), ('f', '\x0c'), ('r', '\r'), ('e', '\x1b'), (' ', ' '), ('\x22', '\x22'),
  ('/', '/'), ('\\', '\\'), ('N', '\u0085'), ('_', '\u00A0'), ('L', '\u2028'), ('P', '\u2029')]

/-- How many digits of base 16 follow the mark of a code point. -/
def digitCount? (c : Char) : Option Nat :=
  if c = 'x' then some 2 else if c = 'u' then some 4 else if c = 'U' then some 8 else none

/-- The character that an escape writes, after its backslash, and how long the escape is. -/
def escape? : List Char → Option (Char × Nat)
  | [] => none
  | c :: rest =>
    match digitCount? c with
    | none => (escapes.find? fun known => known.1 == c).map fun known => (known.2, 1)
    | some count => do
      let digits ← (rest.take count).mapM Text.hexValue?
      let n := digits.foldl (fun n d => 16 * n + d) 0
      if digits.length = count ∧ n.isValidChar then some (Char.ofNat n, count + 1) else none

/-- Whether a text between quotes can go on at a place behind a line end. -/
def continuesQuoted (column : Int) (gap : Gap) (c : Cursor) : Bool :=
  !c.atEnd && column < c.column && !gap.tabUpTo column

/-- The rest of a text between quotes after the characters read so far, last first. -/
def takeQuoted? (quote : Char) (column : Int) :
    Nat → List Char → Cursor → Option (String × Cursor)
  | 0, _, _ => none
  | fuel + 1, read, c =>
    match c.rest with
    | [] => none
    | x :: rest =>
      if x = quote then
        if quote = '\x27' && rest.head? = some quote then
          takeQuoted? quote column fuel (quote :: read) (c.skip 2)
        else some (String.ofList read.reverse, c.skip 1)
      else if x = '\\' && quote = '\x22' then
        match rest with
        | '\n' :: rest =>
          let (gap, next) := gapFrom 0 ⟨[], 1, none⟩ rest
          if continuesQuoted column gap next then
            takeQuoted? quote column fuel (List.replicate (gap.breaks - 1) '\n' ++ read) next
          else none
        | rest => do
          let (x, size) ← escape? rest
          takeQuoted? quote column fuel (x :: read) (c.skip (size + 1))
      else if isSpace x || x = '\n' then
        let (gap, next) := c.gap
        if gap.breaks = 0 || continuesQuoted column gap next then
          takeQuoted? quote column fuel (gap.folded.reverse ++ read) next
        else none
      else takeQuoted? quote column fuel (x :: read) (c.skip 1)

/-! ## In lines below a mark -/

/-- What becomes of the line ends at the end of a text in lines. -/
inductive Chomp where
  | strip
  | clip
  | keep
  deriving DecidableEq, Repr

/-- The marks behind the mark of a text in lines: how far it is indented and what becomes of its
last line ends, each at most once. -/
def blockMarks? (indent : Option Nat) (chomp : Option Chomp) :
    List Char → Option (Option Nat × Chomp × List Char)
  | [] => some (indent, chomp.getD .clip, [])
  | c :: rest =>
    if c = '+' || c = '-' then
      if chomp.isSome then none
      else blockMarks? indent (some (if c = '+' then .keep else .strip)) rest
    else if Text.isDigit c then
      if indent.isSome || c = '0' then none else blockMarks? (Text.digit? c) chomp rest
    else some (indent, chomp.getD .clip, c :: rest)

/-- Skips lines without text: how many, and the place on the next line behind at most `indent`
spaces. -/
def skipEmptyLines (indent : Nat) (breaks column : Nat) : List Char → Nat × Cursor
  | '\n' :: rest => skipEmptyLines indent (breaks + 1) 0 rest
  | ' ' :: rest =>
    if column < indent then skipEmptyLines indent breaks (column + 1) rest
    else (breaks, ⟨column, ' ' :: rest⟩)
  | rest => (breaks, ⟨column, rest⟩)

/-- The greatest column that a line up to the first one with text is indented to. -/
def firstIndent (greatest column : Nat) : List Char → Nat
  | ' ' :: rest => firstIndent greatest (column + 1) rest
  | '\n' :: rest => firstIndent (max greatest column) 0 rest
  | _ => max greatest column

/-- The state of reading a text in lines: the text read, last first, whether its last line ended,
the lines without text behind it, and whether it started with a blank. -/
structure BlockText where
  read : List Char := []
  broken : Bool := false
  empty : Nat := 0
  spaced : Bool := false

/-- The line ends in front of the next line of a text in lines; folded ones are a blank. -/
def BlockText.joint (folds : Bool) (t : BlockText) (line : List Char) : List Char :=
  let kept := List.replicate t.empty '\n'
  if !t.broken then kept
  else if folds && !t.spaced && !line.head?.any isSpace then if kept.isEmpty then [' '] else kept
  else '\n' :: kept

/-- Reads the lines of a text at an indent, at most `fuel` of them. -/
def blockLines (folds : Bool) (indent : Nat) : Nat → BlockText → Cursor → BlockText × Cursor
  | 0, t, c => (t, c)
  | fuel + 1, t, c =>
    if c.column ≠ indent || c.rest.isEmpty then (t, c)
    else
      let line := c.rest.takeWhile (· ≠ '\n')
      let read := (t.joint folds line ++ line).reverse ++ t.read
      let spaced := line.head?.any isSpace
      match c.rest.drop line.length with
      | [] => (⟨read, false, 0, spaced⟩, ⟨c.column + line.length, []⟩)
      | _ :: rest =>
        let (empty, next) := skipEmptyLines indent 0 0 rest
        blockLines folds indent fuel ⟨read, true, empty, spaced⟩ next

/-- The line ends at the end of a text in lines; a line that the document ends in counts. -/
def BlockText.ending (chomp : Chomp) (indent : Nat) (t : BlockText) (c : Cursor) : List Char :=
  let last := if t.broken then ['\n'] else []
  let cut := if c.rest.isEmpty && max indent 1 ≤ c.column then ['\n'] else []
  match chomp with
  | .strip => []
  | .clip => last ++ cut
  | .keep => last ++ cut ++ List.replicate t.empty '\n'

/-- A text in lines from its mark on. -/
def takeBlockText? (column : Int) (c : Cursor) : Option (String × Cursor) := do
  let (indent, chomp, rest) ← blockMarks? none none (c.rest.drop 1)
  let header : Cursor := ⟨c.column + 1 + ((c.rest.length - 1) - rest.length), rest⟩
  if !header.atLineEnd then none
  else
    let body := (rest.dropWhile (· ≠ '\n')).drop 1
    let indent := match indent with
      | some indent => (max column 0).toNat + indent
      | none => max (firstIndent 0 0 body) (column + 1).toNat
    let (empty, start) := skipEmptyLines indent 0 0 body
    let (text, next) := blockLines (c.rest.head? == some '>') indent (body.length + 1)
      { empty } start
    some (String.ofList (text.read.reverse ++ text.ending chomp indent next), next)

end Winnow.Yaml
