import Winnow.Text.Blank

/-!
# Places in a document

YAML tells its structure by columns.  A cursor is a place in a document: the
column, and the text from there on, whose lines end with line feeds.
-/

namespace Winnow.Yaml

/-! ## Characters -/

/-- The blanks within a line. -/
def isSpace (c : Char) : Bool := c = ' ' || c = '\t'

/-- The marks of collections in brackets. -/
def isFlowMark (c : Char) : Bool := c = ',' || c = '[' || c = ']' || c = '{' || c = '}'

/-- Whether a word ends in front of some characters. -/
def endsWord : List Char → Bool
  | [] => true
  | c :: _ => isSpace c || c = '\n'

/-- Whether a mark of a collection stands in front. -/
def startsFlowMark (cs : List Char) : Bool := cs.head?.any isFlowMark

/-- Every line end as a line feed. -/
def unifyBreaks : List Char → List Char
  | '\r' :: '\n' :: rest | '\r' :: rest => '\n' :: unifyBreaks rest
  | c :: rest => c :: unifyBreaks rest
  | [] => []

/-! ## Cursors -/

/-- A place in a document. -/
structure Cursor where
  column : Nat
  rest : List Char

namespace Cursor

/-- The place behind some characters of the line. -/
def skip (count : Nat) (c : Cursor) : Cursor := ⟨c.column + count, c.rest.drop count⟩

/-- The place behind the blanks of the line. -/
def skipSpaces (c : Cursor) : Cursor := c.skip (c.rest.takeWhile isSpace).length

/-- Whether a mark stands here as a word of its own. -/
def atMark (mark : Char) (c : Cursor) : Bool :=
  match c.rest with
  | x :: rest => x = mark && endsWord rest
  | [] => false

/-- Whether a line that parts documents starts here. -/
def atMarker (c : Cursor) : Bool :=
  let mark := c.rest.take 3
  c.column == 0 && (mark == ['-', '-', '-'] || mark == ['.', '.', '.']) && endsWord (c.rest.drop 3)

/-- Whether the document ends here. -/
def atEnd (c : Cursor) : Bool := c.rest.isEmpty || c.atMarker

/-- Whether nothing but blanks or a comment is left of the line. -/
def atLineEnd (c : Cursor) : Bool :=
  match c.skipSpaces.rest with
  | [] => true
  | x :: _ => x = '\n' || (x = '#' && c.column < c.skipSpaces.column)

/-- Whether a line ends between this place and a later one. -/
def crosses (c later : Cursor) : Bool :=
  (c.rest.take (c.rest.length - later.rest.length)).contains '\n'

end Cursor

/-! ## Gaps -/

/-- Blanks and line ends between words: the blanks in front of the first line end, how many lines
end, and the column of the first tab in front of the next word on a later line. -/
structure Gap where
  blanks : List Char
  breaks : Nat
  tab : Option Nat

namespace Gap

/-- What the gap stands for within a text: one line end for a blank, more for one less. -/
def folded (g : Gap) : List Char :=
  match g.breaks with
  | 0 => g.blanks
  | 1 => [' ']
  | breaks + 1 => List.replicate breaks '\n'

/-- Whether a tab stands in the columns up to one, where only spaces indent. -/
def tabUpTo (column : Int) (g : Gap) : Bool := g.tab.any fun tab => tab ≤ column

end Gap

/-- The gap from a column on after one so far, its blanks last first. -/
def gapFrom (column : Nat) (g : Gap) : List Char → Gap × Cursor
  | '\n' :: rest => gapFrom 0 { g with breaks := g.breaks + 1, tab := none } rest
  | c :: rest =>
    if !isSpace c then ({ g with blanks := g.blanks.reverse }, ⟨column, c :: rest⟩)
    else if g.breaks = 0 then gapFrom (column + 1) { g with blanks := c :: g.blanks } rest
    else gapFrom (column + 1)
      { g with tab := g.tab.or (if c = '\t' then some column else none) } rest
  | [] => ({ g with blanks := g.blanks.reverse }, ⟨column, []⟩)

namespace Cursor

/-- The gap at a place, and the place behind it. -/
def gap (c : Cursor) : Gap × Cursor := gapFrom c.column ⟨[], 0, none⟩ c.rest

/-- The place of the next word behind blanks, line ends and at most `fuel` comments, unless a tab
indents it in the columns up to one. -/
def wordFrom? (column : Int) : Nat → Cursor → Option Cursor
  | 0, _ => none
  | fuel + 1, c =>
    let (gap, c) := c.gap
    match c.rest with
    | '#' :: rest => wordFrom? column fuel ⟨c.column, rest.dropWhile (· ≠ '\n')⟩
    | [] => some c
    | _ => if gap.tabUpTo column then none else some c

/-- The place of the next word. -/
def word? (column : Int) (c : Cursor) : Option Cursor := wordFrom? column (c.rest.length + 1) c

end Cursor
end Winnow.Yaml
