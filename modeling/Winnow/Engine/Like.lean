import Winnow.Text.Expression

/-!
# Matching patterns

In a pattern `%` stands for any text, `_` for any one character, and every
other character for itself up to case.  A pattern is matched by searching the
text for an expression that has the whole of it between its beginning and its
end.
-/

namespace Winnow.Engine

open Winnow.Text

/-- The rest of an expression for the rest of a pattern, after what has been written of it and the
characters since the last wildcard, which are written together. -/
def expressionFrom (written literal : List Char) : List Char → List Char
  | [] => written ++ Expression.escape literal ++ ['$']
  | c :: pattern =>
    if c = '%' then expressionFrom (written ++ Expression.escape literal ++ ['.', '*']) [] pattern
    else if c = '_' then expressionFrom (written ++ Expression.escape literal ++ ['.']) [] pattern
    else expressionFrom written (literal ++ [c]) pattern

/-- The expression that a pattern stands for. -/
def expression (pattern : String) : String :=
  String.ofList (expressionFrom ['^'] [] pattern.toList)

/-- Whether a text matches a pattern. -/
def like (text pattern : String) : Bool :=
  match Expression.read? (expression pattern) with
  | some steps => Expression.occurs steps text
  | none => false

end Winnow.Engine
