import Winnow.Failure
import Winnow.Wire

/-!
# Dialects of SQL

The four database systems that queries are rendered for.  They differ in how
names are quoted, how placeholders are written, in the words for matching a
pattern, in how a timestamp is put together, and in paging.
-/

namespace Winnow

/-- A database system. -/
inductive Dialect where
  | postgres
  | mysql
  | sqlite
  | sqlServer
  deriving DecidableEq, Repr, Inhabited

namespace Dialect

open Winnow.Text

/-! ## Names -/

/-- Configuration name. -/
def name : Dialect → String
  | .postgres => "pgsql"
  | .mysql => "mysql"
  | .sqlite => "sqlite"
  | .sqlServer => "sqlsrv"

/-- The dialect a name stands for, in any case. -/
def read (s : String) : Except Failure Dialect :=
  match lowerAscii s with
  | "pgsql" | "postgres" | "postgresql" => .ok .postgres
  | "mysql" | "mariadb" => .ok .mysql
  | "sqlite" => .ok .sqlite
  | "sqlsrv" | "sqlserver" | "mssql" => .ok .sqlServer
  | other => .error ⟨.notImplemented, "Unsupported database driver [" ++ other ++ "]"⟩

/-! ## Quoting -/

/-- The character before a quoted name. -/
def opening : Dialect → Char
  | .postgres | .sqlite => '\x22'
  | .mysql => '\x60'
  | .sqlServer => '['

/-- The character after a quoted name; inside the name it is written twice. -/
def closing : Dialect → Char
  | .postgres | .sqlite => '\x22'
  | .mysql => '\x60'
  | .sqlServer => ']'

/-- The characters of a quoted name. -/
def quoteChars (d : Dialect) (cs : List Char) : List Char :=
  d.opening :: cs.flatMap (fun c => if c = d.closing then [c, c] else [c]) ++ [d.closing]

/-- A quoted name. -/
def quote (d : Dialect) (s : String) : String := String.ofList (d.quoteChars s.toList)

/-! ## Words -/

/-- The placeholder of the `n`-th bound value, counted from 1. -/
def placeholder (d : Dialect) (n : Nat) : String :=
  match d with
  | .postgres => "$" ++ natText n
  | _ => "?"

/-- The words for matching a pattern up to case. -/
def likeWord (d : Dialect) (negated : Bool) : String :=
  (if negated then "NOT " else "") ++ (if d = .postgres then "ILIKE" else "LIKE")

end Dialect
end Winnow
