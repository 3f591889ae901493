import Winnow.Bounds
import Winnow.Query.Builder
import Winnow.Wire

/-!
# Pages

A page is asked for by its number, counted from 1, and its size.  A page of
rows tells where it lies in the whole listing.  Counts and positions have 64
bits: the number of skipped rows stops at the greatest count.
-/

namespace Winnow

/-- A requested page. -/
structure Page where
  number : Nat
  size : Nat
  deriving DecidableEq, Repr

/-- Rows of one page and the position of the page. -/
structure PageOf (α : Type) where
  rows : List α
  page : Nat
  size : Nat
  total : Nat
  /-- Number of the last page; a listing without rows has one page. -/
  last : Nat
  /-- Positions of the first and the last row, counted from 1, when there are rows. -/
  span : Option (Nat × Nat)
  deriving DecidableEq, Repr

namespace Page

/-! ## Requests -/

/-- Size of a page when none is asked for. -/
def defaultSize : Nat := 25

/-- Greatest size of a page. -/
def maxSize : Nat := 100

/-- The first page of the usual size. -/
def first : Page := ⟨1, defaultSize⟩

/-- A page with number and size pulled into range. -/
def make (number size : Nat) : Page := ⟨max 1 number, min (max 1 size) maxSize⟩

/-- Rows before the page. -/
def offset (p : Page) : Nat := min ((p.number - 1) * p.size) Bounds.uint64Max

/-- The size of the page, which has two names, of which one can be given. -/
def sizeField (r : Wire.Record) : Option Nat :=
  match r.find? "page_size", r.find? "per_page" with
  | some j, none => Wire.nat64 j
  | none, some j => Wire.nat64 j
  | none, none => some defaultSize
  | some _, some _ => none

/-- Reads the wire form; numbers are not pulled into range. -/
def fromWire : Wire.Reader Page := fun j => do
  let r ← Wire.Record.ofJson? ["page", "per_page"] j
  some ⟨← r.withDefault "page" 1 Wire.nat64, ← sizeField r⟩

/-- The wire form. -/
def toJson (p : Page) : Json :=
  .object [("page", .integer p.number), ("per_page", .integer p.size)]

/-! ## Responses -/

/-- Number of the last page; undefined for pages of no rows. -/
def lastPage? (p : Page) (total : Nat) : Option Nat :=
  if p.size = 0 then none else some (max 1 ((total + p.size - 1) / p.size))

/-- Positions of the first and the last of some rows on the page. -/
def span (p : Page) (count : Nat) : Option (Nat × Nat) :=
  if count = 0 then none
  else
    let start := (p.offset + 1) % Bounds.uint64Count
    some (start, (start + count - 1) % Bounds.uint64Count)

/-- The page with its rows out of a total; undefined for pages of no rows. -/
def respond? {α : Type} (p : Page) (rows : List α) (total : Nat) : Option (PageOf α) :=
  (p.lastPage? total).map fun last => ⟨rows, p.number, p.size, total, last, p.span rows.length⟩

end Page

namespace PageOf

/-- Whether pages follow. -/
def hasMore {α : Type} (r : PageOf α) : Bool := r.page < r.last

/-- The page as data, with its rows as data, in declared order. -/
def toJson {α : Type} (r : PageOf α) (row : α → Json) : Json :=
  let position (n : Option Nat) : Json := Json.ofOption (n.map fun n => .integer n)
  .object [
    ("data", .array (r.rows.map row)),
    ("current_page", .integer r.page),
    ("per_page", .integer r.size),
    ("total", .integer r.total),
    ("last_page", .integer r.last),
    ("from", position (r.span.map Prod.fst)),
    ("to", position (r.span.map Prod.snd))]

end PageOf

/-- The query restricted to a page. -/
def Query.paginate (q : Query) (p : Page) : Query := (q.skip p.offset).take p.size

end Winnow
