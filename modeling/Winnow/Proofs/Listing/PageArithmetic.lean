import Winnow.Proofs.Listing.Pages

/-!
# Page arithmetic

Pages that are made have a size from 1 to 100, but pages that are read from data
have any number and size of 64 bits (`obtained_iff`), so among them are pages of
no rows, for which there is no last page.  Every other page has a response that
describes it (`describes_of_respond?`).  The offset of a page stops at the
greatest number of 64 bits while that of `Query.forPage` starts again from 0, so
the two agree as long as it fits (`forPage_eq_paginate_iff`).
-/

namespace Winnow

/-! ## Definitions -/

/-- The ways to come by a page: from two numbers that are pulled into range, from none, or from
data. -/
inductive Page.Obtained : Page → Prop where
  | made {number size : Nat} : number ≤ Bounds.uint64Max → size ≤ Bounds.uint64Max →
      Obtained (make number size)
  | usual : Obtained first
  | read {json : Json} {p : Page} : fromWire json = some p → Obtained p

/-- What a response says about a page of rows out of a total. -/
structure PageOf.Describes {α : Type} (r : PageOf α) (p : Page) (rows : List α) (total : Nat) :
    Prop where
  parts : r.rows = rows ∧ r.page = p.number ∧ r.size = p.size ∧ r.total = total
  /-- The last page is the first one by the end of which all rows have come; there always is one. -/
  last : 1 ≤ r.last ∧ total ≤ r.last * p.size ∧ (1 < r.last → (r.last - 1) * p.size < total)
  /-- The rows are counted from the offset on, as far as 64 bits go. -/
  span : p.offset + rows.length ≤ Bounds.uint64Max →
    r.span = if rows = [] then none else some (p.offset + 1, p.offset + rows.length)
  more : r.hasMore = true ↔ p.number = 0 ∨ p.number * p.size < total

namespace Page

/-! ## Pages -/

theorem nat64_le {json : Json} {n : Nat} (h : Wire.nat64 json = some n) : n ≤ Bounds.uint64Max := by
  unfold Wire.nat64 Wire.natUpTo at h
  cases json with
  | integer m =>
    simp only at h
    split at h
    next hrange =>
      cases h
      omega
    next => cases h
  | _ => cases h

theorem nat64_natCast {n : Nat} (h : n ≤ Bounds.uint64Max) :
    Wire.nat64 (.integer n) = some n := by
  unfold Wire.nat64 Wire.natUpTo
  simp only
  rw [if_pos (by omega), Int.toNat_natCast]

theorem fromWire_le {json : Json} {p : Page} (h : fromWire json = some p) :
    p.number ≤ Bounds.uint64Max ∧ p.size ≤ Bounds.uint64Max := by
  obtain ⟨r, -, h⟩ := Option.bind_eq_some_iff.mp h
  obtain ⟨number, hnumber, h⟩ := Option.bind_eq_some_iff.mp h
  obtain ⟨size, hsize, h⟩ := Option.bind_eq_some_iff.mp h
  cases h
  constructor
  · unfold Wire.Record.withDefault at hnumber
    cases hpage : r.find? "page" with
    | none =>
      rw [hpage] at hnumber
      cases hnumber
      show (1 : Nat) ≤ Bounds.uint64Max
      decide
    | some json =>
      rw [hpage] at hnumber
      exact nat64_le hnumber
  · unfold sizeField at hsize
    split at hsize
    · exact nat64_le hsize
    · exact nat64_le hsize
    · cases hsize
      show defaultSize ≤ Bounds.uint64Max
      decide
    · cases hsize

/-- The wire form of a page is read back. -/
theorem fromWire_toJson {p : Page} (hnumber : p.number ≤ Bounds.uint64Max)
    (hsize : p.size ≤ Bounds.uint64Max) : fromWire p.toJson = some p := by
  simp [fromWire, toJson, Wire.Record.ofJson?, Wire.Record.withDefault, Wire.Record.find?, sizeField,
    Keyed.get?, nat64_natCast hnumber, nat64_natCast hsize]

theorem make_le {number : Nat} (hnumber : number ≤ Bounds.uint64Max) (size : Nat) :
    (make number size).number ≤ Bounds.uint64Max ∧ (make number size).size ≤ Bounds.uint64Max := by
  constructor
  · exact Nat.max_le.mpr ⟨by decide, hnumber⟩
  · exact Nat.le_trans (Nat.min_le_right _ maxSize) (by decide)

/-- All pages of 64 bits can be read, and there are no others. -/
theorem obtained_iff {p : Page} :
    p.Obtained ↔ p.number ≤ Bounds.uint64Max ∧ p.size ≤ Bounds.uint64Max := by
  constructor
  · intro h
    cases h with
    | made hnumber _ => exact make_le hnumber _
    | usual => decide
    | read hread => exact fromWire_le hread
  · rintro ⟨hnumber, hsize⟩
    exact .read (fromWire_toJson hnumber hsize)

/-! ## Responses -/

section
variable {α : Type} {p : Page} {rows : List α} {total : Nat}

theorem respond?_eq_none_iff : p.respond? rows total = none ↔ p.size = 0 := by
  unfold respond? lastPage?
  rw [Option.map_eq_none_iff]
  split
  next hzero => exact iff_of_true rfl hzero
  next hpositive => exact iff_of_false (Option.some_ne_none _) hpositive

theorem span_of_fits (h : p.offset + rows.length ≤ Bounds.uint64Max) :
    p.span rows.length = if rows = [] then none else some (p.offset + 1, p.offset + rows.length) := by
  have hcount : Bounds.uint64Count = Bounds.uint64Max + 1 := rfl
  unfold span
  by_cases hnone : rows = []
  · subst hnone
    rfl
  · have hlength : rows.length ≠ 0 := mt List.eq_nil_of_length_eq_zero hnone
    have hstart : (p.offset + 1) % Bounds.uint64Count = p.offset + 1 := Nat.mod_eq_of_lt (by omega)
    rw [if_neg hlength, if_neg hnone]
    simp only [hstart]
    rw [Nat.mod_eq_of_lt (by omega)]
    congr 2
    omega

theorem describes_of_respond? {r : PageOf α} (h : p.respond? rows total = some r) :
    r.Describes p rows total := by
  obtain ⟨last, hlast, rfl⟩ := Option.map_eq_some_iff.mp h
  have hmore : p.number < last ↔ p.number = 0 ∨ p.number * p.size < total := by
    rw [lt_last_iff hlast]
  exact {
    parts := ⟨rfl, rfl, rfl, rfl⟩
    last := (lastPage?_eq_some_iff.mp hlast).2
    span := span_of_fits
    more := decide_eq_true_iff.trans hmore }

end

end Page

/-! ## Offsets -/

namespace Query

/-- Whether the number of rows before a page is a number of 64 bits, or is the greatest of them up
to a multiple of their number. -/
def FitsOffset (page perPage : Nat) : Prop :=
  (page - 1) * perPage ≤ Bounds.uint64Max ∨
    (page - 1) * perPage % Bounds.uint64Count = Bounds.uint64Max

theorem fitsOffset_iff (page perPage : Nat) :
    (page - 1) * perPage % Bounds.uint64Count = min ((page - 1) * perPage) Bounds.uint64Max ↔
      FitsOffset page perPage := by
  have hcount : Bounds.uint64Count = Bounds.uint64Max + 1 := rfl
  unfold FitsOffset
  generalize (page - 1) * perPage = before
  by_cases hfits : before ≤ Bounds.uint64Max
  · rw [Nat.min_eq_left hfits, Nat.mod_eq_of_lt (by omega)]
    exact iff_of_true rfl (.inl hfits)
  · rw [Nat.min_eq_right (by omega)]
    exact ⟨.inr, fun h => h.resolve_left hfits⟩

/-- The page with this number and size, whatever they are, and the page that is made of them differ
only where the size is out of range. -/
theorem paginate_make (q : Query) (page : Nat) {perPage : Nat} (hmin : 1 ≤ perPage)
    (hmax : perPage ≤ Page.maxSize) :
    q.paginate (Page.make page perPage) = q.paginate ⟨page, perPage⟩ := by
  have hsize : min (max 1 perPage) Page.maxSize = perPage := by
    rw [Nat.max_eq_right hmin, Nat.min_eq_left hmax]
  have hnumber : max 1 page - 1 = page - 1 := by omega
  unfold paginate Page.offset Page.make
  simp only [hsize, hnumber]

theorem forPage_eq_paginate_iff (q : Query) (page perPage : Nat) :
    q.forPage page perPage = q.paginate ⟨page, perPage⟩ ↔ FitsOffset page perPage := by
  rw [← fitsOffset_iff]
  constructor
  · intro h
    exact Option.some.inj (congrArg Query.offset h)
  · intro h
    unfold forPage paginate Page.offset
    simp only [h]

end Query

namespace Page

/-- A page that is obtained has a number and a size of 64 bits, each of which can be obtained, and one
that is made has a size from 1 to 100.  A page has a response, which describes it, exactly when its size
is not 0.  The rows before a page given by number and size are as many as those before the page that is
made of them as long as their number fits 64 bits. -/
theorem page_arithmetic {α : Type} (p : Page) (rows : List α) (total : Nat) (q : Query)
    (page perPage : Nat) :
    (p.Obtained ↔ p.number ≤ Bounds.uint64Max ∧ p.size ≤ Bounds.uint64Max) ∧
    (first = make 1 defaultSize ∧ 1 ≤ (make page perPage).number ∧
      1 ≤ (make page perPage).size ∧ (make page perPage).size ≤ maxSize) ∧
    (if p.size = 0 then p.respond? rows total = none
      else ∃ r, p.respond? rows total = some r ∧ r.Describes p rows total) ∧
    (q.forPage page perPage).limit = some perPage ∧
    ((q.forPage page perPage).offset = some (min ((page - 1) * perPage) Bounds.uint64Max) ↔
      Query.FitsOffset page perPage) ∧
    (q.forPage page perPage = q.paginate ⟨page, perPage⟩ ↔ Query.FitsOffset page perPage) ∧
    (1 ≤ perPage → perPage ≤ maxSize →
      (q.forPage page perPage = q.paginate (make page perPage) ↔
        Query.FitsOffset page perPage)) := by
  refine ⟨obtained_iff, ⟨rfl, ?_, ?_, ?_⟩, ?_, rfl, ?_, q.forPage_eq_paginate_iff page perPage, ?_⟩
  · exact Nat.le_max_left 1 page
  · exact make_size_pos perPage page
  · exact Nat.min_le_right _ maxSize
  · split
    next hzero => exact respond?_eq_none_iff.mpr hzero
    next hpositive =>
      obtain ⟨r, hr⟩ := Option.ne_none_iff_exists'.mp (mt respond?_eq_none_iff.mp hpositive)
      exact ⟨r, hr, describes_of_respond? hr⟩
  · rw [← Query.fitsOffset_iff]
    exact Option.some_inj
  · intro hmin hmax
    rw [q.paginate_make page hmin hmax]
    exact q.forPage_eq_paginate_iff page perPage

/-- The third page of twenty rows, read from data, is the page that is made of these numbers. -/
theorem page_arithmetic_third :
    let q := Query.ofEntity Sample.contact
    1 ≤ 20 ∧ 20 ≤ maxSize ∧ Query.FitsOffset 3 20 ∧ (⟨3, 20⟩ : Page).Obtained ∧
      q.forPage 3 20 = q.paginate (make 3 20) ∧
      ∃ r, (⟨3, 20⟩ : Page).respond? ["Ann"] 41 = some r ∧ r.Describes ⟨3, 20⟩ ["Ann"] 41 := by
  intro q
  have hfits : Query.FitsOffset 3 20 := .inl (by decide)
  obtain ⟨hobtained, -, hresponds, -, -, -, hmade⟩ := page_arithmetic ⟨3, 20⟩ ["Ann"] 41 q 3 20
  exact ⟨by decide, by decide, hfits, hobtained.mpr (by decide),
    (hmade (by decide) (by decide)).mpr hfits, hresponds⟩

/-- Data may ask for pages of no rows, for which there is no last page; and far enough behind, the
offset of a page given by its number starts again from 0. -/
theorem pages_without_rows :
    (∃ p, fromWire (.object [("per_page", .integer 0)]) = some p ∧
      p.respond? ([] : List Json) 0 = none) ∧
    ((Query.ofEntity Sample.contact).forPage Bounds.uint64Max 100).offset =
      some 18446744073709551416 ∧
    ((Query.ofEntity Sample.contact).paginate (make Bounds.uint64Max 100)).offset =
      some Bounds.uint64Max := by
  exact ⟨⟨⟨1, 0⟩, rfl, rfl⟩, by decide, by decide⟩

end Page
end Winnow
