import Winnow.Listing.Page
import Winnow.Proofs.Engine.Scoped
import Winnow.Proofs.Engine.Sorting

/-!
# Pages of a listing

The pages of a query, up to the last one, are the rows of its listing cut into
pieces of one size (`pages_partition`).  The number of the last page comes from
the count of the matching frames, which neither orders nor cuts; sorting loses
no frame (`length_listing`), so the count is the length of the listing.
-/

namespace Winnow

open Engine

/-! ## Pages of a list -/

namespace Page

/-- The values on a page. -/
def slice {α : Type} (p : Page) (values : List α) : List α := (values.drop p.offset).take p.size

section
variable {α : Type} {values : List α} (size : Nat)

theorem make_size_pos (number : Nat) : 0 < (make number size).size :=
  Nat.lt_of_lt_of_le Nat.zero_lt_one
    (Nat.le_min.mpr ⟨Nat.le_max_left 1 size, (by decide : 1 ≤ maxSize)⟩)

/-- Positions that stop at the greatest count stop behind the end of the list. -/
theorem slice_make (h : values.length < Bounds.uint64Count) (number : Nat) :
    (make number size).slice values =
      (values.drop ((max 1 number - 1) * (make 1 size).size)).take (make 1 size).size := by
  show (values.drop (min ((max 1 number - 1) * (make 1 size).size) Bounds.uint64Max)).take _ = _
  rcases Nat.le_total ((max 1 number - 1) * (make 1 size).size) Bounds.uint64Max with hle | hle
  · rw [Nat.min_eq_left hle]
    rfl
  · have hend : values.length ≤ Bounds.uint64Max := Nat.le_of_lt_succ h
    rw [Nat.min_eq_right hle, List.drop_eq_nil_of_le hend,
      List.drop_eq_nil_of_le (Nat.le_trans hend hle), List.take_nil, List.take_nil]

theorem slice_make_ne_nil_iff (h : values.length < Bounds.uint64Count) {number : Nat}
    (hnumber : 1 ≤ number) :
    (make number size).slice values ≠ [] ↔
      (number - 1) * (make 1 size).size < values.length := by
  have hsize := make_size_pos size 1
  rw [slice_make size h, Nat.max_eq_right hnumber, ne_eq, List.take_eq_nil_iff,
    List.drop_eq_nil_iff]
  omega

/-- The pages up to a number hold the values up to the end of its page. -/
theorem flatMap_slice_make (h : values.length < Bounds.uint64Count) (last : Nat) :
    ((List.range' 1 last).flatMap fun number => (make number size).slice values) =
      values.take (last * (make 1 size).size) := by
  induction last with
  | zero => simp
  | succ last ih =>
    rw [List.range'_1_concat, List.flatMap_append, ih, List.flatMap_singleton,
      slice_make size h, Nat.max_eq_right (Nat.le_add_right 1 last), Nat.add_sub_cancel_left,
      Nat.succ_mul, List.take_add]

end

/-! ## The last page -/

section
variable {p : Page} {total last : Nat}

/-- The last page is the first one by the end of which all rows have come; there always is one. -/
theorem lastPage?_eq_some_iff :
    p.lastPage? total = some last ↔
      0 < p.size ∧ 1 ≤ last ∧ total ≤ last * p.size ∧ (1 < last → (last - 1) * p.size < total) := by
  unfold lastPage?
  by_cases hzero : p.size = 0
  · rw [if_pos hzero]
    exact iff_of_false (Option.some_ne_none last).symm fun h => Nat.ne_of_gt h.1 hzero
  rw [if_neg hzero, Option.some_inj]
  have hsize : 0 < p.size := Nat.pos_of_ne_zero hzero
  -- a page is up to the last one exactly when rows come after all pages before it
  have hle : ∀ n, n + 1 ≤ (total + p.size - 1) / p.size ↔ n * p.size < total := by
    intro n
    rw [Nat.le_div_iff_mul_le hsize, Nat.succ_mul]
    omega
  generalize (total + p.size - 1) / p.size = pages at hle
  have hall : total ≤ pages * p.size :=
    Nat.le_of_not_lt fun hrest => Nat.not_succ_le_self pages ((hle pages).mpr hrest)
  constructor
  · rintro rfl
    refine ⟨hsize, Nat.le_max_left 1 pages, ?_, fun hmore => ?_⟩
    · exact Nat.le_trans hall (Nat.mul_le_mul_right _ (Nat.le_max_right 1 pages))
    · exact (hle _).mp (by omega)
  · rintro ⟨-, hone, hlast, hmore⟩
    have hupper : pages ≤ last := by
      refine Nat.le_of_not_lt fun hlt => ?_
      exact Nat.not_lt_of_le hlast ((hle last).mp hlt)
    rcases Nat.eq_or_lt_of_le hone with heq | hlt
    · omega
    · have hlower := (hle (last - 1)).mpr (hmore hlt)
      omega

/-- There are pages behind a page when rows come after its end. -/
theorem lt_last_iff (hlast : p.lastPage? total = some last) (number : Nat) :
    number < last ↔ number = 0 ∨ number * p.size < total := by
  obtain ⟨-, hone, hall, hmore⟩ := lastPage?_eq_some_iff.mp hlast
  constructor
  · intro hlt
    by_cases hzero : number = 0
    · exact .inl hzero
    · refine .inr (Nat.lt_of_le_of_lt ?_ (hmore (by omega)))
      exact Nat.mul_le_mul_right _ (Nat.le_sub_one_of_lt hlt)
  · rintro (rfl | hlt)
    · exact hone
    · exact Nat.lt_of_mul_lt_mul_right (Nat.lt_of_lt_of_le hlt hall)

end

section
variable (size total : Nat)

/-- The number of the last page of so many rows. -/
theorem lastPage?_make (number : Nat) :
    (make number size).lastPage? total =
      some (max 1 ((total + (make 1 size).size - 1) / (make 1 size).size)) :=
  if_neg (Nat.ne_of_gt (make_size_pos size number))

/-- A page behind the first has rows just when it is not behind the last one. -/
theorem le_last_iff {last number : Nat} (hlast : (make 1 size).lastPage? total = some last)
    (hnumber : 1 < number) : number ≤ last ↔ (number - 1) * (make 1 size).size < total := by
  have hbefore := lt_last_iff hlast (number - 1)
  rw [or_iff_right (by omega)] at hbefore
  rw [← hbefore]
  omega

theorem le_last_mul {last : Nat} (hlast : (make 1 size).lastPage? total = some last) :
    total ≤ last * (make 1 size).size := (lastPage?_eq_some_iff.mp hlast).2.2.1

end

end Page

/-- Whether the positions that a page tells are those of its rows in a listing. -/
def PageOf.PlacedIn {α : Type} (r : PageOf α) (listing : List α) : Prop :=
  match r.span with
  | none => r.rows = []
  | some (first, last) =>
    1 ≤ first ∧ first ≤ last ∧ last ≤ listing.length ∧ r.rows = (listing.take last).drop (first - 1)

/-- A response with the rows of its page places them. -/
theorem Page.placedIn_of_respond? {α : Type} {p : Page} {listing : List α} {total : Nat}
    {r : PageOf α} (hlength : listing.length < Bounds.uint64Count)
    (hrespond : p.respond? (p.slice listing) total = some r) : r.PlacedIn listing := by
  obtain ⟨last, -, rfl⟩ := Option.map_eq_some_iff.mp hrespond
  unfold PageOf.PlacedIn Page.span
  simp only
  by_cases hnone : (p.slice listing).length = 0
  · rw [if_pos hnone]
    exact List.eq_nil_of_length_eq_zero hnone
  · rw [if_neg hnone]
    have hcount : (p.slice listing).length = min p.size (listing.length - p.offset) := by
      rw [Page.slice, List.length_take, List.length_drop]
    have hstart : (p.offset + 1) % Bounds.uint64Count = p.offset + 1 := Nat.mod_eq_of_lt (by omega)
    have hend : (p.offset + 1 + (p.slice listing).length - 1) % Bounds.uint64Count =
        p.offset + (p.slice listing).length := by
      rw [Nat.mod_eq_of_lt (by omega)]
      omega
    simp only [hstart, hend]
    refine ⟨by omega, by omega, by omega, ?_⟩
    rw [Nat.add_sub_cancel, List.drop_take, Nat.add_sub_cancel_left, Page.slice, List.take_eq_take_iff,
      List.length_take, List.length_drop]
    omega

namespace Engine

/-! ## Lengths of listings -/

section
variable (db : Dataset)

/-- A listing has one row for every frame that counts. -/
theorem length_listing (q : Query) : (listing db q).length = count db q := by
  unfold listing count
  simp only
  rw [List.length_map, (arrange_perm _ _).length_eq, List.length_map]

theorem execute_of_uncut {q : Query} (hlimit : q.limit = none) (hoffset : q.offset = none) :
    execute db q = listing db q := by
  unfold execute
  rw [hlimit, hoffset]
  exact List.drop_zero

/-- What a query lists before paging does not depend on the page. -/
theorem execute_paginate (q : Query) (p : Page) :
    execute db (q.paginate p) = p.slice (listing db q) := rfl

/-! ## The pages of a query -/

/-- The pages of one size up to the last hold the rows of the query, in order; the pages behind it
are empty, each page tells where its rows are, and says that pages follow just when one of them has
rows.  A count has 64 bits. -/
theorem pages_partition {q : Query} (hlimit : q.limit = none) (hoffset : q.offset = none)
    (hcount : count db q < Bounds.uint64Count) (size : Nat) :
    ∃ last : Nat,
      (List.range' 1 last).flatMap (fun n => execute db (q.paginate (Page.make n size))) =
        execute db q ∧
      (∀ n, last < n → execute db (q.paginate (Page.make n size)) = []) ∧
      ∀ number, ∃ response, (Page.make number size).respond?
          (execute db (q.paginate (Page.make number size))) (count db q) = some response ∧
        response.last = last ∧
        response.PlacedIn (execute db q) ∧
        (response.hasMore = true ↔
          ∃ n, response.page < n ∧ execute db (q.paginate (Page.make n size)) ≠ []) := by
  rw [execute_of_uncut db hlimit hoffset]
  simp only [execute_paginate]
  rw [← length_listing] at hcount ⊢
  obtain ⟨last, hlast⟩ : ∃ last,
      (Page.make 1 size).lastPage? (listing db q).length = some last :=
    ⟨_, Page.lastPage?_make size _ 1⟩
  have hone : 1 ≤ last := by
    rw [Page.lastPage?_make, Option.some_inj] at hlast
    omega
  have hrows : ∀ n, 1 < n →
      ((Page.make n size).slice (listing db q) ≠ [] ↔ n ≤ last) := fun n hn => by
    rw [Page.slice_make_ne_nil_iff size hcount (Nat.le_of_lt hn),
      Page.le_last_iff size _ hlast hn]
  refine ⟨last, ?_, fun n hn => ?_, fun number => ?_⟩
  · rw [Page.flatMap_slice_make size hcount]
    exact List.take_of_length_le (Page.le_last_mul size _ hlast)
  · exact Classical.not_not.mp fun hne =>
      Nat.not_le_of_lt hn ((hrows n (Nat.lt_of_le_of_lt hone hn)).mp hne)
  · have hrespond : (Page.make number size).respond? ((Page.make number size).slice (listing db q))
        (listing db q).length = some ⟨_, max 1 number, _, _, last, _⟩ :=
      (congrArg (Option.map _) hlast :)
    refine ⟨_, hrespond, rfl, Page.placedIn_of_respond? hcount hrespond, ?_⟩
    show decide (max 1 number < last) = true ↔ ∃ n, max 1 number < n ∧ _
    rw [decide_eq_true_iff]
    constructor
    · exact fun hmore => ⟨last, hmore, (hrows last (by omega)).mpr (Nat.le_refl _)⟩
    · rintro ⟨n, hn, hne⟩
      exact Nat.lt_of_lt_of_le hn ((hrows n (by omega)).mp hne)

theorem pages_partition_sample :
    let q := (Query.ofEntity Sample.contact).orderByColumn "name" .descending
    let rows n := execute Sample.dataset (q.paginate (Page.make n 2))
    q.limit = none ∧ q.offset = none ∧ count Sample.dataset q < Bounds.uint64Count ∧
      (rows 1, rows 2) = ([Sample.contactRow 3 "Cid" (.integer 1), Sample.contactRow 2 "Ben" .null],
        [Sample.contactRow 1 "Ann" (.integer 1)]) ∧
      ∃ last,
        (List.range' 1 last).flatMap rows = execute Sample.dataset q ∧
        (∀ n, last < n → rows n = []) ∧
        ∀ number, ∃ response,
          (Page.make number 2).respond? (rows number) (count Sample.dataset q) = some response ∧
          response.last = last ∧
          response.PlacedIn (execute Sample.dataset q) ∧
          (response.hasMore = true ↔ ∃ n, response.page < n ∧ rows n ≠ []) := by
  intro q rows
  have hcount : count Sample.dataset q < Bounds.uint64Count := by decide
  exact ⟨rfl, rfl, hcount, by decide +kernel, pages_partition Sample.dataset rfl rfl hcount 2⟩

end

end Engine
end Winnow
